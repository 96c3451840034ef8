import WireSchema.Proofs.BatchOrder

/-!
# Adding a document

A document may be added to a batch that does not refer to it.  As long as its objects inherit from
none of the batch, the other documents are accepted without it, and none of their contracts shows
whether it is there.
-/

namespace WireSchema

open Relation (TransGen)

namespace Outline

/-- Where the objects of a document inherit from. -/
def parentLinks (outline : Outline) : List Link := outline.objects.filterMap (·.parent)

/-- What the fields of a document refer to. -/
def fieldLinks (outline : Outline) : List Link :=
  outline.objects.flatMap fun object => object.fields.filterMap (·.shape.link?)

theorem mem_parentLinks_iff {outline : Outline} {link : Link} :
    link ∈ outline.parentLinks ↔ ∃ object ∈ outline.objects, object.parent = some link :=
  List.mem_filterMap

theorem mem_fieldLinks_iff {outline : Outline} {link : Link} :
    link ∈ outline.fieldLinks ↔
      ∃ object ∈ outline.objects, ∃ field ∈ object.fields, field.shape.link? = some link := by
  simp [fieldLinks]

end Outline

/-! ## Unrelated documents -/

/-- No link of some documents leads to an added one, and no object of that inherits from an object
of them. -/
structure Apart (outlines : List Outline) (added : Outline) : Prop where
  links : ∀ outline ∈ outlines, ∀ link ∈ outline.parentLinks ++ outline.fieldLinks,
    link.space ≠ added.space
  parents : ∀ link ∈ added.parentLinks, ¬ DeclaresObject outlines link

instance (outlines : List Outline) (link : Link) : Decidable (DeclaresObject outlines link) :=
  inferInstanceAs (Decidable (∃ member ∈ membersOf outlines, _ ∧ _))

instance (outlines : List Outline) (added : Outline) : Decidable (Apart outlines added) :=
  decidable_of_iff
    ((∀ outline ∈ outlines, ∀ link ∈ outline.parentLinks ++ outline.fieldLinks,
        link.space ≠ added.space) ∧
      ∀ link ∈ added.parentLinks, ¬ DeclaresObject outlines link)
    ⟨fun hapart => ⟨hapart.1, hapart.2⟩, fun hapart => ⟨hapart.links, hapart.parents⟩⟩

/-- The same for documents before they are outlined. -/
def Unrelated (documents : List Document) (added : Document) : Prop :=
  ∀ outlines outline, documents.mapM Outline.ofDocument = .ok outlines →
    Outline.ofDocument added = .ok outline → Apart outlines outline

instance (documents : List Document) (added : Document) : Decidable (Unrelated documents added) :=
  match hread : documents.mapM Outline.ofDocument, hadded : Outline.ofDocument added with
  | .ok outlines, .ok outline =>
    decidable_of_iff (Apart outlines outline) <| by simp [Unrelated, hread, hadded]
  | .error _, _ => isTrue <| by simp [Unrelated, hread]
  | .ok _, .error _ => isTrue <| by simp [Unrelated, hadded]

variable {outlines : List Outline} {added : Outline}

theorem mem_membersOf_concat {member : Member} :
    member ∈ membersOf (outlines ++ [added]) ↔
      member ∈ membersOf outlines ∨ (added.space = member.space ∧ member.object ∈ added.objects) := by
  simp only [mem_membersOf, List.mem_append, List.mem_singleton, or_and_right, exists_or,
    exists_eq_left]

namespace Apart

variable (hapart : Apart outlines added)

include hapart

theorem space_ne_of_parent {member : Member} (hmember : member ∈ membersOf outlines) {link : Link}
    (hlink : member.object.parent = some link) : link.space ≠ added.space := by
  rcases mem_membersOf.mp hmember with ⟨outline, houtline, -, hobject⟩
  apply hapart.links outline houtline
  exact List.mem_append_left _ (Outline.mem_parentLinks_iff.mpr ⟨_, hobject, hlink⟩)

theorem space_ne_of_field {member : Member} (hmember : member ∈ membersOf outlines)
    {field : Declaration.Field} (hfield : field ∈ member.object.fields) {link : Link}
    (hlink : field.shape.link? = some link) : link.space ≠ added.space := by
  rcases mem_membersOf.mp hmember with ⟨outline, houtline, -, hobject⟩
  apply hapart.links outline houtline
  exact List.mem_append_right _
    (Outline.mem_fieldLinks_iff.mpr ⟨_, hobject, field, hfield, hlink⟩)

omit hapart in
theorem declaresObject_of_concat {link : Link} (hspace : link.space ≠ added.space)
    (hdeclares : DeclaresObject (outlines ++ [added]) link) : DeclaresObject outlines link := by
  rcases hdeclares with ⟨member, hmember, hrole, rfl⟩
  rcases mem_membersOf_concat.mp hmember with hmember | ⟨hsame, -⟩
  · exact ⟨member, hmember, hrole, rfl⟩
  · exact absurd hsame.symm hspace

omit hapart in
theorem declaresEnum_of_concat {link : Link} (hspace : link.space ≠ added.space)
    (hdeclares : DeclaresEnum (outlines ++ [added]) link) : DeclaresEnum outlines link := by
  rcases hdeclares with ⟨outline, houtline, hsame, htype⟩
  rcases List.mem_append.mp houtline with houtline | houtline
  · exact ⟨outline, houtline, hsame, htype⟩
  · rw [List.mem_singleton.mp houtline] at hsame
    exact absurd hsame.symm hspace

/-- Nothing of the added document inherits from the others. -/
theorem inherits_of_concat {child parent : Member} (hparent : parent ∈ membersOf outlines)
    (hinherits : Inherits (outlines ++ [added]) child parent) : Inherits outlines child parent := by
  rcases mem_membersOf_concat.mp hinherits.child_mem with hchild | ⟨-, hobject⟩
  · exact ⟨hchild, hparent, hinherits.role_eq, hinherits.link_eq⟩
  · have hlink := Outline.mem_parentLinks_iff.mpr ⟨_, hobject, hinherits.link_eq⟩
    exact absurd ⟨parent, hparent, hinherits.role_eq, rfl⟩ (hapart.parents _ hlink)

/-- A consistent batch stays so without a document to which nothing in it refers. -/
theorem consistent_of_concat (hconsistent : Consistent (outlines ++ [added])) :
    Consistent outlines := by
  have hmono : ∀ first second, TransGen (Inherits outlines) first second →
      TransGen (Inherits (outlines ++ [added])) first second :=
    transGen_inherits_le fun _ => List.mem_append_left _
  constructor
  · have hspaces := hconsistent.spaces
    rw [SpacesDistinct, List.map_append] at hspaces
    exact hspaces.of_append_left
  · intro member hmember link hlink
    have hdeclares := hconsistent.parents member (mem_membersOf_concat.mpr (.inl hmember)) link hlink
    exact declaresObject_of_concat (hapart.space_ne_of_parent hmember hlink) hdeclares
  · intro member hmember field hfield link hlink
    have hspace := hapart.space_ne_of_field hmember hfield hlink
    have hdeclares := hconsistent.references member (mem_membersOf_concat.mpr (.inl hmember)) field
      hfield link hlink
    exact hdeclares.imp (declaresEnum_of_concat hspace) (declaresObject_of_concat hspace)
  · exact fun member hpath => hconsistent.acyclic member (hmono _ _ hpath)
  · exact fun member ancestor hpath => hconsistent.fieldNames member ancestor (hmono _ _ hpath)
  · have hwireIds := hconsistent.wireIds
    rw [membersOf, List.flatMap_append, List.filterMap_append] at hwireIds
    exact hwireIds.of_append_left
  · intro root first second hroot hfirst hsecond
    exact hconsistent.kindTags root first second hroot (hmono _ _ hfirst) (hmono _ _ hsecond)

end Apart

/-- A document to which nothing refers can be left out of a batch if none of its objects inherits
from the others.  The contracts of the others are what they were. -/
theorem Graph.compile_of_concat {documents : List Document} {added : Document} {graph : Graph}
    (hcompile : compile (documents ++ [added]) = .ok graph)
    (hunrelated : Unrelated documents added) :
    ∃ other, compile documents = .ok other ∧ ∀ document ∈ documents, ∃ manifest,
      Contract.ofGraph? other document.space = some manifest ∧
        Contract.ofGraph? graph document.space = some manifest := by
  rcases Outcome.bind_eq_ok hcompile with ⟨larger, hlarger, hresolve⟩
  have hproper' := proper_of_mapM hlarger
  rw [List.mapM_append] at hlarger
  rcases Outcome.bind_eq_ok hlarger with ⟨outlines, hread, hlarger⟩
  rcases Outcome.bind_eq_ok hlarger with ⟨more, hmore, hlarger⟩
  cases hlarger
  rw [List.mapM_cons] at hmore
  rcases Outcome.bind_eq_ok hmore with ⟨outline, hadded, hmore⟩
  cases hmore
  have hapart := hunrelated outlines outline hread hadded
  have hproper := proper_of_mapM hread
  have hconsistent := (exists_resolve_iff hproper').mp ⟨graph, hresolve⟩
  rcases (exists_resolve_iff hproper).mpr (hapart.consistent_of_concat hconsistent) with
    ⟨other, hother⟩
  refine ⟨other, by rw [compile, hread]; exact hother, fun document hdocument => ?_⟩
  rcases exists_batch_of_resolve hproper hother with ⟨batch, found, hnumbers, hfound, rfl⟩
  rcases exists_batch_of_resolve hproper' hresolve with ⟨batch', seen, hnumbers', hseen, rfl⟩
  have hincluded : Batch.Included outlines (outlines ++ [outline]) batch batch' found seen :=
    ⟨hnumbers, hnumbers', hfound, hseen, fun _ => List.mem_append_left _,
      fun _ _ => hapart.inherits_of_concat⟩
  have hforall := Outcome.forall₂_of_mapM hread
  rcases Outcome.exists_mem_of_forall₂ hforall hdocument with ⟨base, hbase, hbaseRead⟩
  rw [← Outline.space_ofDocument hbaseRead]
  exact hincluded.exists_ofGraph? hbase

namespace Sample

/-- A document that refers to another one, with a family of its own. -/
def garden : Document :=
  ⟨"garden", .object [
    ("plant", .object [("root", .string "@tree:node"), ("?color", .string "@tree:color")]),
    ("rose@plant", .object [("thorns", .string "uint8")]),
    ("water", .array [.object [("plants", .array [.string "@plant"])]])]⟩

theorem tree_beside_garden :
    Unrelated documents garden ∧ ∃ manifest,
      Contract.ofGraph? schema.graph "tree" = some manifest ∧
        Contract.ofGraph? (schemaOf 2 (documents ++ [garden])).graph "tree" = some manifest := by
  have hunrelated : Unrelated documents garden := by decide +kernel
  have hcompile : Graph.compile (documents ++ [garden]) = _ :=
    compile_schemaOf 2 (by decide +kernel)
  rcases Graph.compile_of_concat hcompile hunrelated with ⟨graph, hgraph, hmanifests⟩
  rw [compile_documents, Except.ok.injEq] at hgraph
  rcases hmanifests (documents.head (List.cons_ne_nil _ _)) (List.head_mem _) with
    ⟨manifest, hmanifest, hmanifest'⟩
  rw [← hgraph] at hmanifest
  exact ⟨hunrelated, manifest, hmanifest, hmanifest'⟩

end Sample

end WireSchema
