import WireSchema.Proofs.Assembly
import WireSchema.Proofs.Dispatch
import WireSchema.Proofs.References

/-!
# Fields of a compiled graph

The fields of an object are those of its parent, followed by its own.  They are put together from
the root down, whatever the order of the declarations, and an optional field keeps its presence bit
in all descendants of the object that declares it.
-/

namespace WireSchema

namespace Graph

/-- The fields that an object has from its parent. -/
def inheritedFields (graph : Graph) (id : ObjectId) : List Field :=
  match (graph.object id).parent with
  | some parent => (graph.object parent).fields
  | none => []

/-- The fields that an object declares itself. -/
def ownFields (graph : Graph) (id : ObjectId) : List Field :=
  (graph.object id).fields.drop (graph.object id).ownStart

/-- The fields of every object are those of its parent and its own. -/
structure FlattensFields (graph : Graph) : Prop where
  fields_eq : ∀ id, (graph.object id).fields = graph.inheritedFields id ++ graph.ownFields id
  ownStart_eq : ∀ id, (graph.object id).ownStart = (graph.inheritedFields id).length
  declaredIn_own : ∀ id, ∀ field ∈ graph.ownFields id, field.declaredIn = id
  declaredIn : ∀ id, ∀ field ∈ (graph.object id).fields,
    graph.IsKindOf id field.declaredIn ∧ field ∈ graph.ownFields field.declaredIn
  names_distinct : ∀ id, NamesDistinct (graph.object id).fields
  isSome_flagBit : ∀ id, ∀ field ∈ (graph.object id).fields,
    field.flagBit.isSome = field.isOptional
  flagBits_eq : ∀ id, (graph.object id).fields.filterMap (·.flagBit) =
    List.range ((graph.object id).fields.countP (·.isOptional))
  /-- Whatever an ancestor has stands in the same places of the descendant, bits included. -/
  prefix_of_isKindOf : ∀ id ancestor, graph.IsKindOf id ancestor →
    (graph.object ancestor).fields <+: (graph.object id).fields

end Graph

namespace Batch

variable {batch : Batch} {found : Findings} (hfound : batch.Examined found)

include hfound

theorem fields_of_lineage {number : Nat} {lineage : List Nat}
    (hlineage : Lineage found.parents number lineage) :
    ((batch.graph found).object ⟨number⟩).fields = numberFlags 0 (batch.allFields lineage) ∧
      ((batch.graph found).object ⟨number⟩).ownStart =
        (batch.allFields lineage.dropLast).length ∧
      NamesDistinct (batch.allFields lineage) := by
  cases hplaced : batch.objects[number]? with
  | none =>
      -- What is not in the batch has no fields, and neither has what stands in for it.
      have hroot : Lineage found.parents number [number] :=
        .root (by rw [getElem?_parents_of_none hfound hplaced]; rfl)
      have hown : batch.ownAt number = [] := by
        rw [ownAt, hplaced]
        rfl
      rw [hlineage.eq_of_lineage hroot, object_graph_of_none _ hplaced, allFields,
        List.flatMap_singleton, hown]
      exact ⟨rfl, rfl, List.nodup_nil⟩
  | some placed =>
      rcases exists_fields_objectType hfound hplaced with
        ⟨other, -, hother, hdistinct, -, hfields, hstart⟩
      rw [hlineage.eq_of_lineage hother, object_graph _ hplaced]
      exact ⟨hfields, hstart, hdistinct⟩

theorem inheritedFields_of_lineage {number : Nat} {lineage : List Nat}
    (hlineage : Lineage found.parents number lineage) :
    (batch.graph found).inheritedFields ⟨number⟩ =
      numberFlags 0 (batch.allFields lineage.dropLast) := by
  rw [Graph.inheritedFields, parent_graph hfound]
  cases hlineage with
  | root hparent =>
      rw [hparent]
      rfl
  | child hparent habove =>
      rw [hparent, List.dropLast_concat]
      exact (fields_of_lineage hfound habove).1

theorem ownStart_eq (id : ObjectId) :
    ((batch.graph found).object id).ownStart =
      ((batch.graph found).inheritedFields id).length := by
  rcases exists_lineage hfound id.index with ⟨lineage, hlineage, -⟩
  have hstart := (fields_of_lineage hfound hlineage).2.1
  have hinherited := inheritedFields_of_lineage hfound hlineage
  rw [← length_numberFlags 0, ← hinherited] at hstart
  exact hstart

theorem exists_ownFields (id : ObjectId) :
    ∃ bit, (batch.graph found).ownFields id = numberFlags bit (batch.ownAt id.index) ∧
      ((batch.graph found).object id).fields =
        (batch.graph found).inheritedFields id ++ (batch.graph found).ownFields id := by
  rcases exists_lineage hfound id.index with ⟨lineage, hlineage, -⟩
  have hfields : ((batch.graph found).object id).fields = _ :=
    (fields_of_lineage hfound hlineage).1
  have hinherited : (batch.graph found).inheritedFields id = _ :=
    inheritedFields_of_lineage hfound hlineage
  have hall := congrArg batch.allFields hlineage.dropLast_append
  rw [allFields, List.flatMap_append, List.flatMap_singleton] at hall
  rw [← hall, numberFlags_append, ← allFields, ← hinherited] at hfields
  have hown := congrArg (List.drop ((batch.graph found).inheritedFields id).length) hfields
  rw [List.drop_left, ← ownStart_eq hfound, ← Graph.ownFields] at hown
  exact ⟨_, hown, by rw [hown, hfields]⟩

theorem declaredIn_of_mem_ownFields {id : ObjectId} {field : Field}
    (hfield : field ∈ (batch.graph found).ownFields id) : field.declaredIn = id := by
  rcases exists_ownFields hfound id with ⟨bit, hown, -⟩
  rw [hown] at hfield
  rcases exists_of_mem_numberFlags hfield with ⟨original, horiginal, place, rfl⟩
  have hdeclared : original.declaredIn ∈ (batch.ownAt id.index).map (·.declaredIn) :=
    List.mem_map_of_mem horiginal
  rw [map_declaredIn_ownAt hfound] at hdeclared
  exact List.eq_of_mem_replicate hdeclared

/-- A field is declared by the object or by one of those above it. -/
theorem isKindOf_declaredIn {id : ObjectId} {field : Field}
    (hfield : field ∈ ((batch.graph found).object id).fields) :
    (batch.graph found).IsKindOf id field.declaredIn ∧
      field ∈ (batch.graph found).ownFields field.declaredIn := by
  rcases id with ⟨number⟩
  rcases exists_lineage hfound number with ⟨lineage, hlineage, -⟩
  -- From the root down: an inherited field is one of the parent.
  induction hlineage with
  | @root number hparent =>
      rcases exists_ownFields hfound ⟨number⟩ with ⟨-, -, happend⟩
      have hnone : ((batch.graph found).object ⟨number⟩).parent = none :=
        (parent_graph_eq_none_iff hfound).mpr hparent
      rw [happend, Graph.inheritedFields, hnone, List.nil_append] at hfield
      rw [declaredIn_of_mem_ownFields hfound hfield]
      exact ⟨.inl rfl, hfield⟩
  | @child number parent above hparent habove ih =>
      rcases exists_ownFields hfound ⟨number⟩ with ⟨-, -, happend⟩
      have hsome : ((batch.graph found).object ⟨number⟩).parent = some ⟨parent⟩ :=
        (parent_graph_eq_some_iff hfound).mpr hparent
      rw [happend, Graph.inheritedFields, hsome] at hfield
      rcases List.mem_append.mp hfield with hinherited | hown
      · rcases ih hinherited with ⟨hkind, hown⟩
        rw [isKindOf_iff hfound] at hkind ⊢
        exact ⟨hkind.head hparent, hown⟩
      · rw [declaredIn_of_mem_ownFields hfound hown]
        exact ⟨.inl rfl, hown⟩

theorem prefix_of_isKindOf {id ancestor : ObjectId}
    (hkind : (batch.graph found).IsKindOf id ancestor) :
    ((batch.graph found).object ancestor).fields <+: ((batch.graph found).object id).fields := by
  have hstep {child parent : ObjectId}
      (hparent : ((batch.graph found).object child).parent = some parent) :
      ((batch.graph found).object parent).fields <+:
        ((batch.graph found).object child).fields := by
    rcases exists_ownFields hfound child with ⟨-, -, happend⟩
    rw [happend, Graph.inheritedFields, hparent]
    exact List.prefix_append _ _
  rcases hkind with rfl | hpath
  · exact List.prefix_rfl
  · induction hpath with
    | single hparent => exact hstep hparent
    | tail _ hparent ih => exact (hstep hparent).trans ih

theorem flattensFields_graph : (batch.graph found).FlattensFields where
  fields_eq id := by
    rcases exists_ownFields hfound id with ⟨-, -, happend⟩
    exact happend
  ownStart_eq := ownStart_eq hfound
  declaredIn_own id field := declaredIn_of_mem_ownFields hfound
  declaredIn id field := isKindOf_declaredIn hfound
  names_distinct id := by
    rcases exists_fields_graph hfound id with ⟨lineage, hdistinct, hfields⟩
    rw [hfields, NamesDistinct, map_numberFlags (fun _ _ => rfl)]
    exact hdistinct
  isSome_flagBit id field hfield := by
    rcases exists_fields_graph hfound id with ⟨lineage, -, hfields⟩
    rw [hfields] at hfield
    rcases exists_of_mem_numberFlags hfield with ⟨original, -, place, rfl⟩
    cases hoptional : original.isOptional <;> simp [flagged, hoptional]
  flagBits_eq id := by
    rcases exists_fields_graph hfound id with ⟨lineage, -, hfields⟩
    rw [hfields, filterMap_flagBit_numberFlags, countP_isOptional_numberFlags,
      List.range_eq_range']
  prefix_of_isKindOf id ancestor := prefix_of_isKindOf hfound

end Batch

/-! ## Bodies and objects -/

/-- The bodies of all documents, each with the namespace it is read in. -/
def bodiesOf (documents : List Document) : List (String × Body) :=
  documents.flatMap fun document => document.bodies.map (Prod.mk document.space)

theorem forall₂_bodiesOf {documents : List Document} {outlines : List Outline}
    (hread : documents.mapM Outline.ofDocument = .ok outlines) :
    List.Forall₂ (fun body member => member.space = body.1 ∧ member.object.Reads body.2)
      (bodiesOf documents) (membersOf outlines) := by
  apply List.rel_flatMap (Outcome.forall₂_of_mapM hread)
  intro document outline hdocument
  rw [List.forall₂_map_left_iff, List.forall₂_map_right_iff]
  apply (Outline.assembled_ofDocument hdocument).reads.imp
  exact fun body object hreads => ⟨Outline.space_ofDocument hdocument, hreads⟩

/-- A field of the graph is declared by a member of a body. -/
structure Field.DeclaredBy (member : String × Json) (field : Field) : Prop where
  key_eq : field.key = member.1
  name_eq : field.name = Naming.identifier .field member.1
  isOptional_eq : field.isOptional = (member.1.toList.head? == some '?')

/-- An object of the graph is declared by a body, the members of which are its own fields. -/
structure ObjectType.DeclaredBy (body : String × Body) (type : ObjectType) : Prop where
  space_eq : type.space = body.1
  tag_eq : type.tag = body.2.tag
  fields : List.Forall₂ Field.DeclaredBy body.2.members (type.fields.drop type.ownStart)

theorem Graph.Represents.declaredBy {graph : Graph} {body : String × Body} {member : Member}
    {type : ObjectType} (hrepresents : graph.Represents member type)
    (hspace : member.space = body.1) (hreads : member.object.Reads body.2) :
    type.DeclaredBy body where
  space_eq := hrepresents.space_eq.trans hspace
  tag_eq := hrepresents.tag_eq.trans hreads.tag_eq
  fields := by
    refine Outcome.forall₂_of_common ?_ hreads.fields.flip hrepresents.fields
    rintro declared member field hmember ⟨hkey, hname, hoptional, -⟩
    exact ⟨hkey.trans hmember.key_eq, hname.trans hmember.name_eq,
      hoptional.trans hmember.isOptional_eq⟩

/-- The objects of the graph are those that the bodies of the documents declare, in their order. -/
theorem Batch.Numbers.forall₂_declaredBy {batch : Batch} {found : Findings}
    {documents : List Document} {outlines : List Outline}
    (hread : documents.mapM Outline.ofDocument = .ok outlines) (hnumbers : batch.Numbers outlines)
    (hfound : batch.Examined found) :
    List.Forall₂ ObjectType.DeclaredBy (bodiesOf documents)
      (batch.graph found).objects.toList := by
  refine Outcome.forall₂_of_common ?_ (forall₂_bodiesOf hread).flip
    (hnumbers.forall₂_represents hfound)
  rintro member body type ⟨hspace, hreads⟩ hrepresents
  exact hrepresents.declaredBy hspace hreads

end WireSchema
