import WireSchema.Proofs.Consistency
import WireSchema.Proofs.Listing

/-!
# Where references lead

In a resolved batch a link leads to the one declaration with its namespace and tag.  Since no enum
and no object of a document have the same tag, it does not matter which of them is looked for
first.
-/

namespace WireSchema
namespace Graph

variable {graph : Graph}

/-- An enum or a top-level object of the graph has the namespace and the tag of a link. -/
def Bears (graph : Graph) (link : Link) : FieldType → Prop
  | .enum id => ∃ type, graph.enums[id.index]? = some type ∧ type.space = link.space ∧
      type.tag = link.tag
  | .object id => ∃ type, graph.objects[id.index]? = some type ∧ type.role = .object ∧
      type.space = link.space ∧ type.tag = link.tag
  | _ => False

/-- A link leads to the only declaration that it can mean. -/
def LeadsTo (graph : Graph) (link : Link) (type : FieldType) : Prop :=
  graph.Bears link type ∧ ∀ other, graph.Bears link other → other = type

/-- What a declared shape is resolved to, at any depth of arrays. -/
def Resolves (graph : Graph) : Declaration.Shape → FieldType → Prop
  | .primitive kind, type => type = .primitive kind
  | .text, type => type = .text
  | .binary length, type => type = .binary length
  | .array element, type => ∃ inner, type = .array inner ∧ graph.Resolves element inner
  | .link target, type => graph.LeadsTo target type
  | .embedded _, type => ∃ id found, type = .object id ∧ graph.objects[id.index]? = some found ∧
      found.role = .embedded

/-- An object of the graph is what a declared object is resolved to. -/
structure Represents (graph : Graph) (member : Member) (type : ObjectType) : Prop where
  space_eq : type.space = member.space
  tag_eq : type.tag = member.object.tag
  name_eq : type.name = member.object.name
  role_eq : type.role = member.object.role
  parent : Option.Rel (fun link parent => graph.LeadsTo link (.object parent))
    member.object.parent type.parent
  fields : List.Forall₂
    (fun declared field => field.key = declared.key ∧ field.name = declared.name ∧
      field.isOptional = declared.isOptional ∧ graph.Resolves declared.shape field.type)
    member.object.fields (type.fields.drop type.ownStart)

theorem object_of_getElem? {id : ObjectId} {type : ObjectType}
    (htype : graph.objects[id.index]? = some type) : graph.object id = type := by
  rw [object, Array.getD_eq_getD_getElem?, htype, Option.getD_some]

end Graph

namespace Batch
namespace Numbers

variable {batch : Batch} {outlines : List Outline} {found : Findings}
  (hnumbers : batch.Numbers outlines)

include hnumbers

theorem bears_enum_iff {link : Link} {id : EnumId} :
    (batch.graph found).Bears link (.enum id) ↔
      ∃ home ∈ batch.outlines, home.outline.space = link.space ∧
        ∃ place, home.outline.enumIndex? link.tag = some place ∧ id = home.enumAt place := by
  constructor
  · rintro ⟨type, htype, hspace, htag⟩
    rcases hnumbers.exists_enum_place htype with ⟨home, hhome, place, declared, hdeclared, hid, rfl⟩
    have hproper := hnumbers.proper _ (hnumbers.outline_mem hhome)
    have hplace := hproper.enumIndex?_eq_some_iff.mpr ⟨declared, hdeclared, htag⟩
    exact ⟨home, hhome, hspace, place, hplace, congrArg EnumId.mk hid⟩
  · rintro ⟨home, hhome, hspace, place, hplace, rfl⟩
    have hproper := hnumbers.proper _ (hnumbers.outline_mem hhome)
    rcases hproper.enumIndex?_eq_some_iff.mp hplace with ⟨declared, hdeclared, htag⟩
    exact ⟨_, hnumbers.getElem?_enums hhome hdeclared, hspace, htag⟩

theorem bears_object_iff {link : Link} {id : ObjectId} :
    (batch.graph found).Bears link (.object id) ↔
      ∃ home ∈ batch.outlines, home.outline.space = link.space ∧
        ∃ place, home.outline.objectIndex? link.tag = some place ∧ home.objectAt place = id := by
  constructor
  · rintro ⟨type, htype, hrole, hspace, htag⟩
    rw [getElem?_objects_graph] at htype
    rcases Option.map_eq_some_iff.mp htype with ⟨placed, hplaced, rfl⟩
    have hhome := (hnumbers.sound.exists_place id.index placed hplaced).1
    have hlink : placed.member.link = link := by
      rcases link with ⟨space, tag⟩
      exact Link.mk.injEq .. |>.mpr ⟨hspace, htag⟩
    rcases (hnumbers.exists_place_iff hhome hspace).mpr ⟨placed, hplaced, hrole, hlink⟩ with
      ⟨place, hplace, hnumber⟩
    exact ⟨placed.home, hhome, hspace, place, hplace, ObjectId.eq_of_index hnumber⟩
  · rintro ⟨home, hhome, hspace, place, hplace, rfl⟩
    rcases (hnumbers.exists_place_iff hhome hspace).mp ⟨place, hplace, rfl⟩ with
      ⟨placed, hplaced, hrole, hlink⟩
    exact ⟨_, getElem?_objects_graph_of hplaced, hrole, congrArg Link.space hlink,
      congrArg Link.tag hlink⟩

/-- Within a document a tag leads to an enum or to an object, but not to both. -/
theorem enumIndex?_eq_none {home : PlacedOutline} (hhome : home ∈ batch.outlines) {tag : String}
    {place : Nat} (hplace : home.outline.objectIndex? tag = some place) :
    home.outline.enumIndex? tag = none := by
  have hproper := hnumbers.proper _ (hnumbers.outline_mem hhome)
  rcases hproper.objectIndex?_eq_some_iff.mp hplace with ⟨object, hobject, -, htag⟩
  cases henum : home.outline.enumIndex? tag with
  | none => rfl
  | some other =>
      rcases hproper.enumIndex?_eq_some_iff.mp henum with ⟨type, htype, htag'⟩
      exact absurd (htag'.trans htag.symm)
        (hproper.tag_ne (List.mem_of_getElem? htype) (List.mem_of_getElem? hobject))

theorem eq_of_bears {link : Link} {first second : FieldType}
    (hfirst : (batch.graph found).Bears link first)
    (hsecond : (batch.graph found).Bears link second) : first = second := by
  cases first with
  | enum id =>
      rcases hnumbers.bears_enum_iff.mp hfirst with ⟨home, hhome, hspace, place, hplace, rfl⟩
      cases second with
      | enum other =>
          rcases hnumbers.bears_enum_iff.mp hsecond with
            ⟨home', hhome', hspace', place', hplace', rfl⟩
          rw [hnumbers.home_eq_of_space hhome' hhome (hspace'.trans hspace.symm)] at hplace' ⊢
          rw [hplace, Option.some.injEq] at hplace'
          rw [hplace']
      | object other =>
          rcases hnumbers.bears_object_iff.mp hsecond with
            ⟨home', hhome', hspace', place', hplace', rfl⟩
          rw [hnumbers.home_eq_of_space hhome' hhome (hspace'.trans hspace.symm)] at hplace'
          rw [hnumbers.enumIndex?_eq_none hhome hplace'] at hplace
          cases hplace
      | _ => cases hsecond
  | object id =>
      rcases hnumbers.bears_object_iff.mp hfirst with ⟨home, hhome, hspace, place, hplace, rfl⟩
      cases second with
      | enum other =>
          rcases hnumbers.bears_enum_iff.mp hsecond with
            ⟨home', hhome', hspace', place', hplace', rfl⟩
          rw [hnumbers.home_eq_of_space hhome' hhome (hspace'.trans hspace.symm),
            hnumbers.enumIndex?_eq_none hhome hplace] at hplace'
          cases hplace'
      | object other =>
          rcases hnumbers.bears_object_iff.mp hsecond with
            ⟨home', hhome', hspace', place', hplace', rfl⟩
          rw [hnumbers.home_eq_of_space hhome' hhome (hspace'.trans hspace.symm)] at hplace' ⊢
          rw [hplace, Option.some.injEq] at hplace'
          rw [hplace']
      | _ => cases hsecond
  | _ => cases hfirst

theorem leadsTo_of_bears {link : Link} {type : FieldType}
    (hbears : (batch.graph found).Bears link type) : (batch.graph found).LeadsTo link type :=
  ⟨hbears, fun _ hother => hnumbers.eq_of_bears hother hbears⟩

theorem resolves_of_resolveShape {number : Nat} {placed : PlacedObject}
    (hplaced : batch.objects[number]? = some placed) {shape : Declaration.Shape} {type : FieldType}
    (hrefers : shape.Refers placed.home.outline.objects)
    (hrun : batch.resolveShape placed shape = .ok type) :
    (batch.graph found).Resolves shape type := by
  induction shape generalizing type with
  | primitive kind =>
      cases hrun
      rfl
  | text =>
      cases hrun
      rfl
  | binary length =>
      cases hrun
      rfl
  | array element ih =>
      rcases Outcome.map_eq_ok hrun with ⟨inner, hinner, rfl⟩
      exact ⟨inner, rfl, ih hrefers hinner⟩
  | embedded index =>
      cases hrun
      rcases hrefers index rfl with ⟨object, hobject, hrole⟩
      have hhome := (hnumbers.sound.exists_place number placed hplaced).1
      have hfound := hnumbers.sound.getElem?_of_place _ hhome index object hobject
      exact ⟨_, _, rfl, getElem?_objects_graph_of hfound, hrole⟩
  | link target =>
      rw [resolveShape] at hrun
      rcases Outcome.bind_eq_ok hrun with ⟨home, hhome, hrun⟩
      rcases hnumbers.targetOutline_eq_ok_iff.mp hhome with ⟨hmem, hspace⟩
      split at hrun
      next place hplace =>
        cases hrun
        apply hnumbers.leadsTo_of_bears
        exact hnumbers.bears_enum_iff.mpr ⟨home, hmem, hspace, place, hplace, rfl⟩
      next place _ hplace =>
        cases hrun
        apply hnumbers.leadsTo_of_bears
        exact hnumbers.bears_object_iff.mpr ⟨home, hmem, hspace, place, hplace, rfl⟩
      next => cases hrun

/-- Every object of the graph is what the object in its place is resolved to. -/
theorem represents (hfound : batch.Examined found) {number : Nat} {placed : PlacedObject}
    (hplaced : batch.objects[number]? = some placed) :
    (batch.graph found).Represents placed.member (batch.objectType found placed number) where
  space_eq := rfl
  tag_eq := rfl
  name_eq := rfl
  role_eq := rfl
  parent := by
    rcases hfound.exists_parent number placed hplaced with ⟨parent, hparent, hrun⟩
    have heq : (batch.objectType found placed number).parent = parent.map ObjectId.mk := by
      rw [objectType, hparent]
      rfl
    rw [heq]
    cases parent with
    | none =>
        rw [show placed.member.object.parent = none from parentOf_eq_none_iff.mp hrun]
        exact .none
    | some parent =>
        rcases (hnumbers.parentOf_eq_some_iff hplaced).mp hrun with ⟨ancestor, hancestor, hinherits⟩
        rw [hinherits.link_eq]
        apply Option.Rel.some
        apply hnumbers.leadsTo_of_bears
        exact ⟨_, getElem?_objects_graph_of hancestor, hinherits.role_eq, rfl, rfl⟩
  fields := by
    rcases exists_fields_objectType hfound hplaced with
      ⟨lineage, -, -, -, happend, hfields, hstart⟩
    rw [hfields, hstart, happend, numberFlags_append, ← length_numberFlags 0, List.drop_left]
    apply forall₂_numberFlags
    · exact fun _ _ _ hboth => hboth
    · have hrefers := (hnumbers.sound.of_getElem? hplaced).refers
      apply (List.forall₂_and_left ..).mpr ⟨hrefers, hfound.forall₂_ownAt hplaced⟩ |>.imp
      rintro declared field ⟨hrefers, hrun⟩
      rcases Outcome.map_eq_ok hrun with ⟨type, htype, rfl⟩
      exact ⟨rfl, rfl, rfl, hnumbers.resolves_of_resolveShape hplaced hrefers htype⟩

theorem forall₂_represents (hfound : batch.Examined found) :
    List.Forall₂ (batch.graph found).Represents (membersOf outlines)
      (batch.graph found).objects.toList := by
  have hmembers : membersOf outlines = batch.objects.zipIdx.map fun entry => entry.1.member := by
    rw [← hnumbers.map_member, ← List.zipIdx_map_fst 0 batch.objects, List.map_map]
    simp
  rw [hmembers, graph, List.forall₂_map_left_iff, List.forall₂_map_right_iff, List.forall₂_same]
  rintro ⟨placed, number⟩ hentry
  exact hnumbers.represents hfound (List.mem_zipIdx_iff_getElem?.mp hentry)

end Numbers
end Batch

/-- Documents that are accepted one by one are resolved exactly if together they are consistent.
The objects of the graph are then the declared ones in their order, and every link in them leads to
the one declaration that it can mean. -/
theorem Graph.resolves_exactly_consistent {documents : List Document} {outlines : List Outline}
    (hread : documents.mapM Outline.ofDocument = .ok outlines) :
    ((∃ graph, Graph.resolve outlines = .ok graph) ↔ Consistent outlines) ∧
      ∀ graph, Graph.resolve outlines = .ok graph →
        List.Forall₂ graph.Represents (membersOf outlines) graph.objects.toList := by
  have hproper := Graph.proper_of_mapM hread
  constructor
  · exact Graph.exists_resolve_iff hproper
  · intro graph hresolve
    rcases Graph.exists_batch_of_resolve hproper hresolve with ⟨batch, found, hnumbers, hfound, rfl⟩
    exact hnumbers.forall₂_represents hfound

theorem Sample.documents_consistent :
    ∃ outlines, Sample.documents.mapM Outline.ofDocument = .ok outlines ∧ Consistent outlines := by
  rcases Outcome.bind_eq_ok Sample.compile_documents with ⟨outlines, hread, hresolve⟩
  exact ⟨outlines, hread, (Graph.resolves_exactly_consistent hread).1.mp ⟨_, hresolve⟩⟩

end WireSchema
