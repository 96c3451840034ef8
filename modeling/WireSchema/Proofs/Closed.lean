import WireSchema.Proofs.References
import WireSchema.Proofs.Tokens

/-!
# Closed graphs

A graph refers to nothing outside of itself: parents, roots, responses, requests, the types of
fields and the members of dispatch tables are declarations of the graph.
-/

namespace WireSchema

open Relation (ReflTransGen)

namespace Graph

/-- Every declaration that something in the graph refers to is in the graph. -/
structure Closed (graph : Graph) : Prop where
  parent : ∀ id parent, (graph.object id).parent = some parent → parent.index < graph.objects.size
  root : ∀ id, id.index < graph.objects.size →
    (graph.object id).root.index < graph.objects.size
  response : ∀ id response, (graph.object id).response = some response →
    response.index < graph.objects.size
  request : ∀ id request, (graph.object id).request = some request →
    request.index < graph.objects.size
  fieldType : ∀ id, ∀ field ∈ (graph.object id).fields, graph.Knows field.type
  tableRoot : ∀ table ∈ graph.tables, table.root.index < graph.objects.size
  tableMember : ∀ table ∈ graph.tables, ∀ entry ∈ table.members.entries,
    entry.2.index < graph.objects.size

theorem knows_of_bears {graph : Graph} {link : Link} {type : FieldType}
    (hbears : graph.Bears link type) : graph.Knows type := by
  cases type with
  | enum id =>
      rcases hbears with ⟨found, hfound, -⟩
      exact (Array.getElem?_eq_some_iff.mp hfound).1
  | object id =>
      rcases hbears with ⟨found, hfound, -⟩
      exact (Array.getElem?_eq_some_iff.mp hfound).1
  | _ => cases hbears

theorem knows_of_resolves {graph : Graph} {shape : Declaration.Shape} {type : FieldType}
    (hresolves : graph.Resolves shape type) : graph.Knows type := by
  induction shape generalizing type with
  | primitive kind =>
      cases hresolves
      trivial
  | text =>
      cases hresolves
      trivial
  | binary length =>
      cases hresolves
      trivial
  | array element ih =>
      rcases hresolves with ⟨inner, rfl, hinner⟩
      have hknows : graph.Knows inner := ih hinner
      exact hknows
  | link target => exact knows_of_bears hresolves.1
  | embedded index =>
      rcases hresolves with ⟨id, found, rfl, hfound, -⟩
      exact (Array.getElem?_eq_some_iff.mp hfound).1

end Graph

namespace Batch

variable {batch : Batch} {outlines : List Outline} {found : Findings}

theorem lt_size_of_getElem? {number : Nat} {placed : PlacedObject}
    (hplaced : batch.objects[number]? = some placed) :
    number < (batch.graph found).objects.size := by
  rw [size_graph]
  exact (List.getElem?_eq_some_iff.mp hplaced).1

namespace Numbers

variable (hnumbers : batch.Numbers outlines) (hfound : batch.Examined found)

include hnumbers

/-- The document that declares an object. -/
theorem exists_home_of_lt {id : ObjectId} (hid : id.index < (batch.graph found).objects.size) :
    ∃ placed, batch.objects[id.index]? = some placed ∧ placed.home ∈ batch.outlines ∧
      id ∈ placed.home.objectIds := by
  rw [size_graph] at hid
  have hplaced := List.getElem?_eq_getElem hid
  rcases hnumbers.sound.exists_place id.index _ hplaced with ⟨hhome, place, hobject, hnumber⟩
  refine ⟨_, hplaced, hhome, ?_⟩
  exact PlacedOutline.mem_objectIds_iff.mpr ⟨place, _, hobject, ObjectId.eq_of_index hnumber⟩

include hfound

theorem lt_size_of_up {number parent : Nat} (hup : Up found.parents number parent) :
    parent < (batch.graph found).objects.size := by
  rcases (role_of_join hnumbers.sound hfound hup).2 with ⟨ancestor, hancestor, -⟩
  exact lt_size_of_getElem? hancestor

theorem lt_size_of_mem {number ancestor : Nat} {lineage : List Nat}
    (hlineage : Lineage found.parents number lineage) (hmem : ancestor ∈ lineage)
    (hnumber : number < (batch.graph found).objects.size) :
    ancestor < (batch.graph found).objects.size := by
  rcases (hlineage.mem_iff.mp hmem).cases_tail with rfl | ⟨middle, -, hup⟩
  · exact hnumber
  · exact hnumbers.lt_size_of_up hfound hup

/-- Every field of an object is declared somewhere in the batch. -/
theorem exists_resolves {id : ObjectId} {field : Field}
    (hfield : field ∈ ((batch.graph found).object id).fields) :
    ∃ shape, (batch.graph found).Resolves shape field.type := by
  rcases exists_fields_graph hfound id with ⟨lineage, -, hfields⟩
  rw [hfields] at hfield
  rcases exists_of_mem_numberFlags hfield with ⟨original, horiginal, bit, rfl⟩
  rcases List.mem_flatMap.mp horiginal with ⟨number, -, hown⟩
  rcases hfound.exists_of_mem_ownAt hown with ⟨owner, declared, howner, hdeclared, hrun⟩
  rcases Outcome.map_eq_ok hrun with ⟨type, htype, rfl⟩
  have hrefers := (hnumbers.sound.of_getElem? howner).refers declared hdeclared
  exact ⟨declared.shape, hnumbers.resolves_of_resolveShape howner hrefers htype⟩

theorem knows_field {id : ObjectId} {field : Field}
    (hfield : field ∈ ((batch.graph found).object id).fields) :
    (batch.graph found).Knows field.type := by
  rcases hnumbers.exists_resolves hfound hfield with ⟨shape, hresolves⟩
  exact Graph.knows_of_resolves hresolves

theorem closed_graph : (batch.graph found).Closed where
  parent id parent hparent := by
    rw [parent_graph hfound] at hparent
    rcases Option.map_eq_some_iff.mp hparent with ⟨number, hup, rfl⟩
    exact hnumbers.lt_size_of_up hfound hup
  root id hid := by
    rw [size_graph] at hid
    have hplaced := List.getElem?_eq_getElem hid
    rcases exists_fields_objectType hfound hplaced with ⟨lineage, hlineage, hchain, -⟩
    rcases List.exists_cons_of_ne_nil hchain.ne_nil with ⟨root, below, rfl⟩
    rw [root_graph id.index hplaced hlineage]
    exact hnumbers.lt_size_of_mem hfound hchain List.mem_cons_self (lt_size_of_getElem? hplaced)
  response id response hresponse := by
    cases hplaced : batch.objects[id.index]? with
    | none =>
        rw [object_graph_of_none id.index hplaced] at hresponse
        cases hresponse
    | some placed =>
        rw [object_graph id.index hplaced] at hresponse
        rcases hnumbers.exists_answer hplaced hresponse with ⟨_, _, hanswer, -⟩
        exact lt_size_of_getElem? hanswer
  request id request hrequest := by
    cases hplaced : batch.objects[id.index]? with
    | none =>
        rw [object_graph_of_none id.index hplaced] at hrequest
        cases hrequest
    | some placed =>
        rw [object_graph id.index hplaced] at hrequest
        rcases hnumbers.requestOf?_eq_some_iff.mp hrequest with ⟨asker, hasker, -⟩
        exact lt_size_of_getElem? hasker
  fieldType id field hfield := hnumbers.knows_field hfound hfield
  tableRoot table htable := by
    have hheld := tableOf?_of_mem hfound.tabulated.inOrder htable
    rcases exists_child_of_tableOf? hfound hheld with ⟨child, hchild⟩
    exact hnumbers.lt_size_of_up hfound hchild
  tableMember table htable entry hentry := by
    have hheld := tableOf?_of_mem hfound.tabulated.inOrder htable
    have hfind := TagMap.mem_entries_iff.mp hentry
    rcases (hfound.tabulated.find?_iff hheld).mp hfind with ⟨-, hroot⟩ | ⟨claimant, hmem, -, hindex⟩
    · rcases exists_child_of_tableOf? hfound hheld with ⟨child, hchild⟩
      rw [hroot]
      exact hnumbers.lt_size_of_up hfound hchild
    · rcases claimant with ⟨placed, number, lineage⟩
      rw [← hindex]
      exact lt_size_of_getElem? (mem_entries_iff.mp hmem).1

end Numbers

end Batch
end WireSchema
