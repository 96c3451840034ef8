import Mathlib.Data.List.Perm.Basic
import WireSchema.Proofs.Closed
import WireSchema.Proofs.Namespaces
import WireSchema.Proofs.Ownership

/-!
# Integrity of compiled graphs

No reference of a compiled graph leads out of it, and each of them leads to an object that may stand
there.  Every declaration of the documents has one number, and is listed once, by its namespace.
-/

namespace WireSchema

namespace Graph

/-- What is listed by a namespace, apart from enums. -/
def listed (space : Namespace) : List ObjectId :=
  space.objects ++ space.messages ++ space.requests ++ space.responses

/-- References lead to declarations of the graph, of the roles that belong there. -/
structure ReferenceSafe (graph : Graph) : Prop where
  closed : graph.Closed
  declaredIn_lt : ∀ id, ∀ field ∈ (graph.object id).fields,
    field.declaredIn.index < graph.objects.size
  wireIds_lt : ∀ entry ∈ graph.wireIds.entries, entry.2.index < graph.objects.size
  listed_lt : ∀ space ∈ graph.namespaces, ∀ id ∈ listed space, id.index < graph.objects.size
  enums_lt : ∀ space ∈ graph.namespaces, ∀ id ∈ space.enums, id.index < graph.enums.size
  parent_role : ∀ id parent, (graph.object id).parent = some parent →
    (graph.object id).role = .object ∧ (graph.object parent).role = .object
  /-- Payloads and embedded objects belong to no family. -/
  alone : ∀ id, (graph.object id).role ≠ .object → (graph.object id).parent = none ∧
    (∀ member, ¬ graph.Descends member id) ∧ (graph.object id).isPolymorphic = false
  target_role : ∀ id, ∀ field ∈ (graph.object id).fields, ∀ target,
    field.type.target? = some target →
      (graph.object target).role = .object ∨ (graph.object target).role = .embedded
  owner : ∀ id, (graph.object id).role = .embedded → ∃ owner place,
    graph.RefersAt owner place id ∧ (graph.object owner).space = (graph.object id).space ∧
      ∀ other elsewhere, graph.RefersAt other elsewhere id → other = owner ∧ elsewhere = place
  response_iff : ∀ id, (graph.object id).response.isSome = true ↔
    (graph.object id).role = .request
  request_iff : ∀ id, (graph.object id).request.isSome = true ↔
    (graph.object id).role = .response
  inverse : ∀ asker answer, (graph.object answer).request = some asker ↔
    (graph.object asker).response = some answer
  answer_space : ∀ asker answer, (graph.object asker).response = some answer →
    (graph.object answer).space = (graph.object asker).space

/-- The declarations of some documents are listed once each, in their order. -/
structure Lists (graph : Graph) (documents : List Document) : Prop where
  enums_declared : graph.enums.toList.map (fun type => (type.space, type.tag)) =
    documents.flatMap fun document => document.enumKeys.map (Prod.mk document.space)
  objects_declared : List.Forall₂ ObjectType.DeclaredBy (bodiesOf documents) graph.objects.toList
  names_eq : graph.namespaces.map (·.name) = documents.map (·.space)
  names_nodup : (graph.namespaces.map (·.name)).Nodup
  enums_eq : ∀ space ∈ graph.namespaces, space.enums = graph.enumsOf space.name
  objects_eq : ∀ space ∈ graph.namespaces,
    space.objects = graph.objectsWith space.name [.object, .embedded]
  messages_eq : ∀ space ∈ graph.namespaces,
    space.messages = graph.objectsWith space.name [.message]
  requests_eq : ∀ space ∈ graph.namespaces,
    space.requests = graph.objectsWith space.name [.request]
  responses_eq : ∀ space ∈ graph.namespaces,
    space.responses = graph.objectsWith space.name [.response]
  enums_once : graph.namespaces.flatMap (·.enums) = graph.enumIds
  objects_once : (graph.namespaces.flatMap listed).Perm graph.objectIds

variable {graph : Graph}

/-- A declared shape is resolved to a type of data, never of a payload. -/
theorem role_of_resolves {shape : Declaration.Shape} {type : FieldType} {target : ObjectId}
    (hresolves : graph.Resolves shape type) (htarget : type.target? = some target) :
    (graph.object target).role = .object ∨ (graph.object target).role = .embedded := by
  induction shape generalizing type with
  | primitive kind =>
      cases hresolves
      cases htarget
  | text =>
      cases hresolves
      cases htarget
  | binary length =>
      cases hresolves
      cases htarget
  | array element ih =>
      rcases hresolves with ⟨inner, rfl, hinner⟩
      exact ih hinner htarget
  | link link =>
      cases type with
      | object id =>
          cases htarget
          rcases hresolves.1 with ⟨found, hfound, hrole, -⟩
          rw [object_of_getElem? hfound]
          exact .inl hrole
      | enum id => cases htarget
      | _ => cases hresolves.1
  | embedded index =>
      rcases hresolves with ⟨id, found, rfl, hfound, hrole⟩
      cases htarget
      rw [object_of_getElem? hfound]
      exact .inr hrole

end Graph

namespace Batch

variable {batch : Batch} {outlines : List Outline} {found : Findings}

theorem exists_placed_of_field {id : ObjectId} {field : Field}
    (hfield : field ∈ (batch.graph found).ownFields id) :
    ∃ placed, batch.objects[id.index]? = some placed := by
  cases hplaced : batch.objects[id.index]? with
  | none =>
      rw [ownFields_of_none hplaced] at hfield
      cases hfield
  | some placed => exact ⟨placed, rfl⟩

namespace Numbers

variable (hnumbers : batch.Numbers outlines) (hfound : batch.Examined found)

include hnumbers hfound

theorem role_of_parent {id parent : ObjectId}
    (hparent : ((batch.graph found).object id).parent = some parent) :
    ((batch.graph found).object id).role = .object ∧
      ((batch.graph found).object parent).role = .object := by
  have hup := (parent_graph_eq_some_iff hfound).mp hparent
  rcases role_of_join hnumbers.sound hfound hup with
    ⟨⟨placed, hplaced, hrole⟩, above, habove, hrole'⟩
  constructor
  · exact (congrArg ObjectType.role (object_graph id.index hplaced)).trans hrole
  · exact (congrArg ObjectType.role (object_graph parent.index habove)).trans hrole'

/-- Only top-level objects belong to families. -/
theorem alone_of_role {id : ObjectId} (hrole : ((batch.graph found).object id).role ≠ .object) :
    ((batch.graph found).object id).parent = none ∧
      (∀ member, ¬ (batch.graph found).Descends member id) ∧
        ((batch.graph found).object id).isPolymorphic = false := by
  have hparent : ((batch.graph found).object id).parent = none := by
    rw [Option.eq_none_iff_forall_ne_some]
    intro parent hparent
    exact hrole (hnumbers.role_of_parent hfound hparent).1
  have hmember : ∀ member, ¬ (batch.graph found).Descends member id := by
    intro member hpath
    rcases Relation.TransGen.tail'_iff.mp hpath with ⟨child, -, hchild⟩
    exact hrole (hnumbers.role_of_parent hfound hchild).2
  refine ⟨hparent, hmember, ?_⟩
  rw [Bool.eq_false_iff, Ne, hnumbers.isPolymorphic_iff_kin hfound]
  rintro ⟨relative, hother, above, rfl | hpath, hkind⟩
  · rcases hkind with rfl | hpath
    · exact hother rfl
    · exact hmember relative hpath
  · rcases exists_parent_of_descends hpath with ⟨parent, hsome⟩
    rw [hparent] at hsome
    cases hsome

theorem role_of_target {id target : ObjectId} {field : Field}
    (hfield : field ∈ ((batch.graph found).object id).fields)
    (htarget : field.type.target? = some target) :
    ((batch.graph found).object target).role = .object ∨
      ((batch.graph found).object target).role = .embedded := by
  rcases hnumbers.exists_resolves hfound hfield with ⟨shape, hresolves⟩
  exact Graph.role_of_resolves hresolves htarget

theorem referenceSafe_graph
    (hassembled : ∀ outline ∈ outlines, ∃ bodies, Outline.Assembled outline.objects [] bodies) :
    (batch.graph found).ReferenceSafe where
  closed := hnumbers.closed_graph hfound
  declaredIn_lt id field hfield := by
    have hown := (isKindOf_declaredIn hfound hfield).2
    rcases exists_placed_of_field hown with ⟨placed, hplaced⟩
    exact lt_size_of_getElem? hplaced
  wireIds_lt entry hentry := by
    have hfind := (byWireId?_graph hnumbers.sound hfound).mp (TagMap.mem_entries_iff.mp hentry)
    rcases exists_placed_of_isPayload hfind.1 with ⟨placed, hplaced, -⟩
    exact lt_size_of_getElem? hplaced
  listed_lt space hspace id hid := by
    rcases List.mem_map.mp hspace with ⟨home, hhome, rfl⟩
    have hmem := (perm_namespaceOf home).mem_iff.mp hid
    rw [hnumbers.objectIds_eq_filter found hhome] at hmem
    exact Graph.mem_objectIds_iff.mp (List.mem_filter.mp hmem).1
  enums_lt space hspace id hid := by
    have hmem := List.mem_flatMap.mpr ⟨space, hspace, hid⟩
    rw [hnumbers.flatMap_enums] at hmem
    exact Graph.mem_enumIds_iff.mp hmem
  parent_role id parent := hnumbers.role_of_parent hfound
  alone id := hnumbers.alone_of_role hfound
  target_role id field hfield target := hnumbers.role_of_target hfound hfield
  owner id hrole := by
    rcases id with ⟨number⟩
    cases hplaced : batch.objects[number]? with
    | none =>
        rw [object_graph_of_none number hplaced] at hrole
        cases hrole
    | some placed =>
        rw [object_graph number hplaced] at hrole
        rcases hnumbers.sound.exists_place number placed hplaced with ⟨hhome, place, hobject, rfl⟩
        rcases hassembled _ (hnumbers.outline_mem hhome) with ⟨bodies, hbodies⟩
        exact hnumbers.exists_owner hfound hhome hobject hrole hbodies
  response_iff := hnumbers.isSome_response_iff hassembled
  request_iff := hnumbers.isSome_request_iff hassembled
  inverse asker answer := hnumbers.request_eq_some_iff
  answer_space asker answer := hnumbers.space_eq_of_response

theorem lists_graph {documents : List Document}
    (hread : documents.mapM Outline.ofDocument = .ok outlines) :
    (batch.graph found).Lists documents := by
  have hspaces : (batch.graph found).namespaces.map (·.name) = outlines.map (·.space) := by
    rw [← hnumbers.map_outline, List.map_map, graph, List.map_map]
    rfl
  have hroles (space : Namespace) (hspace : space ∈ (batch.graph found).namespaces) :
      space.objects = (batch.graph found).objectsWith space.name [.object, .embedded] ∧
        space.messages = (batch.graph found).objectsWith space.name [.message] ∧
        space.requests = (batch.graph found).objectsWith space.name [.request] ∧
        space.responses = (batch.graph found).objectsWith space.name [.response] := by
    rcases List.mem_map.mp hspace with ⟨home, hhome, rfl⟩
    exact ⟨hnumbers.idsWithRoles_eq hhome _, hnumbers.idsWithRoles_eq hhome _,
      hnumbers.idsWithRoles_eq hhome _, hnumbers.idsWithRoles_eq hhome _⟩
  constructor
  · have hkeys : outlines.map (fun outline => outline.enums.map fun type =>
        (outline.space, type.tag)) =
          documents.map fun document => document.enumKeys.map (Prod.mk document.space) := by
      apply Outcome.map_eq_of_forall₂ (Outcome.forall₂_of_mapM hread).flip
      intro outline document hdocument
      rw [← Outline.map_tag_ofDocument hdocument, Outline.space_ofDocument hdocument, List.map_map]
      rfl
    rw [List.flatMap_def, ← hkeys, ← hnumbers.map_outline, ← List.flatMap_def, List.flatMap_map,
      graph, List.map_flatMap]
    simp only [enumTypes, List.map_map, Function.comp_def]
  · exact hnumbers.forall₂_declaredBy hread hfound
  · rw [hspaces]
    exact Outcome.map_eq_of_forall₂ (Outcome.forall₂_of_mapM hread).flip
      fun outline document hdocument => Outline.space_ofDocument hdocument
  · rw [hspaces]
    exact hnumbers.spaces
  · intro space hspace
    rcases List.mem_map.mp hspace with ⟨home, hhome, rfl⟩
    exact hnumbers.enums_namespaceOf hhome
  · exact fun space hspace => (hroles space hspace).1
  · exact fun space hspace => (hroles space hspace).2.1
  · exact fun space hspace => (hroles space hspace).2.2.1
  · exact fun space hspace => (hroles space hspace).2.2.2
  · exact hnumbers.flatMap_enums
  · rw [← hnumbers.flatMap_objectIds, graph, List.flatMap_map]
    apply List.Perm.flatMap_left
    exact fun home _ => perm_namespaceOf home

end Numbers
end Batch

/-- Every compiled graph is safe to follow, and lists what the documents declare. -/
theorem Graph.referenceSafe_of_compile {documents : List Document} {graph : Graph}
    (hcompile : Graph.compile documents = .ok graph) :
    graph.ReferenceSafe ∧ graph.Lists documents := by
  rcases exists_reading_of_compile hcompile with
    ⟨outlines, batch, found, hread, hnumbers, hfound, rfl⟩
  exact ⟨hnumbers.referenceSafe_graph hfound (Outline.exists_assembled hread),
    hnumbers.lists_graph hfound hread⟩

namespace Sample

/-- A document with an embedded object and a request. -/
def market : List Document :=
  [⟨"market", .object [
    ("unit", .array [.string "kilo", .string "piece"]),
    ("stall", .object [
      ("goods", .array [.object [("unit", .string "@unit"), ("?price", .string "float")]])]),
    ("buy", .array [.object [("stall", .string "@stall")], .object [("?rest", .string "uint32")]])]⟩]

theorem safe_market :
    (schemaOf 1 market).graph.ReferenceSafe ∧ (schemaOf 1 market).graph.Lists market ∧
      ((schemaOf 1 market).graph.object ⟨0⟩).role = .embedded ∧
        ((schemaOf 1 market).graph.object ⟨2⟩).request = some ⟨3⟩ := by
  have hcompile : Graph.compile market = _ := compile_schemaOf 1 (by decide +kernel)
  rcases Graph.referenceSafe_of_compile hcompile with ⟨hsafe, hlists⟩
  exact ⟨hsafe, hlists, by decide +kernel, by decide +kernel⟩

end Sample

end WireSchema
