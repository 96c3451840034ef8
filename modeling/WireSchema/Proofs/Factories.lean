import Mathlib.Algebra.Group.Nat.Defs
import Mathlib.Data.List.Perm.Basic
import WireSchema.Proofs.Assembly
import WireSchema.Proofs.Namespaces
import WireSchema.Registry.Message

/-!
# Wire ids and factories

Every payload of a graph has a wire id, and nothing else has one.  The id is the hash of the
namespace and the type name, and it leads back to the payload.  The factories of a graph are listed
by these ids, and so are the empty messages that they make.
-/

namespace WireSchema

theorem Naming.wireHash_bounds (name : String) :
    1 ≤ (wireHash name).toNat ∧ (wireHash name).toNat ≤ 2 ^ 30 - 1 := by
  constructor
  · have hnonzero := wireHash_ne_zero name
    rw [← UInt32.toNat_inj.ne] at hnonzero
    exact Nat.one_le_iff_ne_zero.mpr hnonzero
  · unfold wireHash hashUnits
    dsimp only
    split
    · decide
    · have hmask : hashMask.toNat = 2 ^ 30 - 1 := rfl
      rw [UInt32.toNat_and, hmask]
      exact Nat.and_le_right

theorem Role.isPayload_iff_mem {role : Role} :
    role.isPayload = true ↔ role ∈ [Role.message, .request, .response] := by
  cases role <;> simp [isPayload]

namespace Graph

variable {graph : Graph}

theorem mem_withWireIds_iff {ids : List ObjectId} {wire : UInt32} {id : ObjectId} :
    (wire, id) ∈ graph.withWireIds ids ↔ id ∈ ids ∧ (graph.object id).wireId = some wire := by
  simp only [withWireIds, List.mem_filterMap, Option.map_eq_some_iff, Prod.mk.injEq]
  constructor
  · rintro ⟨other, hother, other', hwire, rfl, rfl⟩
    exact ⟨hother, hwire⟩
  · rintro ⟨hid, hwire⟩
    exact ⟨id, hid, wire, hwire, rfl, rfl⟩

theorem map_snd_withWireIds {ids : List ObjectId}
    (hids : ∀ id ∈ ids, (graph.object id).wireId.isSome = true) :
    (graph.withWireIds ids).map (·.2) = ids := by
  induction ids with
  | nil => rfl
  | cons id rest ih =>
      rw [List.forall_mem_cons] at hids
      rcases Option.isSome_iff_exists.mp hids.1 with ⟨wire, hwire⟩
      rw [withWireIds, List.filterMap_cons, hwire, Option.map_some, List.map_cons]
      exact congrArg (List.cons id) (ih hids.2)

/-- The payloads of a graph and the numbers by which they are known on the wire. -/
structure IdentifiesPayloads (graph : Graph) : Prop where
  isSome_iff : ∀ id, (graph.object id).wireId.isSome = true ↔
    (graph.object id).role ∈ [Role.message, .request, .response]
  hash_eq : ∀ id wire, (graph.object id).wireId = some wire →
    wire = Naming.wireHash ((graph.object id).space ++ (graph.object id).name)
  bounds : ∀ id wire, (graph.object id).wireId = some wire →
    1 ≤ wire.toNat ∧ wire.toNat ≤ 2 ^ 30 - 1
  eq_of_wireId : ∀ first second wire, (graph.object first).wireId = some wire →
    (graph.object second).wireId = some wire → first = second
  byWireId?_iff : ∀ wire id, graph.byWireId? wire = some id ↔ (graph.object id).wireId = some wire
  all_once : (graph.allFactoryIds.map (·.2)).Perm (graph.objectIds.filter fun id =>
    [Role.message, .request, .response].contains (graph.object id).role)
  all_wireId : ∀ entry ∈ graph.allFactoryIds, (graph.object entry.2).wireId = some entry.1
  /-- Messages come first, then requests, then responses, each in the order of the graph. -/
  ofSpace_eq : ∀ space, (graph.factoryIds space).map (·.2) =
    graph.objectsWith space [.message] ++ graph.objectsWith space [.request] ++
      graph.objectsWith space [.response]
  ofSpace_wireId : ∀ space, ∀ entry ∈ graph.factoryIds space,
    (graph.object entry.2).wireId = some entry.1
  command_eq : ∀ number, ∀ entry ∈ Payload.all ⟨number, graph⟩, Message.command entry.2 = entry.1
  command_ofSpace_eq : ∀ number space, ∀ entry ∈ Payload.ofNamespace ⟨number, graph⟩ space,
    Message.command entry.2 = entry.1

end Graph

namespace Batch

variable {batch : Batch} {outlines : List Outline} {found : Findings}

namespace Numbers

variable (hnumbers : batch.Numbers outlines) (hfound : batch.Examined found)
  (hassembled : ∀ outline ∈ outlines, ∃ bodies, Outline.Assembled outline.objects [] bodies)

include hnumbers hfound hassembled

/-- The wire id of a payload is made of its namespace and its type name. -/
theorem wireId_eq (id : ObjectId) :
    ((batch.graph found).object id).wireId =
      if ((batch.graph found).object id).isPayload then
        some (WireIds.idOf ((batch.graph found).object id).space ((batch.graph found).object id).name)
      else none := by
  rcases id with ⟨number⟩
  cases hplaced : batch.objects[number]? with
  | none =>
      rw [object_graph_of_none _ hplaced]
      rfl
  | some placed =>
      rcases hnumbers.sound.exists_place number placed hplaced with ⟨hhome, place, hobject, -⟩
      rcases hassembled _ (hnumbers.outline_mem hhome) with ⟨bodies, hbodies⟩
      have hname := hbodies.wireName_eq _ (List.mem_of_getElem? hobject)
      rw [wireId_graph _ hplaced hfound, isPayload_graph _ hplaced, hname, object_graph _ hplaced]
      cases placed.object.role.isPayload <;> rfl

theorem isSome_wireId_iff (id : ObjectId) :
    ((batch.graph found).object id).wireId.isSome = true ↔
      ((batch.graph found).object id).role ∈ [Role.message, .request, .response] := by
  rw [hnumbers.wireId_eq hfound hassembled, ← Role.isPayload_iff_mem]
  change _ ↔ ((batch.graph found).object id).isPayload = true
  cases ((batch.graph found).object id).isPayload <;> simp

theorem eq_idOf {id : ObjectId} {wire : UInt32}
    (hwire : ((batch.graph found).object id).wireId = some wire) :
    wire = WireIds.idOf ((batch.graph found).object id).space
      ((batch.graph found).object id).name := by
  rw [hnumbers.wireId_eq hfound hassembled] at hwire
  split at hwire
  · exact (Option.some.inj hwire).symm
  · cases hwire

theorem byWireId?_iff (wire : UInt32) (id : ObjectId) :
    (batch.graph found).byWireId? wire = some id ↔
      ((batch.graph found).object id).wireId = some wire := by
  rw [byWireId?_graph hnumbers.sound hfound]
  constructor
  · exact fun hboth => hboth.2
  · intro hwire
    refine ⟨?_, hwire⟩
    have hsome := hnumbers.isSome_wireId_iff hfound hassembled id
    rw [hwire, ← Role.isPayload_iff_mem] at hsome
    exact hsome.mp rfl

theorem map_snd_withWireIds {home : PlacedOutline} (hhome : home ∈ batch.outlines) :
    ((batch.graph found).withWireIds (namespaceOf home).payloads).map (·.2) =
      (namespaceOf home).payloads := by
  apply Graph.map_snd_withWireIds
  intro id hid
  rcases mem_payloads_iff.mp hid with ⟨place, object, hobject, hrole, rfl⟩
  have hplaced := hnumbers.sound.getElem?_of_place home hhome place object hobject
  have hpayload : ((batch.graph found).object ⟨home.firstObject + place⟩).isPayload = true :=
    (isPayload_graph _ hplaced).trans hrole
  rw [hnumbers.wireId_eq hfound hassembled, hpayload]
  rfl

theorem perm_allFactoryIds :
    ((batch.graph found).allFactoryIds.map (·.2)).Perm
      ((batch.graph found).objectIds.filter fun id =>
        [Role.message, .request, .response].contains ((batch.graph found).object id).role) := by
  have hspaces : (batch.graph found).namespaces = batch.outlines.map namespaceOf := rfl
  rw [Graph.allFactoryIds, List.map_flatMap, hspaces, List.flatMap_map,
    ← hnumbers.flatMap_idsWithRoles]
  apply List.Perm.flatMap_left
  intro home hhome
  rw [hnumbers.map_snd_withWireIds hfound hassembled hhome]
  exact perm_payloads home

theorem map_snd_factoryIds (space : String) :
    ((batch.graph found).factoryIds space).map (·.2) =
      (batch.graph found).objectsWith space [.message] ++
        (batch.graph found).objectsWith space [.request] ++
          (batch.graph found).objectsWith space [.response] := by
  by_cases hdeclared : ∃ home ∈ batch.outlines, home.outline.space = space
  · rcases hdeclared with ⟨home, hhome, rfl⟩
    rw [hnumbers.factoryIds_graph hhome, hnumbers.map_snd_withWireIds hfound hassembled hhome,
      ← hnumbers.idsWithRoles_eq hhome, ← hnumbers.idsWithRoles_eq hhome,
      ← hnumbers.idsWithRoles_eq hhome]
    rfl
  · -- No object belongs to a namespace that no document has.
    have hnone (roles : List Role) : (batch.graph found).objectsWith space roles = [] := by
      rw [List.eq_nil_iff_forall_not_mem]
      intro id hid
      rcases Graph.mem_objectsWith_iff.mp hid with ⟨hlt, hspace, -⟩
      rw [size_graph] at hlt
      have hplaced := List.getElem?_eq_getElem hlt
      rw [space_graph id.index hplaced] at hspace
      exact hdeclared ⟨_, (hnumbers.sound.exists_place id.index _ hplaced).1, hspace⟩
    have hunknown : (batch.graph found).namespace? space = none := by
      apply hnumbers.namespace?_graph_eq_none
      intro outline houtline hspace
      rcases hnumbers.exists_home houtline with ⟨home, hhome, rfl⟩
      exact hdeclared ⟨home, hhome, hspace⟩
    rw [hnone, hnone, hnone, Graph.factoryIds, hunknown]
    rfl

end Numbers
end Batch

/-- The factories of a graph make messages with the wire ids that they are listed by. -/
theorem Payload.command_of_mem_empties {graph : Graph} {number : Nat} {ids : List (UInt32 × ObjectId)}
    (hids : ∀ entry ∈ ids, (graph.object entry.2).wireId = some entry.1) {entry : UInt32 × Payload}
    (hentry : entry ∈ empties ⟨number, graph⟩ ids) : Message.command entry.2 = entry.1 := by
  rcases List.mem_map.mp hentry with ⟨⟨wire, id⟩, hmem, rfl⟩
  have hwire : (graph.object id).wireId = some wire := hids (wire, id) hmem
  change (graph.object id).wireId.getD 0 = wire
  rw [hwire, Option.getD_some]

theorem Graph.wireId_of_mem_factoryIds {graph : Graph} {space : String} {entry : UInt32 × ObjectId}
    (hentry : entry ∈ graph.factoryIds space) : (graph.object entry.2).wireId = some entry.1 := by
  unfold factoryIds at hentry
  split at hentry
  · exact (mem_withWireIds_iff.mp hentry).2
  · cases hentry

theorem Graph.wireId_of_mem_allFactoryIds {graph : Graph} {entry : UInt32 × ObjectId}
    (hentry : entry ∈ graph.allFactoryIds) : (graph.object entry.2).wireId = some entry.1 := by
  rcases List.mem_flatMap.mp hentry with ⟨space, -, hmem⟩
  exact (mem_withWireIds_iff.mp hmem).2

/-- In every compiled graph the wire ids tell the payloads apart, and the factories are listed by
them. -/
theorem Graph.identifiesPayloads_of_compile {documents : List Document} {graph : Graph}
    (hcompile : Graph.compile documents = .ok graph) : graph.IdentifiesPayloads := by
  rcases exists_reading_of_compile hcompile with
    ⟨outlines, batch, found, hread, hnumbers, hfound, rfl⟩
  have hassembled := Outline.exists_assembled hread
  have hselects := hnumbers.byWireId?_iff hfound hassembled
  constructor
  · exact hnumbers.isSome_wireId_iff hfound hassembled
  · exact fun id wire hwire => hnumbers.eq_idOf hfound hassembled hwire
  · intro id wire hwire
    rw [hnumbers.eq_idOf hfound hassembled hwire]
    exact Naming.wireHash_bounds _
  · intro first second wire hfirst hsecond
    have hsame := (hselects wire first).mpr hfirst
    rw [(hselects wire second).mpr hsecond, Option.some.injEq] at hsame
    exact hsame.symm
  · exact hselects
  · exact hnumbers.perm_allFactoryIds hfound hassembled
  · exact fun entry => wireId_of_mem_allFactoryIds
  · exact hnumbers.map_snd_factoryIds hfound hassembled
  · exact fun space entry => wireId_of_mem_factoryIds
  · exact fun number entry hentry =>
      Payload.command_of_mem_empties (fun _ => wireId_of_mem_allFactoryIds) hentry
  · exact fun number space entry hentry =>
      Payload.command_of_mem_empties (fun _ => wireId_of_mem_factoryIds) hentry

namespace Sample

/-- Keys that begin with a mark and a digit, or hold letters that no name has. -/
def gallery : List Document :=
  [⟨"gallery", .object [
    ("?3d_view", .array [.object [("angle", .string "float")]]),
    ("héllo-ask", .array [.object [], .object [("?text", .string "string")]])]⟩]

theorem identified_gallery :
    (schemaOf 1 gallery).graph.IdentifiesPayloads ∧
      (schemaOf 1 gallery).graph.factoryIds "gallery" =
        [(Naming.wireHash "galleryDViewMessage", ⟨0⟩),
          (Naming.wireHash "galleryHLloAskRequest", ⟨2⟩),
          (Naming.wireHash "galleryHLloAskResponse", ⟨1⟩)] := by
  have hcompile : Graph.compile gallery = _ := compile_schemaOf 1 (by decide +kernel)
  exact ⟨Graph.identifiesPayloads_of_compile hcompile, by decide +kernel⟩

end Sample

end WireSchema
