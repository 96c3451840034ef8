import WireSchema.Proofs.Closed
import WireSchema.Proofs.Coherent
import WireSchema.Proofs.Emitter

/-!
# Declarations found by their names

The contracts list every declaration of a graph under its qualified name, and under no other.  So
whoever looks a type up finds its contract, and whoever looks up a value of an enum finds its
ordinal.
-/

namespace WireSchema

/-- A contract drops no value of an enum that has at most 256 of them. -/
theorem Contract.values_ofEnum {type : EnumType} (hlength : type.values.length ≤ 256) :
    (ofEnum type).values = type.values.zipIdx.map fun entry => ⟨entry.1, entry.2⟩ := by
  rw [ofEnum, enumValues, List.take_of_length_le hlength]

theorem Contract.ordinal?_ofEnum {type : EnumType} (hlength : type.values.length ≤ 256)
    (hnodup : type.values.Nodup) {ordinal : UInt8} {name : String}
    (hvalue : type.value? ordinal = some name) :
    (ofEnum type).ordinal? name = some ordinal.toNat := by
  have hfind : (ofEnum type).values.find? (·.name == name) = some ⟨name, ordinal.toNat⟩ := by
    rw [values_ofEnum hlength]
    apply find?_eq_some_of_unique
    · exact List.mem_map.mpr ⟨(name, ordinal.toNat), List.mem_zipIdx_iff_getElem?.mpr hvalue, rfl⟩
    · exact beq_self_eq_true name
    · intro other hother hname
      rcases List.mem_map.mp hother with ⟨⟨value, place⟩, hentry, rfl⟩
      have hplace := List.mem_zipIdx_iff_getElem?.mp hentry
      have hsame : value = name := eq_of_beq hname
      subst hsame
      have hlt := (List.getElem?_eq_some_iff.mp hplace).1
      rw [(List.getElem?_inj hlt hnodup).mp (hplace.trans hvalue.symm)]
  rw [Enum.ordinal?, hfind, Option.map_some]

/-- What an emitter may rely on: the contracts tell all of the graph, the presence bits of fields
are numbered in their order, and wire ids are those of payloads. -/
structure Contract.Tells (manifests : List Manifest) (graph : Graph) : Prop where
  closed : graph.Closed
  coherent : graph.Coherent
  isSome_wireId : ∀ id, (graph.object id).wireId.isSome = (graph.object id).isPayload
  namesDistinct : ∀ id, NamesDistinct (graph.object id).fields
  numbered : ∀ id, Batch.numberFlags 0 (graph.object id).fields = (graph.object id).fields
  object? : ∀ id, id.index < graph.objects.size →
    object? manifests (qualifiedName graph id) = some (ofObject graph (graph.object id))
  ordinal? : ∀ id, id.index < graph.enums.size → ∀ ordinal name,
    (graph.enum id).value? ordinal = some name →
      ((enum? manifests (enumName graph id)).bind fun type => type.ordinal? name) =
        some ordinal.toNat

namespace Batch

variable {batch : Batch} {outlines : List Outline} {found : Findings}

theorem qualified_graph (number : Nat) {placed : PlacedObject}
    (hplaced : batch.objects[number]? = some placed) :
    placed.space ++ ":" ++ ((batch.graph found).object ⟨number⟩).name =
      Contract.qualifiedName (batch.graph found) ⟨number⟩ := by
  rw [qualifiedName_graph number hplaced, object_graph number hplaced]
  rfl

theorem namesDistinct_graph (hfound : batch.Examined found) (id : ObjectId) :
    NamesDistinct ((batch.graph found).object id).fields := by
  rcases exists_fields_graph hfound id with ⟨lineage, hdistinct, hfields⟩
  rw [hfields, NamesDistinct, map_numberFlags fun _ _ => rfl]
  exact hdistinct

theorem numberFlags_graph (hfound : batch.Examined found) (id : ObjectId) :
    numberFlags 0 ((batch.graph found).object id).fields =
      ((batch.graph found).object id).fields := by
  rcases exists_fields_graph hfound id with ⟨lineage, -, hfields⟩
  rw [hfields, numberFlags_numberFlags]

namespace Numbers

variable (hnumbers : batch.Numbers outlines) (hfound : batch.Examined found)

include hnumbers

theorem ordinal?_all {id : EnumId} (hid : id.index < (batch.graph found).enums.size)
    {ordinal : UInt8} {name : String}
    (hvalue : ((batch.graph found).enum id).value? ordinal = some name) :
    (Contract.ofEnum ((batch.graph found).enum id)).ordinal? name = some ordinal.toNat := by
  rcases hnumbers.exists_named_enum hid with ⟨home, hhome, place, declared, hdeclared, rfl, -⟩
  have hproper := hnumbers.proper _ (hnumbers.outline_mem hhome)
  have hmem := List.mem_of_getElem? hdeclared
  rw [hnumbers.enum_graph hhome hdeclared] at hvalue ⊢
  exact Contract.ordinal?_ofEnum (hproper.length_values_le declared hmem)
    (hproper.values_nodup declared hmem) hvalue

include hfound

theorem isSome_wireId_graph (id : ObjectId) :
    ((batch.graph found).object id).wireId.isSome =
      ((batch.graph found).object id).isPayload := by
  cases hplaced : batch.objects[id.index]? with
  | none =>
      rw [object_graph_of_none id.index hplaced]
      rfl
  | some placed =>
      rw [wireId_graph id.index hplaced hfound, isPayload_graph id.index hplaced,
        (hnumbers.sound.of_getElem? hplaced).isPayload_eq, Option.isSome_map]

/-- The contracts list the objects of the graph, each under its name. -/
theorem mem_namedObjects_iff {name : String} {object : Contract.Object} :
    (name, object) ∈ Contract.namedObjects (Contract.all (batch.graph found)) ↔
      ∃ id : ObjectId, id.index < (batch.graph found).objects.size ∧
        name = Contract.qualifiedName (batch.graph found) id ∧
          object = Contract.ofObject (batch.graph found) ((batch.graph found).object id) := by
  rw [Contract.namedObjects, hnumbers.all_graph, List.mem_flatMap]
  constructor
  · rintro ⟨manifest, hmanifest, hobject⟩
    rcases List.mem_map.mp hmanifest with ⟨home, hhome, rfl⟩
    rw [hnumbers.ofNamespace_graph hfound hhome, List.map_map] at hobject
    rcases List.mem_map.mp hobject with ⟨id, hid, hentry⟩
    rcases PlacedOutline.mem_objectIds_iff.mp hid with ⟨place, declared, hdeclared, rfl⟩
    have hplaced := hnumbers.sound.getElem?_of_place home hhome place declared hdeclared
    cases hentry
    exact ⟨home.objectAt place, lt_size_of_getElem? hplaced, qualified_graph _ hplaced, rfl⟩
  · rintro ⟨id, hid, rfl, rfl⟩
    rcases hnumbers.exists_home_of_lt hid with ⟨placed, hplaced, hhome, hmem⟩
    refine ⟨_, List.mem_map_of_mem hhome, ?_⟩
    rw [hnumbers.ofNamespace_graph hfound hhome, List.map_map]
    refine List.mem_map.mpr ⟨id, hmem, ?_⟩
    rw [← qualified_graph id.index hplaced]
    rfl

theorem mem_namedEnums_iff {name : String} {type : Contract.Enum} :
    (name, type) ∈ Contract.namedEnums (Contract.all (batch.graph found)) ↔
      ∃ id : EnumId, id.index < (batch.graph found).enums.size ∧
        name = Contract.enumName (batch.graph found) id ∧
          type = Contract.ofEnum ((batch.graph found).enum id) := by
  rw [Contract.namedEnums, hnumbers.all_graph, List.mem_flatMap]
  constructor
  · rintro ⟨manifest, hmanifest, htype⟩
    rcases List.mem_map.mp hmanifest with ⟨home, hhome, rfl⟩
    rw [hnumbers.ofNamespace_graph hfound hhome, List.map_map] at htype
    rcases List.mem_map.mp htype with ⟨declared, hdeclared, hentry⟩
    rcases List.mem_iff_getElem?.mp hdeclared with ⟨place, hplace⟩
    have henum : (batch.graph found).enum (home.enumAt place) = _ :=
      hnumbers.enum_graph hhome hplace
    cases hentry
    refine ⟨home.enumAt place, ?_, ?_, ?_⟩
    · exact (Array.getElem?_eq_some_iff.mp (hnumbers.getElem?_enums hhome hplace)).1
    · rw [Contract.enumName, henum]
      rfl
    · rw [henum]
  · rintro ⟨id, hid, rfl, rfl⟩
    rcases hnumbers.exists_named_enum hid with
      ⟨home, hhome, place, declared, hdeclared, rfl, -, hname⟩
    refine ⟨_, List.mem_map_of_mem hhome, ?_⟩
    rw [hnumbers.ofNamespace_graph hfound hhome, List.map_map]
    refine List.mem_map.mpr ⟨declared, List.mem_of_getElem? hdeclared, ?_⟩
    rw [hname, hnumbers.enum_graph hhome hdeclared]
    rfl

theorem object?_all {id : ObjectId} (hid : id.index < (batch.graph found).objects.size) :
    Contract.object? (Contract.all (batch.graph found))
        (Contract.qualifiedName (batch.graph found) id) =
      some (Contract.ofObject (batch.graph found) ((batch.graph found).object id)) := by
  apply Contract.find?_named
  · exact (hnumbers.mem_namedObjects_iff hfound).mpr ⟨id, hid, rfl, rfl⟩
  · intro object hobject
    rcases (hnumbers.mem_namedObjects_iff hfound).mp hobject with ⟨other, hother, hname, rfl⟩
    rw [hnumbers.eq_of_qualifiedName hother hid hname.symm]

theorem enum?_all {id : EnumId} (hid : id.index < (batch.graph found).enums.size) :
    Contract.enum? (Contract.all (batch.graph found)) (Contract.enumName (batch.graph found) id) =
      some (Contract.ofEnum ((batch.graph found).enum id)) := by
  apply Contract.find?_named
  · exact (hnumbers.mem_namedEnums_iff hfound).mpr ⟨id, hid, rfl, rfl⟩
  · intro type htype
    rcases (hnumbers.mem_namedEnums_iff hfound).mp htype with ⟨other, hother, hname, rfl⟩
    rw [hnumbers.eq_of_enumName hother hid hname.symm]

theorem tells_graph : Contract.Tells (Contract.all (batch.graph found)) (batch.graph found) where
  closed := hnumbers.closed_graph hfound
  coherent := coherent_graph hnumbers.sound hfound
  isSome_wireId := hnumbers.isSome_wireId_graph hfound
  namesDistinct := namesDistinct_graph hfound
  numbered := numberFlags_graph hfound
  object? _ hid := hnumbers.object?_all hfound hid
  ordinal? _ hid _ _ hvalue := by
    rw [hnumbers.enum?_all hfound hid]
    exact hnumbers.ordinal?_all hid hvalue

end Numbers
end Batch
end WireSchema
