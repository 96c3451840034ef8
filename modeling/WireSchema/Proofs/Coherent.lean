import WireSchema.Codec.Decoding

/-!
# Coherent graphs

What the encoding of records relies on in a type graph: layouts are computed from the fields,
payloads and wire ids determine each other, no payload is nested or belongs to a family, and the
kind tag of an object leads back to it from every type it may stand for.
-/

namespace WireSchema

/-- The object type that a type refers to, through arrays of any depth. -/
def FieldType.target? : FieldType → Option ObjectId
  | .object id => some id
  | .array element => element.target?
  | _ => none

namespace Graph

structure Coherent (graph : Graph) : Prop where
  layout_eq : ∀ id, (graph.object id).layout =
    .ofFields (graph.object id).fields (graph.object id).isPayload (graph.object id).isPolymorphic
  exists_wireId : ∀ id, (graph.object id).isPayload = true →
    ∃ wire, (graph.object id).wireId = some wire ∧ graph.byWireId? wire = some id
  of_byWireId? : ∀ wire id, graph.byWireId? wire = some id →
    (graph.object id).isPayload = true ∧ (graph.object id).wireId = some wire
  mem_allFactoryIds : ∀ wire id,
    (wire, id) ∈ graph.allFactoryIds ↔ graph.byWireId? wire = some id
  isPolymorphic_payload : ∀ id, (graph.object id).isPayload = true →
    (graph.object id).isPolymorphic = false
  isPayload_target : ∀ id, ∀ field ∈ (graph.object id).fields, ∀ target,
    field.type.target? = some target → (graph.object target).isPayload = false
  isPayload_of_isA : ∀ id ancestor, graph.isA id ancestor = true →
    (graph.object ancestor).isPayload = false → (graph.object id).isPayload = false
  isPolymorphic_of_isA : ∀ id ancestor, graph.isA id ancestor = true →
    (graph.object id).isPolymorphic = (graph.object ancestor).isPolymorphic
  eq_of_isA : ∀ id ancestor, graph.isA id ancestor = true →
    (graph.object ancestor).isPolymorphic = false → id = ancestor
  concreteType_kindTag : ∀ id ancestor, graph.isA id ancestor = true →
    (graph.object ancestor).isPolymorphic = true →
      graph.concreteType ancestor (graph.object id).kindTag = id

theorem isA_self (graph : Graph) (id : ObjectId) : graph.isA id id = true := by
  unfold isA ancestry
  cases graph.objects.size with
  | zero => simp [climb]
  | succ steps =>
      rw [climb]
      split <;> simp

/-- Whatever the kind tag, the type selected is the declared one or inherits from it. -/
theorem isA_concreteType (graph : Graph) (declared : ObjectId) (tag : UInt32) :
    graph.isA (graph.concreteType declared tag) declared = true := by
  unfold concreteType
  extract_lets root selected
  by_cases hselected : graph.isA selected declared = true
  · rw [if_pos hselected]
    exact hselected
  · rw [if_neg hselected]
    exact graph.isA_self declared

theorem concreteType_of_some {graph : Graph} {declared id : ObjectId} {tag : UInt32}
    {table : DispatchTable} (htable : graph.table? (graph.object declared).root = some table)
    (hmember : table.members.find? tag = some id) (hisA : graph.isA id declared = true) :
    graph.concreteType declared tag = id := by
  have hresolve : table.resolve tag = id := by
    rw [DispatchTable.resolve, hmember, Option.getD_some]
  unfold concreteType
  simp only [htable, hresolve, hisA, if_true]

theorem concreteType_of_none {graph : Graph} {declared : ObjectId} {tag : UInt32}
    (htable : graph.table? (graph.object declared).root = none)
    (hisA : graph.isA (graph.object declared).root declared = true) :
    graph.concreteType declared tag = (graph.object declared).root := by
  unfold concreteType
  simp only [htable, hisA, if_true]

namespace Coherent

variable {graph : Graph}

/-! ## Layouts -/

theorem hasHeader_eq (hgraph : graph.Coherent) (id : ObjectId) :
    (graph.object id).layout.hasHeader = (graph.object id).isPayload := by
  rw [hgraph.layout_eq]
  rfl

theorem hasKindTag_eq (hgraph : graph.Coherent) (id : ObjectId) :
    (graph.object id).layout.hasKindTag = (graph.object id).isPolymorphic := by
  rw [hgraph.layout_eq]
  rfl

theorem flagBytes_eq (hgraph : graph.Coherent) (id : ObjectId) :
    (graph.object id).layout.flagBytes =
      flagBytes ((graph.object id).fields.countP (·.isOptional)) := by
  rw [hgraph.layout_eq]
  rfl

/-- A kind tag is there exactly if the declared type makes the reader look for one. -/
theorem hasKindTag_of_isA (hgraph : graph.Coherent) {id declared : ObjectId}
    (hisA : graph.isA id declared = true) :
    (graph.object id).layout.hasKindTag = (graph.object declared).isPolymorphic := by
  rw [hgraph.hasKindTag_eq, hgraph.isPolymorphic_of_isA id declared hisA]

theorem hasKindTag_of_isPayload (hgraph : graph.Coherent) {id : ObjectId}
    (hpayload : (graph.object id).isPayload = true) :
    (graph.object id).layout.hasKindTag = false := by
  rw [hgraph.hasKindTag_eq, hgraph.isPolymorphic_payload id hpayload]

theorem not_hasHeader_of_isA (hgraph : graph.Coherent) {id declared : ObjectId}
    (hisA : graph.isA id declared = true) (hinner : (graph.object declared).isPayload = false) :
    (graph.object id).layout.hasHeader = false := by
  rw [hgraph.hasHeader_eq, hgraph.isPayload_of_isA id declared hisA hinner]

end Coherent

end Graph
end WireSchema
