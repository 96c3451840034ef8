import WireSchema.Proofs.Finishing
import WireSchema.Proofs.Marks
import WireSchema.Proofs.Slots

/-!
# One optional field

Filling the slot of an optional field sets one presence bit and inserts the encoding of the value
among those of the other values.  Nothing else of an encoding changes, neither its front nor the
number of presence bytes, and nothing else of the record that is read from it.
-/

namespace WireSchema

open Reading (Recovers)

variable {schema : Schema}

theorem Record.carriedSlots_set_none (fields : List Field) (slots : List (Option Value))
    (index : Nat) :
    Record.carriedSlots schema fields (slots.set index none) =
      (Record.carriedSlots schema fields slots).set index none := by
  induction slots generalizing fields index with
  | nil => simp [Record.carriedSlots]
  | cons slot rest ih =>
      cases fields with
      | nil => cases slot <;> cases index <;> simp [Record.carriedSlots]
      | cons field fields =>
          cases slot <;> cases index <;> simp [Record.carriedSlots, ih]

/-! ## Records that differ in one slot -/

/-- One record has a value in a slot and another one has none, and they are equal otherwise. -/
structure Record.DiffersAt (index : Nat) (bare filled : Record) : Prop where
  bare_eq : bare = filled.withSlot index none
  isSome : (filled.valueAt? index).isSome = true

theorem Record.DiffersAt.withTransaction {index : Nat} {bare filled : Record}
    (hdiffers : DiffersAt index bare filled) (transaction : Option UInt32) :
    DiffersAt index { bare with transaction := transaction }
      { filled with transaction := transaction } := by
  obtain ⟨rfl, hsome⟩ := hdiffers
  exact ⟨rfl, hsome⟩

theorem Record.isSome_valueAt?_carried (record : Record) (index : Nat) :
    ((record.carried schema).valueAt? index).isSome = (record.valueAt? index).isSome := by
  have hsame := congrArg (fun marks => marks[index]?) (Record.map_isSome_carried schema record)
  simp only [List.getElem?_map] at hsame
  unfold Record.valueAt?
  cases hone : (record.carried schema).slots[index]? <;> cases htwo : record.slots[index]? <;>
    simp [hone, htwo] at hsame ⊢
  exact hsame

/-- The difference arrives as it is. -/
theorem Record.DiffersAt.carried {index : Nat} {bare filled : Record}
    (hdiffers : DiffersAt index bare filled) :
    DiffersAt index (bare.carried schema) (filled.carried schema) := by
  obtain ⟨rfl, hsome⟩ := hdiffers
  refine ⟨?_, ?_⟩
  · obtain ⟨number, id, slots, transaction⟩ := filled
    simp only [Record.carried, Record.withSlot, Record.carriedSlots_set_none]
  · rw [Record.isSome_valueAt?_carried]
    exact hsome

theorem Record.DiffersAt.nesting_le {index : Nat} {bare filled : Record}
    (hdiffers : DiffersAt index bare filled) {levels : Nat} (hnesting : filled.nesting ≤ levels) :
    bare.nesting ≤ levels := by
  obtain ⟨rfl, -⟩ := hdiffers
  rw [Record.nesting_le_iff] at hnesting ⊢
  intro held hheld
  rcases List.mem_or_eq_of_mem_set hheld with hheld | hheld
  · exact hnesting held hheld
  · cases hheld

/-! ## All readings of a type -/

/-- Reading into a record, as a reading that gives the record. -/
def Record.reading (schema : Schema) (record : Record) : Reading Record := fun reader =>
  match record.decode schema reader with
  | (arrived, .ok _ left) => .ok arrived left
  | (_, .error fault left) => .error fault left

/-- The readings for records of a type: as a payload, in place of a declared type, or into a record
that exists already. -/
inductive Schema.Reads (schema : Schema) (type : ObjectId) : Reading Record → Prop where
  | payload (hpayload : (schema.graph.object type).isPayload = true) :
      Reads schema type schema.decodePayload
  | object {declared : ObjectId} (hisA : schema.graph.isA type declared = true)
      (hinner : (schema.graph.object declared).isPayload = false) :
      Reads schema type (schema.decodeObject declared)
  | into {other : Record} (hschema : other.schema = schema.number) (htype : other.type = type) :
      Reads schema type (other.reading schema)

theorem Record.recovers_skipKindTag (type : ObjectType) :
    Recovers (Record.skipKindTag type) type.kindTagBytes () := by
  unfold Record.skipKindTag ObjectType.kindTagBytes
  split
  · exact (Reading.recovers_uint32 type.kindTag).bind_pure fun _ => ()
  · exact Reading.recovers_pure ()

theorem Record.exists_recovers_readHeader (hgraph : schema.graph.Coherent) (id : ObjectId) :
    ∃ taken : Option UInt32 → Option UInt32, ∀ transaction header,
      (schema.graph.object id).headerImage transaction = .ok header →
        Recovers (Record.readHeader (schema.graph.object id)) header (taken transaction) := by
  cases hpayload : (schema.graph.object id).isPayload with
  | true =>
      refine ⟨fun transaction => some (transaction.getD 0), fun transaction header hheader => ?_⟩
      obtain ⟨wire, hwire, hselects⟩ := hgraph.exists_wireId id hpayload
      have hhasHeader := (hgraph.hasHeader_eq id).trans hpayload
      rw [ObjectType.headerImage, hhasHeader, if_pos rfl, hwire] at hheader
      cases hheader
      exact Record.recovers_readHeader hgraph (transaction.getD 0) hselects
  | false =>
      refine ⟨fun _ => none, fun transaction header hheader => ?_⟩
      have hbare := (hgraph.hasHeader_eq id).trans hpayload
      rw [ObjectType.headerImage_of_not_hasHeader hbare hheader, Record.readHeader, hbare]
      exact Reading.recovers_pure none

theorem Record.recovers_reading {record other : Record}
    (hschema : other.schema = schema.number) (htype : other.type = record.type)
    {header kindTag body : List UInt8} {transaction : Option UInt32}
    {slots : List (Option Value)}
    (hheader : Recovers (Record.readHeader (record.typeIn schema)) header transaction)
    (hkindTag : Recovers (Record.skipKindTag (record.typeIn schema)) kindTag ())
    (hslots : Recovers (EStateM.adaptExcept Interruption.cause
      ((record.typeIn schema).readBody schema.readPayloadValue)) body slots) :
    Recovers (other.reading schema) (header ++ (kindTag ++ body))
      ⟨schema.number, record.type, slots, transaction <|> other.transaction⟩ := by
  intro offset rest
  have hsame : other.typeIn schema = record.typeIn schema := congrArg schema.graph.object htype
  rw [← hsame] at hheader hkindTag hslots
  have hrun := Record.decode_of_ok other (hheader offset (kindTag ++ (body ++ rest)))
    (hkindTag _ (body ++ rest)) (hslots _ rest)
  rw [Record.reading, List.append_assoc, List.append_assoc, hrun, ← hschema, ← htype]
  simp [Nat.add_assoc]

/-- A reading gives what a record carries, with a transaction id that depends on that of the record
only. -/
theorem Schema.Reads.exists_recovers (hgraph : schema.graph.Coherent) {type : ObjectId}
    {reading : Reading Record} (hreads : schema.Reads type reading) :
    ∃ taken : Option UInt32 → Option UInt32, ∀ (record : Record) (data : List UInt8),
      record.type = type → record.Travels schema (depthLimit - 1) →
        record.image schema = .ok data → Recovers reading data
          { record.carried schema with transaction := taken record.transaction } := by
  cases hreads with
  | payload hpayload =>
      refine ⟨fun transaction => some (transaction.getD 0), ?_⟩
      rintro record data rfl htravels hdata
      exact Record.recovers_decodePayload hgraph hpayload htravels hdata
  | @object declared hisA hinner =>
      refine ⟨fun _ => none, ?_⟩
      rintro record data rfl htravels hdata
      exact Record.recovers_readObject hgraph (depthLimit - 1) declared record data hisA hinner
        htravels hdata
  | @into other hschema htype =>
      obtain ⟨taken, htaken⟩ := Record.exists_recovers_readHeader hgraph type
      refine ⟨fun transaction => taken transaction <|> other.transaction, ?_⟩
      rintro record data rfl htravels hdata
      obtain ⟨header, body, hheader, hbody, rfl⟩ := Record.exists_image_parts hdata
      have hread := Record.recovers_reading hschema htype
        (htaken record.transaction header hheader)
        (Record.recovers_skipKindTag (record.typeIn schema))
        (Record.recovers_readBody hgraph htravels hbody)
      rw [Record.carried_eq, htravels.typed.self.schema_eq]
      exact hread

/-! ## Encodings that differ in one field -/

/-- Writing gives the bytes wherever there is room for them. -/
def Writing.Gives (action : Writing Unit) (data : List UInt8) : Prop :=
  ∀ writer : Writer, data.length ≤ writer.remaining → action writer = .ok () (writer.advance data)

namespace Insertion

end Insertion

/-- A field is found under its name. -/
theorem ObjectType.fieldIndex?_of_getElem? {type : ObjectType}
    (hdistinct : NamesDistinct type.fields) {index : Nat} {field : Field}
    (hfield : type.fields[index]? = some field) :
    type.fieldIndex? field.name = some index := by
  obtain ⟨hlt, hsame⟩ := List.getElem?_eq_some_iff.mp hfield
  rw [ObjectType.fieldIndex?, List.findIdx?_eq_some_iff_getElem]
  refine ⟨hlt, by simp [hsame], fun place hplace hname => ?_⟩
  have hnames : (type.fields.map (·.name))[place]? = (type.fields.map (·.name))[index]? := by
    have hlt' := Nat.lt_trans hplace hlt
    simp only [List.getElem?_map, hfield, List.getElem?_eq_getElem hlt', Option.map_some]
    exact congrArg some (eq_of_beq hname)
  have heq := (List.getElem?_inj (by simpa using Nat.lt_trans hplace hlt) hdistinct).mp hnames
  omega

/-- What is asked of a value that is encoded: it is well typed, nothing in it is missing, and its
texts and arrays are short. -/
structure Value.Sendable (schema : Schema) (value : Value) : Prop where
  typed : value.WellTyped schema
  complete : value.Complete schema
  bounded : value.Bounded

theorem Value.Sendable.truncated {value : Value} (hvalue : value.Sendable schema) :
    value.truncated.Sendable schema :=
  ⟨value.onRecords_truncated hvalue.typed, value.onRecords_truncated hvalue.complete,
    value.bounded_truncated hvalue.bounded⟩

theorem Value.Sendable.gives {record : Record} (hsendable : (Value.record record).Sendable schema)
    {data : List UInt8} (hdata : record.image schema = .ok data) :
    Writing.Gives (record.encode schema) data := by
  have hemits := Record.emits_encode schema record
  rw [hdata] at hemits
  exact fun writer hroom => hemits.run hsendable.bounded hroom

/-- A slot is filled with what is encoded, too, or it is emptied if its field is optional. -/
theorem Value.Sendable.withSlot {record : Record} (hrecord : (Value.record record).Sendable schema)
    {index : Nat} {slot : Option Value}
    (hfilled : (record.fieldAt schema index).isOptional = true ∨ slot.isSome = true)
    (haccepts : schema.Accepts (record.fieldAt schema index) slot)
    (hslot : ∀ value, slot = some value → value.Sendable schema) :
    (Value.record (record.withSlot index slot)).Sendable schema where
  typed := Record.WellTyped.withSlot hrecord.typed haccepts fun value hvalue =>
    (hslot value hvalue).typed
  complete := Record.Complete.withSlot hrecord.complete hfilled fun value hvalue =>
    (hslot value hvalue).complete
  bounded := Record.Bounded.withSlot hrecord.bounded fun value hvalue =>
    (hslot value hvalue).bounded

/-- The presence bytes of a record. -/
def Record.presence (schema : Schema) (record : Record) : List UInt8 :=
  (FlagBits.ofBits (presenceBits (record.typeIn schema).fields record.slots)).bytes

namespace Sample

theorem sendable_leaf : (Value.record leaf).Sendable Sample.schema := by
  have hslot : some (Value.record leaf) ∈ walk.slots := by simp [walk]
  exact ⟨Value.Throughout.slot wellTyped_walk hslot, Value.Throughout.slot complete_walk hslot,
    Value.Throughout.slot bounded_walk hslot⟩

end Sample

end WireSchema
