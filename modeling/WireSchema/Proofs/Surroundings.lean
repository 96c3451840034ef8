import WireSchema.Proofs.Toggling

/-!
# The bytes around a slot

The value in the slot of a field stands in one place of an encoding, between bytes that do not
depend on it.  There it is found again by whatever reads records of the type, and where its bytes
are refused, the record is.
-/

namespace WireSchema

open Reading (Recovers Refuses)

variable {schema : Schema}

/-! ## Refused records -/

theorem Record.image_eq (record : Record) :
    record.image schema =
      Image.join ((record.typeIn schema).headerImage record.transaction)
        (Image.join (.ok (record.typeIn schema).kindTagBytes)
          (Image.join (.ok (record.presence schema))
            (Record.slotsImage schema (record.typeIn schema).name (record.typeIn schema).fields
              record.slots))) := by
  obtain ⟨number, id, slots, transaction⟩ := record
  rfl

/-- Whatever reads records of a type refuses a record if it refuses the slots. -/
theorem Schema.Reads.refuses (hgraph : schema.graph.Coherent) {record : Record}
    {reading : Reading Record} (hreads : schema.Reads record.type reading)
    {header body : List UInt8} {Causes : CodecError → Prop}
    (hheader : (record.typeIn schema).headerImage record.transaction = .ok header)
    (hslots : Refuses (EStateM.adaptExcept Interruption.cause
      ((record.typeIn schema).readBody schema.readPayloadValue)) body Causes) :
    Refuses reading (header ++ ((record.typeIn schema).kindTagBytes ++ body)) Causes := by
  cases hreads with
  | payload hpayload =>
      obtain ⟨wire, hwire, hselects⟩ := hgraph.exists_wireId record.type hpayload
      have hhasHeader := (hgraph.hasHeader_eq record.type).trans hpayload
      have hbare := hgraph.hasKindTag_of_isPayload hpayload
      rw [ObjectType.headerImage, Record.typeIn, hhasHeader, if_pos rfl, hwire] at hheader
      cases hheader
      rw [ObjectType.kindTagBytes, Record.typeIn, hbare, if_neg Bool.false_ne_true,
        List.nil_append, List.append_assoc, Schema.decodePayload]
      refine (Reading.recovers_uint32 wire).refuses ?_
      rw [hselects]
      exact (Reading.recovers_uint32 _).refuses (hslots.bind_self _)
  | @object declared hisA hinner =>
      have hbare : header = [] :=
        ObjectType.headerImage_of_not_hasHeader (hgraph.not_hasHeader_of_isA hisA hinner) hheader
      rw [hbare, List.nil_append]
      exact (Graph.recovers_readConcreteType hgraph hisA).refuses (hslots.bind_self _)
  | @into other hschema htype =>
      obtain ⟨taken, htaken⟩ := Record.exists_recovers_readHeader hgraph record.type
      have hsame : other.typeIn schema = record.typeIn schema := congrArg schema.graph.object htype
      have hrecovers := htaken record.transaction header hheader
      have hskip := Record.recovers_skipKindTag (record.typeIn schema)
      intro offset rest
      obtain ⟨fault, left, hcause, hrun⟩ := hslots (offset + header.length +
        (record.typeIn schema).kindTagBytes.length) rest
      have hread := hrecovers offset ((record.typeIn schema).kindTagBytes ++ (body ++ rest))
      have hskipped := hskip (offset + header.length) (body ++ rest)
      rw [← Record.typeIn, ← hsame] at hread
      rw [← hsame] at hskipped hrun
      obtain ⟨arrived, hdecode⟩ := Record.decode_of_error other hread hskipped hrun
      refine ⟨fault, left, hcause, ?_⟩
      rw [← hsame, List.append_assoc, List.append_assoc, Record.reading, hdecode]

/-! ## Before and behind a value -/

/-- The bytes before and behind the value in a slot.  They are the same for all values, and where
the bytes between them are refused, the record is. -/
structure Record.Surrounds (schema : Schema) (record : Record) (index : Nat) (field : Field)
    (front back : List UInt8) : Prop where
  image_eq : ∀ value data,
    Value.image schema (record.typeIn schema).name field field.type value = .ok data →
      (record.withSlot index (some value)).image schema = .ok (front ++ (data ++ back))
  refuses : record.nesting ≤ depthLimit - 1 → ∀ reading, schema.Reads record.type reading →
    ∀ data Causes, Refuses (schema.readPayloadValue field.type) data Causes →
      Refuses reading (front ++ (data ++ back)) Causes

theorem Record.withSlot_self {record : Record} {index : Nat} {slot : Option Value}
    (hheld : record.slots[index]? = some slot) : record.withSlot index slot = record := by
  obtain ⟨number, id, slots, transaction⟩ := record
  obtain ⟨hlt, hsame⟩ := List.getElem?_eq_some_iff.mp hheld
  rw [Record.withSlot, ← hsame, List.set_getElem_self]

theorem Record.exists_surrounds (hgraph : schema.graph.Coherent) {record : Record}
    (htyped : record.WellTyped schema) (hbounded : record.Bounded) {bytes : List UInt8}
    (hbytes : record.image schema = .ok bytes) {index : Nat} {field : Field}
    (hfield : (record.typeIn schema).fields[index]? = some field) {held : Value}
    (hheld : record.slots[index]? = some (some held)) :
    ∃ front back, record.Surrounds schema index field front back := by
  have hlength := htyped.self.slots.length_eq
  obtain ⟨header, body, hheader, hbody, -⟩ := Record.exists_image_parts hbytes
  rw [← congrArg Record.slots (Record.withSlot_self hheld)] at hbody
  obtain ⟨before, data, behind, hbefore, -, hbehind, -⟩ :=
    Record.exists_slotsImage_parts hlength hfield hbody
  refine ⟨header ++ ((record.typeIn schema).kindTagBytes ++ (record.presence schema ++ before)),
    behind, ?_, ?_⟩
  · intro value data hdata
    have hpresence : (record.withSlot index (some value)).presence schema =
        record.presence schema := by
      rw [Record.presence, Record.slots_withSlot, Record.typeIn_withSlot,
        presenceBits_set_some _ hheld]
      rfl
    rw [Record.image_eq, hpresence, Record.typeIn_withSlot, Record.slots_withSlot,
      Record.transaction_withSlot, hheader, Record.slotsImage_set hlength hfield, hbefore, hbehind,
      Record.slotsImage, hdata, Record.slotsImage]
    simp only [Image.join_ok, List.append_nil, List.append_assoc]
  · intro hnesting reading hreads data Causes hrefuses
    have htravels : record.Travels schema (depthLimit - 1) := ⟨htyped, hbounded, hnesting⟩
    have hslots : Refuses (EStateM.adaptExcept Interruption.cause
        ((record.typeIn schema).readBody schema.readPayloadValue))
        (record.presence schema ++ (before ++ (data ++ behind))) Causes := by
      apply ObjectType.refuses_readBody hgraph htyped.self.slots
      intro flags hoffers
      rw [← take_append_cons_drop hfield] at hoffers ⊢
      rw [← take_append_cons_drop hheld] at hoffers
      refine Record.refuses_slotsReading hgraph ?_ ?_ hbefore hrefuses hoffers behind
      · intro other hother
        exact hgraph.isPayload_target record.type other (List.mem_of_mem_take hother)
      · exact List.forall₂_take index htravels.slots
    have hrefused := hreads.refuses hgraph hheader hslots
    simpa only [List.append_assoc] using hrefused

/-! ## The value that arrives -/

theorem Record.getElem?_carriedSlots {fields : List Field} {slots : List (Option Value)}
    {index : Nat} {field : Field} (hfield : fields[index]? = some field) {value : Value}
    (hheld : slots[index]? = some (some value)) :
    (Record.carriedSlots schema fields slots)[index]? =
      some (some (Value.carried schema field.type value)) := by
  induction slots generalizing fields index with
  | nil => cases hheld
  | cons slot rest ih =>
      cases fields with
      | nil => cases hfield
      | cons head fields =>
          cases index with
          | zero =>
              cases hfield
              cases hheld
              rw [Record.carriedSlots]
              rfl
          | succ index => cases slot <;> exact ih hfield hheld

theorem Record.valueAt?_carried {record : Record} {index : Nat} {field : Field}
    (hfield : (record.typeIn schema).fields[index]? = some field) {value : Value}
    (hheld : record.slots[index]? = some (some value)) :
    (record.carried schema).valueAt? index = some (Value.carried schema field.type value) := by
  have hslots : (record.carried schema).slots =
      Record.carriedSlots schema (record.typeIn schema).fields record.slots := by
    obtain ⟨number, id, slots, transaction⟩ := record
    rfl
  rw [Record.valueAt?, hslots, Record.getElem?_carriedSlots hfield hheld]
  rfl

theorem Record.type_carried (schema : Schema) (record : Record) :
    (record.carried schema).type = record.type := by
  obtain ⟨number, id, slots, transaction⟩ := record
  rfl

end WireSchema
