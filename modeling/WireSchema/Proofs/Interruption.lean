import WireSchema.Proofs.Normalization
import WireSchema.Proofs.Truncation

/-!
# Reading that breaks off

Reading into a record may meet a fault halfway.  By then the first slots have the values that were
read, and the others those they had before.  Both fit their fields, so the record that is left
behind is as well typed as one that was read to its end.
-/

namespace WireSchema

open Reading (Streams Yields)

variable {schema : Schema} {levels : Nat}

/-! ## The parts of a reading into a record -/

theorem Record.streams_readHeader (type : ObjectType) : Streams (Record.readHeader type) := by
  unfold Record.readHeader
  split
  · refine Reading.streams_uint32.bind fun command => ?_
    split
    · exact Reading.streams_uint32.bind fun transaction => Reading.streams_pure _
    · exact Reading.streams_throw fun distance => rfl
  · exact Reading.streams_pure none

theorem Record.streams_skipKindTag (type : ObjectType) : Streams (Record.skipKindTag type) := by
  unfold Record.skipKindTag
  split
  · exact Reading.streams_uint32.bind fun tag => Reading.streams_pure ()
  · exact Reading.streams_pure ()

/-! ## The slots before a fault -/

section ReadSlots

variable {read : FieldType → Reading Value} {flags behind : FlagBits} {field : Field}
  (sofar : List (Option Value)) (rest : List Field) (reader : Reader)

theorem readSlots_of_present
    (htaken : (if field.isOptional then flags.next else (true, flags)) = (true, behind)) :
    readSlots read flags sofar (field :: rest) reader =
      match read field.type reader with
      | .ok value left => readSlots read behind (some value :: sofar) rest left
      | .error cause left => .error ⟨cause, sofar.reverse⟩ left := by
  rw [readSlots, htaken]
  rfl

theorem readSlots_of_absent
    (htaken : (if field.isOptional then flags.next else (true, flags)) = (false, behind)) :
    readSlots read flags sofar (field :: rest) reader =
      readSlots read behind (none :: sofar) rest reader := by
  rw [readSlots, htaken]
  rfl

end ReadSlots

theorem interrupted_readSlots {read : FieldType → Reading Value} (flags : FlagBits)
    (sofar : List (Option Value)) (fields : List Field)
    (hread : ∀ field ∈ fields, Yields (read field.type) fun value size =>
      value.Settled schema levels field.type size)
    {reader left : Reader} {stopped : Interruption}
    (hrun : readSlots read flags sofar fields reader = .error stopped left) :
    ∃ slots size, stopped.done = sofar.reverse ++ slots ∧
      Record.SlotsSettled schema levels (fields.take slots.length) slots size := by
  induction fields generalizing flags sofar reader with
  | nil => cases hrun
  | cons field rest ih =>
      obtain ⟨hfield, hrest⟩ := List.forall_mem_cons.mp hread
      cases htaken : (if field.isOptional then flags.next else (true, flags)) with
      | mk present behind =>
          cases present with
          | true =>
              rw [readSlots_of_present sofar rest reader htaken] at hrun
              cases hvalue : read field.type reader with
              | error fault middle =>
                  rw [hvalue] at hrun
                  cases hrun
                  exact ⟨[], 0, by rw [List.append_nil], .nil⟩
              | ok value middle =>
                  rw [hvalue] at hrun
                  obtain ⟨slots, more, hdone, hslots⟩ := ih behind _ hrest hrun
                  obtain ⟨size, -, hsettled⟩ := hfield reader value middle hvalue
                  refine ⟨some value :: slots, size + more, ?_, .filled hsettled hslots⟩
                  rw [hdone, List.reverse_cons, List.append_assoc, List.singleton_append]
          | false =>
              rw [readSlots_of_absent sofar rest reader htaken] at hrun
              have hoptional := Field.isOptional_of_absent htaken
              obtain ⟨slots, more, hdone, hslots⟩ := ih behind _ hrest hrun
              refine ⟨none :: slots, more, ?_, .empty hoptional hslots⟩
              rw [hdone, List.reverse_cons, List.append_assoc, List.singleton_append]

theorem interrupted_readBody (hgraph : schema.graph.Coherent)
    {nested : ObjectId → Reading Record} (hnested : schema.ReadsNested levels nested)
    (id : ObjectId) {reader left : Reader} {stopped : Interruption}
    (hrun : (schema.graph.object id).readBody (readValue schema.graph nested) reader =
      .error stopped left) :
    ∃ size, Record.SlotsSettled schema levels
      ((schema.graph.object id).fields.take stopped.done.length) stopped.done size := by
  have hread : ∀ field ∈ (schema.graph.object id).fields,
      Yields (readValue schema.graph nested field.type) fun value size =>
        value.Settled schema levels field.type size :=
    fun field hfield =>
      yields_readValue hnested field.type (hgraph.isPayload_target id field hfield)
  unfold ObjectType.readBody at hrun
  rcases Action.bind_eq_error hrun with hflags | ⟨flags, middle, -, hslots⟩
  · -- Without presence bits no slot is read.
    cases hread : FlagBits.read (schema.graph.object id).layout.flagBytes reader with
    | ok flags middle =>
        rw [Action.adaptExcept_of_ok hread] at hflags
        cases hflags
    | error fault middle =>
        rw [Action.adaptExcept_of_error hread] at hflags
        cases hflags
        exact ⟨0, .nil⟩
  · obtain ⟨slots, size, hdone, hsettled⟩ := interrupted_readSlots flags [] _ hread hslots
    rw [List.reverse_nil, List.nil_append] at hdone
    rw [hdone]
    exact ⟨size, hsettled⟩

/-! ## What readings leave behind -/

theorem Schema.yields_readPayloadBody (hgraph : schema.graph.Coherent) (id : ObjectId) :
    Yields (EStateM.adaptExcept Interruption.cause
        ((schema.graph.object id).readBody schema.readPayloadValue))
      fun slots size => ∃ body ≤ size, Record.SlotsSettled schema (depthLimit - 1)
        (schema.graph.object id).fields slots body := by
  have hbody := yields_readBody hgraph (readsNested_readObject hgraph (depthLimit - 1)) id
  refine hbody.mono ?_
  rintro slots size ⟨body, rfl, hslots⟩
  exact ⟨body, Nat.le_add_left _ _, hslots⟩

/-- An object is read in place of any declared type, a payload included: it has no header there. -/
theorem Schema.yields_decodeObject (hgraph : schema.graph.Coherent) (declared : ObjectId) :
    Yields (schema.decodeObject declared) fun record size =>
      record.schema = schema.number ∧ ∃ body ≤ size, Record.SlotsSettled schema (depthLimit - 1)
        (record.typeIn schema).fields record.slots body := by
  rw [Schema.decodeObject, depthLimit, Schema.readObject]
  refine (yields_readConcreteType hgraph declared).bind ?_
  rintro id width -
  refine (Schema.yields_readPayloadBody hgraph id).bind ?_
  rintro slots size ⟨body, hbody, hslots⟩
  refine Reading.yields_pure ⟨rfl, body, ?_, hslots⟩
  omega

theorem Schema.yields_slots_decodePayload (hgraph : schema.graph.Coherent) :
    Yields schema.decodePayload fun record size =>
      record.schema = schema.number ∧ ∃ body ≤ size, Record.SlotsSettled schema (depthLimit - 1)
        (record.typeIn schema).fields record.slots body := by
  rw [Schema.decodePayload]
  refine Reading.yields_uint32.bind fun command width _ => ?_
  cases schema.graph.byWireId? command with
  | none => exact Reading.yields_throw _ _
  | some id =>
      refine Reading.yields_uint32.bind fun transaction width _ => ?_
      refine (Schema.yields_readPayloadBody hgraph id).bind ?_
      rintro slots size ⟨body, hbody, hslots⟩
      refine Reading.yields_pure ⟨rfl, body, ?_, hslots⟩
      omega

/-- A reading that comes to its end fills or empties all slots of a record. -/
theorem Record.slotsSettled_of_decode (hgraph : schema.graph.Coherent) {record arrived : Record}
    {reader left : Reader} (hrun : record.decode schema reader = (arrived, .ok () left)) :
    ∃ transaction slots, ∃ size ≤ reader.rest.length,
      arrived = { record with slots := slots, transaction := transaction } ∧
      Record.SlotsSettled schema (depthLimit - 1) (record.typeIn schema).fields slots size := by
  unfold Record.decode at hrun
  dsimp only at hrun
  split at hrun
  next => cases hrun
  next transaction middle hheader =>
    split at hrun
    next => cases hrun
    next behind hkindTag =>
      split at hrun
      next slots last hbody =>
        cases hrun
        have hvalues : ∀ type, Streams (schema.readPayloadValue type) :=
          streams_readValue (Schema.streams_readObject schema _)
        have hstreams := streams_readBody hvalues (record.typeIn schema)
        obtain ⟨size, hsize, -, body, hle, hslots⟩ := hstreams.size_le
          (Schema.yields_readPayloadBody hgraph record.type) (Action.adaptExcept_of_ok hbody)
        rw [Reader.remaining] at hsize
        have hmiddle := (Record.streams_readHeader _).rest_le hheader
        have hbehind := (Record.streams_skipKindTag _).rest_le hkindTag
        exact ⟨_, slots, body, by omega, rfl, hslots⟩
      next => cases hrun

/-- A reading that breaks off has changed the first slots of a record, and no others. -/
theorem Record.overlaid_of_decode (hgraph : schema.graph.Coherent) {record arrived : Record}
    {reader left : Reader} {fault : CodecError}
    (hrun : record.decode schema reader = (arrived, .error fault left)) :
    ∃ transaction done size,
      arrived = { record with
        slots := Record.overlaid done record.slots, transaction := transaction } ∧
      Record.SlotsSettled schema (depthLimit - 1)
        ((record.typeIn schema).fields.take done.length) done size := by
  unfold Record.decode at hrun
  dsimp only at hrun
  split at hrun
  next =>
    cases hrun
    obtain ⟨number, id, slots, transaction⟩ := record
    exact ⟨transaction, [], 0, rfl, .nil⟩
  next transaction middle hheader =>
    split at hrun
    next =>
      cases hrun
      exact ⟨_, [], 0, rfl, .nil⟩
    next behind hkindTag =>
      split at hrun
      next => cases hrun
      next stopped last hbody =>
        cases hrun
        obtain ⟨size, hslots⟩ := interrupted_readBody hgraph
          (readsNested_readObject hgraph (depthLimit - 1)) record.type hbody
        exact ⟨_, stopped.done, size, rfl, hslots⟩

/-! ## Well-typed records -/

theorem Record.SlotsSettled.wellTyped {record : Record} {size : Nat}
    (hschema : record.schema = schema.number)
    (hslots : Record.SlotsSettled schema levels (record.typeIn schema).fields record.slots size) :
    record.WellTyped schema :=
  Value.throughout_record ⟨hschema, hslots.forall₂_accepts⟩ hslots.typed

/-- The first slots may be replaced by what was read for their fields. -/
theorem Record.WellTyped.overlaid {record : Record} (htyped : record.WellTyped schema)
    {done : List (Option Value)} {size : Nat}
    (hdone : Record.SlotsSettled schema levels
      ((record.typeIn schema).fields.take done.length) done size) :
    Record.WellTyped schema { record with slots := Record.overlaid done record.slots } := by
  have hfront := hdone.forall₂_accepts
  have hback := List.forall₂_drop done.length htyped.self.slots
  refine Value.throughout_record ⟨htyped.self.schema_eq, ?_⟩ ?_
  · have hall := List.rel_append hfront hback
    simp only [List.take_append_drop] at hall
    exact hall
  · intro held hheld
    rcases List.mem_append.mp hheld with hheld | hheld
    · exact hdone.typed held hheld
    · exact htyped.slot (List.mem_of_mem_drop hheld)

/-- However reading into a record ends, the record stays well typed. -/
theorem Record.WellTyped.decode (hgraph : schema.graph.Coherent) {record : Record}
    (htyped : record.WellTyped schema) (reader : Reader) :
    (record.decode schema reader).1.WellTyped schema := by
  cases hrun : record.decode schema reader with
  | mk arrived outcome =>
      cases outcome with
      | ok done left =>
          obtain ⟨transaction, slots, size, -, rfl, hslots⟩ :=
            Record.slotsSettled_of_decode hgraph hrun
          exact hslots.wellTyped htyped.self.schema_eq
      | error fault left =>
          obtain ⟨transaction, done, size, rfl, hdone⟩ := Record.overlaid_of_decode hgraph hrun
          exact (htyped.overlaid hdone).withTransaction transaction

theorem Schema.wellTyped_decodeObject (hgraph : schema.graph.Coherent) {declared : ObjectId}
    {record : Record} {reader left : Reader}
    (hrun : schema.decodeObject declared reader = .ok record left) : record.WellTyped schema := by
  obtain ⟨size, -, hschema, body, -, hslots⟩ :=
    Schema.yields_decodeObject hgraph declared reader record left hrun
  exact hslots.wellTyped hschema

theorem Schema.wellTyped_decodePayload (hgraph : schema.graph.Coherent) {record : Record}
    {reader left : Reader} (hrun : schema.decodePayload reader = .ok record left) :
    record.WellTyped schema := by
  obtain ⟨size, -, hschema, body, -, hslots⟩ :=
    Schema.yields_slots_decodePayload hgraph reader record left hrun
  exact hslots.wellTyped hschema

end WireSchema
