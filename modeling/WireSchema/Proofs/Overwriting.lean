import WireSchema.Proofs.Marks
import WireSchema.Proofs.Stock

/-!
# Reading over what was there

What is read into a record does not depend on what the record holds.  A reading that comes to its
end replaces all slots and the transaction id, so that two records of a type are the same after it.
One that breaks off replaces the first slots, by the same values in both records, and a wire id of
another type replaces nothing.
-/

namespace WireSchema

variable {schema : Schema}

/-! ## Where the presence bits are -/

theorem Reader.bytes_eq_ok {count : Nat} {reader left : Reader} {taken : List UInt8}
    (hrun : Reader.bytes count reader = .ok taken left) :
    taken = reader.rest.take count ∧ left.rest = reader.rest.drop count := by
  unfold Reader.bytes at hrun
  dsimp only at hrun
  split at hrun
  · cases hrun
  · cases hrun
    exact ⟨rfl, rfl⟩

theorem Reader.rest_of_uint32 {reader left : Reader} {number : UInt32}
    (hrun : Reader.uint32 reader = .ok number left) : left.rest = reader.rest.drop 4 := by
  obtain ⟨word, middle, hword, hnumber⟩ := Action.bind_eq_ok hrun
  obtain ⟨taken, behind, htaken, hend⟩ := Action.bind_eq_ok hword
  cases hnumber
  cases hend
  exact (Reader.bytes_eq_ok htaken).2

theorem Record.readHeader_eq_ok {type : ObjectType} (hheader : type.layout.hasHeader = true)
    {reader left : Reader} {transaction : Option UInt32}
    (hrun : Record.readHeader type reader = .ok transaction left) :
    transaction.isSome = true ∧ left.rest = reader.rest.drop headerSize := by
  rw [Record.readHeader, hheader, if_pos rfl] at hrun
  obtain ⟨command, middle, hcommand, hrun⟩ := Action.bind_eq_ok hrun
  split at hrun
  · obtain ⟨id, behind, hid, hrun⟩ := Action.bind_eq_ok hrun
    cases hrun
    have hrest := Reader.rest_of_uint32 hid
    rw [Reader.rest_of_uint32 hcommand, List.drop_drop] at hrest
    exact ⟨rfl, hrest⟩
  · cases hrun

theorem ObjectType.marked_readBody {type : ObjectType} {read : FieldType → Reading Value}
    (hnumbered : Batch.numberFlags 0 type.fields = type.fields) {reader left : Reader}
    {slots : List (Option Value)} (hrun : type.readBody read reader = .ok slots left) :
    List.Forall₂ (fun field slot =>
        slot.isSome = field.isMarked (reader.rest.take type.layout.flagBytes))
      type.fields slots := by
  have hbody := Action.adaptExcept_of_ok (g := Interruption.cause) hrun
  rw [ObjectType.readBody_eq] at hbody
  obtain ⟨flags, middle, hflags, hslots⟩ := Action.bind_eq_ok hbody
  obtain ⟨bytes, behind, hbytes, hread⟩ := Action.bind_eq_ok hflags
  cases hread
  rw [← (Reader.bytes_eq_ok hbytes).1]
  exact marked_slotsReading hnumbered hslots

/-! ## What arrives -/

/-- What a reading brings for a record of a type, whatever the record holds: a transaction id, the
first slots or all of them, and how the reading ends. -/
structure Arrival where
  transaction : Option UInt32
  slots : List (Option Value)
  outcome : EStateM.Result CodecError Reader Unit

def Schema.arrival (schema : Schema) (type : ObjectType) (reader : Reader) : Arrival :=
  match Record.readHeader type reader with
  | .error fault left => ⟨none, [], .error fault left⟩
  | .ok transaction middle =>
    match Record.skipKindTag type middle with
    | .error fault left => ⟨transaction, [], .error fault left⟩
    | .ok _ behind =>
      match type.readBody schema.readPayloadValue behind with
      | .ok slots left => ⟨transaction, slots, .ok () left⟩
      | .error stopped left => ⟨transaction, stopped.done, .error stopped.cause left⟩

def Arrival.onto (arrival : Arrival) (record : Record) : Record :=
  { record with
    slots := Record.overlaid arrival.slots record.slots
    transaction := arrival.transaction <|> record.transaction }

theorem Record.overlaid_of_le {done slots : List (Option Value)}
    (hlength : slots.length ≤ done.length) : Record.overlaid done slots = done := by
  rw [Record.overlaid, List.drop_eq_nil_of_le hlength, List.append_nil]

theorem Record.WellTyped.length_slots {record : Record} (htyped : record.WellTyped schema) :
    record.slots.length = (record.typeIn schema).fields.length :=
  htyped.self.slots.length_eq.symm

theorem Arrival.onto_of_nothing (outcome : EStateM.Result CodecError Reader Unit)
    (record : Record) : onto ⟨none, [], outcome⟩ record = record := by
  obtain ⟨number, id, slots, transaction⟩ := record
  simp [onto, Record.overlaid]

/-- A body that is read to its end has a slot for each field. -/
theorem ObjectType.length_readBody (hgraph : schema.graph.Coherent) {id : ObjectId}
    {reader left : Reader} {slots : List (Option Value)}
    (hrun : (schema.graph.object id).readBody schema.readPayloadValue reader = .ok slots left) :
    slots.length = (schema.graph.object id).fields.length := by
  obtain ⟨size, -, body, -, hslots⟩ := Schema.yields_readPayloadBody hgraph id reader slots left
    (Action.adaptExcept_of_ok hrun)
  exact hslots.forall₂_accepts.length_eq.symm

theorem Record.decode_eq_arrival (hgraph : schema.graph.Coherent) {record : Record}
    (htyped : record.WellTyped schema) (reader : Reader) :
    record.decode schema reader =
      ((schema.arrival (record.typeIn schema) reader).onto record,
        (schema.arrival (record.typeIn schema) reader).outcome) := by
  unfold Record.decode Schema.arrival
  dsimp only
  cases hheader : Record.readHeader (record.typeIn schema) reader with
  | error fault left => simp [Arrival.onto_of_nothing]
  | ok transaction middle =>
      cases hkindTag : Record.skipKindTag (record.typeIn schema) middle with
      | error fault left => simp [hkindTag, Arrival.onto, Record.overlaid]
      | ok passed behind =>
          cases hbody : (record.typeIn schema).readBody schema.readPayloadValue behind with
          | error stopped left => simp [hkindTag, hbody, Arrival.onto]
          | ok slots left =>
              have hlength := ObjectType.length_readBody hgraph hbody
              have hall : Record.overlaid slots record.slots = slots := by
                apply Record.overlaid_of_le
                rw [htyped.length_slots, hlength, Record.typeIn]
              simp [hkindTag, hbody, Arrival.onto, hall]

/-- No more slots arrive than there are fields. -/
theorem Schema.length_arrival (hgraph : schema.graph.Coherent) (id : ObjectId) (reader : Reader) :
    (schema.arrival (schema.graph.object id) reader).slots.length ≤
      (schema.graph.object id).fields.length := by
  unfold Schema.arrival
  split
  · simp
  · split
    · simp
    · split
      next hbody => exact Nat.le_of_eq (ObjectType.length_readBody hgraph hbody)
      next stopped left hbody =>
        obtain ⟨size, hslots⟩ := interrupted_readBody hgraph
          (readsNested_readObject hgraph (depthLimit - 1)) id hbody
        have hlength := hslots.forall₂_accepts.length_eq
        rw [List.length_take] at hlength
        dsimp only
        omega

/-- What arrives when a payload is read to its end. -/
structure Arrival.IsWhole (type : ObjectType) (reader : Reader) (arrival : Arrival) : Prop where
  transaction : arrival.transaction.isSome = true
  marked : List.Forall₂ (fun field slot =>
      slot.isSome = field.isMarked
        ((reader.rest.drop headerSize).take type.layout.flagBytes))
    type.fields arrival.slots

theorem Schema.isWhole_arrival {documents : List Document}
    (hcompile : Graph.compile documents = .ok schema.graph) {id : ObjectId}
    (hpayload : (schema.graph.object id).isPayload = true) {reader left : Reader}
    (houtcome : (schema.arrival (schema.graph.object id) reader).outcome = .ok () left) :
    (schema.arrival (schema.graph.object id) reader).IsWhole (schema.graph.object id) reader := by
  have hgraph := Graph.coherent_of_compile hcompile
  have hheader : (schema.graph.object id).layout.hasHeader = true :=
    (hgraph.hasHeader_eq id).trans hpayload
  unfold Schema.arrival at houtcome ⊢
  cases hread : Record.readHeader (schema.graph.object id) reader with
  | error fault middle => simp [hread] at houtcome
  | ok transaction middle =>
      obtain ⟨hsome, hrest⟩ := Record.readHeader_eq_ok hheader hread
      simp only [hread, Record.skipKindTag_of_isPayload hgraph hpayload] at houtcome ⊢
      cases hbody : (schema.graph.object id).readBody schema.readPayloadValue middle with
      | error stopped behind => simp [hbody] at houtcome
      | ok slots behind =>
          have hmarked := ObjectType.marked_readBody (Graph.numbered_of_compile hcompile id) hbody
          rw [hrest] at hmarked
          exact ⟨hsome, hmarked⟩

/-- Another wire id than that of the type is refused before anything is read. -/
theorem Schema.arrival_of_foreign {type : ObjectType} (hheader : type.layout.hasHeader = true)
    {reader middle : Reader} {command : UInt32}
    (hcommand : Reader.uint32 reader = .ok command middle) (hforeign : type.wireId ≠ some command) :
    schema.arrival type reader = ⟨none, [], .error (.unknownCommand command) middle⟩ := by
  have hread : Record.readHeader type reader = .error (.unknownCommand command) middle := by
    rw [Record.readHeader, hheader, if_pos rfl, Action.bind_of_ok hcommand,
      if_neg fun hsame => hforeign (eq_of_beq hsame)]
    rfl
  rw [Schema.arrival, hread]

/-! ## Two records of a type -/

/-- What becomes of a record when bytes are read into it, compared to another record into which the
same bytes are read. -/
structure Record.Forgets (schema : Schema) (reader : Reader) (record other : Record) : Prop where
  outcome_eq : (record.decode schema reader).2 = (other.decode schema reader).2
  /-- After a reading to its end both are the same, and only fields that are marked have values. -/
  same : ∀ left, (record.decode schema reader).2 = .ok () left →
    (record.decode schema reader).1 = (other.decode schema reader).1 ∧
      (record.decode schema reader).1.transaction.isSome = true ∧
      List.Forall₂ (fun field slot =>
          slot.isSome = field.isMarked ((reader.rest.drop headerSize).take
            (record.typeIn schema).layout.flagBytes))
        (record.typeIn schema).fields (record.decode schema reader).1.slots
  /-- Up to a fault the first slots were replaced, by the same values in both, and perhaps the
  transaction id. -/
  replaced : ∀ fault left, (record.decode schema reader).2 = .error fault left →
    ∃ count ≤ (record.typeIn schema).fields.length, ∃ transaction : Option UInt32,
      (record.decode schema reader).1.slots =
          (other.decode schema reader).1.slots.take count ++ record.slots.drop count ∧
        (other.decode schema reader).1.slots =
          (record.decode schema reader).1.slots.take count ++ other.slots.drop count ∧
        (record.decode schema reader).1.transaction = (transaction <|> record.transaction) ∧
        (other.decode schema reader).1.transaction = (transaction <|> other.transaction)
  /-- A wire id of another type changes nothing at all. -/
  untouched : ∀ command middle, Reader.uint32 reader = .ok command middle →
    (record.typeIn schema).wireId ≠ some command →
      record.decode schema reader = (record, .error (.unknownCommand command) middle)

/-- Bytes that are read into two payloads of a type have the same effect on both, whatever the
payloads held before. -/
theorem Record.forgets_decode {documents : List Document}
    (hcompile : Graph.compile documents = .ok schema.graph) {record other : Record}
    (hrecord : record.WellTyped schema) (hother : other.WellTyped schema)
    (htype : record.type = other.type) (hpayload : (record.typeIn schema).isPayload = true)
    (reader : Reader) : record.Forgets schema reader other := by
  have hgraph := Graph.coherent_of_compile hcompile
  have hrun := Record.decode_eq_arrival hgraph hrecord reader
  have hrun' := Record.decode_eq_arrival hgraph hother reader
  have htypeIn : other.typeIn schema = record.typeIn schema :=
    congrArg schema.graph.object htype.symm
  have hschema : record.schema = other.schema :=
    hrecord.self.schema_eq.trans hother.self.schema_eq.symm
  have hlength := hrecord.length_slots
  have hlength' := hother.length_slots
  rw [htypeIn] at hrun' hlength'
  constructor
  · rw [hrun, hrun']
  · intro left hleft
    rw [hrun] at hleft
    obtain ⟨hsome, hmarked⟩ := Schema.isWhole_arrival hcompile hpayload hleft
    have hall := hmarked.length_eq
    have hslots := Record.overlaid_of_le (Nat.le_of_eq (hlength.trans hall))
    have hslots' := Record.overlaid_of_le (Nat.le_of_eq (hlength'.trans hall))
    obtain ⟨id, hid⟩ := Option.isSome_iff_exists.mp hsome
    rw [hrun, hrun']
    simp only [Record.typeIn, Arrival.onto, hslots, hslots', hid]
    refine ⟨?_, rfl, hmarked⟩
    rw [hschema, htype]
    rfl
  · intro fault left hleft
    refine ⟨_, Schema.length_arrival hgraph record.type reader,
      (schema.arrival (record.typeIn schema) reader).transaction, ?_⟩
    simp [hrun, hrun', Arrival.onto, Record.overlaid, Record.typeIn]
  · intro command middle hcommand hforeign
    have hheader : (record.typeIn schema).layout.hasHeader = true :=
      (hgraph.hasHeader_eq record.type).trans hpayload
    rw [hrun, Schema.arrival_of_foreign hheader hcommand hforeign, Arrival.onto_of_nothing]

namespace Sample

/-- A full message and an empty one, when the bytes end after the first field. -/
theorem forgets_halfWalk :
    Action.succeeded (walk.decode Sample.schema (Reader.of halfWalk)).2 = false ∧
      walk.Forgets Sample.schema (Reader.of halfWalk) (.empty Sample.schema ⟨2⟩) := by
  refine ⟨by decide +kernel, ?_⟩
  exact Record.forgets_decode compile_documents wellTyped_walk
    (Record.wellTyped_empty Sample.schema ⟨2⟩) rfl (by decide +kernel) (Reader.of halfWalk)

end Sample

end WireSchema
