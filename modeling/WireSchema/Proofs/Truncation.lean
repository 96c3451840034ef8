import WireSchema.Proofs.Packing
import WireSchema.Proofs.Payloads

/-!
# Bytes cut off and bytes behind

Reading a record depends on the bytes of its encoding only.  If some of the last ones are missing,
the reading fails because they are, and nothing that follows makes a difference.
-/

namespace WireSchema

open Reading (Streams)

theorem streams_itemsReading {read : Reading Value} (hread : Streams read) (count : Nat) :
    Streams (itemsReading read count) := by
  induction count with
  | zero => exact Reading.streams_pure []
  | succ count ih =>
      exact hread.bind fun item => ih.bind fun rest => Reading.streams_pure (item :: rest)

theorem streams_readValue {graph : Graph} {nested : ObjectId → Reading Record}
    (hnested : ∀ id, Streams (nested id)) (type : FieldType) :
    Streams (readValue graph nested type) := by
  induction type with
  | primitive kind => exact Primitive.streams_readPrimitive kind
  | text => exact Reading.streams_text.map Value.text
  | binary length => exact (Reading.streams_bytes length).map Value.binary
  | enum id => exact (EnumType.streams_readOrdinal _).map Value.ordinal
  | object id => exact (hnested id).map Value.record
  | array element ih =>
      refine (Reading.streams_word 4).bind fun count => ?_
      rw [readItems_eq]
      exact ((streams_itemsReading ih count).map _).bind fun items => Reading.streams_pure _

theorem streams_slotsReading {read : FieldType → Reading Value}
    (hread : ∀ type, Streams (read type)) (flags : FlagBits) (fields : List Field) :
    Streams (slotsReading read flags fields) := by
  induction fields generalizing flags with
  | nil => exact Reading.streams_pure []
  | cons field rest ih =>
      cases htaken : (if field.isOptional then flags.next else (true, flags)) with
      | mk present left =>
          cases present with
          | true =>
              rw [slotsReading_of_present htaken]
              exact (hread field.type).bind fun value => (ih left).bind fun slots =>
                Reading.streams_pure (some value :: slots)
          | false =>
              rw [slotsReading_of_absent htaken]
              exact (ih left).map _

theorem streams_readBody {read : FieldType → Reading Value}
    (hread : ∀ type, Streams (read type)) (type : ObjectType) :
    Streams (EStateM.adaptExcept Interruption.cause (type.readBody read)) := by
  rw [ObjectType.readBody_eq]
  exact (FlagBits.streams_read _).bind fun flags => streams_slotsReading hread flags type.fields

theorem streams_readConcreteType (graph : Graph) (declared : ObjectId) :
    Streams (graph.readConcreteType declared) := by
  unfold Graph.readConcreteType
  split
  · exact Reading.streams_uint32.bind fun tag => Reading.streams_pure _
  · exact Reading.streams_pure declared

namespace Schema

theorem readObject_zero (schema : Schema) (declared : ObjectId) (reader : Reader) :
    schema.readObject 0 declared reader =
      .error (.depthExceeded reader.offset depthLimit) reader := rfl

theorem streams_readObject (schema : Schema) (levels : Nat) (declared : ObjectId) :
    Streams (schema.readObject levels declared) := by
  induction levels generalizing declared with
  | zero =>
      refine ⟨?_, ?_, ?_⟩
      · intro distance reader
        rw [readObject_zero, readObject_zero]
        rfl
      · intro offset bytes value left hrun
        cases hrun
      · intro offset bytes fault left hrun
        cases hrun
        exact .inr fun more => ⟨⟨offset, bytes ++ more⟩, rfl⟩
  | succ levels ih =>
      rw [readObject]
      refine (streams_readConcreteType schema.graph declared).bind fun id => ?_
      exact (streams_readBody (streams_readValue ih) _).bind fun slots => Reading.streams_pure _

theorem streams_decodePayload (schema : Schema) : Streams schema.decodePayload := by
  rw [decodePayload]
  refine Reading.streams_uint32.bind fun command => ?_
  cases schema.graph.byWireId? command with
  | none => exact Reading.streams_throw fun _ => rfl
  | some id =>
      refine Reading.streams_uint32.bind fun transaction => ?_
      exact (streams_readBody (streams_readValue (schema.streams_readObject _)) _).bind
        fun slots => Reading.streams_pure _

end Schema

/-! ## Reading from the start -/

namespace Reading

/-- How a reading that starts with the first byte bears on the bytes it takes and on others. -/
structure Delimits {α : Type} (reading : Reading α) : Prop where
  /-- Without some of the last bytes that are taken, bytes are missing where the rest ends. -/
  cut : ∀ bytes value left, reading (Reader.of bytes) = .ok value left → ∀ k < left.offset,
    ∃ offset need stopped,
      reading (Reader.of (bytes.take k)) = .error (.unexpectedEnd offset need) stopped ∧
        offset ≤ k ∧ k < offset + need
  /-- Other bytes behind those that are taken change nothing. -/
  extended : ∀ bytes value left, reading (Reader.of bytes) = .ok value left → ∀ more,
    reading (Reader.of (bytes.take left.offset ++ more)) = .ok value ⟨left.offset, more⟩
  /-- More bytes do not help against a fault, unless bytes are missing. -/
  faulted : ∀ bytes fault left, reading (Reader.of bytes) = .error fault left →
    (∀ offset need, fault ≠ .unexpectedEnd offset need) →
      ∀ more, ∃ stopped, reading (Reader.of (bytes ++ more)) = .error fault stopped
  /-- Further on, the same happens with offsets that are greater by the distance. -/
  shifted : ∀ distance bytes,
    reading ⟨distance, bytes⟩ = shiftResult distance (reading (Reader.of bytes))

theorem Streams.delimits {α : Type} {reading : Reading α} (hstreams : Streams reading) :
    Delimits reading where
  cut bytes value left hrun k hk := by
    obtain ⟨used, rest, rfl, rfl, -, hpart⟩ := hstreams.taken 0 bytes value left hrun
    change k < 0 + used.length at hk
    rw [Nat.zero_add] at hk
    have htake : (used ++ rest).take k = used.take k :=
      List.take_append_of_le_length (Nat.le_of_lt hk)
    have hlength : (used.take k).length = k := by
      rw [List.length_take]
      omega
    have hproper : used.take k ≠ used := by
      intro hwhole
      rw [hwhole] at hlength
      omega
    obtain ⟨offset, need, stopped, hfault, hlow, hhigh⟩ :=
      hpart (used.take k) ⟨_, List.take_append_drop k used⟩ hproper
    rw [Reader.size, Nat.zero_add, hlength] at hlow hhigh
    rw [htake]
    exact ⟨offset, need, stopped, hfault, hlow, hhigh⟩
  extended bytes value left hrun more := by
    obtain ⟨used, rest, rfl, rfl, hmore, -⟩ := hstreams.taken 0 bytes value left hrun
    rw [Nat.zero_add, List.take_left]
    have hread := hmore more
    rw [Nat.zero_add] at hread
    exact hread
  faulted bytes fault left hrun hother more := by
    rcases hstreams.faulted 0 bytes fault left hrun with hshort | hstays
    · obtain ⟨offset, need, stopped, hfault, -⟩ := hshort
      have hsame := hrun.symm.trans hfault
      cases hsame
      exact absurd rfl (hother offset need)
    · exact hstays more
  shifted distance bytes := by
    have hmoved := hstreams.shifted distance (Reader.of bytes)
    rw [← hmoved, Reader.shift, Reader.of, Nat.zero_add]

/-- Of two readable sequences of bytes, one is not the beginning of the other. -/
theorem Recovers.eq_of_initial {α : Type} {reading : Reading α} {front data : List UInt8}
    {first second : α} (hfront : Recovers reading front first)
    (hdata : Recovers reading data second) (hinitial : front <+: data) : front = data := by
  obtain ⟨rest, rfl⟩ := hinitial
  have hone := hfront 0 rest
  have htwo := hdata 0 []
  rw [List.append_nil, hone] at htwo
  injection htwo with hvalue hleft
  injection hleft with hoffset hrest
  rw [hrest, List.append_nil]

end Reading

/-! ## Encodings -/

variable {schema : Schema}

/-- Encoding a record writes the bytes, if there is room. -/
def Record.EncodesAs (schema : Schema) (record : Record) (data : List UInt8) : Prop :=
  ∃ writer : Writer, record.encode schema writer = .ok () (writer.advance data)

theorem Record.EncodesAs.image_eq {record : Record} {data : List UInt8}
    (hencodes : record.EncodesAs schema data) : record.image schema = .ok data := by
  obtain ⟨writer, hrun⟩ := hencodes
  obtain ⟨other, hother, hsame, -⟩ := (Record.emits_encode schema record).image_of_ok hrun
  rw [writer.advance_injective hsame]
  exact hother

theorem Record.EncodesAs.bounded {record : Record} {data : List UInt8}
    (hencodes : record.EncodesAs schema data) (htyped : record.WellTyped schema) :
    record.Bounded := by
  obtain ⟨writer, hrun⟩ := hencodes
  exact Record.bounded_of_encode record htyped hrun

/-- Reading stops where an encoding stops.  With bytes cut off, the fault is that they are missing;
bytes behind change neither the record nor any other fault; and reading further on differs in the
offsets only.  So no encoding is the beginning of another one that is read in the same place. -/
theorem Schema.decode_delimits {documents : List Document}
    (hcompile : Graph.compile documents = .ok schema.graph) :
    (∀ declared, Reading.Delimits (schema.decodeObject declared)) ∧
    Reading.Delimits schema.decodePayload ∧
    ∀ (first second : Record) (front data : List UInt8),
      first.WellTyped schema → second.WellTyped schema →
      first.nesting ≤ 63 → second.nesting ≤ 63 →
      first.EncodesAs schema front → second.EncodesAs schema data → front <+: data →
      (∀ declared, (schema.graph.object declared).isPayload = false →
        schema.graph.isA first.type declared = true →
        schema.graph.isA second.type declared = true → front = data) ∧
      ((first.typeIn schema).isPayload = true → (second.typeIn schema).isPayload = true →
        front = data) := by
  have hgraph := Graph.coherent_of_compile hcompile
  refine ⟨?_, (schema.streams_decodePayload).delimits, ?_⟩
  · exact fun declared => (schema.streams_readObject depthLimit declared).delimits
  · intro first second front data hfirst hsecond hlow hhigh hfront hdata hinitial
    have htravels : first.Travels schema 63 := ⟨hfirst, hfront.bounded hfirst, hlow⟩
    have htravels' : second.Travels schema 63 := ⟨hsecond, hdata.bounded hsecond, hhigh⟩
    constructor
    · intro declared hpayload hisA hisA'
      have hone := Record.recovers_readObject hgraph 63 declared first front hisA hpayload htravels
        hfront.image_eq
      have htwo := Record.recovers_readObject hgraph 63 declared second data hisA' hpayload
        htravels' hdata.image_eq
      exact hone.eq_of_initial htwo hinitial
    · intro hpayload hpayload'
      have hone := Record.recovers_decodePayload hgraph hpayload htravels hfront.image_eq
      have htwo := Record.recovers_decodePayload hgraph hpayload' htravels' hdata.image_eq
      exact hone.eq_of_initial htwo hinitial

theorem Sample.cut_node :
    ∃ record left,
      Sample.schema.decodeObject ⟨0⟩ (Reader.of [0, 0, 0, 0, 0, 1, 2, 3, 4]) = .ok record left ∧
      ∀ k < left.offset, ∃ offset need stopped,
        Sample.schema.decodeObject ⟨0⟩ (Reader.of ([0, 0, 0, 0, 0, 1, 2, 3, 4].take k)) =
          .error (.unexpectedEnd offset need) stopped ∧ offset ≤ k ∧ k < offset + need := by
  have hread : Action.succeeded
      (Sample.schema.decodeObject ⟨0⟩ (Reader.of [0, 0, 0, 0, 0, 1, 2, 3, 4])) = true := by
    decide +kernel
  obtain ⟨record, left, hrun⟩ := Action.exists_ok hread
  exact ⟨record, left, hrun,
    ((Schema.decode_delimits Sample.compile_documents).1 ⟨0⟩).cut _ record left hrun⟩

end WireSchema
