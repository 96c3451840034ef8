import WireSchema.Proofs.Completeness
import WireSchema.Proofs.Construction
import WireSchema.Registry.Basic

/-!
# Packing

The size of a record tells in advance how many bytes are written, but for the bits that 64 do not
hold.  A registry packs a payload into its image, if a buffer can hold it, after it gave it a
transaction id, and never finds that it measured wrongly.
-/

namespace WireSchema

variable {schema : Schema}

theorem Record.exists_image (hgraph : schema.graph.Coherent) {record : Record}
    (htyped : record.WellTyped schema) (hcomplete : record.Complete schema) :
    ∃ data, record.image schema = .ok data ∧
      record.encodedSize schema = .ok (.ofNat data.length) := by
  obtain ⟨data, hdata⟩ := (Record.image_tells hgraph record htyped).exists_data hcomplete
  refine ⟨data, hdata, ?_⟩
  rw [Record.encodedSize_eq hgraph record htyped, hdata, Image.size_ok]

theorem Record.exists_missing (hgraph : schema.graph.Coherent) {record : Record}
    (htyped : record.WellTyped schema) (hlacks : ¬ record.Complete schema) :
    ∃ owner field, record.image schema = .error (.missingField owner field) ∧
      record.encodedSize schema = .error (.missingField owner field) := by
  obtain ⟨owner, field, himage⟩ := (Record.image_tells hgraph record htyped).exists_missing hlacks
  refine ⟨owner, field, himage, ?_⟩
  rw [Record.encodedSize_eq hgraph record htyped, himage, Image.size_error]

/-- A buffer of exactly the length of some bytes is full of them once they are written. -/
theorem Writer.buffer_advance_of (data : List UInt8) :
    ((Writer.of (List.replicate data.length 0)).advance data).buffer = data := by
  simp [Writer.of, Writer.buffer, Writer.advance]

theorem Writer.offset_advance_of (buffer data : List UInt8) :
    ((Writer.of buffer).advance data).offset = data.length := by
  rw [Writer.offset_advance]
  simp [Writer.of, Writer.offset]

/-- Whatever is written for a record, if it is written, is no more than a buffer can hold. -/
def Record.FitsBuffer (schema : Schema) (record : Record) : Prop :=
  ∀ writer left, record.encode schema writer = .ok () left →
    left.offset ≤ writer.offset + Registry.bufferLimit

theorem Record.fitsBuffer_iff {record : Record} (hbounded : record.Bounded) {data : List UInt8}
    (hdata : record.image schema = .ok data) :
    record.FitsBuffer schema ↔ data.length ≤ Registry.bufferLimit := by
  have hemits := Record.emits_encode schema record
  rw [hdata] at hemits
  constructor
  · intro hfits
    have hrun : record.encode schema (.of (List.replicate data.length 0)) = .ok () _ :=
      hemits.run hbounded (by simp [Writer.of, Writer.remaining])
    have hoffset := hfits _ _ hrun
    rw [Writer.offset_advance_of] at hoffset
    exact Nat.le_trans hoffset (by simp [Writer.of, Writer.offset])
  · intro hroom writer left hrun
    obtain ⟨other, hother, rfl, -⟩ := hemits.image_of_ok hrun
    cases hother
    rw [Writer.offset_advance]
    exact Nat.add_le_add_left hroom _

namespace Registry

/-- Packing gives a transaction id to a payload that has none, and changes nothing else. -/
theorem exists_assign (schema : Schema) (registry : Registry Payload) (record : Record) :
    ∃ transaction,
      (registry.assign ⟨schema, record⟩).2 =
        ⟨schema, { record with transaction := some transaction }⟩ ∧
      ∀ own, record.transaction = some own → transaction = own := by
  obtain ⟨number, id, slots, transaction⟩ := record
  cases transaction with
  | none => exact ⟨registry.transactions.next.1, rfl, fun own hown => by cases hown⟩
  | some transaction => exact ⟨transaction, rfl, fun own hown => Option.some.inj hown⟩

/-- A message that has a transaction id is packed with it, and none is handed out. -/
theorem assign_of_some {μ : Type} [Message μ] (registry : Registry μ) {message : μ} {id : UInt32}
    (hid : Message.transaction? message = some id) :
    registry.assign message = (registry, message) := by
  unfold assign
  rw [hid]

theorem assign_of_none {μ : Type} [Message μ] (registry : Registry μ) {message : μ}
    (hid : Message.transaction? message = none) :
    registry.assign message =
      ({ registry with transactions := ⟨registry.transactions.last + 1⟩ },
        Message.withTransaction message (registry.transactions.last + 1)) := by
  unfold assign
  rw [hid]
  rfl

theorem factories_assign {μ : Type} [Message μ] (registry : Registry μ) (message : μ) :
    (registry.assign message).1.factories = registry.factories := by
  unfold assign
  split
  · rfl
  · rfl

theorem tryPack_result (registry : Registry Payload) (payload : Payload) :
    (registry.tryPack payload).result = encoded (registry.assign payload).2 := rfl

/-- Packing leaves the same behind whether it tells about a failure or reports it. -/
theorem pack_leaves {μ : Type} [Message μ] (registry : Registry μ) (message : μ) :
    (registry.pack message).registry = (registry.tryPack message).registry ∧
      (registry.pack message).message = (registry.tryPack message).message := by
  unfold pack
  dsimp only
  split
  · exact ⟨rfl, rfl⟩
  · exact ⟨rfl, rfl⟩
  · exact ⟨rfl, rfl⟩

theorem encoded_of_error {payload : Payload} {fault : CodecError}
    (hsize : payload.encodedSize = .error fault) : encoded payload = .error (.fault fault) := by
  unfold encoded
  change (Failure.told payload.encodedSize >>= _) = _
  rw [hsize]
  rfl

theorem encoded_of_size {record : Record} {size : UInt64}
    (hsize : Payload.encodedSize ⟨schema, record⟩ = .ok size) :
    encoded (Payload.mk schema record) =
      if bufferLimit < size.toNat then .error .panic else
        match record.encode schema (Writer.of (List.replicate size.toNat 0)) with
        | .error failure _ => .error failure
        | .ok _ writer =>
          if writer.offset = size.toNat then .ok writer.buffer
          else .error (.fault (.lengthMismatch size.toNat writer.offset)) := by
  unfold encoded
  change (Failure.told (Payload.encodedSize ⟨schema, record⟩) >>= _) = _
  rw [hsize]
  rfl

theorem encodedSize_eq {record : Record} (hpayload : (record.typeIn schema).isPayload = true) :
    Payload.encodedSize ⟨schema, record⟩ = record.encodedSize schema := by
  rw [Payload.encodedSize, Payload.type, if_pos hpayload]

theorem encodedSize_of_not_isPayload {record : Record}
    (hpayload : ¬ (record.typeIn schema).isPayload = true) :
    Payload.encodedSize ⟨schema, record⟩ = .error (.notAPayload (record.typeIn schema).name) := by
  rw [Payload.encodedSize, Payload.type, if_neg hpayload]

theorem bufferLimit_lt : bufferLimit < UInt64.size := by decide

/-- A length that a buffer can have is a size without loss of bits. -/
theorem toNat_ofNat_of_le {length : Nat} (hroom : length ≤ bufferLimit) :
    (UInt64.ofNat length).toNat = length :=
  UInt64.toNat_ofNat_of_lt (Nat.lt_of_le_of_lt hroom bufferLimit_lt)

theorem encodedSize_of_image (hgraph : schema.graph.Coherent) {record : Record}
    (hpayload : (record.typeIn schema).isPayload = true) (htyped : record.WellTyped schema)
    {data : List UInt8} (hdata : record.image schema = .ok data) :
    Payload.encodedSize ⟨schema, record⟩ = .ok (.ofNat data.length) := by
  rw [encodedSize_eq hpayload, Record.encodedSize_eq hgraph record htyped, hdata, Image.size_ok]

theorem encoded_of_image (hgraph : schema.graph.Coherent) {record : Record}
    (hpayload : (record.typeIn schema).isPayload = true) (htyped : record.WellTyped schema)
    (hbounded : record.Bounded) {data : List UInt8} (hdata : record.image schema = .ok data)
    (hroom : data.length ≤ bufferLimit) :
    encoded (Payload.mk schema record) = .ok data := by
  have hsize := encodedSize_of_image hgraph hpayload htyped hdata
  have hemits := Record.emits_encode schema record
  rw [hdata] at hemits
  have hrun : record.encode schema (Writer.of (List.replicate data.length 0)) =
      .ok () ((Writer.of (List.replicate data.length 0)).advance data) :=
    hemits.run hbounded (by simp [Writer.of, Writer.remaining])
  rw [encoded_of_size hsize, toNat_ofNat_of_le hroom, if_neg (Nat.not_lt.mpr hroom), hrun]
  dsimp only
  rw [if_pos (Writer.offset_advance_of _ _), Writer.buffer_advance_of]

/-- If the image of a payload is complete, nothing but a lack of room keeps it from being packed. -/
theorem encoded_cases (hgraph : schema.graph.Coherent) {record : Record}
    (hpayload : (record.typeIn schema).isPayload = true) (htyped : record.WellTyped schema)
    {data : List UInt8} (hdata : record.image schema = .ok data) :
    encoded (Payload.mk schema record) = .ok data ∨
      ∃ stop failure, encoded (Payload.mk schema record) = .error failure ∧
        Writing.OutOfRoom stop failure := by
  have hsize := encodedSize_of_image hgraph hpayload htyped hdata
  have hemits := Record.emits_encode schema record
  rw [hdata] at hemits
  rw [encoded_of_size hsize]
  split
  · exact .inr ⟨UInt64.size, .panic, rfl, .panic (Nat.le_refl _)⟩
  · split
    next failure left hrun =>
      rcases hemits.failure_cases hrun with ⟨fault, hfault, -⟩ | ⟨stop, hout⟩
      · cases hfault
      · exact .inr ⟨stop, failure, rfl, hout⟩
    next left hrun =>
      obtain ⟨other, hother, rfl, hfits⟩ := hemits.image_of_ok hrun
      cases hother
      have hroom : data.length ≤ (UInt64.ofNat data.length).toNat := by
        simpa [Writer.of, Writer.remaining] using hfits
      -- Bytes that fit into a buffer of the measured size are too few for bits to be lost.
      have hlength := Nat.le_antisymm hroom (Layout.toNat_ofNat_le data.length)
      rw [← hlength, if_pos (Writer.offset_advance_of _ _), Writer.buffer_advance_of]
      exact .inl rfl

/-- What is packed is the image of a payload, whose texts and arrays are short, and a buffer holds
it. -/
theorem image_of_encoded {record : Record} {bytes : List UInt8}
    (hencoded : encoded (Payload.mk schema record) = .ok bytes) :
    (record.typeIn schema).isPayload = true ∧ record.image schema = .ok bytes ∧
      (record.WellTyped schema → record.Bounded) ∧ bytes.length ≤ bufferLimit := by
  cases hsize : Payload.encodedSize ⟨schema, record⟩ with
  | error fault =>
      rw [encoded_of_error hsize] at hencoded
      cases hencoded
  | ok size =>
      have hpayload : (record.typeIn schema).isPayload = true := by
        by_contra hpayload
        rw [encodedSize_of_not_isPayload hpayload] at hsize
        cases hsize
      rw [encoded_of_size hsize] at hencoded
      split at hencoded
      · cases hencoded
      next hlimit =>
        split at hencoded
        next => cases hencoded
        next left hrun =>
          obtain ⟨data, hdata, rfl, -⟩ := (Record.emits_encode schema record).image_of_ok hrun
          split at hencoded
          next hoffset =>
            have hlength : data.length = size.toNat :=
              (Writer.offset_advance_of _ _).symm.trans hoffset
            rw [← hlength, Writer.buffer_advance_of] at hencoded
            cases hencoded
            refine ⟨hpayload, hdata, fun htyped => ?_, hlength ▸ Nat.not_lt.mp hlimit⟩
            exact Record.bounded_of_encode record htyped hrun
          next => cases hencoded

/-- What was measured is what is written. -/
theorem encoded_ne_lengthMismatch (hgraph : schema.graph.Coherent) {record : Record}
    (htyped : record.WellTyped schema) (estimated written : Nat) :
    encoded (Payload.mk schema record) ≠ .error (.fault (.lengthMismatch estimated written)) := by
  intro hmismatch
  by_cases hpayload : (record.typeIn schema).isPayload = true
  · rcases Record.image_tells hgraph record htyped with
      ⟨data, hdata, -⟩ | ⟨owner, field, hdata, -⟩
    · rcases encoded_cases hgraph hpayload htyped hdata with hpacked | ⟨stop, failure, hfails, hout⟩
      · cases hpacked.symm.trans hmismatch
      · cases hfails.symm.trans hmismatch
        cases hout
    · have hsize := (encodedSize_eq hpayload).trans (Record.encodedSize_eq hgraph record htyped)
      rw [hdata] at hsize
      rw [encoded_of_error hsize] at hmismatch
      cases hmismatch
  · rw [encoded_of_error (encodedSize_of_not_isPayload hpayload)] at hmismatch
    cases hmismatch

end Registry

/-! ## Sizes are exact -/

/-- Of a complete record whose texts and arrays are short, the size is exactly the number of bytes
that are written if there is room for them, as a 64-bit number.  With less room the writing fails
for lack of it: it overflows, or it panics where the bytes would end beyond 64 bits.  If a required
field has no value, measuring names it, and so does writing with enough room.  So a registry never
measures wrongly. -/
theorem Record.encodedSize_exact {documents : List Document}
    (hcompile : Graph.compile documents = .ok schema.graph) {record : Record}
    (htyped : record.WellTyped schema) :
    (record.Complete schema → record.Bounded →
      ∃ size : Nat, record.encodedSize schema = .ok (.ofNat size) ∧
        ∀ writer : Writer,
          (size ≤ writer.remaining →
            ∃ left, record.encode schema writer = .ok () left ∧
              left.offset = writer.offset + size) ∧
          (writer.remaining < size →
            ∃ failure left, record.encode schema writer = .error failure left ∧
              Writing.OutOfRoom (writer.offset + size) failure)) ∧
    (¬ record.Complete schema →
      ∃ owner field, record.encodedSize schema = .error (.missingField owner field) ∧
        (record.Bounded → ∃ room, ∀ writer : Writer, room ≤ writer.remaining →
          ∃ left, record.encode schema writer =
            .error (.fault (.missingField owner field)) left)) ∧
    ∀ (registry : Registry Payload) (estimated written : Nat),
      (registry.tryPack ⟨schema, record⟩).result ≠
        .error (.fault (.lengthMismatch estimated written)) := by
  have hgraph := Graph.coherent_of_compile hcompile
  have hemits := Record.emits_encode schema record
  refine ⟨?_, ?_, ?_⟩
  · intro hcomplete hbounded
    obtain ⟨data, hdata, hsize⟩ := Record.exists_image hgraph htyped hcomplete
    rw [hdata] at hemits
    refine ⟨data.length, hsize, fun writer => ⟨?_, ?_⟩⟩
    · intro hroom
      exact ⟨writer.advance data, hemits.run hbounded hroom, writer.offset_advance data⟩
    · intro hshort
      exact hemits.overflow hshort
  · intro hlacks
    obtain ⟨owner, field, hdata, hsize⟩ := Record.exists_missing hgraph htyped hlacks
    rw [hdata] at hemits
    exact ⟨owner, field, hsize, fun hbounded => hemits.halt hbounded⟩
  · intro registry estimated written
    obtain ⟨transaction, hmessage, -⟩ := Registry.exists_assign schema registry record
    rw [Registry.tryPack_result, hmessage]
    exact Registry.encoded_ne_lengthMismatch hgraph (htyped.withTransaction _) estimated written

theorem Sample.fitsBuffer_walk : walk.FitsBuffer Sample.schema := by
  have hlength : (walk.image Sample.schema).length = .ok 39 := by decide +kernel
  obtain ⟨data, hdata, hsize⟩ := Image.length_eq_ok hlength
  refine (Record.fitsBuffer_iff bounded_walk hdata).mpr ?_
  rw [hsize]
  decide

theorem Sample.encode_walk :
    ∃ size : Nat, walk.encodedSize Sample.schema = .ok (.ofNat size) ∧
      ∀ writer : Writer, size ≤ writer.remaining →
        ∃ left, walk.encode Sample.schema writer = .ok () left ∧
          left.offset = writer.offset + size := by
  obtain ⟨size, hsize, hwrite⟩ :=
    (Record.encodedSize_exact compile_documents wellTyped_walk).1 complete_walk bounded_walk
  exact ⟨size, hsize, fun writer => (hwrite writer).1⟩

/-! ## Vast fields

A schema may give a byte field a length that no buffer has.  A record takes it with any bytes, and
with none. -/

namespace Sample

def vastDocuments : List Document :=
  [⟨"vast", .object [
    ("blob", .object [("b", .string "binary18446744073709551615")]),
    ("note", .object [("?a", .string "binary18446744073709551615")]),
    ("ping", .array [.object [("b", .string "binary9223372036854775808")]]),
    ("pong", .array [.object [("b", .string "binary18446744073709551615")]])]⟩]

def vastSchema : Schema := schemaOf 5 vastDocuments

theorem compile_vastDocuments : Graph.compile vastDocuments = .ok vastSchema.graph :=
  compile_schemaOf 5 (by decide +kernel)

/-- A record with no bytes in its only field. -/
def vast (id : ObjectId) : Record := ⟨5, id, [some (.binary [])], none⟩

theorem built_vast {id : ObjectId} (name : String)
    (hlength : (vastSchema.graph.object id).fields.length = 1)
    (hindex : (vastSchema.graph.object id).fieldIndex? name = some 0)
    (hadmits : vastSchema.admits ((Record.empty vastSchema id).fieldAt vastSchema 0).type
      (.binary []) = true) : Record.Built vastSchema (vast id) := by
  have hset := @Record.set_of_admits vastSchema (.empty vastSchema id) name (.binary []) 0
    hindex hadmits
  have hempty : Record.empty vastSchema id = ⟨5, id, [none], none⟩ := by
    rw [Record.empty, hlength]
    rfl
  have hmade : (Record.empty vastSchema id).set vastSchema name (.binary []) = .ok (vast id) := by
    rw [hset, hempty]
    rfl
  exact .set (.empty id) (fun inner hinner => by cases hinner) hmade

theorem complete_vast (id : ObjectId) : (vast id).Complete vastSchema := by
  refine Value.throughout_record ?_ fun held hheld => ?_
  · intro entry hentry
    have hslot := (List.of_mem_zip hentry).2
    exact .inr (by rw [List.mem_singleton.mp hslot]; rfl)
  · cases List.mem_singleton.mp hheld
    exact Value.throughout_scalar trivial trivial

theorem bounded_vast (id : ObjectId) : (vast id).Bounded := by
  refine Value.throughout_record trivial fun held hheld => ?_
  cases List.mem_singleton.mp hheld
  exact Value.throughout_scalar trivial trivial

/-- A field that would end beyond 64 bits is not found too long for the buffer. -/
theorem blob_panics :
    Graph.compile vastDocuments = .ok vastSchema.graph ∧
      Record.Built vastSchema (vast ⟨0⟩) ∧ (vast ⟨0⟩).Complete vastSchema ∧ (vast ⟨0⟩).Bounded ∧
      ∃ size writer, (vast ⟨0⟩).encodedSize vastSchema = .ok size ∧
        writer.remaining < size.toNat ∧
        ¬ ∃ offset need left, (vast ⟨0⟩).encode vastSchema writer =
          .error (.fault (.writeOverflow offset need)) left := by
  have hsize : (vast ⟨0⟩).encodedSize vastSchema = .ok 0xffffffffffffffff := by decide +kernel
  have hrun : (vast ⟨0⟩).encode vastSchema ⟨[0], [0xee]⟩ = .error .panic ⟨[0], [0xee]⟩ :=
    Action.eq_error_of_fault? (by decide +kernel)
  refine ⟨compile_vastDocuments,
    built_vast "b" (by decide +kernel) (by decide +kernel) (by decide +kernel),
    complete_vast ⟨0⟩, bounded_vast ⟨0⟩, _, ⟨[0], [0xee]⟩, hsize, by decide, ?_⟩
  rintro ⟨offset, need, left, hoverflow⟩
  cases hrun.symm.trans hoverflow

end Sample

end WireSchema
