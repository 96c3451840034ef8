import WireSchema.Proofs.RoundTrip

/-!
# Payloads

The image of a payload begins with its wire id and its transaction id.  The wire id selects the
type, whether the payload is read into a new record or into an empty one that is at hand.
-/

namespace WireSchema

open Reading (Recovers)

variable {schema : Schema}

/-- The two numbers at the start of a payload. -/
def headerBytes (wire transaction : UInt32) : List UInt8 :=
  Wire.bigEndian 4 wire.toNat ++ Wire.bigEndian 4 transaction.toNat

/-- The image of a payload is its header, its presence bits and its slots. -/
theorem Record.exists_payload_parts (hgraph : schema.graph.Coherent) {record : Record}
    {data : List UInt8} (hpayload : (record.typeIn schema).isPayload = true)
    (hdata : record.image schema = .ok data) :
    ∃ wire body,
      (record.typeIn schema).wireId = some wire ∧ schema.graph.byWireId? wire = some record.type ∧
      Record.slotsImage schema (record.typeIn schema).name (record.typeIn schema).fields
        record.slots = .ok body ∧
      data = headerBytes wire (record.transaction.getD 0) ++
        ((FlagBits.ofBits (presenceBits (record.typeIn schema).fields record.slots)).bytes ++
          body) := by
  obtain ⟨header, body, hheader, hbody, rfl⟩ := Record.exists_image_parts hdata
  obtain ⟨wire, hwire, hselects⟩ := hgraph.exists_wireId record.type hpayload
  have hhasHeader : (record.typeIn schema).layout.hasHeader = true :=
    (hgraph.hasHeader_eq record.type).trans hpayload
  have hhasKindTag : (record.typeIn schema).layout.hasKindTag = false :=
    hgraph.hasKindTag_of_isPayload hpayload
  refine ⟨wire, body, hwire, hselects, hbody, ?_⟩
  rw [ObjectType.headerImage, hhasHeader, if_pos rfl, Record.typeIn, hwire] at hheader
  cases hheader
  rw [ObjectType.kindTagBytes, hhasKindTag, if_neg Bool.false_ne_true, List.nil_append]
  rfl

theorem Record.carried_eq (record : Record) :
    record.carried schema =
      ⟨record.schema, record.type, (record.carried schema).slots, record.transaction⟩ := by
  obtain ⟨number, id, slots, transaction⟩ := record
  rfl

/-- A payload is read back by whatever reads payloads. -/
theorem Record.recovers_decodePayload (hgraph : schema.graph.Coherent) {record : Record}
    {data : List UInt8} (hpayload : (record.typeIn schema).isPayload = true)
    (htravels : record.Travels schema (depthLimit - 1)) (hdata : record.image schema = .ok data) :
    Recovers schema.decodePayload data
      { record.carried schema with transaction := some (record.transaction.getD 0) } := by
  obtain ⟨wire, body, hwire, hselects, hbody, rfl⟩ :=
    Record.exists_payload_parts hgraph hpayload hdata
  have hslots := Record.recovers_readBody hgraph htravels hbody
  have hschema : record.schema = schema.number := htravels.typed.self.schema_eq
  rw [headerBytes, List.append_assoc, Schema.decodePayload, Record.carried_eq, hschema]
  refine (Reading.recovers_uint32 wire).bind ?_
  rw [hselects]
  exact (Reading.recovers_uint32 _).bind (hslots.bind_pure _)

/-! ## Reading into a record at hand -/

theorem Record.recovers_readHeader (hgraph : schema.graph.Coherent) {id : ObjectId}
    {wire : UInt32} (transaction : UInt32) (hselects : schema.graph.byWireId? wire = some id) :
    Recovers (Record.readHeader (schema.graph.object id)) (headerBytes wire transaction)
      (some transaction) := by
  obtain ⟨hpayload, hwire⟩ := hgraph.of_byWireId? wire id hselects
  have hhasHeader : (schema.graph.object id).layout.hasHeader = true :=
    (hgraph.hasHeader_eq id).trans hpayload
  rw [Record.readHeader, hhasHeader, if_pos rfl, headerBytes]
  refine (Reading.recovers_uint32 wire).bind ?_
  rw [hwire, beq_self_eq_true, if_pos rfl]
  exact (Reading.recovers_uint32 transaction).bind_pure some

theorem Record.decode_of_ok (record : Record) {reader middle behind left : Reader}
    {transaction : Option UInt32} {slots : List (Option Value)}
    (hheader : Record.readHeader (record.typeIn schema) reader = .ok transaction middle)
    (hkindTag : Record.skipKindTag (record.typeIn schema) middle = .ok () behind)
    (hslots : EStateM.adaptExcept Interruption.cause
      ((record.typeIn schema).readBody schema.readPayloadValue) behind = .ok slots left) :
    record.decode schema reader =
      ({ record with slots := slots, transaction := transaction <|> record.transaction },
        .ok () left) := by
  unfold Record.decode
  simp only [hheader, hkindTag, Action.adaptExcept_eq_ok hslots]

theorem Record.decode_of_error (record : Record) {reader middle behind left : Reader}
    {transaction : Option UInt32} {fault : CodecError}
    (hheader : Record.readHeader (record.typeIn schema) reader = .ok transaction middle)
    (hkindTag : Record.skipKindTag (record.typeIn schema) middle = .ok () behind)
    (hslots : EStateM.adaptExcept Interruption.cause
      ((record.typeIn schema).readBody schema.readPayloadValue) behind = .error fault left) :
    ∃ arrived, record.decode schema reader = (arrived, .error fault left) := by
  obtain ⟨stopped, hbody, rfl⟩ := Action.adaptExcept_eq_error hslots
  unfold Record.decode
  simp only [hheader, hkindTag, hbody]
  exact ⟨_, rfl⟩

/-- A payload has no kind tag. -/
theorem Record.skipKindTag_of_isPayload (hgraph : schema.graph.Coherent) {id : ObjectId}
    (hpayload : (schema.graph.object id).isPayload = true) (reader : Reader) :
    Record.skipKindTag (schema.graph.object id) reader = .ok () reader := by
  rw [Record.skipKindTag, hgraph.hasKindTag_of_isPayload hpayload]
  rfl

/-- Reading a payload into an empty record of its type gives what the payload carries, and the
whole image is taken. -/
theorem Record.decode_image (hgraph : schema.graph.Coherent) {record : Record}
    {data : List UInt8} (hpayload : (record.typeIn schema).isPayload = true)
    (htravels : record.Travels schema (depthLimit - 1)) (hdata : record.image schema = .ok data)
    (offset : Nat) (rest : List UInt8) :
    (Record.empty schema record.type).decode schema ⟨offset, data ++ rest⟩ =
      ({ record.carried schema with transaction := some (record.transaction.getD 0) },
        .ok () ⟨offset + data.length, rest⟩) := by
  obtain ⟨wire, body, hwire, hselects, hbody, rfl⟩ :=
    Record.exists_payload_parts hgraph hpayload hdata
  have hheader := Record.recovers_readHeader hgraph (record.transaction.getD 0) hselects
  have hslots := Record.recovers_readBody hgraph htravels hbody
  have hskip := Record.skipKindTag_of_isPayload hgraph hpayload
  have hschema : record.schema = schema.number := htravels.typed.self.schema_eq
  rw [Record.carried_eq, hschema, List.append_assoc, List.length_append, ← Nat.add_assoc]
  exact Record.decode_of_ok (Record.empty schema record.type) (hheader offset _) (hskip _)
    (hslots _ rest)

end WireSchema
