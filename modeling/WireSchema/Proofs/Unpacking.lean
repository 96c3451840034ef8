import WireSchema.Proofs.Packing
import WireSchema.Proofs.Payloads

/-!
# Unpacking

A registry that holds the payloads of a schema unpacks what any registry packed of that schema.
The message arrives with its transaction id and all its values, and no byte is left.
-/

namespace WireSchema

variable {schema : Schema}

theorem Payload.decode_eq (payload : Payload) (reader : Reader) :
    Message.decode payload reader =
      (⟨payload.schema, (payload.record.decode payload.schema reader).1⟩,
        (payload.record.decode payload.schema reader).2) := rfl

namespace Registry

/-- The payloads of a schema are registered, each under its wire id. -/
def Holds (registry : Registry Payload) (schema : Schema) : Prop :=
  ∀ entry ∈ Payload.all schema, registry.factories.find? entry.1 = some entry.2

/-! ## Registering -/

theorem find?_registerEach_of_not_mem {μ : Type} {factories : TagMap μ}
    {entries : List (UInt32 × μ)} {command : UInt32}
    (hcommand : ∀ entry ∈ entries, entry.1 ≠ command) :
    (registerEach factories entries).1.find? command = factories.find? command := by
  induction entries generalizing factories with
  | nil => rfl
  | cons entry rest ih =>
      obtain ⟨hentry, hrest⟩ := List.forall_mem_cons.mp hcommand
      change (registerEach (factories.insert entry.1 entry.2) rest).1.find? command = _
      rw [ih hrest, TagMap.find?_insert_of_ne _ _ hentry.symm]

theorem find?_registerEach {μ : Type} {factories : TagMap μ} {entries : List (UInt32 × μ)}
    (hagree : ∀ first ∈ entries, ∀ second ∈ entries, first.1 = second.1 → first.2 = second.2) :
    ∀ entry ∈ entries, (registerEach factories entries).1.find? entry.1 = some entry.2 := by
  induction entries generalizing factories with
  | nil => exact fun entry hentry => absurd hentry List.not_mem_nil
  | cons head rest ih =>
      intro entry hentry
      change (registerEach (factories.insert head.1 head.2) rest).1.find? entry.1 = _
      -- Of several messages under one id the last one stays.
      by_cases hlater : ∃ other ∈ rest, other.1 = entry.1
      · obtain ⟨other, hother, hsame⟩ := hlater
        have hmessage := hagree other (List.mem_cons_of_mem _ hother) entry hentry hsame
        rw [← hsame, ← hmessage]
        refine ih ?_ other hother
        intro first hfirst second hsecond
        exact hagree first (List.mem_cons_of_mem _ hfirst) second (List.mem_cons_of_mem _ hsecond)
      · have habsent : ∀ other ∈ rest, other.1 ≠ entry.1 := fun other hother hsame =>
          hlater ⟨other, hother, hsame⟩
        rcases List.mem_cons.mp hentry with rfl | hrest
        · rw [find?_registerEach_of_not_mem habsent, TagMap.find?_insert_self]
        · exact absurd rfl (habsent entry hrest)

theorem mem_all_iff (hgraph : schema.graph.Coherent) {entry : UInt32 × Payload} :
    entry ∈ Payload.all schema ↔
      ∃ id, schema.graph.byWireId? entry.1 = some id ∧
        entry.2 = ⟨schema, .empty schema id⟩ := by
  obtain ⟨wire, payload⟩ := entry
  rw [Payload.all, Payload.empties, List.mem_map]
  constructor
  · rintro ⟨⟨other, id⟩, hmem, hentry⟩
    cases hentry
    exact ⟨id, (hgraph.mem_allFactoryIds _ id).mp hmem, rfl⟩
  · rintro ⟨id, hselects, hpayload⟩
    refine ⟨(wire, id), (hgraph.mem_allFactoryIds wire id).mpr hselects, ?_⟩
    dsimp only at hpayload ⊢
    rw [hpayload]

/-- Payloads of one schema that have the same wire id are the same. -/
theorem eq_of_mem_all (hgraph : schema.graph.Coherent) {first second : UInt32 × Payload}
    (hfirst : first ∈ Payload.all schema) (hsecond : second ∈ Payload.all schema)
    (hsame : first.1 = second.1) : first.2 = second.2 := by
  obtain ⟨id, hid, hmessage⟩ := (mem_all_iff hgraph).mp hfirst
  obtain ⟨other, hother, hmessage'⟩ := (mem_all_iff hgraph).mp hsecond
  rw [hsame, hother, Option.some.injEq] at hid
  rw [hmessage, hmessage', hid]

/-- What is registered afterwards was registered before or is among the new messages. -/
theorem mem_or_find?_of_registerEach {μ : Type} {factories : TagMap μ} {entries : List (UInt32 × μ)}
    {command : UInt32} {message : μ}
    (hfind : (registerEach factories entries).1.find? command = some message) :
    (command, message) ∈ entries ∨ factories.find? command = some message := by
  induction entries generalizing factories with
  | nil => exact .inr hfind
  | cons entry rest ih =>
      rcases ih hfind with hrest | hfind
      · exact .inl (List.mem_cons_of_mem _ hrest)
      · by_cases hsame : command = entry.1
        · subst hsame
          rw [TagMap.find?_insert_self, Option.some.injEq] at hfind
          subst hfind
          exact .inl List.mem_cons_self
        · rw [TagMap.find?_insert_of_ne _ _ hsame] at hfind
          exact .inr hfind

/-- A registry holds the payloads of a compiled schema once they are registered. -/
theorem holds_register {documents : List Document}
    (hcompile : Graph.compile documents = .ok schema.graph) (registry : Registry Payload) :
    (registry.register (Payload.all schema)).1.Holds schema := by
  have hgraph := Graph.coherent_of_compile hcompile
  exact find?_registerEach fun first hfirst second hsecond => eq_of_mem_all hgraph hfirst hsecond

/-! ## Receiving -/

theorem find?_of_holds (hgraph : schema.graph.Coherent) {registry : Registry Payload}
    (hholds : registry.Holds schema) {wire : UInt32} {id : ObjectId}
    (hselects : schema.graph.byWireId? wire = some id) :
    registry.factories.find? wire = some ⟨schema, .empty schema id⟩ :=
  hholds (wire, ⟨schema, .empty schema id⟩) ((mem_all_iff hgraph).mpr ⟨id, hselects, rfl⟩)

/-- The command id in front of some bytes. -/
def commandOf (bytes : List UInt8) : UInt32 :=
  UInt32.ofNat (Wire.ofBigEndian (bytes.take commandSize))

theorem received_of_none {μ : Type} [Message μ] {registry : Registry μ} {bytes : List UInt8}
    (hlong : commandSize ≤ bytes.length)
    (hfind : registry.factories.find? (commandOf bytes) = none) :
    registry.received bytes = .error (.unknownCommand (commandOf bytes)) := by
  unfold received
  rw [if_neg (Nat.not_lt.mpr hlong)]
  dsimp only
  rw [commandOf] at hfind
  rw [hfind]
  rfl

theorem received_of_some {μ : Type} [Message μ] {registry : Registry μ} {bytes : List UInt8}
    {empty : μ} (hlong : commandSize ≤ bytes.length)
    (hfind : registry.factories.find? (commandOf bytes) = some empty) :
    registry.received bytes =
      match Message.decode empty (Reader.of bytes) with
      | (_, .error fault _) => .error fault
      | (message, .ok _ reader) => .ok (some (commandOf bytes, message, reader.offset)) := by
  unfold received
  rw [if_neg (Nat.not_lt.mpr hlong)]
  dsimp only
  rw [commandOf] at hfind
  rewrite [hfind]
  rfl

/-- The wire id in front of some bytes selects the message into which they are decoded. -/
theorem received_of_find {μ : Type} [Message μ] {registry : Registry μ} {data rest : List UInt8}
    {wire transaction : UInt32} {empty : μ} (hdata : data = headerBytes wire transaction ++ rest)
    (hfind : registry.factories.find? wire = some empty) :
    registry.received data =
      match Message.decode empty (Reader.of data) with
      | (_, .error fault _) => .error fault
      | (message, .ok _ reader) => .ok (some (wire, message, reader.offset)) := by
  have hlong : commandSize ≤ data.length := by
    rw [hdata, headerBytes, List.length_append, List.length_append, Wire.length_bigEndian,
      commandSize]
    omega
  have hfront : commandOf data = wire := by
    have htake : data.take commandSize = Wire.bigEndian 4 wire.toNat := by
      rw [hdata, headerBytes, List.append_assoc]
      exact List.take_left' (Wire.length_bigEndian 4 _)
    rw [commandOf, htake, Wire.ofBigEndian_bigEndian wire.toNat_lt, UInt32.ofNat_toNat]
  rw [← hfront] at hfind
  rw [received_of_some hlong hfind, hfront]

theorem exists_decode_of_find {μ : Type} [Message μ] {registry : Registry μ}
    {data rest : List UInt8} {wire transaction : UInt32} {empty message : μ}
    (hdata : data = headerBytes wire transaction ++ rest)
    (hfind : registry.factories.find? wire = some empty)
    (hrun : (registry.tryUnpack data).result = .ok (some message)) :
    ∃ left, Message.decode empty (Reader.of data) = (message, .ok () left) := by
  unfold tryUnpack at hrun
  rw [received_of_find hdata hfind] at hrun
  cases hdecode : Message.decode empty (Reader.of data) with
  | mk decoded outcome =>
      rw [hdecode] at hrun
      cases outcome with
      | error fault left => cases hrun
      | ok done left =>
          cases hrun
          exact ⟨left, rfl⟩

/-- The image of a payload is received as what the payload carries, and all of it is taken. -/
theorem received_image (hgraph : schema.graph.Coherent) {registry : Registry Payload}
    (hholds : registry.Holds schema) {record : Record} {data : List UInt8}
    (hpayload : (record.typeIn schema).isPayload = true)
    (htravels : record.Travels schema (depthLimit - 1)) (hdata : record.image schema = .ok data) :
    registry.received data =
      .ok (some (Payload.command ⟨schema, record⟩,
        ⟨schema, { record.carried schema with
          transaction := some (record.transaction.getD 0) }⟩, data.length)) := by
  obtain ⟨wire, body, hwire, hselects, hbody, hparts⟩ :=
    Record.exists_payload_parts hgraph hpayload hdata
  have hcommand : Payload.command ⟨schema, record⟩ = wire := by
    rw [Payload.command, Payload.type, hwire, Option.getD_some]
  have hdecode := Record.decode_image hgraph hpayload htravels hdata 0 []
  rw [List.append_nil, Nat.zero_add] at hdecode
  have hmessage : Message.decode (Payload.mk schema (.empty schema record.type)) (Reader.of data) =
      (⟨schema, { record.carried schema with
          transaction := some (record.transaction.getD 0) }⟩, .ok () ⟨data.length, []⟩) := by
    rw [Payload.decode_eq, Reader.of, hdecode]
  rw [received_of_find hparts (find?_of_holds hgraph hholds hselects), hmessage, hcommand]

theorem tryUnpack_of_unpack {μ : Type} [Message μ] {registry : Registry μ} {bytes : List UInt8}
    {message : μ} (hrun : (registry.unpack bytes).result = some message) :
    (registry.tryUnpack bytes).result = .ok (some message) := by
  unfold unpack at hrun
  cases hresult : (registry.tryUnpack bytes).result with
  | error fault =>
      simp only [hresult] at hrun
      cases hrun
  | ok unpacked =>
      simp only [hresult] at hrun
      rw [hrun]

/-- What is unpacked was decoded into a message that is registered. -/
theorem exists_decode_of_tryUnpack {μ : Type} [Message μ] {registry : Registry μ}
    {bytes : List UInt8} {message : μ}
    (hrun : (registry.tryUnpack bytes).result = .ok (some message)) :
    ∃ command empty left, registry.factories.find? command = some empty ∧
      Message.decode empty (Reader.of bytes) = (message, .ok () left) := by
  unfold tryUnpack at hrun
  by_cases hshort : bytes.length < commandSize
  · rw [received, if_pos hshort] at hrun
    cases hrun
  · have hlong := Nat.not_lt.mp hshort
    cases hfind : registry.factories.find? (commandOf bytes) with
    | none =>
        rw [received_of_none hlong hfind] at hrun
        cases hrun
    | some empty =>
        rw [received_of_some hlong hfind] at hrun
        cases hdecode : Message.decode empty (Reader.of bytes) with
        | mk decoded outcome =>
            rw [hdecode] at hrun
            cases outcome with
            | error fault left => cases hrun
            | ok done left =>
                cases hrun
                exact ⟨_, empty, left, hfind, hdecode⟩

theorem tryUnpack_of_received {μ : Type} [Message μ] {registry : Registry μ} {bytes : List UInt8}
    {command : UInt32} {message : μ} {taken : Nat}
    (hreceived : registry.received bytes = .ok (some (command, message, taken))) :
    (registry.tryUnpack bytes).result = .ok (some message) := by
  rw [tryUnpack, hreceived]

/-- What is packed is unpacked, and packed is what fits into a buffer.  A complete payload arrives
as itself, with the transaction id it has after packing: of the same type, with values in the same
slots, its nested records of exactly their types, and all values equal but for byte fields, which
have exactly their length. -/
theorem tryUnpack_tryPack {documents : List Document}
    (hcompile : Graph.compile documents = .ok schema.graph) (packer : Registry Payload)
    {unpacker : Registry Payload} (hholds : unpacker.Holds schema) {record : Record}
    (hpayload : (record.typeIn schema).isPayload = true) (htyped : record.WellTyped schema)
    (hcomplete : record.Complete schema) (hbounded : record.Bounded)
    (hnesting : record.nesting ≤ 63) :
    (record.FitsBuffer schema → ∃ bytes transaction arrived,
      (packer.tryPack ⟨schema, record⟩).result = .ok bytes ∧
      (packer.tryPack ⟨schema, record⟩).message =
        ⟨schema, { record with transaction := some transaction }⟩ ∧
      (∀ own, record.transaction = some own → transaction = own) ∧
      unpacker.received bytes =
        .ok (some (Payload.command ⟨schema, record⟩, ⟨schema, arrived⟩, bytes.length)) ∧
      (unpacker.tryUnpack bytes).result = .ok (some ⟨schema, arrived⟩) ∧
      arrived.type = record.type ∧ arrived.transaction = some transaction ∧
      arrived.slots.map Option.isSome = record.slots.map Option.isSome ∧
      arrived = { record.carried schema with transaction := some transaction }) ∧
    (¬ record.FitsBuffer schema →
      ∀ bytes, (packer.tryPack ⟨schema, record⟩).result ≠ .ok bytes) := by
  have hgraph := Graph.coherent_of_compile hcompile
  obtain ⟨transaction, hmessage, hown⟩ := exists_assign schema packer record
  have htravels : record.Travels schema (depthLimit - 1) := ⟨htyped, hbounded, hnesting⟩
  have htravels' := htravels.withTransaction (some transaction)
  obtain ⟨bytes, hbytes, -⟩ :=
    Record.exists_image hgraph htravels'.typed (hcomplete.withTransaction (some transaction))
  have hpayload' : (Record.typeIn { record with transaction := some transaction }
      schema).isPayload = true := hpayload
  -- The transaction id changes no lengths, so that the record fits if it fits with the id.
  have hfits : record.FitsBuffer schema ↔ bytes.length ≤ bufferLimit := by
    obtain ⟨data, hdata, -⟩ := Record.exists_image hgraph htyped hcomplete
    rw [Record.length_image_withTransaction hgraph hdata hbytes]
    exact Record.fitsBuffer_iff hbounded hdata
  have hreceived := received_image hgraph hholds hpayload' htravels' hbytes
  rw [Record.carried_withTransaction] at hreceived
  rw [tryPack_result, hmessage]
  constructor
  · intro hroom
    refine ⟨bytes, transaction, _, ?_, hmessage, hown, hreceived, tryUnpack_of_received hreceived,
      ?_, rfl, Record.map_isSome_carried schema record, rfl⟩
    · exact encoded_of_image hgraph hpayload' htravels'.typed htravels'.bounded hbytes
        (hfits.mp hroom)
    · rw [Record.carried_eq]
  · intro hroom packed hpacked
    obtain ⟨-, himage, -, hlimit⟩ := image_of_encoded hpacked
    cases himage.symm.trans hbytes
    exact hroom (hfits.mpr hlimit)

end Registry

theorem Sample.unpack_walk :
    ∃ bytes arrived,
      ((Registry.empty false).tryPack (Payload.mk Sample.schema walk)).result = .ok bytes ∧
      ((((Registry.empty false).register (Payload.all Sample.schema)).1).tryUnpack bytes).result =
        .ok (some ⟨Sample.schema, arrived⟩) ∧
      arrived.slots = (walk.carried Sample.schema).slots := by
  have hholds := Registry.holds_register compile_documents (.empty false)
  have hpayload : (walk.typeIn Sample.schema).isPayload = true := by decide +kernel
  have hnesting : walk.nesting ≤ 63 := by decide
  obtain ⟨bytes, transaction, arrived, hbytes, -, -, -, hunpacked, -, -, -, harrived⟩ :=
    (Registry.tryUnpack_tryPack compile_documents (.empty false) hholds hpayload wellTyped_walk
      complete_walk bounded_walk hnesting).1 fitsBuffer_walk
  refine ⟨bytes, arrived, hbytes, hunpacked, ?_⟩
  rw [harrived]

namespace Sample

/-- A message that no buffer holds, and one whose size loses the bits that tell so. -/
theorem vast_unpacked :
    Graph.compile vastDocuments = .ok vastSchema.graph ∧
      (∀ id ∈ [(⟨2⟩ : ObjectId), ⟨3⟩], ((vast id).typeIn vastSchema).isPayload = true ∧
        Record.Built vastSchema (vast id) ∧ (vast id).Complete vastSchema ∧ (vast id).Bounded ∧
        (vast id).nesting ≤ 63 ∧
        ¬ ∃ bytes, ((Registry.empty false).tryPack (Payload.mk vastSchema (vast id))).result =
          .ok bytes) ∧
      ((Registry.empty false).tryPack (Payload.mk vastSchema (vast ⟨2⟩))).result =
        .error .panic ∧
      (vast ⟨3⟩).encodedSize vastSchema = .ok 7 ∧
      ((Registry.empty false).tryPack (Payload.mk vastSchema (vast ⟨3⟩))).result =
        .error (.fault (.writeOverflow 4 4)) := by
  have hping : ((Registry.empty false).tryPack (Payload.mk vastSchema (vast ⟨2⟩))).result =
      .error .panic := by decide +kernel
  have hpong : ((Registry.empty false).tryPack (Payload.mk vastSchema (vast ⟨3⟩))).result =
      .error (.fault (.writeOverflow 4 4)) := by decide +kernel
  refine ⟨compile_vastDocuments, ?_, hping, by decide +kernel, hpong⟩
  have hpayload : ∀ id ∈ [(⟨2⟩ : ObjectId), ⟨3⟩],
      ((vast id).typeIn vastSchema).isPayload = true ∧
        (vastSchema.graph.object id).fields.length = 1 ∧
        (vastSchema.graph.object id).fieldIndex? "b" = some 0 ∧
        vastSchema.admits ((Record.empty vastSchema id).fieldAt vastSchema 0).type
          (.binary []) = true := by
    decide +kernel
  intro id hid
  obtain ⟨hpayload, hlength, hindex, hadmits⟩ := hpayload id hid
  refine ⟨hpayload, built_vast "b" hlength hindex hadmits, complete_vast id, bounded_vast id,
    Nat.zero_le 63, ?_⟩
  rintro ⟨bytes, hpacked⟩
  simp only [List.mem_cons, List.not_mem_nil, or_false] at hid
  rcases hid with rfl | rfl
  · cases hping.symm.trans hpacked
  · cases hpong.symm.trans hpacked

end Sample

end WireSchema
