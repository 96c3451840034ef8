import WireSchema.Proofs.Lookup
import WireSchema.Proofs.Truncation
import WireSchema.Proofs.Unpacking

/-!
# Registration

A registry may be filled step by step, with the payloads of one namespace or of all of them, in any
order and more than once.  As soon as every namespace is covered, it selects by a command id what
the graph selects by it, and unpacks what reading a payload on its own gives.
-/

namespace WireSchema

variable {schema : Schema}

/-! ## Faults without a command -/

/-- The command that a fault reports as unknown. -/
def CodecError.command? : CodecError → Option UInt32
  | .unknownCommand command => some command
  | _ => none

namespace Reading

/-- A reading that reports no command as unknown. -/
def Headless {α : Type} (action : Reading α) : Prop :=
  ∀ reader fault left, action reader = .error fault left → fault.command? = none

variable {α β : Type} {action : Reading α}

theorem headless_pure (value : α) : Headless (pure value : Reading α) := by
  intro reader fault left hrun
  cases hrun

theorem headless_throw {fault : CodecError} (hfault : fault.command? = none) :
    Headless (throw fault : Reading α) := by
  intro reader other left hrun
  cases hrun
  exact hfault

theorem Headless.bind {f : α → Reading β} (haction : Headless action)
    (hf : ∀ value, Headless (f value)) : Headless (action >>= f) := by
  intro reader fault left hrun
  rcases Action.bind_eq_error hrun with hfirst | ⟨value, middle, -, hthen⟩
  · exact haction reader fault left hfirst
  · exact hf value middle fault left hthen

theorem Headless.map (haction : Headless action) (f : α → β) : Headless (f <$> action) := by
  rw [map_eq_pure_bind]
  exact haction.bind fun value => headless_pure (f value)

theorem headless_bytes (count : Nat) : Headless (Reader.bytes count) := by
  rintro ⟨offset, bytes⟩ fault left hrun
  rw [bytes_eq] at hrun
  split at hrun
  · cases hrun
    rfl
  · cases hrun

theorem headless_word (width : Nat) : Headless (Reader.word width) :=
  (headless_bytes width).bind fun _ => headless_pure _

theorem headless_uint32 : Headless Reader.uint32 := (headless_word 4).bind fun _ => headless_pure _

theorem headless_utf8 (count : Nat) : Headless (utf8 count) := by
  rintro ⟨offset, bytes⟩ fault left hrun
  rcases utf8_cases count offset bytes with
    ⟨data, left', text, -, -, hrun'⟩ | ⟨data, left', -, -, hrun'⟩ | ⟨fault', left', hbytes, hrun'⟩
  · rw [hrun] at hrun'
    cases hrun'
  · rw [hrun] at hrun'
    cases hrun'
    rfl
  · rw [hrun] at hrun'
    cases hrun'
    exact headless_bytes count _ _ _ hbytes

theorem headless_text : Headless Reader.text := by
  rw [text_eq]
  exact (headless_word 4).bind headless_utf8

theorem headless_readPrimitive (kind : Primitive) : Headless (readPrimitive kind) := by
  rw [Primitive.readPrimitive_eq]
  refine (headless_word kind.size).bind fun code => ?_
  cases kind
  case datetime =>
    rw [Primitive.valueOf]
    split
    · exact headless_pure _
    · exact headless_throw rfl
  all_goals exact headless_pure _

theorem headless_readOrdinal (type : EnumType) : Headless type.readOrdinal := by
  have hbyte : Headless Reader.uint8 := (headless_word 1).bind fun _ => headless_pure _
  refine hbyte.bind fun ordinal => ?_
  split
  · exact headless_pure ordinal
  · exact headless_throw rfl

theorem headless_itemsReading {read : Reading Value} (hread : Headless read) (count : Nat) :
    Headless (itemsReading read count) := by
  induction count with
  | zero => exact headless_pure []
  | succ count ih => exact hread.bind fun item => ih.bind fun rest => headless_pure (item :: rest)

theorem headless_readValue {graph : Graph} {nested : ObjectId → Reading Record}
    (hnested : ∀ id, Headless (nested id)) (type : FieldType) :
    Headless (readValue graph nested type) := by
  induction type with
  | primitive kind => exact (headless_readPrimitive kind)
  | text => exact headless_text.map Value.text
  | binary length => exact (headless_bytes length).map Value.binary
  | enum id => exact (headless_readOrdinal _).map Value.ordinal
  | object id => exact (hnested id).map Value.record
  | array element ih =>
      refine (headless_word 4).bind fun count => ?_
      rw [readItems_eq]
      exact ((headless_itemsReading ih count).map _).bind fun items => headless_pure _

theorem headless_slotsReading {read : FieldType → Reading Value}
    (hread : ∀ type, Headless (read type)) (flags : FlagBits) (fields : List Field) :
    Headless (slotsReading read flags fields) := by
  induction fields generalizing flags with
  | nil => exact headless_pure []
  | cons field rest ih =>
      cases htaken : (if field.isOptional then flags.next else (true, flags)) with
      | mk present left =>
          cases present with
          | true =>
              rw [slotsReading_of_present htaken]
              exact (hread field.type).bind fun value => (ih left).bind fun slots =>
                headless_pure (some value :: slots)
          | false =>
              rw [slotsReading_of_absent htaken]
              exact (ih left).map _

theorem headless_readBody {read : FieldType → Reading Value}
    (hread : ∀ type, Headless (read type)) (type : ObjectType) :
    Headless (EStateM.adaptExcept Interruption.cause (type.readBody read)) := by
  rw [ObjectType.readBody_eq]
  have hflags : Headless (FlagBits.read type.layout.flagBytes) :=
    (headless_bytes _).bind fun _ => headless_pure _
  exact hflags.bind fun flags => headless_slotsReading hread flags type.fields

theorem headless_readObject (schema : Schema) (levels : Nat) (declared : ObjectId) :
    Headless (schema.readObject levels declared) := by
  induction levels generalizing declared with
  | zero =>
      intro reader fault left hrun
      cases hrun
      rfl
  | succ levels ih =>
      have hconcrete : Headless (schema.graph.readConcreteType declared) := by
        unfold Graph.readConcreteType
        split
        · exact headless_uint32.bind fun tag => headless_pure _
        · exact headless_pure declared
      rw [Schema.readObject]
      refine hconcrete.bind fun id => ?_
      exact (headless_readBody (headless_readValue ih) _).bind fun slots => headless_pure _

theorem headless_readPayloadBody (schema : Schema) (type : ObjectType) :
    Headless (EStateM.adaptExcept Interruption.cause (type.readBody schema.readPayloadValue)) :=
  headless_readBody (headless_readValue (headless_readObject schema _)) type

end Reading

/-! ## What is registered -/

/-- The payloads of one namespace, or those of all namespaces. -/
inductive Registration where
  | space (name : String)
  | all
  deriving DecidableEq

namespace Registration

def payloads (schema : Schema) : Registration → List (UInt32 × Payload)
  | .space name => Payload.ofNamespace schema name
  | .all => Payload.all schema

def Covers (graph : Graph) (registrations : List Registration) : Prop :=
  ∀ space ∈ graph.namespaces,
    Registration.all ∈ registrations ∨ Registration.space space.name ∈ registrations

instance (graph : Graph) (registrations : List Registration) :
    Decidable (Covers graph registrations) :=
  inferInstanceAs (Decidable (∀ space ∈ graph.namespaces, _))

theorem mem_all_of_mem_payloads {registration : Registration} {entry : UInt32 × Payload}
    (hentry : entry ∈ registration.payloads schema) : entry ∈ Payload.all schema := by
  cases registration with
  | all => exact hentry
  | space name =>
      rcases List.mem_map.mp hentry with ⟨⟨wire, id⟩, hid, rfl⟩
      refine List.mem_map.mpr ⟨(wire, id), ?_, rfl⟩
      unfold Graph.factoryIds at hid
      cases hspace : schema.graph.namespace? name with
      | none => simp [hspace] at hid
      | some space =>
          rw [hspace] at hid
          exact List.mem_flatMap.mpr ⟨space, List.mem_of_find?_eq_some hspace, hid⟩

/-- Registering every namespace leaves no payload out. -/
theorem Covers.exists_mem_payloads {documents : List Document}
    (hcompile : Graph.compile documents = .ok schema.graph) {registrations : List Registration}
    (hcovers : Covers schema.graph registrations) {entry : UInt32 × Payload}
    (hentry : entry ∈ Payload.all schema) :
    ∃ registration ∈ registrations, entry ∈ registration.payloads schema := by
  rcases List.mem_map.mp hentry with ⟨⟨wire, id⟩, hid, hmessage⟩
  rcases List.mem_flatMap.mp hid with ⟨space, hspace, hwire⟩
  rcases hcovers space hspace with hall | hnamed
  · exact ⟨.all, hall, hentry⟩
  · refine ⟨.space space.name, hnamed, List.mem_map.mpr ⟨(wire, id), ?_, hmessage⟩⟩
    rcases Graph.exists_batch_of_compile hcompile with ⟨outlines, batch, found, hnumbers, -, hgraph⟩
    rw [← hgraph] at hspace hwire ⊢
    rcases List.mem_map.mp hspace with ⟨home, hhome, rfl⟩
    exact (hnumbers.factoryIds_graph hhome).symm ▸ hwire

end Registration

open Registration (Covers)

namespace Registry

/-- Registers payloads in several steps. -/
def registerAll (schema : Schema) (registry : Registry Payload)
    (registrations : List Registration) : Registry Payload :=
  registrations.foldl
    (fun registry registration => (registry.register (registration.payloads schema)).1) registry

/-- Nothing but payloads of the schema is registered, each under its wire id. -/
def Within (registry : Registry Payload) (schema : Schema) : Prop :=
  ∀ command message, registry.factories.find? command = some message →
    (command, message) ∈ Payload.all schema

/-- One step adds the payloads that it registers to those that were there. -/
theorem find?_register_iff (hgraph : schema.graph.Coherent) {registry : Registry Payload}
    (hwithin : registry.Within schema) (registration : Registration) {command : UInt32}
    {message : Payload} :
    (registry.register (registration.payloads schema)).1.factories.find? command = some message ↔
      (command, message) ∈ registration.payloads schema ∨
        registry.factories.find? command = some message := by
  have hagree : ∀ first ∈ registration.payloads schema, ∀ second ∈ registration.payloads schema,
      first.1 = second.1 → first.2 = second.2 := by
    intro first hfirst second hsecond
    exact eq_of_mem_all hgraph (Registration.mem_all_of_mem_payloads hfirst)
      (Registration.mem_all_of_mem_payloads hsecond)
  constructor
  · exact mem_or_find?_of_registerEach
  · rintro (hentry | hfind)
    · exact find?_registerEach hagree _ hentry
    · by_cases hagain : ∃ entry ∈ registration.payloads schema, entry.1 = command
      · -- What is registered again is what was registered before.
        rcases hagain with ⟨entry, hentry, rfl⟩
        have hsame : entry.2 = message := eq_of_mem_all hgraph
          (Registration.mem_all_of_mem_payloads hentry) (hwithin _ _ hfind) rfl
        exact hsame ▸ find?_registerEach hagree entry hentry
      · have hfresh : ∀ entry ∈ registration.payloads schema, entry.1 ≠ command :=
          fun entry hentry hsame => hagain ⟨entry, hentry, hsame⟩
        exact (find?_registerEach_of_not_mem hfresh).trans hfind

theorem Within.register (hgraph : schema.graph.Coherent) {registry : Registry Payload}
    (hwithin : registry.Within schema) (registration : Registration) :
    (registry.register (registration.payloads schema)).1.Within schema := by
  intro command message hfind
  rcases (find?_register_iff hgraph hwithin registration).mp hfind with hentry | hbefore
  · exact Registration.mem_all_of_mem_payloads hentry
  · exact hwithin command message hbefore

/-- After all steps there is what one of them registered. -/
theorem find?_registerAll_iff (hgraph : schema.graph.Coherent) {registry : Registry Payload}
    (hwithin : registry.Within schema) (registrations : List Registration) {command : UInt32}
    {message : Payload} :
    (registry.registerAll schema registrations).factories.find? command = some message ↔
      (∃ registration ∈ registrations, (command, message) ∈ registration.payloads schema) ∨
        registry.factories.find? command = some message := by
  induction registrations generalizing registry with
  | nil => simp [registerAll]
  | cons registration rest ih =>
      have hrest := ih (hwithin.register hgraph registration)
      rw [registerAll, List.foldl_cons]
      refine hrest.trans ?_
      rw [find?_register_iff hgraph hwithin, List.exists_mem_cons_iff, or_left_comm, or_assoc]

/-- A registry that covers all namespaces selects what the graph selects. -/
theorem find?_registerAll_of_covers {documents : List Document}
    (hcompile : Graph.compile documents = .ok schema.graph) {registrations : List Registration}
    (hcovers : Covers schema.graph registrations) {registry : Registry Payload}
    (hbare : registry.factories = .empty) (command : UInt32) :
    (registry.registerAll schema registrations).factories.find? command =
      (schema.graph.byWireId? command).map fun id => ⟨schema, .empty schema id⟩ := by
  have hgraph := Graph.coherent_of_compile hcompile
  have hnone : registry.factories.find? command = none := by
    rw [hbare]
    rfl
  have hwithin : registry.Within schema := by
    intro other message hfind
    rw [hbare] at hfind
    cases hfind
  ext message
  rw [find?_registerAll_iff hgraph hwithin, Option.map_eq_some_iff, hnone]
  constructor
  · rintro (⟨registration, -, hentry⟩ | hnone)
    · rcases (mem_all_iff hgraph).mp (Registration.mem_all_of_mem_payloads hentry) with
        ⟨id, hid, hmessage⟩
      exact ⟨id, hid, hmessage.symm⟩
    · cases hnone
  · rintro ⟨id, hid, hmessage⟩
    have hentry := (mem_all_iff hgraph).mpr
      ⟨id, (show schema.graph.byWireId? (command, message).1 = some id from hid), hmessage.symm⟩
    exact .inl (hcovers.exists_mem_payloads hcompile hentry)

end Registry

/-! ## The same payload both ways -/

namespace Record

variable {id : ObjectId} {command : UInt32} {reader middle left : Reader}

theorem readHeader_eq (hgraph : schema.graph.Coherent)
    (hselects : schema.graph.byWireId? command = some id)
    (hcommand : Reader.uint32 reader = .ok command middle) :
    Record.readHeader (schema.graph.object id) reader = (some <$> Reader.uint32) middle := by
  rcases hgraph.of_byWireId? command id hselects with ⟨hpayload, hwire⟩
  have hheader := (hgraph.hasHeader_eq id).trans hpayload
  rw [Record.readHeader, if_pos hheader, Action.bind_of_ok hcommand, hwire, beq_self_eq_true,
    if_pos rfl, map_eq_pure_bind]

theorem decodePayload_eq (hselects : schema.graph.byWireId? command = some id)
    (hcommand : Reader.uint32 reader = .ok command middle) :
    schema.decodePayload reader = (do
      let transaction ← Reader.uint32
      let slots ← EStateM.adaptExcept Interruption.cause
        ((schema.graph.object id).readBody schema.readPayloadValue)
      return { (Record.empty schema id).withTransaction transaction with slots := slots }) middle := by
  rw [Schema.decodePayload, Action.bind_of_ok hcommand, hselects]

/-- Reading into an empty record of the type that the wire id selects ends as reading on its own. -/
theorem decode_empty_of_ok (hgraph : schema.graph.Coherent)
    (hselects : schema.graph.byWireId? command = some id)
    (hcommand : Reader.uint32 reader = .ok command middle) {record : Record}
    (hrun : schema.decodePayload reader = .ok record left) :
    (Record.empty schema id).decode schema reader = (record, .ok () left) := by
  rw [decodePayload_eq hselects hcommand] at hrun
  rcases Action.bind_eq_ok hrun with ⟨transaction, behind, htransaction, hrest⟩
  rcases Action.bind_eq_ok hrest with ⟨slots, last, hslots, hlast⟩
  cases hlast
  have hheader : Record.readHeader (schema.graph.object id) reader = .ok (some transaction) behind := by
    rw [readHeader_eq hgraph hselects hcommand, map_eq_pure_bind, Action.bind_of_ok htransaction]
    rfl
  have hskip := skipKindTag_of_isPayload hgraph (hgraph.of_byWireId? command id hselects).1 behind
  exact decode_of_ok (Record.empty schema id) hheader hskip hslots

theorem decode_empty_of_error (hgraph : schema.graph.Coherent)
    (hselects : schema.graph.byWireId? command = some id)
    (hcommand : Reader.uint32 reader = .ok command middle) {fault : CodecError}
    (hrun : schema.decodePayload reader = .error fault left) :
    ∃ arrived, (Record.empty schema id).decode schema reader = (arrived, .error fault left) := by
  rw [decodePayload_eq hselects hcommand] at hrun
  rcases Action.bind_eq_error hrun with htransaction | ⟨transaction, behind, htransaction, hrest⟩
  · have hheader : Record.readHeader (schema.graph.object id) reader = .error fault left := by
      rw [readHeader_eq hgraph hselects hcommand, map_eq_pure_bind,
        Action.bind_of_error htransaction]
    refine ⟨Record.empty schema id, ?_⟩
    simp only [Record.decode, Record.typeIn, Record.empty, hheader]
  · rcases Action.bind_eq_error hrest with hslots | ⟨slots, last, -, hlast⟩
    · have hheader :
          Record.readHeader (schema.graph.object id) reader = .ok (some transaction) behind := by
        rw [readHeader_eq hgraph hselects hcommand, map_eq_pure_bind,
          Action.bind_of_ok htransaction]
        rfl
      have hskip :=
        skipKindTag_of_isPayload hgraph (hgraph.of_byWireId? command id hselects).1 behind
      exact decode_of_error (Record.empty schema id) hheader hskip hslots
    · cases hlast

end Record

namespace Schema

/-- Reading a payload reports just those commands as unknown that the graph does not select. -/
theorem decodePayload_eq_unknown_iff (schema : Schema) {reader middle : Reader}
    {first command : UInt32} (hfirst : Reader.uint32 reader = .ok first middle) :
    (∃ left, schema.decodePayload reader = .error (.unknownCommand command) left) ↔
      first = command ∧ schema.graph.byWireId? command = none := by
  cases hselects : schema.graph.byWireId? first with
  | none =>
      have hrun : schema.decodePayload reader = .error (.unknownCommand first) middle := by
        rw [decodePayload, Action.bind_of_ok hfirst, hselects]
        rfl
      rw [hrun]
      constructor
      · rintro ⟨left, hsame⟩
        cases hsame
        exact ⟨rfl, hselects⟩
      · rintro ⟨rfl, -⟩
        exact ⟨middle, rfl⟩
  | some id =>
      constructor
      · rintro ⟨left, hrun⟩
        rw [Record.decodePayload_eq hselects hfirst] at hrun
        have hheadless := Reading.headless_uint32.bind fun transaction =>
          (Reading.headless_readPayloadBody schema (schema.graph.object id)).bind fun slots =>
            Reading.headless_pure
              { (Record.empty schema id).withTransaction transaction with slots := slots }
        cases hheadless _ _ _ hrun
      · rintro ⟨rfl, hnone⟩
        rw [hselects] at hnone
        cases hnone

end Schema

theorem Graph.byWireId?_eq_none_iff {documents : List Document} {graph : Graph}
    (hcompile : Graph.compile documents = .ok graph) {command : UInt32} :
    graph.byWireId? command = none ↔ ∀ id, (graph.object id).wireId ≠ some command := by
  rcases exists_batch_of_compile hcompile with ⟨outlines, batch, found, hnumbers, hfound, rfl⟩
  constructor
  · intro hnone id hwire
    have hpayload := hnumbers.isSome_wireId_graph hfound id
    rw [hwire, Option.isSome_some] at hpayload
    have hselects := (Batch.byWireId?_graph hnumbers.sound hfound).mpr ⟨hpayload.symm, hwire⟩
    rw [hnone] at hselects
    cases hselects
  · intro hnone
    cases hselects : (batch.graph found).byWireId? command with
    | none => rfl
    | some id =>
        exact absurd ((Batch.byWireId?_graph hnumbers.sound hfound).mp hselects).2 (hnone id)

namespace Registry

theorem uint32_of {bytes : List UInt8} (hlong : commandSize ≤ bytes.length) :
    Reader.uint32 (Reader.of bytes) = .ok (commandOf bytes) ⟨4, bytes.drop 4⟩ := by
  have hbytes : Reader.bytes 4 ⟨0, bytes⟩ = .ok (bytes.take 4) ⟨4, bytes.drop 4⟩ := by
    have henough : ¬ bytes.length < 4 := Nat.not_lt.mpr hlong
    rw [Reading.bytes_eq, if_neg henough]
  have hword : Reader.word 4 ⟨0, bytes⟩ =
      .ok (Wire.ofBigEndian (bytes.take 4)) ⟨4, bytes.drop 4⟩ :=
    Action.bind_of_ok hbytes
  exact Action.bind_of_ok hword

section Agreement

variable {documents : List Document} (hcompile : Graph.compile documents = .ok schema.graph)
  {registrations : List Registration} (hcovers : Covers schema.graph registrations)
  {registry : Registry Payload} (hbare : registry.factories = .empty)
  {bytes : List UInt8} (hlong : commandSize ≤ bytes.length)

include hcompile hcovers hbare hlong

theorem received_registerAll_of_ok {record : Record} {left : Reader}
    (hrun : schema.decodePayload (Reader.of bytes) = .ok record left) :
    (registry.registerAll schema registrations).received bytes =
      .ok (some (commandOf bytes, ⟨schema, record⟩, left.offset)) := by
  have hfind := find?_registerAll_of_covers hcompile hcovers hbare (commandOf bytes)
  cases hselects : schema.graph.byWireId? (commandOf bytes) with
  | none =>
      rcases (schema.decodePayload_eq_unknown_iff (uint32_of hlong)).mpr ⟨rfl, hselects⟩ with
        ⟨stopped, hunknown⟩
      rw [hunknown] at hrun
      cases hrun
  | some id =>
      rw [hselects, Option.map_some] at hfind
      have hdecode := Record.decode_empty_of_ok (Graph.coherent_of_compile hcompile) hselects
        (uint32_of hlong) hrun
      rw [received_of_some hlong hfind, Payload.decode_eq, hdecode]

theorem received_registerAll_of_error {fault : CodecError} {left : Reader}
    (hrun : schema.decodePayload (Reader.of bytes) = .error fault left) :
    (registry.registerAll schema registrations).received bytes = .error fault := by
  have hfind := find?_registerAll_of_covers hcompile hcovers hbare (commandOf bytes)
  cases hselects : schema.graph.byWireId? (commandOf bytes) with
  | none =>
      rw [hselects, Option.map_none] at hfind
      rcases (schema.decodePayload_eq_unknown_iff (uint32_of hlong)).mpr ⟨rfl, hselects⟩ with
        ⟨stopped, hunknown⟩
      rw [hunknown] at hrun
      cases hrun
      exact received_of_none hlong hfind
  | some id =>
      rw [hselects, Option.map_some] at hfind
      rcases Record.decode_empty_of_error (Graph.coherent_of_compile hcompile) hselects
        (uint32_of hlong) hrun with ⟨arrived, hdecode⟩
      rw [received_of_some hlong hfind, Payload.decode_eq, hdecode]

/-- A registry in which every namespace is registered unpacks what reading a payload gives: the
same record, its transaction id included, from the same number of bytes, or the same fault.  A
command is unknown to it exactly if it is no wire id of the graph. -/
theorem tryUnpack_registerAll :
    (∀ record left, schema.decodePayload (Reader.of bytes) = .ok record left →
      (registry.registerAll schema registrations).tryUnpack bytes =
        ⟨.ok (some ⟨schema, record⟩),
          [.log (.unpacked (commandOf bytes) record.transaction left.offset bytes.length)]⟩) ∧
    (∀ fault left, schema.decodePayload (Reader.of bytes) = .error fault left →
      (registry.registerAll schema registrations).tryUnpack bytes = ⟨.error fault, []⟩) ∧
    ∀ command,
      ((registry.registerAll schema registrations).tryUnpack bytes).result =
          .error (.unknownCommand command) ↔
        commandOf bytes = command ∧ ∀ id, (schema.graph.object id).wireId ≠ some command := by
  have hok : ∀ record left, schema.decodePayload (Reader.of bytes) = .ok record left →
      (registry.registerAll schema registrations).tryUnpack bytes =
        ⟨.ok (some ⟨schema, record⟩),
          [.log (.unpacked (commandOf bytes) record.transaction left.offset bytes.length)]⟩ := by
    intro record left hrun
    rw [tryUnpack, received_registerAll_of_ok hcompile hcovers hbare hlong hrun]
    rfl
  have herror : ∀ fault left, schema.decodePayload (Reader.of bytes) = .error fault left →
      (registry.registerAll schema registrations).tryUnpack bytes = ⟨.error fault, []⟩ := by
    intro fault left hrun
    rw [tryUnpack, received_registerAll_of_error hcompile hcovers hbare hlong hrun]
  refine ⟨hok, herror, fun command => ?_⟩
  rw [← Graph.byWireId?_eq_none_iff hcompile,
    ← schema.decodePayload_eq_unknown_iff (uint32_of hlong)]
  cases hrun : schema.decodePayload (Reader.of bytes) with
  | ok record left => simp [hok record left hrun]
  | error fault left => simp [herror fault left hrun]

end Agreement

end Registry

namespace Sample

def filling : List Registration := [.space "tree", .all, .space "tree"]

/-- The encoding of a message with its node and its instant. -/
def wholeWalk : List UInt8 :=
  Wire.bigEndian 4 ((Sample.schema.graph.object ⟨2⟩).wireId.getD 0).toNat ++
    [0, 0, 0, 7, 0, 0, 0, 0, 0, 1, 2, 3, 4, 0, 0, 0, 0, 0, 0, 3, 232]

theorem tryUnpack_filling :
    ∃ record left, Sample.schema.decodePayload (Reader.of wholeWalk) = .ok record left ∧
      ((Registry.empty false).registerAll Sample.schema filling).tryUnpack wholeWalk =
        ⟨.ok (some ⟨Sample.schema, record⟩), [.log (.unpacked (Registry.commandOf wholeWalk)
          record.transaction left.offset wholeWalk.length)]⟩ := by
  have hcovers : Covers Sample.schema.graph filling := by decide +kernel
  have hlong : Registry.commandSize ≤ wholeWalk.length := by decide +kernel
  have hread : Action.succeeded (Sample.schema.decodePayload (Reader.of wholeWalk)) = true := by
    decide +kernel
  have hbare : (Registry.empty false : Registry Payload).factories = .empty := rfl
  rcases Action.exists_ok hread with ⟨record, left, hrun⟩
  exact ⟨record, left, hrun, (Registry.tryUnpack_registerAll compile_documents hcovers hbare
    hlong).1 record left hrun⟩

end Sample

end WireSchema
