import WireSchema.Proofs.Guarantees
import WireSchema.Proofs.Interruption
import WireSchema.Proofs.Unpacking

/-!
# A stock of records

Records are made and changed, read and unpacked in any order, with several schemas in use at once.
A record of one schema may be offered to a field of another one, bytes may come from anywhere, and
a reading may break off halfway through a record.  After every step all records that exist are well
typed.
-/

namespace WireSchema

/-! ## Schemas side by side -/

/-- Compiled schemas in use at the same time, told apart by their numbers. -/
structure Catalogue where
  schemas : List Schema
  exists_documents : ∀ schema ∈ schemas, ∃ documents, Graph.compile documents = .ok schema.graph
  eq_of_number : ∀ first ∈ schemas, ∀ second ∈ schemas,
    first.number = second.number → first = second

namespace Catalogue

variable {catalogue : Catalogue} {schema : Schema} {record : Record}

/-- The schema that a record belongs to. -/
structure Owns (catalogue : Catalogue) (schema : Schema) (record : Record) : Prop where
  mem : schema ∈ catalogue.schemas
  number_eq : record.schema = schema.number

/-- A record is well typed in a schema in use. -/
def Types (catalogue : Catalogue) (record : Record) : Prop :=
  ∃ schema ∈ catalogue.schemas, record.WellTyped schema

theorem coherent (hmem : schema ∈ catalogue.schemas) : schema.graph.Coherent := by
  obtain ⟨documents, hcompile⟩ := catalogue.exists_documents schema hmem
  exact Graph.coherent_of_compile hcompile

theorem Types.exists_owner (htypes : catalogue.Types record) :
    ∃ schema, catalogue.Owns schema record ∧ record.WellTyped schema := by
  obtain ⟨schema, hmem, htyped⟩ := htypes
  exact ⟨schema, ⟨hmem, htyped.self.schema_eq⟩, htyped⟩

/-- A record that is well typed in some schema is well typed in the schema it belongs to. -/
theorem Owns.wellTyped (howns : catalogue.Owns schema record) (htypes : catalogue.Types record) :
    record.WellTyped schema := by
  obtain ⟨other, hmem, htyped⟩ := htypes
  have hnumber : other.number = schema.number :=
    htyped.self.schema_eq.symm.trans howns.number_eq
  have hsame := catalogue.eq_of_number other hmem schema howns.mem hnumber
  rw [← hsame]
  exact htyped

theorem Types.inner {inner : Record} (htypes : catalogue.Types record)
    (hinner : (Value.record record).Contains (.record inner)) : catalogue.Types inner := by
  obtain ⟨schema, hmem, htyped⟩ := htypes
  exact ⟨schema, hmem, Value.Throughout.of_contains htyped hinner⟩

end Catalogue

/-! ## Values made of records -/

mutual

/-- The records that a value is made of, not those within them. -/
def Value.records : Value → List Record
  | .record nested => [nested]
  | .array items => Value.itemsRecords items
  | _ => []

def Value.itemsRecords : List Value → List Record
  | [] => []
  | item :: rest => item.records ++ Value.itemsRecords rest

end

mutual

theorem Value.contains_of_mem_records (value : Value) {record : Record}
    (hrecord : record ∈ value.records) : value.Contains (.record record) := by
  match value with
  | .record held =>
      rw [Value.records, List.mem_singleton] at hrecord
      rw [hrecord]
      exact .self _
  | .array items =>
      obtain ⟨item, hitem, hcontains⟩ := Value.exists_contains_of_mem_itemsRecords items hrecord
      exact .item hitem hcontains
  | .bool _ | .int8 _ | .uint8 _ | .int16 _ | .uint16 _ | .int32 _ | .uint32 _ | .int64 _
  | .uint64 _ | .float _ | .double _ | .datetime _ | .text _ | .ordinal _ | .binary _ =>
      exact absurd hrecord List.not_mem_nil

theorem Value.exists_contains_of_mem_itemsRecords (items : List Value) {record : Record}
    (hrecord : record ∈ Value.itemsRecords items) :
    ∃ item ∈ items, item.Contains (.record record) := by
  match items with
  | [] => exact absurd hrecord List.not_mem_nil
  | item :: rest =>
      rw [Value.itemsRecords] at hrecord
      rcases List.mem_append.mp hrecord with hrecord | hrecord
      · exact ⟨item, List.mem_cons_self, Value.contains_of_mem_records item hrecord⟩
      · obtain ⟨other, hother, hcontains⟩ :=
          Value.exists_contains_of_mem_itemsRecords rest hrecord
        exact ⟨other, List.mem_cons_of_mem _ hother, hcontains⟩

end

section

variable {schema : Schema}

mutual

/-- What holds throughout the records that a value is made of holds throughout the value.  A field
takes records of its own schema only. -/
theorem Value.onRecords_of_admits {Holds : Record → Prop} (type : FieldType) (value : Value)
    (hadmits : schema.admits type value.truncated = true)
    (hrecords : ∀ record ∈ value.records, record.schema = schema.number →
      (Value.record record).Throughout (OnRecords Holds)) :
    value.Throughout (OnRecords Holds) := by
  match value with
  | .record held =>
      obtain ⟨id, rfl, hschema, -⟩ := Schema.exists_object_of_admits hadmits
      exact hrecords held (List.mem_singleton_self held) hschema
  | .array items =>
      rw [Value.truncated] at hadmits
      obtain ⟨element, rfl⟩ := Schema.exists_array_of_admits hadmits
      have hitems := Value.onRecords_of_admits_items element items
        (List.all_eq_true.mp hadmits) hrecords
      exact Value.throughout_array trivial hitems
  | .bool _ | .int8 _ | .uint8 _ | .int16 _ | .uint16 _ | .int32 _ | .uint32 _ | .int64 _
  | .uint64 _ | .float _ | .double _ | .datetime _ | .text _ | .ordinal _ | .binary _ =>
      exact Value.throughout_scalar trivial trivial

theorem Value.onRecords_of_admits_items {Holds : Record → Prop} (element : FieldType)
    (items : List Value)
    (hadmits : ∀ item ∈ Value.truncatedItems items, schema.admits element item = true)
    (hrecords : ∀ record ∈ Value.itemsRecords items, record.schema = schema.number →
      (Value.record record).Throughout (OnRecords Holds)) :
    ∀ item ∈ items, item.Throughout (OnRecords Holds) := by
  match items with
  | [] => exact fun item hitem => absurd hitem List.not_mem_nil
  | item :: rest =>
      rw [Value.truncatedItems] at hadmits
      rw [Value.itemsRecords] at hrecords
      obtain ⟨hhead, htail⟩ := List.forall_mem_cons.mp hadmits
      have hitem := Value.onRecords_of_admits element item hhead
        fun record hrecord => hrecords record (List.mem_append_left _ hrecord)
      have hrest := Value.onRecords_of_admits_items element rest htail
        fun record hrecord => hrecords record (List.mem_append_right _ hrecord)
      exact List.forall_mem_cons.mpr ⟨hitem, hrest⟩

end

/-- A slot is filled with a value made of records that are well typed, whatever their schemas. -/
theorem Catalogue.Owns.wellTyped_set {catalogue : Catalogue} {record changed : Record}
    {field : String} {value : Value} (howns : catalogue.Owns schema record)
    (htypes : catalogue.Types record) (hrecords : ∀ held ∈ value.records, catalogue.Types held)
    (hset : record.set schema field value = .ok changed) : changed.WellTyped schema := by
  obtain ⟨index, -, hadmits, -⟩ := Record.exists_index_of_set hset
  have hvalue : value.WellTyped schema := by
    refine Value.onRecords_of_admits _ value hadmits fun held hheld hschema => ?_
    exact Catalogue.Owns.wellTyped ⟨howns.mem, hschema⟩ (hrecords held hheld)
  exact (howns.wellTyped htypes).set hvalue hset

theorem Record.contains_of_clear {record changed : Record} {field : String} {held : Value}
    (hclear : record.clear schema field = .ok (some held, changed)) :
    (Value.record record).Contains held := by
  obtain ⟨index, -, -, hheld, -⟩ := Record.exists_index_of_clear hclear
  rw [Record.valueAt?, eq_comm, Option.join_eq_some_iff] at hheld
  exact .slot (List.mem_of_getElem? hheld) (.self held)

end

/-! ## Steps -/

/-- What there is: records, records under construction, and registries with messages in them. -/
structure Stock where
  records : List Record
  drafts : List Draft
  registries : List (Registry Payload)

namespace Stock

def bare : Stock := ⟨[], [], []⟩

def addRecords (stock : Stock) (added : List Record) : Stock :=
  { stock with records := stock.records ++ added }

def putRecord (stock : Stock) (index : Nat) (record : Record) : Stock :=
  { stock with records := stock.records.set index record }

def addDraft (stock : Stock) (draft : Draft) : Stock :=
  { stock with drafts := stock.drafts ++ [draft] }

def putDraft (stock : Stock) (index : Nat) (draft : Draft) : Stock :=
  { stock with drafts := stock.drafts.set index draft }

def addRegistry (stock : Stock) (registry : Registry Payload) : Stock :=
  { stock with registries := stock.registries ++ [registry] }

def putRegistry (stock : Stock) (index : Nat) (registry : Registry Payload) : Stock :=
  { stock with registries := stock.registries.set index registry }

/-- One operation.  A record is always used with the schema it belongs to, and a value that is
filled in is made of records that there are, of whatever schema. -/
inductive Step (catalogue : Catalogue) (stock : Stock) : Stock → Prop where
  | empty {schema : Schema} (hschema : schema ∈ catalogue.schemas) (type : ObjectId) :
      Step catalogue stock (stock.addRecords [.empty schema type])
  /-- A record, or one that it contains, is copied. -/
  | copy {record inner : Record} (hrecord : record ∈ stock.records)
      (hinner : (Value.record record).Contains (.record inner)) :
      Step catalogue stock (stock.addRecords [inner])
  | set {schema : Schema} {record changed : Record} {index : Nat} {field : String} {value : Value}
      (hrecord : stock.records[index]? = some record) (howns : catalogue.Owns schema record)
      (hvalue : ∀ held ∈ value.records, held ∈ stock.records)
      (hset : record.set schema field value = .ok changed) :
      Step catalogue stock (stock.putRecord index changed)
  /-- The value that was in the slot is given back. -/
  | clear {schema : Schema} {record changed : Record} {index : Nat} {field : String}
      {held : Option Value} (hrecord : stock.records[index]? = some record)
      (howns : catalogue.Owns schema record)
      (hclear : record.clear schema field = .ok (held, changed)) :
      Step catalogue stock
        ((stock.putRecord index changed).addRecords (held.toList.flatMap Value.records))
  | withTransaction {record : Record} {index : Nat} (id : UInt32)
      (hrecord : stock.records[index]? = some record) :
      Step catalogue stock (stock.putRecord index (record.withTransaction id))
  | respond {schema : Schema} {request : Record} {draft : Draft} (hrequest : request ∈ stock.records)
      (howns : catalogue.Owns schema request) (hrespond : request.respond schema = .ok draft) :
      Step catalogue stock (stock.addDraft draft)
  /-- Whether the reading succeeds or breaks off. -/
  | decode {schema : Schema} {record : Record} {index : Nat} (reader : Reader)
      (hrecord : stock.records[index]? = some record) (howns : catalogue.Owns schema record) :
      Step catalogue stock (stock.putRecord index (record.decode schema reader).1)
  | decodeObject {schema : Schema} {declared : ObjectId} {record : Record} {reader left : Reader}
      (hschema : schema ∈ catalogue.schemas)
      (hrun : schema.decodeObject declared reader = .ok record left) :
      Step catalogue stock (stock.addRecords [record])
  | decodePayload {schema : Schema} {record : Record} {reader left : Reader}
      (hschema : schema ∈ catalogue.schemas)
      (hrun : schema.decodePayload reader = .ok record left) :
      Step catalogue stock (stock.addRecords [record])
  | draft {schema : Schema} (hschema : schema ∈ catalogue.schemas) (type : ObjectId) :
      Step catalogue stock (stock.addDraft (.of schema type))
  | draftSet {schema : Schema} {draft changed : Draft} {index : Nat} {field : String} {value : Value}
      (hdraft : stock.drafts[index]? = some draft) (howns : catalogue.Owns schema draft.record)
      (hvalue : ∀ held ∈ value.records, held ∈ stock.records)
      (hset : draft.set schema field value = .ok changed) :
      Step catalogue stock (stock.putDraft index changed)
  | draftSetEnum {schema : Schema} {draft changed : Draft} {index : Nat} {field name : String}
      (hdraft : stock.drafts[index]? = some draft) (howns : catalogue.Owns schema draft.record)
      (hset : draft.setEnum schema field name = .ok changed) :
      Step catalogue stock (stock.putDraft index changed)
  | draftTransaction {draft : Draft} {index : Nat} (id : UInt32)
      (hdraft : stock.drafts[index]? = some draft) :
      Step catalogue stock (stock.putDraft index (draft.withTransaction id))
  | finish {schema : Schema} {draft : Draft} {record : Record} (hdraft : draft ∈ stock.drafts)
      (howns : catalogue.Owns schema draft.record) (hfinish : draft.finish schema = .ok record) :
      Step catalogue stock (stock.addRecords [record])
  | registry (hasHandler : Bool) : Step catalogue stock (stock.addRegistry (.empty hasHandler))
  | register {registry : Registry Payload} {index : Nat} (messages : List (UInt32 × Payload))
      (hregistry : stock.registries[index]? = some registry)
      (hmessages : ∀ entry ∈ messages, entry.2.record ∈ stock.records ∧
        catalogue.Owns entry.2.schema entry.2.record) :
      Step catalogue stock (stock.putRegistry index (registry.register messages).1)
  | tryPack {schema : Schema} {registry : Registry Payload} {record : Record} {index place : Nat}
      (hregistry : stock.registries[place]? = some registry)
      (hrecord : stock.records[index]? = some record) (howns : catalogue.Owns schema record) :
      Step catalogue stock
        ((stock.putRecord index (registry.tryPack ⟨schema, record⟩).message.record).putRegistry
          place (registry.tryPack ⟨schema, record⟩).registry)
  | pack {schema : Schema} {registry : Registry Payload} {record : Record} {index place : Nat}
      (hregistry : stock.registries[place]? = some registry)
      (hrecord : stock.records[index]? = some record) (howns : catalogue.Owns schema record) :
      Step catalogue stock
        ((stock.putRecord index (registry.pack ⟨schema, record⟩).message.record).putRegistry
          place (registry.pack ⟨schema, record⟩).registry)
  | tryUnpack {registry : Registry Payload} {bytes : List UInt8} {payload : Payload}
      (hregistry : registry ∈ stock.registries)
      (hrun : (registry.tryUnpack bytes).result = .ok (some payload)) :
      Step catalogue stock (stock.addRecords [payload.record])
  | unpack {registry : Registry Payload} {bytes : List UInt8} {payload : Payload}
      (hregistry : registry ∈ stock.registries)
      (hrun : (registry.unpack bytes).result = some payload) :
      Step catalogue stock (stock.addRecords [payload.record])

/-- What there may be after any number of operations. -/
inductive Reached (catalogue : Catalogue) : Stock → Prop where
  | bare : Reached catalogue bare
  | step {stock next : Stock} (hreached : Reached catalogue stock)
      (hstep : Step catalogue stock next) : Reached catalogue next

/-! ## The invariant -/

/-- Everything there is is well typed. -/
structure Sound (catalogue : Catalogue) (stock : Stock) : Prop where
  records : ∀ record ∈ stock.records, catalogue.Types record
  drafts : ∀ draft ∈ stock.drafts, catalogue.Types draft.record
  messages : ∀ registry ∈ stock.registries, ∀ command payload,
    registry.factories.find? command = some payload →
      payload.schema ∈ catalogue.schemas ∧ payload.record.WellTyped payload.schema

variable {catalogue : Catalogue} {stock next : Stock}

theorem sound_bare : Sound catalogue bare where
  records _ hrecord := absurd hrecord List.not_mem_nil
  drafts _ hdraft := absurd hdraft List.not_mem_nil
  messages _ hregistry := absurd hregistry List.not_mem_nil

namespace Sound

theorem addRecords (hsound : Sound catalogue stock) {added : List Record}
    (hadded : ∀ record ∈ added, catalogue.Types record) :
    Sound catalogue (stock.addRecords added) where
  records record hrecord := by
    rcases List.mem_append.mp hrecord with hrecord | hrecord
    · exact hsound.records record hrecord
    · exact hadded record hrecord
  drafts := hsound.drafts
  messages := hsound.messages

theorem addRecord (hsound : Sound catalogue stock) {record : Record}
    (hrecord : catalogue.Types record) : Sound catalogue (stock.addRecords [record]) :=
  hsound.addRecords fun other hother => by
    rw [List.mem_singleton.mp hother]
    exact hrecord

theorem putRecord (hsound : Sound catalogue stock) {record : Record} (index : Nat)
    (hrecord : catalogue.Types record) : Sound catalogue (stock.putRecord index record) where
  records other hother := by
    rcases List.mem_or_eq_of_mem_set hother with hother | rfl
    · exact hsound.records other hother
    · exact hrecord
  drafts := hsound.drafts
  messages := hsound.messages

theorem addDraft (hsound : Sound catalogue stock) {draft : Draft}
    (hdraft : catalogue.Types draft.record) : Sound catalogue (stock.addDraft draft) where
  records := hsound.records
  drafts other hother := by
    rcases List.mem_append.mp hother with hother | hother
    · exact hsound.drafts other hother
    · rw [List.mem_singleton.mp hother]
      exact hdraft
  messages := hsound.messages

theorem putDraft (hsound : Sound catalogue stock) {draft : Draft} (index : Nat)
    (hdraft : catalogue.Types draft.record) : Sound catalogue (stock.putDraft index draft) where
  records := hsound.records
  drafts other hother := by
    rcases List.mem_or_eq_of_mem_set hother with hother | rfl
    · exact hsound.drafts other hother
    · exact hdraft
  messages := hsound.messages

theorem addRegistry (hsound : Sound catalogue stock) (hasHandler : Bool) :
    Sound catalogue (stock.addRegistry (.empty hasHandler)) where
  records := hsound.records
  drafts := hsound.drafts
  messages other hother := by
    rcases List.mem_append.mp hother with hother | hother
    · exact hsound.messages other hother
    · rw [List.mem_singleton.mp hother]
      intro command payload hfind
      cases hfind

theorem putRegistry (hsound : Sound catalogue stock) {registry : Registry Payload} (index : Nat)
    (hmessages : ∀ command payload, registry.factories.find? command = some payload →
      payload.schema ∈ catalogue.schemas ∧ payload.record.WellTyped payload.schema) :
    Sound catalogue (stock.putRegistry index registry) where
  records := hsound.records
  drafts := hsound.drafts
  messages other hother := by
    rcases List.mem_or_eq_of_mem_set hother with hother | rfl
    · exact hsound.messages other hother
    · exact hmessages

theorem pack (hsound : Sound catalogue stock) {schema : Schema} {registry : Registry Payload}
    {record : Record} {index place : Nat} (hregistry : stock.registries[place]? = some registry)
    (hrecord : stock.records[index]? = some record) (howns : catalogue.Owns schema record) :
    Sound catalogue
      ((stock.putRecord index (registry.tryPack ⟨schema, record⟩).message.record).putRegistry
        place (registry.tryPack ⟨schema, record⟩).registry) := by
  obtain ⟨transaction, hmessage, -⟩ := Registry.exists_assign schema registry record
  have htyped := howns.wellTyped (hsound.records record (List.mem_of_getElem? hrecord))
  have hpacked : (registry.tryPack ⟨schema, record⟩).message =
      ⟨schema, { record with transaction := some transaction }⟩ := hmessage
  rw [hpacked]
  refine (hsound.putRecord index ⟨schema, howns.mem, htyped.withTransaction _⟩).putRegistry place ?_
  have hfactories : (registry.tryPack ⟨schema, record⟩).registry.factories =
      registry.factories := Registry.factories_assign registry _
  rw [hfactories]
  exact hsound.messages registry (List.mem_of_getElem? hregistry)

theorem unpack (hsound : Sound catalogue stock) {registry : Registry Payload} {bytes : List UInt8}
    {payload : Payload} (hregistry : registry ∈ stock.registries)
    (hrun : (registry.tryUnpack bytes).result = .ok (some payload)) :
    Sound catalogue (stock.addRecords [payload.record]) := by
  obtain ⟨command, message, left, hfind, hdecode⟩ := Registry.exists_decode_of_tryUnpack hrun
  obtain ⟨hmem, htyped⟩ := hsound.messages registry hregistry command message hfind
  -- Reading into the message leaves it well typed, however it ends.
  have hread := htyped.decode (Catalogue.coherent hmem) (Reader.of bytes)
  rw [Payload.decode_eq, Prod.mk.injEq] at hdecode
  rw [← hdecode.1]
  exact hsound.addRecord ⟨message.schema, hmem, hread⟩

/-- Every operation leaves everything well typed. -/
theorem step (hsound : Sound catalogue stock) (hstep : Step catalogue stock next) :
    Sound catalogue next := by
  cases hstep with
  | empty hschema type =>
      exact hsound.addRecord ⟨_, hschema, Record.wellTyped_empty _ type⟩
  | copy hrecord hinner => exact hsound.addRecord ((hsound.records _ hrecord).inner hinner)
  | set hrecord howns hvalue hset =>
      have htypes := hsound.records _ (List.mem_of_getElem? hrecord)
      have hheld := fun held hheld => hsound.records held (hvalue held hheld)
      have htyped := howns.wellTyped_set htypes hheld hset
      exact hsound.putRecord _ ⟨_, howns.mem, htyped⟩
  | @clear schema record changed index field held hrecord howns hclear =>
      have htypes := hsound.records _ (List.mem_of_getElem? hrecord)
      have htyped := (howns.wellTyped htypes).clear hclear
      refine (hsound.putRecord index ⟨schema, howns.mem, htyped⟩).addRecords fun inner hinner => ?_
      cases held with
      | none => cases hinner
      | some value =>
          rw [Option.toList_some, List.flatMap_singleton] at hinner
          have hcontains := Record.contains_of_clear hclear
          exact htypes.inner (hcontains.trans (value.contains_of_mem_records hinner))
  | withTransaction id hrecord =>
      obtain ⟨schema, hmem, htyped⟩ := hsound.records _ (List.mem_of_getElem? hrecord)
      exact hsound.putRecord _ ⟨schema, hmem, htyped.withTransaction (some id)⟩
  | respond hrequest howns hrespond =>
      have htyped := Record.wellTyped_respond hrespond
      exact hsound.addDraft ⟨_, howns.mem, htyped⟩
  | decode reader hrecord howns =>
      have htyped := howns.wellTyped (hsound.records _ (List.mem_of_getElem? hrecord))
      exact hsound.putRecord _
        ⟨_, howns.mem, htyped.decode (Catalogue.coherent howns.mem) reader⟩
  | decodeObject hschema hrun =>
      have htyped := Schema.wellTyped_decodeObject (Catalogue.coherent hschema) hrun
      exact hsound.addRecord ⟨_, hschema, htyped⟩
  | decodePayload hschema hrun =>
      have htyped := Schema.wellTyped_decodePayload (Catalogue.coherent hschema) hrun
      exact hsound.addRecord ⟨_, hschema, htyped⟩
  | draft hschema type => exact hsound.addDraft ⟨_, hschema, Record.wellTyped_empty _ type⟩
  | draftSet hdraft howns hvalue hset =>
      have htypes := hsound.drafts _ (List.mem_of_getElem? hdraft)
      have hheld := fun held hheld => hsound.records held (hvalue held hheld)
      have htyped := howns.wellTyped_set htypes hheld (Draft.exists_record_of_set hset)
      exact hsound.putDraft _ ⟨_, howns.mem, htyped⟩
  | draftSetEnum hdraft howns hset =>
      have htypes := hsound.drafts _ (List.mem_of_getElem? hdraft)
      obtain ⟨ordinal, hset⟩ := Draft.exists_set_of_setEnum hset
      have hnone : ∀ held ∈ (Value.ordinal ordinal).records, catalogue.Types held :=
        fun held hheld => absurd hheld List.not_mem_nil
      have htyped := howns.wellTyped_set htypes hnone (Draft.exists_record_of_set hset)
      exact hsound.putDraft _ ⟨_, howns.mem, htyped⟩
  | draftTransaction id hdraft =>
      obtain ⟨schema, hmem, htyped⟩ := hsound.drafts _ (List.mem_of_getElem? hdraft)
      exact hsound.putDraft _ ⟨schema, hmem, htyped.withTransaction (some id)⟩
  | finish hdraft howns hfinish =>
      have htypes := hsound.drafts _ hdraft
      rw [Draft.record_of_finish hfinish] at htypes
      exact hsound.addRecord htypes
  | registry hasHandler => exact hsound.addRegistry hasHandler
  | register messages hregistry hmessages =>
      refine hsound.putRegistry _ fun command payload hfind => ?_
      rcases Registry.mem_or_find?_of_registerEach hfind with hnew | hold
      · obtain ⟨hrecord, howns⟩ := hmessages _ hnew
        exact ⟨howns.mem, howns.wellTyped (hsound.records _ hrecord)⟩
      · exact hsound.messages _ (List.mem_of_getElem? hregistry) command payload hold
  | tryPack hregistry hrecord howns => exact hsound.pack hregistry hrecord howns
  | @pack schema registry record index place hregistry hrecord howns =>
      obtain ⟨hsame, hmessage⟩ := registry.pack_leaves (Payload.mk schema record)
      rw [hsame, hmessage]
      exact hsound.pack hregistry hrecord howns
  | tryUnpack hregistry hrun => exact hsound.unpack hregistry hrun
  | unpack hregistry hrun =>
      exact hsound.unpack hregistry (Registry.tryUnpack_of_unpack hrun)

end Sound

theorem Reached.sound (hreached : Reached catalogue stock) : Sound catalogue stock := by
  induction hreached with
  | bare => exact sound_bare
  | step hreached hstep ih => exact ih.step hstep

/-! ## All records at all times -/

/-- A record exists: on its own, under construction, or as a message of a registry. -/
inductive Has (stock : Stock) : Record → Prop where
  | record {record : Record} (hrecord : record ∈ stock.records) : Has stock record
  | draft {draft : Draft} (hdraft : draft ∈ stock.drafts) : Has stock draft.record
  | message {registry : Registry Payload} {command : UInt32} {payload : Payload}
      (hregistry : registry ∈ stock.registries)
      (hfind : registry.factories.find? command = some payload) : Has stock payload.record

/-- After any number of operations every record that exists belongs to a schema in use and is well
typed at all levels: it has a slot for each field, every value is one that its field takes, instants
are cut to milliseconds and no payload is nested.  Measuring and writing it never meets a value of
the wrong type. -/
theorem guaranteed_of_reached (hreached : Reached catalogue stock) {record : Record}
    (hhas : stock.Has record) :
    ∃ schema, catalogue.Owns schema record ∧ record.Guaranteed schema := by
  have hsound := hreached.sound
  have htypes : catalogue.Types record := by
    cases hhas with
    | record hrecord => exact hsound.records record hrecord
    | draft hdraft => exact hsound.drafts _ hdraft
    | message hregistry hfind =>
        obtain ⟨hmem, htyped⟩ := hsound.messages _ hregistry _ _ hfind
        exact ⟨_, hmem, htyped⟩
  obtain ⟨schema, howns, htyped⟩ := htypes.exists_owner
  exact ⟨schema, howns, htyped.guaranteed (Catalogue.coherent howns.mem)⟩

end Stock

/-! ## A message that is read halfway -/

namespace Sample

def catalogue : Catalogue where
  schemas := [Sample.schema]
  exists_documents schema hschema := by
    rw [List.mem_singleton.mp hschema]
    exact ⟨documents, compile_documents⟩
  eq_of_number first hfirst second hsecond _ := by
    rw [List.mem_singleton.mp hfirst, List.mem_singleton.mp hsecond]

/-- The encoding of a message up to its node; the instant is missing. -/
def halfWalk : List UInt8 :=
  Wire.bigEndian 4 ((Sample.schema.graph.object ⟨2⟩).wireId.getD 0).toNat ++
    [0, 0, 0, 7, 0, 0, 0, 0, 0, 1, 2, 3, 4]

def halfRead : Record × EStateM.Result CodecError Reader Unit :=
  (Record.empty Sample.schema ⟨2⟩).decode Sample.schema (Reader.of halfWalk)

theorem guaranteed_halfRead :
    Action.succeeded halfRead.2 = false ∧ halfRead.1.slots.map Option.isSome = [true, false] ∧
      halfRead.1.Guaranteed Sample.schema := by
  have hmem : Sample.schema ∈ catalogue.schemas := List.mem_singleton_self _
  have hmade : Stock.Reached catalogue (Stock.bare.addRecords [.empty Sample.schema ⟨2⟩]) :=
    .step .bare (.empty hmem ⟨2⟩)
  have hread : Stock.Reached catalogue
      ((Stock.bare.addRecords [.empty Sample.schema ⟨2⟩]).putRecord 0 halfRead.1) :=
    .step hmade (.decode (Reader.of halfWalk) rfl ⟨hmem, rfl⟩)
  obtain ⟨schema, howns, hguaranteed⟩ :=
    Stock.guaranteed_of_reached hread (.record (List.mem_singleton_self halfRead.1))
  have hsame : schema = Sample.schema := List.mem_singleton.mp howns.mem
  rw [hsame] at hguaranteed
  exact ⟨by decide +kernel, by decide +kernel, hguaranteed⟩

end Sample

end WireSchema
