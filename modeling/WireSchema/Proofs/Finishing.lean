import WireSchema.Proofs.Depth
import WireSchema.Proofs.Stock

/-!
# Finished records

A draft is finished only if its own required fields have values, and no later change takes one
away.  What is nested in it is not looked at again: an empty record may be filled in like any other,
and then measuring the finished record finds it.  If no record ever is filled in that lacks a value
itself, nothing is missing at any level.
-/

namespace WireSchema

variable {schema : Schema} {Held : Record → Prop}

/-! ## Where records come from -/

/-- The records there may be, in one way or another, if `Held` is true of every record that is
filled into a slot.  A draft stands for the record that it becomes when it is finished, and packing
does no more to a record than give it a transaction id. -/
inductive Record.Obtained (schema : Schema) (Held : Record → Prop) : Record → Prop where
  | empty (type : ObjectId) : Obtained schema Held (Record.empty schema type)
  /-- A copy of a record, or of one that it contains. -/
  | inner {record inner : Record} (hrecord : Obtained schema Held record)
      (hinner : (Value.record record).Contains (.record inner)) : Obtained schema Held inner
  /-- Records of other schemas may be offered to a field, too. -/
  | set {record changed : Record} {field : String} {value : Value}
      (hrecord : Obtained schema Held record)
      (hvalue : ∀ held ∈ value.records, held.schema = schema.number → Obtained schema Held held)
      (hheld : ∀ held ∈ value.records, held.schema = schema.number → Held held)
      (hset : record.set schema field value = .ok changed) : Obtained schema Held changed
  | clear {record changed : Record} {field : String} {held : Option Value}
      (hrecord : Obtained schema Held record)
      (hclear : record.clear schema field = .ok (held, changed)) : Obtained schema Held changed
  | withTransaction {record : Record} (hrecord : Obtained schema Held record) (id : UInt32) :
      Obtained schema Held (record.withTransaction id)
  | respond {request : Record} {draft : Draft} (hrequest : Obtained schema Held request)
      (hrespond : request.respond schema = .ok draft) : Obtained schema Held draft.record
  /-- However the reading ends. -/
  | decode {record : Record} (hrecord : Obtained schema Held record) (reader : Reader) :
      Obtained schema Held (record.decode schema reader).1
  | decodeObject {declared : ObjectId} {record : Record} {reader left : Reader}
      (hrun : schema.decodeObject declared reader = .ok record left) : Obtained schema Held record
  | decodePayload {record : Record} {reader left : Reader}
      (hrun : schema.decodePayload reader = .ok record left) : Obtained schema Held record
  | unpack {registry : Registry Payload} {bytes : List UInt8} {payload : Payload}
      (hregistry : ∀ command message, registry.factories.find? command = some message →
        message.schema = schema → Obtained schema Held message.record)
      (hschema : payload.schema = schema)
      (hrun : (registry.tryUnpack bytes).result = .ok (some payload)) :
      Obtained schema Held payload.record

/-- A value may be offered to a field: the records that it is made of are there. -/
structure Value.Offered (schema : Schema) (Held : Record → Prop) (value : Value) : Prop where
  obtained : ∀ held ∈ value.records, held.schema = schema.number →
    Record.Obtained schema Held held
  held : ∀ held ∈ value.records, held.schema = schema.number → Held held

/-- The drafts there may be. -/
inductive Draft.Obtained (schema : Schema) (Held : Record → Prop) : Draft → Prop where
  | of (type : ObjectId) : Obtained schema Held (Draft.of schema type)
  | respond {request : Record} {draft : Draft} (hrequest : Record.Obtained schema Held request)
      (hrespond : request.respond schema = .ok draft) : Obtained schema Held draft
  | set {draft changed : Draft} {field : String} {value : Value}
      (hdraft : Obtained schema Held draft) (hvalue : value.Offered schema Held)
      (hset : draft.set schema field value = .ok changed) : Obtained schema Held changed
  | setEnum {draft changed : Draft} {field name : String} (hdraft : Obtained schema Held draft)
      (hset : draft.setEnum schema field name = .ok changed) : Obtained schema Held changed
  | withTransaction {draft : Draft} (hdraft : Obtained schema Held draft) (id : UInt32) :
      Obtained schema Held (draft.withTransaction id)

theorem Draft.Obtained.record {draft : Draft} (hdraft : Draft.Obtained schema Held draft) :
    Record.Obtained schema Held draft.record := by
  induction hdraft with
  | of type => exact .empty type
  | respond hrequest hrespond => exact .respond hrequest hrespond
  | set hdraft hvalue hset ih =>
      exact .set ih hvalue.obtained hvalue.held (Draft.exists_record_of_set hset)
  | setEnum hdraft hset ih =>
      obtain ⟨ordinal, hset⟩ := Draft.exists_set_of_setEnum hset
      exact .set ih (fun held hheld => absurd hheld List.not_mem_nil)
        (fun held hheld => absurd hheld List.not_mem_nil) (Draft.exists_record_of_set hset)
  | withTransaction hdraft id ih => exact .withTransaction ih id

/-! ## What all records have in common -/

/-- Every record in the slots of a record is filled, at whatever level. -/
def Record.IsSolid (schema : Schema) (record : Record) : Prop :=
  ∀ value, some value ∈ record.slots → value.Complete schema

namespace Record.IsSolid

variable {record : Record}

theorem complete (hsolid : record.IsSolid schema) (hfilled : record.Filled schema) :
    record.Complete schema :=
  Value.throughout_record hfilled hsolid

theorem inner (hsolid : record.IsSolid schema) {inner : Record}
    (hinner : (Value.record record).Contains (.record inner)) : inner.IsSolid schema := by
  cases hinner with
  | self => exact hsolid
  | slot hslot hvalue =>
      have hcomplete := (hsolid _ hslot).of_contains hvalue
      exact fun value hvalue => Value.Throughout.slot hcomplete hvalue

/-- A slot may be changed to a complete value. -/
theorem withSlot (hsolid : record.IsSolid schema) {index : Nat} {slot : Option Value}
    (hslot : ∀ value, slot = some value → value.Complete schema) :
    (record.withSlot index slot).IsSolid schema := by
  intro value hvalue
  rcases List.mem_or_eq_of_mem_set hvalue with hold | hnew
  · exact hsolid value hold
  · exact hslot value hnew.symm

theorem of_none (hnone : ∀ slot ∈ record.slots, slot = none) : record.IsSolid schema := by
  intro value hvalue
  cases hnone _ hvalue

/-- However reading into a record ends, what was read is complete. -/
theorem decode (hgraph : schema.graph.Coherent) (hsolid : record.IsSolid schema)
    (reader : Reader) : (record.decode schema reader).1.IsSolid schema := by
  cases hrun : record.decode schema reader with
  | mk arrived outcome =>
      cases outcome with
      | ok done left =>
          obtain ⟨transaction, slots, size, -, rfl, hslots⟩ :=
            Record.slotsSettled_of_decode hgraph hrun
          exact hslots.slotsComplete.2
      | error fault left =>
          obtain ⟨transaction, done, size, rfl, hdone⟩ := Record.overlaid_of_decode hgraph hrun
          intro value hvalue
          rcases List.mem_append.mp hvalue with hvalue | hvalue
          · exact hdone.slotsComplete.2 value hvalue
          · exact hsolid value (List.mem_of_mem_drop hvalue)

end Record.IsSolid

/-- What is known of every record: that it is well typed, and that it is solid if only filled
records are filled in. -/
structure Record.Known (schema : Schema) (Held : Record → Prop) (record : Record) : Prop where
  typed : record.WellTyped schema
  solid : (∀ held, Held held → held.Filled schema) → record.IsSolid schema

namespace Record.Known

variable {record : Record}

theorem set {changed : Record} {field : String} {value : Value}
    (hknown : record.Known schema Held)
    (hvalue : ∀ held ∈ value.records, held.schema = schema.number → held.Known schema Held)
    (hheld : ∀ held ∈ value.records, held.schema = schema.number → Held held)
    (hset : record.set schema field value = .ok changed) : changed.Known schema Held := by
  obtain ⟨index, -, hadmits, hchanged⟩ := Record.exists_index_of_set hset
  constructor
  · refine hknown.typed.set ?_ hset
    exact Value.onRecords_of_admits _ value hadmits fun held hmem hschema =>
      (hvalue held hmem hschema).typed
  · intro hfilled
    subst hchanged
    refine (hknown.solid hfilled).withSlot fun kept hkept => ?_
    cases hkept
    refine value.onRecords_truncated ?_
    refine Value.onRecords_of_admits _ value hadmits fun held hmem hschema => ?_
    have hsolid := (hvalue held hmem hschema).solid hfilled
    exact hsolid.complete (hfilled held (hheld held hmem hschema))

theorem clear {changed : Record} {field : String} {held : Option Value}
    (hknown : record.Known schema Held)
    (hclear : record.clear schema field = .ok (held, changed)) : changed.Known schema Held := by
  obtain ⟨index, -, -, -, hchanged⟩ := Record.exists_index_of_clear hclear
  refine ⟨hknown.typed.clear hclear, fun hfilled => ?_⟩
  subst hchanged
  exact (hknown.solid hfilled).withSlot fun value hvalue => by cases hvalue

theorem empty (schema : Schema) (Held : Record → Prop) (type : ObjectId) :
    (Record.empty schema type).Known schema Held where
  typed := Record.wellTyped_empty schema type
  solid _ := .of_none fun _ hslot => List.eq_of_mem_replicate hslot

theorem withTransaction (hknown : record.Known schema Held) (transaction : Option UInt32) :
    Record.Known schema Held { record with transaction := transaction } where
  typed := hknown.typed.withTransaction transaction
  solid := hknown.solid

theorem decode (hgraph : schema.graph.Coherent) (hknown : record.Known schema Held)
    (reader : Reader) : (record.decode schema reader).1.Known schema Held where
  typed := hknown.typed.decode hgraph reader
  solid hfilled := (hknown.solid hfilled).decode hgraph reader

end Record.Known

theorem Record.Obtained.known (hgraph : schema.graph.Coherent) {record : Record}
    (hobtained : Record.Obtained schema Held record) : record.Known schema Held := by
  induction hobtained with
  | empty type => exact .empty schema Held type
  | inner hrecord hinner ih =>
      exact ⟨Value.Throughout.of_contains ih.typed hinner,
        fun hfilled => (ih.solid hfilled).inner hinner⟩
  | set hrecord hvalue hheld hset ih ihvalue => exact ih.set ihvalue hheld hset
  | clear hrecord hclear ih => exact ih.clear hclear
  | withTransaction hrecord id ih => exact ih.withTransaction (some id)
  | respond hrequest hrespond ih =>
      obtain ⟨response, rfl⟩ := Record.exists_response_of_respond hrespond
      exact (Record.Known.empty schema Held response).withTransaction _
  | decode hrecord reader ih => exact ih.decode hgraph reader
  | @decodeObject declared record reader left hrun =>
      obtain ⟨size, -, -, body, -, hslots⟩ :=
        Schema.yields_decodeObject hgraph declared reader record left hrun
      exact ⟨Schema.wellTyped_decodeObject hgraph hrun, fun _ => hslots.slotsComplete.2⟩
  | @decodePayload record reader left hrun =>
      obtain ⟨size, -, -, body, -, hslots⟩ :=
        Schema.yields_slots_decodePayload hgraph reader record left hrun
      exact ⟨Schema.wellTyped_decodePayload hgraph hrun, fun _ => hslots.slotsComplete.2⟩
  | @unpack registry bytes payload hregistry hschema hrun ih =>
      obtain ⟨command, message, left, hfind, hdecode⟩ := Registry.exists_decode_of_tryUnpack hrun
      rw [Payload.decode_eq, Prod.mk.injEq] at hdecode
      have hsame : message.schema = schema := by
        rw [← hschema, ← hdecode.1]
      have hread := (ih command message hfind hsame).decode hgraph (Reader.of bytes)
      rw [← hdecode.1, ← hsame]
      rw [← hsame] at hread
      exact hread

/-! ## Required slots -/

theorem Draft.filled_of_finish {draft : Draft} {record : Record}
    (hfinish : draft.finish schema = .ok record) : record.Filled schema := by
  have hrecord := Draft.record_of_finish hfinish
  unfold Draft.finish at hfinish
  split at hfinish
  next => cases hfinish
  next hnone =>
    rw [Draft.missing?, Option.map_eq_none_iff, List.find?_eq_none, hrecord] at hnone
    intro entry hentry
    have hfilled := hnone entry hentry
    cases hoptional : entry.1.isOptional with
    | true => exact .inl rfl
    | false => exact .inr (by simpa [hoptional, Option.isSome_iff_ne_none] using hfilled)

/-- A change of a record: it is done, or it fails and leaves the record as it is. -/
inductive Record.Edit where
  | set (field : String) (value : Value)
  | clear (field : String)

namespace Record

def edit (schema : Schema) (record : Record) : Edit → Record
  | .set field value =>
    match record.set schema field value with
    | .ok changed => changed
    | .error _ => record
  | .clear field =>
    match record.clear schema field with
    | .ok (_, changed) => changed
    | .error _ => record

def edited (schema : Schema) (record : Record) (edits : List Edit) : Record :=
  edits.foldl (edit schema) record

/-- What a change fills in is there. -/
def Edit.Offers (schema : Schema) (Held : Record → Prop) : Edit → Prop
  | .set _ value => value.Offered schema Held
  | .clear _ => True

theorem Filled.edit {record : Record} (hfilled : record.Filled schema) (edit : Edit) :
    (record.edit schema edit).Filled schema := by
  unfold Record.edit
  cases edit with
  | set field value =>
      dsimp only
      split
      next changed hset =>
        obtain ⟨index, -, -, rfl⟩ := exists_index_of_set hset
        exact hfilled.withSlot (.inr rfl)
      next => exact hfilled
  | clear field =>
      dsimp only
      split
      next held changed hclear =>
        obtain ⟨index, -, hoptional, -, rfl⟩ := exists_index_of_clear hclear
        exact hfilled.withSlot (.inl hoptional)
      next => exact hfilled

theorem Obtained.edit {record : Record} (hobtained : Record.Obtained schema Held record)
    {edit : Edit} (hedit : edit.Offers schema Held) :
    Record.Obtained schema Held (record.edit schema edit) := by
  unfold Record.edit
  cases edit with
  | set field value =>
      dsimp only
      split
      next changed hset => exact .set hobtained hedit.obtained hedit.held hset
      next => exact hobtained
  | clear field =>
      dsimp only
      split
      next held changed hclear => exact .clear hobtained hclear
      next => exact hobtained

theorem obtained_edited {record : Record} (hobtained : Record.Obtained schema Held record)
    (hfilled : record.Filled schema) {edits : List Edit}
    (hedits : ∀ edit ∈ edits, edit.Offers schema Held) :
    Record.Obtained schema Held (record.edited schema edits) ∧
      (record.edited schema edits).Filled schema := by
  induction edits generalizing record with
  | nil => exact ⟨hobtained, hfilled⟩
  | cons edit rest ih =>
      obtain ⟨hedit, hrest⟩ := List.forall_mem_cons.mp hedits
      exact ih (hobtained.edit hedit) (hfilled.edit edit) hrest

end Record

/-! ## What is missing -/

/-- The codec tells that a required field has no value. -/
def TellsMissing {α : Type} (result : Except Failure α) : Prop :=
  ∃ owner field, result = .error (.fault (.missingField owner field))

theorem tellsMissing_told_iff {α : Type} (result : Except CodecError α) :
    TellsMissing (Failure.told result) ↔
      ∃ owner field, result = .error (.missingField owner field) := by
  unfold TellsMissing
  cases result with
  | ok value => simp [Failure.told, Except.mapError]
  | error fault => simp [Failure.told, Except.mapError]

theorem Record.not_complete_iff (record : Record) :
    ¬ record.Complete schema ↔
      ∃ inner, (Value.record record).Contains (.record inner) ∧ ¬ inner.Filled schema := by
  constructor
  · intro hlacks
    by_contra hnone
    refine hlacks fun part hpart => ?_
    cases part
    case record inner =>
      by_contra hinner
      exact hnone ⟨inner, hpart, hinner⟩
    all_goals trivial
  · rintro ⟨inner, hinner, hlacks⟩ hcomplete
    exact hlacks (hcomplete _ hinner)

theorem Record.tellsMissing_encodedSize_iff (hgraph : schema.graph.Coherent) {record : Record}
    (htyped : record.WellTyped schema) :
    TellsMissing (Failure.told (record.encodedSize schema)) ↔ ¬ record.Complete schema := by
  rw [tellsMissing_told_iff]
  constructor
  · rintro ⟨owner, field, hmissing⟩ hcomplete
    obtain ⟨data, -, hsize⟩ := Record.exists_image hgraph htyped hcomplete
    rw [hsize] at hmissing
    cases hmissing
  · intro hlacks
    obtain ⟨owner, field, -, hmissing⟩ := Record.exists_missing hgraph htyped hlacks
    exact ⟨owner, field, hmissing⟩

theorem Registry.tellsMissing_encoded_iff (hgraph : schema.graph.Coherent) {record : Record}
    (htyped : record.WellTyped schema) :
    TellsMissing (encoded (Payload.mk schema record)) ↔
      (record.typeIn schema).isPayload = true ∧ ¬ record.Complete schema := by
  by_cases hpayload : (record.typeIn schema).isPayload = true
  · constructor
    · rintro ⟨owner, field, hmissing⟩
      refine ⟨hpayload, fun hcomplete => ?_⟩
      obtain ⟨data, hdata, -⟩ := Record.exists_image hgraph htyped hcomplete
      rcases encoded_cases hgraph hpayload htyped hdata with hpacked | ⟨stop, failure, hfails, hout⟩
      · cases hpacked.symm.trans hmissing
      · cases hfails.symm.trans hmissing
        cases hout
    · rintro ⟨-, hlacks⟩
      obtain ⟨owner, field, -, hmissing⟩ := Record.exists_missing hgraph htyped hlacks
      exact ⟨owner, field, encoded_of_error ((encodedSize_eq hpayload).trans hmissing)⟩
  · rw [TellsMissing, encoded_of_error (encodedSize_of_not_isPayload hpayload)]
    simp [hpayload]

/-! ## Packing what was finished -/

/-- A record that has values for its own required fields.  The codec finds a value missing exactly
if some record within it lacks one, which does not happen if no such record is ever filled in. -/
structure Record.Finished (schema : Schema) (Held : Record → Prop) (record : Record) : Prop where
  filled : record.Filled schema
  encodedSize : TellsMissing (Failure.told (record.encodedSize schema)) ↔
    ∃ inner, (Value.record record).Contains (.record inner) ∧ ¬ inner.Filled schema
  tryPack : ∀ registry : Registry Payload,
    TellsMissing (registry.tryPack ⟨schema, record⟩).result ↔
      (record.typeIn schema).isPayload = true ∧
        ∃ inner, (Value.record record).Contains (.record inner) ∧ ¬ inner.Filled schema
  safe : (∀ held, Held held → held.Filled schema) →
    ¬ TellsMissing (Failure.told (record.encodedSize schema)) ∧
      ∀ registry : Registry Payload, ¬ TellsMissing (registry.tryPack ⟨schema, record⟩).result

/-- Whatever a record was finished from and however it was changed since, its own required fields
have values. -/
theorem Record.finished_edited {documents : List Document}
    (hcompile : Graph.compile documents = .ok schema.graph) {draft : Draft}
    (hdraft : draft.Obtained schema Held) {record : Record}
    (hfinish : draft.finish schema = .ok record) {edits : List Edit}
    (hedits : ∀ edit ∈ edits, edit.Offers schema Held) :
    (record.edited schema edits).Finished schema Held := by
  have hgraph := Graph.coherent_of_compile hcompile
  have hobtained := hdraft.record
  rw [Draft.record_of_finish hfinish] at hobtained
  obtain ⟨hedited, hfilled⟩ :=
    Record.obtained_edited hobtained (Draft.filled_of_finish hfinish) hedits
  generalize record.edited schema edits = final at hedited hfilled
  have hknown := hedited.known hgraph
  have hsize := Record.tellsMissing_encodedSize_iff hgraph hknown.typed
  have hpack : ∀ registry : Registry Payload,
      TellsMissing (registry.tryPack ⟨schema, final⟩).result ↔
        (final.typeIn schema).isPayload = true ∧ ¬ final.Complete schema := by
    intro registry
    obtain ⟨transaction, hmessage, -⟩ := Registry.exists_assign schema registry final
    have htold := Registry.tellsMissing_encoded_iff hgraph
      (hknown.typed.withTransaction (some transaction))
    rw [Record.complete_iff] at htold ⊢
    rw [Registry.tryPack_result, hmessage]
    exact htold
  constructor
  · exact hfilled
  · rw [hsize, Record.not_complete_iff]
  · intro registry
    rw [hpack, Record.not_complete_iff]
  · intro hheld
    have hcomplete := (hknown.solid hheld).complete hfilled
    exact ⟨fun hmissing => hsize.mp hmissing hcomplete,
      fun registry hmissing => ((hpack registry).mp hmissing).2 hcomplete⟩

namespace Sample

/-- A message that is finished with an empty node in it, which lacks its hash. -/
def hollow : Except ConstructionError Record := do
  let draft ← (Draft.of Sample.schema ⟨2⟩).set Sample.schema "head"
    (.record (.empty Sample.schema ⟨0⟩))
  let draft ← draft.set Sample.schema "at" (.datetime .epoch)
  draft.finish Sample.schema

theorem hollow_lacks :
    Graph.compile documents = .ok Sample.schema.graph ∧
      ∃ draft record, Draft.Obtained Sample.schema (fun _ => True) draft ∧
        draft.finish Sample.schema = .ok record ∧
        TellsMissing (Failure.told (record.encodedSize Sample.schema)) ∧
        TellsMissing
          ((Registry.empty false).tryPack (Payload.mk Sample.schema record)).result := by
  have hmissing : hollow.map (fun record => (record.encodedSize Sample.schema,
      ((Registry.empty false).tryPack (Payload.mk Sample.schema record)).result)) =
        .ok (.error (.missingField "Node" "hash"),
          .error (.fault (.missingField "Node" "hash"))) := by
    decide +kernel
  obtain ⟨record, hrecord, htold⟩ := Outcome.map_eq_ok hmissing
  obtain ⟨first, hhead, hrest⟩ := Outcome.bind_eq_ok hrecord
  obtain ⟨draft, hat, hfinish⟩ := Outcome.bind_eq_ok hrest
  have hnode : (Value.record (.empty Sample.schema ⟨0⟩)).Offered Sample.schema fun _ => True := by
    refine ⟨fun held hheld _ => ?_, fun _ _ _ => trivial⟩
    rw [List.mem_singleton.mp hheld]
    exact .empty ⟨0⟩
  have hinstant : (Value.datetime .epoch).Offered Sample.schema fun _ => True :=
    ⟨fun held hheld => absurd hheld List.not_mem_nil, fun _ _ _ => trivial⟩
  have hdraft : Draft.Obtained Sample.schema (fun _ => True) draft :=
    ((Draft.Obtained.of ⟨2⟩).set hnode hhead).set hinstant hat
  rw [Prod.mk.injEq] at htold
  exact ⟨compile_documents, draft, record, hdraft, hfinish,
    (tellsMissing_told_iff _).mpr ⟨_, _, htold.1⟩, ⟨_, _, htold.2⟩⟩

/-- Changes of which the second one is refused. -/
def chainEdits : List Record.Edit :=
  [.set "head" (.record (chain 0)), .clear "head"]

theorem finished_chain :
    ∃ record : Record, (record.edited chainSchema chainEdits).Finished chainSchema
        (Record.Filled chainSchema) ∧
      ¬ TellsMissing
        (Failure.told ((record.edited chainSchema chainEdits).encodedSize chainSchema)) := by
  have hfilled : (chain 0).Filled chainSchema := by
    change ∀ entry ∈ (chain 0).entries chainSchema, _
    decide +kernel
  have hnode : (Value.record (chain 0)).Offered chainSchema (Record.Filled chainSchema) := by
    refine ⟨fun held hheld _ => ?_, fun held hheld _ => ?_⟩
    · rw [List.mem_singleton.mp hheld]
      exact .empty ⟨0⟩
    · rw [List.mem_singleton.mp hheld]
      exact hfilled
  have hedits : ∀ edit ∈ chainEdits, edit.Offers chainSchema (Record.Filled chainSchema) := by
    simpa [chainEdits, Record.Edit.Offers] using hnode
  have hmade : Except.isOk
      ((Draft.of chainSchema ⟨1⟩).set chainSchema "head" (.record (chain 0)) >>=
        Draft.finish chainSchema) = true := by
    decide +kernel
  cases hrun : (Draft.of chainSchema ⟨1⟩).set chainSchema "head" (.record (chain 0)) >>=
      Draft.finish chainSchema with
  | error fault =>
      rw [hrun] at hmade
      cases hmade
  | ok record =>
      obtain ⟨draft, hset, hfinish⟩ := Outcome.bind_eq_ok hrun
      have hfinished := Record.finished_edited compile_chainDocuments
        ((Draft.Obtained.of ⟨1⟩).set hnode hset) hfinish hedits
      exact ⟨record, hfinished, (hfinished.safe fun _ hheld => hheld).1⟩

end Sample

end WireSchema
