import WireSchema.Proofs.Compiled
import WireSchema.Proofs.Contents
import WireSchema.Proofs.Instants
import WireSchema.Proofs.Outcomes

/-!
# Records under construction

A record is made empty, and from then on changed by filling and emptying slots.  Whatever is filled
in fits the field, so that every record that can be made is well typed at every level.
-/

namespace WireSchema

variable {schema : Schema}

/-- The records that can be made.  Records within a value that is filled in are made before. -/
inductive Record.Built (schema : Schema) : Record → Prop where
  | empty (type : ObjectId) : Built schema (Record.empty schema type)
  | set {record changed : Record} {field : String} {value : Value} (hrecord : Built schema record)
      (hvalue : ∀ inner, value.Contains (.record inner) → Built schema inner)
      (hset : record.set schema field value = .ok changed) : Built schema changed
  | clear {record changed : Record} {field : String} {held : Option Value}
      (hrecord : Built schema record)
      (hclear : record.clear schema field = .ok (held, changed)) : Built schema changed
  | withTransaction {record : Record} (hrecord : Built schema record) (id : UInt32) :
      Built schema (record.withTransaction id)
  | respond {request : Record} {draft : Draft} (hrequest : Built schema request)
      (hrespond : request.respond schema = .ok draft) : Built schema draft.record

/-! ## Cutting instants -/

mutual

theorem Value.truncated_truncated (value : Value) :
    value.truncated.truncated = value.truncated := by
  match value with
  | .datetime instant =>
      rw [Value.truncated, Value.truncated, Time.Instant.truncated_truncated]
  | .array items => rw [Value.truncated, Value.truncated, Value.truncatedItems_truncatedItems items]
  | .bool _ | .int8 _ | .uint8 _ | .int16 _ | .uint16 _ | .int32 _ | .uint32 _ | .int64 _
  | .uint64 _ | .float _ | .double _ | .text _ | .binary _ | .ordinal _ | .record _ => rfl

theorem Value.truncatedItems_truncatedItems (items : List Value) :
    Value.truncatedItems (Value.truncatedItems items) = Value.truncatedItems items := by
  match items with
  | [] => rfl
  | item :: rest =>
      rw [Value.truncatedItems, Value.truncatedItems, Value.truncated_truncated item,
        Value.truncatedItems_truncatedItems rest]

end

mutual

/-- Cutting keeps what holds throughout a value, if it keeps what holds of a value. -/
theorem Value.throughout_truncated {Holds : Value → Prop}
    (hkeeps : ∀ value, Holds value → Holds value.truncated) (value : Value)
    (hall : value.Throughout Holds) : value.truncated.Throughout Holds := by
  match value with
  | .datetime instant => exact Value.throughout_scalar trivial (hkeeps _ hall.self)
  | .array items =>
      exact Value.throughout_array (hkeeps _ hall.self)
        (Value.throughout_truncatedItems hkeeps items fun item hitem => hall.item hitem)
  | .bool _ | .int8 _ | .uint8 _ | .int16 _ | .uint16 _ | .int32 _ | .uint32 _ | .int64 _
  | .uint64 _ | .float _ | .double _ | .text _ | .binary _ | .ordinal _ | .record _ => exact hall

theorem Value.throughout_truncatedItems {Holds : Value → Prop}
    (hkeeps : ∀ value, Holds value → Holds value.truncated) (items : List Value)
    (hall : ∀ item ∈ items, item.Throughout Holds) :
    ∀ item ∈ Value.truncatedItems items, item.Throughout Holds := by
  match items with
  | [] => exact fun item hitem => absurd hitem List.not_mem_nil
  | first :: rest =>
      obtain ⟨hfirst, hrest⟩ := List.forall_mem_cons.mp hall
      exact List.forall_mem_cons.mpr
        ⟨Value.throughout_truncated hkeeps first hfirst,
          Value.throughout_truncatedItems hkeeps rest hrest⟩

end

/-- Cutting leaves the records in a value alone. -/
theorem Value.onRecords_truncated {Holds : Record → Prop} (value : Value)
    (hall : value.Throughout (OnRecords Holds)) : value.truncated.Throughout (OnRecords Holds) := by
  refine Value.throughout_truncated (fun other hother => ?_) value hall
  cases other
  case record nested => exact hother
  all_goals trivial

theorem Value.length_truncatedItems (items : List Value) :
    (Value.truncatedItems items).length = items.length := by
  induction items with
  | nil => rfl
  | cons item rest ih => rw [Value.truncatedItems, List.length_cons, List.length_cons, ih]

theorem Value.bounded_truncated (value : Value) (hbounded : value.Bounded) :
    value.truncated.Bounded := by
  refine Value.throughout_truncated (fun other hother => ?_) value hbounded
  cases other
  case array items =>
    rw [Value.truncated, Value.IsShort, Value.length_truncatedItems]
    exact hother
  case datetime instant => trivial
  all_goals exact hother

/-! ## Slots -/

theorem forall₂_set {α β : Type} {Holds : α → β → Prop} {items : List α} {others : List β}
    (hall : List.Forall₂ Holds items others) {index : Nat} {other : β}
    (hother : ∀ item, items[index]? = some item → Holds item other) :
    List.Forall₂ Holds items (others.set index other) := by
  induction hall generalizing index with
  | nil => exact .nil
  | cons hhead htail ih =>
      cases index with
      | zero => exact .cons (hother _ rfl) htail
      | succ index => exact .cons hhead (ih hother)

theorem Record.fieldAt_eq {record : Record} {index : Nat} {field : Field}
    (hfield : (record.typeIn schema).fields[index]? = some field) :
    record.fieldAt schema index = field := by
  rw [Record.fieldAt, List.getD_eq_getElem?_getD, hfield, Option.getD_some]

/-- The record with something else in one of its slots. -/
def Record.withSlot (record : Record) (index : Nat) (slot : Option Value) : Record :=
  { record with slots := record.slots.set index slot }

section WithSlot

variable {record : Record} {index : Nat} {slot : Option Value}

@[simp] theorem Record.typeIn_withSlot :
    (record.withSlot index slot).typeIn schema = record.typeIn schema := rfl

@[simp] theorem Record.slots_withSlot :
    (record.withSlot index slot).slots = record.slots.set index slot := rfl

@[simp] theorem Record.transaction_withSlot :
    (record.withSlot index slot).transaction = record.transaction := rfl

theorem Record.throughout_withSlot {Holds : Value → Prop}
    (hall : (Value.record record).Throughout Holds)
    (hself : Holds (.record (record.withSlot index slot)))
    (hslot : ∀ value, slot = some value → value.Throughout Holds) :
    (Value.record (record.withSlot index slot)).Throughout Holds := by
  refine Value.throughout_record hself fun held hheld => ?_
  rcases List.mem_or_eq_of_mem_set hheld with hheld | hheld
  · exact hall.slot hheld
  · exact hslot held hheld.symm

/-- A slot may be changed to whatever the field of the slot accepts. -/
theorem Record.WellTyped.withSlot (htyped : record.WellTyped schema)
    (haccepts : schema.Accepts (record.fieldAt schema index) slot)
    (hslot : ∀ value, slot = some value → value.WellTyped schema) :
    (record.withSlot index slot).WellTyped schema := by
  refine Record.throughout_withSlot htyped ⟨htyped.self.schema_eq, ?_⟩ hslot
  refine forall₂_set htyped.self.slots fun field hfield => ?_
  rw [← Record.fieldAt_eq hfield]
  exact haccepts

/-- A slot may be filled, and that of an optional field may be emptied. -/
theorem Record.Filled.withSlot (hfilled : record.Filled schema)
    (hslot : (record.fieldAt schema index).isOptional = true ∨ slot.isSome = true) :
    (record.withSlot index slot).Filled schema := by
  intro entry hentry
  obtain ⟨place, hplace⟩ := List.mem_iff_getElem?.mp hentry
  obtain ⟨hfield, hheld⟩ := List.getElem?_zip_eq_some.mp hplace
  rw [Record.slots_withSlot] at hheld
  by_cases hsame : place = index
  · subst hsame
    rw [List.getElem?_set, if_pos rfl] at hheld
    split at hheld
    · have hfieldAt : record.fieldAt schema place = entry.1 := Record.fieldAt_eq hfield
      rw [← hfieldAt, ← Option.some.inj hheld]
      exact hslot
    · cases hheld
  · rw [List.getElem?_set_ne (Ne.symm hsame)] at hheld
    exact hfilled entry (List.mem_of_getElem? (List.getElem?_zip_eq_some.mpr ⟨hfield, hheld⟩))

theorem Record.Complete.withSlot (hcomplete : record.Complete schema)
    (hfilled : (record.fieldAt schema index).isOptional = true ∨ slot.isSome = true)
    (hslot : ∀ value, slot = some value → value.Complete schema) :
    (record.withSlot index slot).Complete schema :=
  Record.throughout_withSlot hcomplete (Record.Filled.withSlot hcomplete.self hfilled) hslot

theorem Record.Bounded.withSlot (hbounded : record.Bounded)
    (hslot : ∀ value, slot = some value → value.Bounded) :
    (record.withSlot index slot).Bounded :=
  Record.throughout_withSlot hbounded trivial hslot

end WithSlot

theorem Record.wellTyped_empty (schema : Schema) (type : ObjectId) :
    (Record.empty schema type).WellTyped schema := by
  refine Value.throughout_record ⟨rfl, ?_⟩ ?_
  · change List.Forall₂ schema.Accepts (schema.graph.object type).fields
      (List.replicate (schema.graph.object type).fields.length none)
    induction (schema.graph.object type).fields with
    | nil => exact .nil
    | cons field rest ih => exact .cons (fun value hvalue => by cases hvalue) ih
  · intro held hheld
    have hnone := List.eq_of_mem_replicate hheld
    cases hnone

/-! ## What setting and clearing change -/

theorem Record.indexOf_eq_ok {record : Record} {field : String} {index : Nat}
    (hindex : record.indexOf schema field = .ok index) :
    (record.typeIn schema).fieldIndex? field = some index := by
  unfold Record.indexOf at hindex
  split at hindex
  next found hfound =>
    rw [hfound]
    exact congrArg some (Except.ok.inj hindex)
  next => cases hindex

/-- A slot is filled with a value that its field takes. -/
theorem Record.exists_index_of_set {record changed : Record} {field : String} {value : Value}
    (hset : record.set schema field value = .ok changed) :
    ∃ index, (record.typeIn schema).fieldIndex? field = some index ∧
      schema.admits (record.fieldAt schema index).type value.truncated = true ∧
      changed = record.withSlot index (some value.truncated) := by
  unfold Record.set at hset
  obtain ⟨index, hindex, hset⟩ := Outcome.bind_eq_ok hset
  dsimp only at hset
  split at hset
  next hadmits =>
    cases hset
    exact ⟨index, Record.indexOf_eq_ok hindex, hadmits, rfl⟩
  next => cases hset

/-- A slot is emptied if its field is optional. -/
theorem Record.exists_index_of_clear {record changed : Record} {field : String}
    {held : Option Value} (hclear : record.clear schema field = .ok (held, changed)) :
    ∃ index, (record.typeIn schema).fieldIndex? field = some index ∧
      (record.fieldAt schema index).isOptional = true ∧ held = record.valueAt? index ∧
      changed = record.withSlot index none := by
  unfold Record.clear at hclear
  obtain ⟨index, hindex, hclear⟩ := Outcome.bind_eq_ok hclear
  split at hclear
  next hoptional =>
    cases hclear
    exact ⟨index, Record.indexOf_eq_ok hindex, hoptional, rfl, rfl⟩
  next => cases hclear

theorem Record.WellTyped.set {record changed : Record} {field : String} {value : Value}
    (htyped : record.WellTyped schema) (hvalue : value.WellTyped schema)
    (hset : record.set schema field value = .ok changed) : changed.WellTyped schema := by
  obtain ⟨index, -, hadmits, rfl⟩ := Record.exists_index_of_set hset
  refine htyped.withSlot ?_ ?_
  · intro kept hkept
    cases hkept
    exact ⟨hadmits, value.truncated_truncated⟩
  · intro kept hkept
    cases hkept
    exact value.onRecords_truncated hvalue

theorem Record.WellTyped.clear {record changed : Record} {field : String} {held : Option Value}
    (htyped : record.WellTyped schema) (hclear : record.clear schema field = .ok (held, changed)) :
    changed.WellTyped schema := by
  obtain ⟨index, -, -, -, rfl⟩ := Record.exists_index_of_clear hclear
  exact htyped.withSlot (fun value hvalue => by cases hvalue)
    (fun value hvalue => by cases hvalue)

/-- A response begins as an empty record with the transaction id of the request. -/
theorem Record.exists_response_of_respond {request : Record} {draft : Draft}
    (hrespond : request.respond schema = .ok draft) :
    ∃ response, draft =
      ⟨{ Record.empty schema response with transaction := request.transaction }⟩ := by
  unfold Record.respond at hrespond
  dsimp only at hrespond
  split at hrespond
  next response hresponse =>
    cases hrespond
    exact ⟨response, rfl⟩
  next => cases hrespond

theorem Record.wellTyped_respond {request : Record} {draft : Draft}
    (hrespond : request.respond schema = .ok draft) : draft.record.WellTyped schema := by
  obtain ⟨response, rfl⟩ := Record.exists_response_of_respond hrespond
  exact (Record.wellTyped_empty schema response).withTransaction request.transaction

/-- Every record that can be made is well typed. -/
theorem Record.Built.wellTyped {record : Record} (hbuilt : Record.Built schema record) :
    record.WellTyped schema := by
  induction hbuilt with
  | empty type => exact Record.wellTyped_empty schema type
  | set hrecord hvalue hset ih ihvalue =>
      refine ih.set ?_ hset
      intro inner hinner
      cases inner
      case record nested => exact (ihvalue nested hinner).self
      all_goals trivial
  | clear hrecord hclear ih => exact ih.clear hclear
  | withTransaction hrecord id ih => exact ih.withTransaction (some id)
  | respond hrequest hrespond ih => exact Record.wellTyped_respond hrespond

/-- A value that fits its field is filled in. -/
theorem Record.set_of_admits {record : Record} {field : String} {value : Value} {index : Nat}
    (hindex : (record.typeIn schema).fieldIndex? field = some index)
    (hadmits : schema.admits (record.fieldAt schema index).type value.truncated = true) :
    record.set schema field value = .ok (record.withSlot index (some value.truncated)) := by
  unfold Record.set Record.indexOf
  rw [hindex]
  change (if schema.admits (record.fieldAt schema index).type value.truncated = true then
    Except.ok (record.withSlot index (some value.truncated)) else _) = _
  rw [if_pos hadmits]

theorem Draft.exists_set_of_setEnum {draft changed : Draft} {field name : String}
    (hset : draft.setEnum schema field name = .ok changed) :
    ∃ ordinal, draft.set schema field (.ordinal ordinal) = .ok changed := by
  unfold Draft.setEnum at hset
  dsimp only at hset
  split at hset
  next => cases hset
  next declared hdeclared =>
    split at hset
    next ordinal hordinal => exact ⟨ordinal, hset⟩
    next => cases hset

theorem Draft.exists_record_of_set {draft changed : Draft} {field : String} {value : Value}
    (hset : draft.set schema field value = .ok changed) :
    draft.record.set schema field value = .ok changed.record := by
  obtain ⟨record, hrecord, rfl⟩ := Outcome.map_eq_ok hset
  exact hrecord

theorem Draft.record_of_finish {draft : Draft} {record : Record}
    (hfinish : draft.finish schema = .ok record) : draft.record = record := by
  unfold Draft.finish at hfinish
  split at hfinish
  next => cases hfinish
  next => exact Except.ok.inj hfinish

theorem Record.transaction_of_set {record changed : Record} {field : String} {value : Value}
    (hset : record.set schema field value = .ok changed) :
    changed.transaction = record.transaction := by
  obtain ⟨index, -, -, rfl⟩ := Record.exists_index_of_set hset
  rfl

theorem Draft.transaction_of_set {draft changed : Draft} {field : String} {value : Value}
    (hset : draft.set schema field value = .ok changed) :
    changed.record.transaction = draft.record.transaction :=
  Record.transaction_of_set (Draft.exists_record_of_set hset)

theorem Record.transaction_of_respond {request : Record} {draft : Draft}
    (hrespond : request.respond schema = .ok draft) :
    draft.record.transaction = request.transaction := by
  obtain ⟨response, rfl⟩ := Record.exists_response_of_respond hrespond
  rfl

/-! ## A payload

A message with a leaf in place of a node. -/

theorem Record.fits_of_admits {record : Record} (hschema : record.schema = schema.number)
    (hlength : (record.typeIn schema).fields.length = record.slots.length)
    (hadmits : ∀ entry ∈ record.entries schema, entry.2.all (schema.admits entry.1.type) = true)
    (hwhole : ∀ held, some held ∈ record.slots → held.truncated = held) :
    record.Fits schema := by
  refine ⟨hschema, List.forall₂_iff_zip.mpr ⟨hlength, ?_⟩⟩
  intro field slot hentry value hvalue
  have hadmits := hadmits (field, slot) hentry
  rw [Option.mem_def.mp hvalue] at hadmits hentry
  exact ⟨hadmits, hwhole value (List.of_mem_zip hentry).2⟩

namespace Sample

def leaf : Record :=
  ⟨1, ⟨1⟩, [none, some (.binary [1, 2]), some (.array [.array [.text "a"]]), none,
    some (.ordinal 1)], none⟩

def walk : Record := ⟨1, ⟨2⟩, [some (.record leaf), some (.datetime .epoch)], none⟩

/-- The values of the message that have no parts. -/
def scalars : List Value := [.binary [1, 2], .text "a", .ordinal 1, .datetime .epoch]

theorem fits_leaf : leaf.Fits Sample.schema := by
  refine Record.fits_of_admits rfl (by decide +kernel) (by decide +kernel) ?_
  intro held hheld
  simp only [leaf, List.mem_cons, List.not_mem_nil, or_false, Option.some.injEq, reduceCtorEq,
    false_or] at hheld
  rcases hheld with rfl | rfl | rfl <;> rfl

theorem fits_walk : walk.Fits Sample.schema := by
  refine Record.fits_of_admits rfl (by decide +kernel) (by decide +kernel) ?_
  intro held hheld
  simp only [walk, List.mem_cons, List.not_mem_nil, or_false, Option.some.injEq] at hheld
  rcases hheld with rfl | rfl
  · rfl
  · rw [Value.truncated, (Time.Instant.truncated_eq_self_iff .epoch).mpr rfl]

/-- What holds of the values of the message one by one holds throughout it. -/
theorem throughout_walk {Holds : Value → Prop} (hwalk : Holds (.record walk))
    (hleaf : Holds (.record leaf)) (htags : Holds (.array [.array [.text "a"]]))
    (htag : Holds (.array [.text "a"]))
    (hscalars : ∀ value ∈ scalars, Holds value) : (Value.record walk).Throughout Holds := by
  have hone : ∀ value ∈ scalars, value.IsScalar → value.Throughout Holds :=
    fun value hvalue hscalar => Value.throughout_scalar hscalar (hscalars value hvalue)
  refine Value.throughout_record hwalk fun held hheld => ?_
  simp only [walk, List.mem_cons, List.not_mem_nil, or_false, Option.some.injEq] at hheld
  rcases hheld with rfl | rfl
  · refine Value.throughout_record hleaf fun held hheld => ?_
    simp only [leaf, List.mem_cons, List.not_mem_nil, or_false, Option.some.injEq, reduceCtorEq,
      false_or] at hheld
    rcases hheld with rfl | rfl | rfl
    · exact hone _ (by simp [scalars]) trivial
    · refine Value.throughout_array htags fun inner hinner => ?_
      rw [List.mem_singleton.mp hinner]
      refine Value.throughout_array htag fun word hword => ?_
      rw [List.mem_singleton.mp hword]
      exact hone _ (by simp [scalars]) trivial
    · exact hone _ (by simp [scalars]) trivial
  · exact hone _ (by simp [scalars]) trivial

theorem wellTyped_walk : walk.WellTyped Sample.schema :=
  throughout_walk fits_walk fits_leaf trivial trivial (by simp [scalars, Value.OnRecords])

theorem complete_walk : walk.Complete Sample.schema := by
  refine throughout_walk ?_ ?_ trivial trivial (by simp [scalars, Value.OnRecords])
  · change ∀ entry ∈ walk.entries Sample.schema, _
    decide +kernel
  · change ∀ entry ∈ leaf.entries Sample.schema, _
    decide +kernel

theorem bounded_walk : walk.Bounded := by
  refine throughout_walk trivial trivial ?_ ?_ ?_
  · change 1 < Writer.lengthBound
    decide
  · change 1 < Writer.lengthBound
    decide
  · intro value hvalue
    simp only [scalars, List.mem_cons, List.not_mem_nil, or_false] at hvalue
    rcases hvalue with rfl | rfl | rfl | rfl
    · trivial
    · change 1 < Writer.lengthBound
      decide
    · trivial
    · trivial

end Sample

end WireSchema
