import Mathlib.Data.List.Forall2
import WireSchema.Record.Basic
import WireSchema.Wire.Writer

/-!
# What a record contains

A record contains the values of its slots, the items of their arrays and the values of the records
among them, at every level.  What is asked of a record as a whole is asked of everything it
contains: that every slot took its value, that no required slot is empty, that counts and lengths
fit four bytes.
-/

namespace WireSchema

/-- One value is another or is found within it, at whatever level. -/
inductive Value.Contains : Value → Value → Prop where
  | self (value : Value) : Contains value value
  | item {items : List Value} {item value : Value} (hitem : item ∈ items)
      (hvalue : Contains item value) : Contains (.array items) value
  | slot {record : Record} {held value : Value} (hslot : some held ∈ record.slots)
      (hvalue : Contains held value) : Contains (.record record) value

namespace Value

/-- Everything a value contains satisfies a condition, the value itself included. -/
def Throughout (Holds : Value → Prop) (value : Value) : Prop :=
  ∀ inner, value.Contains inner → Holds inner

variable {Holds : Value → Prop}

theorem Throughout.self {value : Value} (hall : value.Throughout Holds) : Holds value :=
  hall value (.self value)

theorem Throughout.item {items : List Value} {item : Value}
    (hall : (Value.array items).Throughout Holds) (hitem : item ∈ items) :
    item.Throughout Holds :=
  fun inner hinner => hall inner (.item hitem hinner)

theorem Throughout.slot {record : Record} {held : Value}
    (hall : (Value.record record).Throughout Holds) (hslot : some held ∈ record.slots) :
    held.Throughout Holds :=
  fun inner hinner => hall inner (.slot hslot hinner)

theorem throughout_array {items : List Value} (hself : Holds (.array items))
    (hitems : ∀ item ∈ items, item.Throughout Holds) :
    (Value.array items).Throughout Holds := by
  intro inner hinner
  cases hinner with
  | self => exact hself
  | item hitem hvalue => exact hitems _ hitem inner hvalue

theorem throughout_record {record : Record} (hself : Holds (.record record))
    (hslots : ∀ held, some held ∈ record.slots → held.Throughout Holds) :
    (Value.record record).Throughout Holds := by
  intro inner hinner
  cases hinner with
  | self => exact hself
  | slot hslot hvalue => exact hslots _ hslot inner hvalue

theorem Contains.trans {first second third : Value} (hfirst : first.Contains second)
    (hsecond : second.Contains third) : first.Contains third := by
  induction hfirst with
  | self => exact hsecond
  | item hitem hvalue ih => exact .item hitem (ih hsecond)
  | slot hslot hvalue ih => exact .slot hslot (ih hsecond)

theorem Throughout.of_contains {value inner : Value} (hall : value.Throughout Holds)
    (hinner : value.Contains inner) : inner.Throughout Holds :=
  fun third hthird => hall third (hinner.trans hthird)

/-- A value without parts. -/
def IsScalar : Value → Prop
  | .array _ | .record _ => False
  | _ => True

theorem throughout_scalar {value : Value} (hscalar : value.IsScalar) (hself : Holds value) :
    value.Throughout Holds := by
  intro inner hinner
  cases hinner with
  | self => exact hself
  | item => exact absurd hscalar id
  | slot => exact absurd hscalar id

/-- A condition on the records among values. -/
def OnRecords (Holds : Record → Prop) : Value → Prop
  | .record inner => Holds inner
  | _ => True

end Value

theorem Value.onRecords_of_isScalar {Holds : Record → Prop} {value : Value}
    (hscalar : value.IsScalar) : Value.OnRecords Holds value := by
  cases value
  case record => cases hscalar
  all_goals trivial

/-! ## Conditions on records -/

/-- A slot is empty, or its value fits the field and has no instant between two milliseconds. -/
def Schema.Accepts (schema : Schema) (field : Field) (slot : Option Value) : Prop :=
  ∀ value ∈ slot, schema.admits field.type value = true ∧ value.truncated = value

namespace Record

/-- One slot for each field, with nothing but values that the field takes. -/
structure Fits (schema : Schema) (record : Record) : Prop where
  schema_eq : record.schema = schema.number
  slots : List.Forall₂ schema.Accepts (record.typeIn schema).fields record.slots

/-- No slot of a required field is empty. -/
def Filled (schema : Schema) (record : Record) : Prop :=
  ∀ entry ∈ record.entries schema, entry.1.isOptional = true ∨ entry.2.isSome = true

end Record

namespace Value

/-- Every record in a value fits its type. -/
def WellTyped (schema : Schema) (value : Value) : Prop :=
  value.Throughout (OnRecords (Record.Fits schema))

/-- No record in a value lacks a required value. -/
def Complete (schema : Schema) (value : Value) : Prop :=
  value.Throughout (OnRecords (Record.Filled schema))

/-- The length of a text and the count of an array fit four bytes. -/
def IsShort : Value → Prop
  | .text words => words.utf8ByteSize < Writer.lengthBound
  | .array items => items.length < Writer.lengthBound
  | _ => True

/-- All texts and arrays in a value are short. -/
def Bounded (value : Value) : Prop := value.Throughout IsShort

end Value

theorem Primitive.isScalar_of_admits {kind : Primitive} {value : Value}
    (hadmits : kind.admits value = true) : value.IsScalar ∧ value.IsShort := by
  cases kind <;> cases value <;> first | exact ⟨trivial, trivial⟩ | cases hadmits

namespace Record

def WellTyped (schema : Schema) (record : Record) : Prop := (Value.record record).WellTyped schema

def Complete (schema : Schema) (record : Record) : Prop := (Value.record record).Complete schema

def Bounded (record : Record) : Prop := (Value.record record).Bounded

end Record

/-! ## What slots hold -/

/-- A slot of a field is empty, or its value satisfies a condition on values of the type. -/
def Field.SlotHolds (Holds : FieldType → Value → Prop) (field : Field) (slot : Option Value) :
    Prop :=
  ∀ value ∈ slot, Holds field.type value

theorem exists_field_of_mem {Holds : Field → Option Value → Prop} {fields : List Field}
    {slots : List (Option Value)} (hslots : List.Forall₂ Holds fields slots)
    {slot : Option Value} (hslot : slot ∈ slots) : ∃ field ∈ fields, Holds field slot := by
  induction hslots with
  | nil => cases hslot
  | @cons field first fields rest hfirst hrest ih =>
      rcases List.mem_cons.mp hslot with rfl | hslot
      · exact ⟨field, List.mem_cons_self, hfirst⟩
      · obtain ⟨other, hother, hholds⟩ := ih hslot
        exact ⟨other, List.mem_cons_of_mem _ hother, hholds⟩

/-- What a well-typed record may hold in a slot of a type. -/
structure Value.Suits (schema : Schema) (type : FieldType) (value : Value) : Prop where
  admits : schema.admits type value = true
  whole : value.truncated = value
  typed : value.WellTyped schema

theorem Value.truncated_of_mem {items : List Value} {item : Value}
    (hwhole : (Value.array items).truncated = .array items) (hitem : item ∈ items) :
    item.truncated = item := by
  have hitems : Value.truncatedItems items = items := by
    simpa only [Value.truncated, Value.array.injEq] using hwhole
  clear hwhole
  induction items with
  | nil => exact absurd hitem List.not_mem_nil
  | cons head rest ih =>
      rw [Value.truncatedItems, List.cons.injEq] at hitems
      rcases List.mem_cons.mp hitem with rfl | hrest
      · exact hitems.1
      · exact ih hrest hitems.2

section Suits

variable {schema : Schema}

/-! A type that takes an array is an array type, and so for records and bytes. -/

theorem Schema.exists_array_of_admits {type : FieldType} {items : List Value}
    (hadmits : schema.admits type (.array items) = true) : ∃ element, type = .array element := by
  cases type
  case array element => exact ⟨element, rfl⟩
  case primitive kind => cases kind <;> cases hadmits
  all_goals cases hadmits

theorem Schema.exists_object_of_admits {type : FieldType} {record : Record}
    (hadmits : schema.admits type (.record record) = true) :
    ∃ id, type = .object id ∧ record.schema = schema.number ∧
      schema.graph.isA record.type id = true := by
  cases type
  case object id =>
    obtain ⟨hschema, hisA⟩ := Bool.and_eq_true_iff.mp hadmits
    exact ⟨id, rfl, beq_iff_eq.mp hschema, hisA⟩
  case primitive kind => cases kind <;> cases hadmits
  all_goals cases hadmits

theorem Schema.exists_binary_of_admits {type : FieldType} {bytes : List UInt8}
    (hadmits : schema.admits type (.binary bytes) = true) : ∃ length, type = .binary length := by
  cases type
  case binary length => exact ⟨length, rfl⟩
  case primitive kind => cases kind <;> cases hadmits
  all_goals cases hadmits

theorem Value.Suits.item {element : FieldType} {items : List Value}
    (hsuits : (Value.array items).Suits schema (.array element)) :
    ∀ item ∈ items, item.Suits schema element := by
  intro item hitem
  have hadmits := List.all_eq_true.mp hsuits.admits item hitem
  exact ⟨hadmits, Value.truncated_of_mem hsuits.whole hitem, hsuits.typed.item hitem⟩

/-- What holds of all values in slots that accept them holds slot by slot. -/
theorem forall₂_slotHolds {Holds : Value → Prop} {fields : List Field}
    {slots : List (Option Value)} (hslots : List.Forall₂ schema.Accepts fields slots)
    (hall : ∀ held, some held ∈ slots → Holds held) :
    List.Forall₂ (Field.SlotHolds fun type value =>
      (schema.admits type value = true ∧ value.truncated = value) ∧ Holds value) fields slots := by
  induction hslots with
  | nil => exact .nil
  | cons haccepts hrest ih =>
      refine .cons ?_ (ih fun held hheld => hall held (List.mem_cons_of_mem _ hheld))
      intro value hvalue
      rw [Option.mem_def] at hvalue
      subst hvalue
      exact ⟨haccepts value rfl, hall value List.mem_cons_self⟩

theorem Record.WellTyped.suits {record : Record} (htyped : record.WellTyped schema) :
    List.Forall₂ (Field.SlotHolds (Value.Suits schema)) (record.typeIn schema).fields
      record.slots := by
  refine (forall₂_slotHolds htyped.self.slots fun held hheld => htyped.slot hheld).imp ?_
  intro field slot hslot value hvalue
  obtain ⟨⟨hadmits, hwhole⟩, hinner⟩ := hslot value hvalue
  exact ⟨hadmits, hwhole, hinner⟩

end Suits

namespace Record

/-! ## Transaction ids

The transaction id of a record is not asked about. -/

section Transaction

variable {schema : Schema} {record : Record} (transaction : Option UInt32)

theorem WellTyped.withTransaction (htyped : record.WellTyped schema) :
    WellTyped schema { record with transaction := transaction } :=
  Value.throughout_record ⟨htyped.self.schema_eq, htyped.self.slots⟩
    fun _ hheld => htyped.slot hheld

theorem Complete.withTransaction (hcomplete : record.Complete schema) :
    Complete schema { record with transaction := transaction } :=
  Value.throughout_record hcomplete.self fun _ hheld => hcomplete.slot hheld

theorem Bounded.withTransaction (hbounded : record.Bounded) :
    Bounded { record with transaction := transaction } :=
  Value.throughout_record trivial fun _ hheld => hbounded.slot hheld

end Transaction

end Record

/-! ## Levels -/

mutual

/-- How many levels of records a value has. -/
def Value.nesting : Value → Nat
  | .array items => Value.itemsNesting items
  | .record record => record.nesting + 1
  | _ => 0

def Value.itemsNesting : List Value → Nat
  | [] => 0
  | item :: rest => max item.nesting (Value.itemsNesting rest)

/-- How many levels of records there are below a record. -/
def Record.nesting : Record → Nat
  | ⟨_, _, slots, _⟩ => Record.slotsNesting slots

def Record.slotsNesting : List (Option Value) → Nat
  | [] => 0
  | some value :: rest => max value.nesting (Record.slotsNesting rest)
  | none :: rest => Record.slotsNesting rest

end

theorem Value.itemsNesting_le_iff {items : List Value} {levels : Nat} :
    Value.itemsNesting items ≤ levels ↔ ∀ item ∈ items, item.nesting ≤ levels := by
  induction items with
  | nil => simp [Value.itemsNesting]
  | cons item rest ih => rw [Value.itemsNesting, Nat.max_le, ih, List.forall_mem_cons]

theorem Record.slotsNesting_le_iff {slots : List (Option Value)} {levels : Nat} :
    Record.slotsNesting slots ≤ levels ↔
      ∀ held, some held ∈ slots → held.nesting ≤ levels := by
  induction slots with
  | nil => simp [Record.slotsNesting]
  | cons slot rest ih =>
      cases slot with
      | none => simp [Record.slotsNesting, ih]
      | some value =>
          rw [Record.slotsNesting, Nat.max_le, ih]
          simp

theorem Record.nesting_withTransaction (record : Record) (transaction : Option UInt32) :
    Record.nesting { record with transaction := transaction } = record.nesting := by
  obtain ⟨number, id, slots, own⟩ := record
  rfl

theorem Record.nesting_le_iff {record : Record} {levels : Nat} :
    record.nesting ≤ levels ↔ ∀ held, some held ∈ record.slots → held.nesting ≤ levels := by
  obtain ⟨number, id, slots, transaction⟩ := record
  rw [Record.nesting, Record.slotsNesting_le_iff]

/-! ## What can be read back

Readings go down to a limited number of levels. -/

/-- A value that is read back from its image if as many levels are left. -/
structure Value.Travels (schema : Schema) (levels : Nat) (type : FieldType) (value : Value) :
    Prop extends Value.Suits schema type value where
  bounded : value.Bounded
  nesting_le : value.nesting ≤ levels

/-- A record that is read back from its image if as many levels are left below it. -/
structure Record.Travels (schema : Schema) (levels : Nat) (record : Record) : Prop where
  typed : record.WellTyped schema
  bounded : record.Bounded
  nesting_le : record.nesting ≤ levels

section Travels

variable {schema : Schema} {levels : Nat}

theorem Value.Travels.item {element : FieldType} {items : List Value}
    (htravels : (Value.array items).Travels schema levels (.array element)) :
    ∀ item ∈ items, item.Travels schema levels element := by
  intro item hitem
  have hnesting := htravels.nesting_le
  rw [Value.nesting, Value.itemsNesting_le_iff] at hnesting
  exact ⟨htravels.toSuits.item item hitem, htravels.bounded.item hitem, hnesting item hitem⟩

theorem Value.Travels.exists_record {id : ObjectId} {nested : Record}
    (htravels : (Value.record nested).Travels schema levels (.object id)) :
    ∃ below, levels = below + 1 ∧ nested.Travels schema below := by
  have hnesting := htravels.nesting_le
  rw [Value.nesting] at hnesting
  obtain ⟨below, rfl⟩ := Nat.exists_eq_add_of_le' (Nat.le_trans (Nat.le_add_left 1 _) hnesting)
  exact ⟨below, rfl, htravels.typed, htravels.bounded, Nat.le_of_succ_le_succ hnesting⟩

theorem Record.Travels.slots {record : Record} (htravels : record.Travels schema levels) :
    List.Forall₂ (Field.SlotHolds (Value.Travels schema levels)) (record.typeIn schema).fields
      record.slots := by
  have hnesting := Record.nesting_le_iff.mp htravels.nesting_le
  refine (forall₂_slotHolds htravels.typed.self.slots fun held hheld =>
    And.intro (htravels.typed.slot hheld)
      (And.intro (htravels.bounded.slot hheld) (hnesting held hheld))).imp ?_
  intro field slot hslot value hvalue
  obtain ⟨⟨hadmits, hwhole⟩, hinner, hbounded, hlevels⟩ := hslot value hvalue
  exact ⟨⟨hadmits, hwhole, hinner⟩, hbounded, hlevels⟩

theorem Record.Travels.withTransaction {record : Record} (htravels : record.Travels schema levels)
    (transaction : Option UInt32) :
    Record.Travels schema levels { record with transaction := transaction } := by
  refine ⟨htravels.typed.withTransaction transaction,
    htravels.bounded.withTransaction transaction, ?_⟩
  rw [Record.nesting_withTransaction]
  exact htravels.nesting_le

end Travels

/-! ## What travels -/

mutual

/-- A record as it arrives: byte fields have exactly their length. -/
def Record.carried (schema : Schema) : Record → Record
  | ⟨number, id, slots, transaction⟩ =>
    ⟨number, id, Record.carriedSlots schema (schema.graph.object id).fields slots, transaction⟩

def Record.carriedSlots (schema : Schema) (fields : List Field) :
    List (Option Value) → List (Option Value)
  | [] => []
  | some value :: rest =>
    match fields with
    | [] => some value :: rest
    | field :: fields =>
      some (Value.carried schema field.type value) :: Record.carriedSlots schema fields rest
  | none :: rest =>
    match fields with
    | [] => none :: rest
    | _ :: fields => none :: Record.carriedSlots schema fields rest

/-- A value of a type as it arrives.  Records in it arrive without a transaction id. -/
def Value.carried (schema : Schema) (type : FieldType) (value : Value) : Value :=
  match type, value with
  | .binary length, .binary bytes => .binary (Writer.fitted bytes length)
  | .object _, .record nested => .record { nested.carried schema with transaction := none }
  | .array element, .array items => .array (Value.carriedItems schema element items)
  | _, value => value

def Value.carriedItems (schema : Schema) (element : FieldType) : List Value → List Value
  | [] => []
  | item :: rest =>
    Value.carried schema element item :: Value.carriedItems schema element rest

end

theorem Record.carried_withTransaction (schema : Schema) (record : Record)
    (transaction : Option UInt32) :
    Record.carried schema { record with transaction := transaction } =
      { record.carried schema with transaction := transaction } := by
  obtain ⟨number, id, slots, own⟩ := record
  rfl

/-- A value arrives in every slot that is filled, and only there. -/
theorem Record.map_isSome_carriedSlots (schema : Schema) (fields : List Field)
    (slots : List (Option Value)) :
    (Record.carriedSlots schema fields slots).map Option.isSome = slots.map Option.isSome := by
  induction slots generalizing fields with
  | nil => rw [Record.carriedSlots]
  | cons slot rest ih =>
      cases fields with
      | nil => cases slot <;> rw [Record.carriedSlots]
      | cons field fields =>
          cases slot with
          | none => rw [Record.carriedSlots, List.map_cons, List.map_cons, ih]
          | some value =>
              rw [Record.carriedSlots, List.map_cons, List.map_cons, ih]
              rfl

theorem Record.map_isSome_carried (schema : Schema) (record : Record) :
    (record.carried schema).slots.map Option.isSome = record.slots.map Option.isSome := by
  obtain ⟨number, id, slots, own⟩ := record
  exact Record.map_isSome_carriedSlots schema _ slots

end WireSchema
