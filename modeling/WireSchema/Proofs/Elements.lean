import WireSchema.Proofs.Interruption
import WireSchema.Proofs.Unpacking

/-!
# How many elements are read

An array says how many elements it has, in four bytes, and the count is taken as it stands.  What
keeps the elements few is that most of them take up bytes of their own.  Those that take up none
are byte fields of length zero, and objects with neither a kind tag nor presence bits whose values
take up none either; of these an array may have as many as its count says.
-/

namespace WireSchema

open Reading (Yields)

variable {schema : Schema} {levels : Nat}

/-! ## Elements -/

mutual

/-- The elements of all arrays in a value, at every level. -/
def Value.elements : Value → List Value
  | .array items => items ++ Value.itemsElements items
  | .record record => record.elements
  | _ => []

def Value.itemsElements : List Value → List Value
  | [] => []
  | item :: rest => item.elements ++ Value.itemsElements rest

def Record.elements : Record → List Value
  | ⟨_, _, slots, _⟩ => Record.slotsElements slots

def Record.slotsElements : List (Option Value) → List Value
  | [] => []
  | some value :: rest => value.elements ++ Record.slotsElements rest
  | none :: rest => Record.slotsElements rest

end

mutual

/-- Whether a value takes up any bytes. -/
def Value.isSolid (schema : Schema) : Value → Bool
  | .binary bytes => !bytes.isEmpty
  | .record record => record.isSolid schema
  | _ => true

def Record.isSolid (schema : Schema) : Record → Bool
  | ⟨_, id, slots, _⟩ =>
    (schema.graph.object id).overhead != 0 || Record.anySolid schema slots

def Record.anySolid (schema : Schema) : List (Option Value) → Bool
  | [] => false
  | some value :: rest => value.isSolid schema || Record.anySolid schema rest
  | none :: rest => Record.anySolid schema rest

end

theorem Value.elements_of_isScalar {value : Value} (hscalar : value.IsScalar) :
    value.elements = [] := by
  cases value
  case array => cases hscalar
  case record => cases hscalar
  all_goals rw [Value.elements]
  all_goals intros; contradiction

theorem Record.elements_eq (record : Record) :
    record.elements = Record.slotsElements record.slots := by
  obtain ⟨number, id, slots, transaction⟩ := record
  rw [Record.elements]

/-! ## Values that arrived -/

/-- A value as bytes leave it: it suits its type, it lacks nothing, and its byte fields have exactly
their length. -/
structure Value.Arrived (schema : Schema) (type : FieldType) (value : Value) : Prop
    extends Value.Suits schema type value where
  complete : value.Complete schema
  carried_eq : Value.carried schema type value = value

structure Record.Arrived (schema : Schema) (record : Record) : Prop where
  typed : record.WellTyped schema
  complete : record.Complete schema
  carried_eq : record.carried schema = record

theorem Value.Settled.arrived {type : FieldType} {value : Value} {size : Nat}
    (hsettled : value.Settled schema levels type size) : value.Arrived schema type :=
  ⟨hsettled.toSuits, hsettled.complete, hsettled.carried_eq⟩

theorem Value.carried_eq_of_mem {element : FieldType} {items : List Value}
    (hcarried : Value.carriedItems schema element items = items) :
    ∀ item ∈ items, Value.carried schema element item = item := by
  induction items with
  | nil => exact fun item hitem => absurd hitem List.not_mem_nil
  | cons first rest ih =>
      rw [Value.carriedItems, List.cons.injEq] at hcarried
      exact List.forall_mem_cons.mpr ⟨hcarried.1, ih hcarried.2⟩

theorem Value.Arrived.item {element : FieldType} {items : List Value}
    (harrived : (Value.array items).Arrived schema (.array element)) :
    ∀ item ∈ items, item.Arrived schema element := by
  intro item hitem
  have hcarried := harrived.carried_eq
  rw [Value.carried, Value.array.injEq] at hcarried
  have hitemCarried := Value.carried_eq_of_mem hcarried item hitem
  exact ⟨harrived.toSuits.item item hitem, harrived.complete.item hitem, hitemCarried⟩

theorem Value.Arrived.record {id : ObjectId} {nested : Record}
    (harrived : (Value.record nested).Arrived schema (.object id)) : nested.Arrived schema := by
  have hcarried := harrived.carried_eq
  rw [Value.carried, Value.record.injEq] at hcarried
  refine ⟨harrived.typed, harrived.complete, ?_⟩
  obtain ⟨number, concrete, slots, transaction⟩ := nested
  rw [Record.carried, Record.mk.injEq] at hcarried
  have hslots : Record.carriedSlots schema (schema.graph.object concrete).fields slots = slots :=
    hcarried.2.2.1
  rw [Record.carried, hslots]

theorem Record.forall₂_arrived {fields : List Field} {slots : List (Option Value)}
    (hsuits : List.Forall₂ (Field.SlotHolds (Value.Suits schema)) fields slots)
    (hcomplete : ∀ held, some held ∈ slots → held.Complete schema)
    (hcarried : Record.carriedSlots schema fields slots = slots) :
    List.Forall₂ (Field.SlotHolds (Value.Arrived schema)) fields slots := by
  induction hsuits with
  | nil => exact .nil
  | @cons field slot fields rest hslot hrest ih =>
      have hcompleteRest : ∀ held, some held ∈ rest → held.Complete schema :=
        fun held hheld => hcomplete held (List.mem_cons_of_mem _ hheld)
      cases slot with
      | none =>
          rw [Record.carriedSlots, List.cons.injEq] at hcarried
          refine .cons ?_ (ih hcompleteRest hcarried.2)
          intro value hvalue
          cases hvalue
      | some held =>
          rw [Record.carriedSlots, List.cons.injEq, Option.some.injEq] at hcarried
          refine .cons ?_ (ih hcompleteRest hcarried.2)
          intro value hvalue
          cases hvalue
          exact ⟨hslot held rfl, hcomplete held List.mem_cons_self, hcarried.1⟩

theorem Record.Arrived.slots {record : Record} (harrived : record.Arrived schema) :
    List.Forall₂ (Field.SlotHolds (Value.Arrived schema)) (record.typeIn schema).fields
      record.slots := by
  have hcarried := harrived.carried_eq
  have hsuits := harrived.typed.suits
  have hcomplete : ∀ held, some held ∈ record.slots → held.Complete schema :=
    fun held hheld => Value.Throughout.slot harrived.complete hheld
  obtain ⟨number, id, slots, transaction⟩ := record
  rw [Record.carried, Record.mk.injEq] at hcarried
  exact Record.forall₂_arrived hsuits hcomplete hcarried.2.2.1

theorem Record.exists_slotsImage (hgraph : schema.graph.Coherent) {record : Record}
    {Accepts : Field → Option Value → Prop} {data : List UInt8}
    (hslots : List.Forall₂ Accepts (record.typeIn schema).fields record.slots)
    (hdata : record.image schema = .ok data) :
    ∃ body, Record.slotsImage schema (record.typeIn schema).name (record.typeIn schema).fields
        record.slots = .ok body ∧
      data.length = (record.typeIn schema).overhead + body.length := by
  obtain ⟨header, body, hheader, hbody, rfl⟩ := Record.exists_image_parts hdata
  have hheaderSize := ObjectType.length_headerImage hgraph record.type record.transaction
  have hflags := ObjectType.length_flagBytes hgraph record.type hslots
  have hkindTag := (record.typeIn schema).length_kindTagBytes
  rw [Record.typeIn] at hheader hkindTag ⊢
  rw [hheader, Image.length_ok, Except.ok.injEq] at hheaderSize
  refine ⟨body, hbody, ?_⟩
  rw [List.length_append, List.length_append, List.length_append, hheaderSize, hkindTag, hflags,
    ObjectType.overhead]
  omega

/-! ## Elements that take up bytes

The induction is on the value.  A value makes room for the solid elements of its arrays, and for
itself besides if it is solid, so that the elements of an array can be counted with what they
contain. -/

theorem Value.count_elements_scalar {value : Value} {size : Nat} (hscalar : value.IsScalar)
    (hsize : 1 ≤ size) :
    value.elements.countP (Value.isSolid schema) + (value.isSolid schema).toNat ≤ size := by
  have hself := Bool.toNat_le (value.isSolid schema)
  rw [Value.elements_of_isScalar hscalar, List.countP_nil]
  omega

mutual

theorem Value.count_elements_le (hgraph : schema.graph.Coherent) (owner : String) (field : Field)
    (type : FieldType) (value : Value) (data : List UInt8) (harrived : value.Arrived schema type)
    (hdata : Value.image schema owner field type value = .ok data) :
    value.elements.countP (Value.isSolid schema) + (value.isSolid schema).toNat ≤
      data.length := by
  cases type with
  | primitive kind =>
      have hscalar := (Primitive.isScalar_of_admits harrived.admits).1
      obtain ⟨code, hcode⟩ := Primitive.isSome_code?_of_admits harrived.admits
      rw [Value.image, hcode] at hdata
      cases hdata
      have hwidth : 1 ≤ kind.size := by cases kind <;> decide
      rw [Wire.length_bigEndian]
      exact Value.count_elements_scalar hscalar hwidth
  | text =>
      cases value
      case text words =>
        rw [Value.image] at hdata
        cases hdata
        refine Value.count_elements_scalar trivial ?_
        rw [List.length_append, Wire.length_bigEndian]
        omega
      all_goals cases harrived.admits
  | binary length =>
      cases value
      case binary bytes =>
        have hfitted := harrived.carried_eq
        rw [Value.carried, Value.binary.injEq] at hfitted
        rw [Value.image, hfitted] at hdata
        cases hdata
        have hnone : (Value.binary data).elements = [] := Value.elements_of_isScalar trivial
        rw [hnone, List.countP_nil, Value.isSolid]
        cases data with
        | nil => simp
        | cons first rest => simp
      all_goals cases harrived.admits
  | enum id =>
      cases value
      case ordinal ordinal =>
        rw [Value.image] at hdata
        cases hdata
        exact Value.count_elements_scalar trivial (Nat.le_of_eq (Wire.length_bigEndian 1 _).symm)
      all_goals cases harrived.admits
  | object id =>
      cases value
      case record nested =>
        rw [Value.image] at hdata
        rw [Value.elements, Value.isSolid]
        exact Record.count_elements_le hgraph nested data harrived.record hdata
      all_goals cases harrived.admits
  | array element =>
      cases value
      case array items =>
        rw [Value.image] at hdata
        obtain ⟨count, behind, hcount, hitems, rfl⟩ := Image.join_eq_ok hdata
        cases hcount
        have hinner := Value.count_itemsElements_le hgraph owner field element items behind
          harrived.item hitems
        -- The four bytes of the count are room for the array itself.
        have hself := Bool.toNat_le ((Value.array items).isSolid schema)
        rw [Value.elements, List.countP_append, List.length_append, Wire.length_bigEndian]
        omega
      all_goals cases harrived.admits

theorem Value.count_itemsElements_le (hgraph : schema.graph.Coherent) (owner : String)
    (field : Field) (element : FieldType) (items : List Value) (data : List UInt8)
    (harrived : ∀ item ∈ items, item.Arrived schema element)
    (hdata : Value.itemsImage schema owner field element items = .ok data) :
    items.countP (Value.isSolid schema) +
      (Value.itemsElements items).countP (Value.isSolid schema) ≤ data.length := by
  match items with
  | [] => exact Nat.zero_le _
  | item :: rest =>
      rw [Value.itemsImage] at hdata
      obtain ⟨front, back, hfront, hback, rfl⟩ := Image.join_eq_ok hdata
      obtain ⟨hhead, htail⟩ := List.forall_mem_cons.mp harrived
      have hitem := Value.count_elements_le hgraph owner field element item front hhead hfront
      have hrest := Value.count_itemsElements_le hgraph owner field element rest back htail hback
      rw [Value.itemsElements, List.countP_append, List.countP_cons, List.length_append]
      cases hsolid : item.isSolid schema with
      | false =>
          rw [if_neg Bool.false_ne_true]
          omega
      | true =>
          rw [hsolid, Bool.toNat_true] at hitem
          rw [if_pos rfl]
          omega

theorem Record.count_slotsElements_le (hgraph : schema.graph.Coherent) (owner : String)
    (fields : List Field) (slots : List (Option Value)) (data : List UInt8)
    (hslots : List.Forall₂ (Field.SlotHolds (Value.Arrived schema)) fields slots)
    (hdata : Record.slotsImage schema owner fields slots = .ok data) :
    (Record.slotsElements slots).countP (Value.isSolid schema) +
      (Record.anySolid schema slots).toNat ≤ data.length := by
  match slots, fields, hslots with
  | [], [], .nil =>
      rw [Record.slotsElements, Record.anySolid]
      exact Nat.zero_le _
  | some value :: rest, field :: fields, .cons hslot hrest =>
      rw [Record.slotsImage] at hdata
      obtain ⟨front, back, hfront, hback, rfl⟩ := Image.join_eq_ok hdata
      have hvalue := Value.count_elements_le hgraph owner field field.type value front
        (hslot value rfl) hfront
      have hmore := Record.count_slotsElements_le hgraph owner fields rest back hrest hback
      rw [Record.slotsElements, Record.anySolid, List.countP_append, List.length_append]
      have hself : (value.isSolid schema || Record.anySolid schema rest).toNat ≤
          (value.isSolid schema).toNat + (Record.anySolid schema rest).toNat := by
        cases value.isSolid schema <;> cases Record.anySolid schema rest <;> decide
      omega
  | none :: rest, field :: fields, .cons hslot hrest =>
      rw [Record.slotsImage] at hdata
      split at hdata
      · have hmore := Record.count_slotsElements_le hgraph owner fields rest data hrest hdata
        rw [Record.slotsElements, Record.anySolid]
        exact hmore
      · cases hdata

theorem Record.count_elements_le (hgraph : schema.graph.Coherent) (record : Record)
    (data : List UInt8) (harrived : record.Arrived schema)
    (hdata : record.image schema = .ok data) :
    record.elements.countP (Value.isSolid schema) + (record.isSolid schema).toNat ≤
      data.length := by
  match record with
  | ⟨number, id, slots, transaction⟩ =>
    obtain ⟨body, hbody, hlength⟩ := Record.exists_slotsImage hgraph harrived.slots hdata
    change data.length = (schema.graph.object id).overhead + body.length at hlength
    have hslots := Record.count_slotsElements_le hgraph (schema.graph.object id).name
      (schema.graph.object id).fields slots body harrived.slots hbody
    have hself : ((schema.graph.object id).overhead != 0 || Record.anySolid schema slots).toNat ≤
        (schema.graph.object id).overhead + (Record.anySolid schema slots).toNat := by
      cases (schema.graph.object id).overhead <;> cases Record.anySolid schema slots <;> simp
    rw [Record.elements, Record.isSolid, hlength]
    omega

end

/-! ## All elements

Every array takes the four bytes of its count, and the count is a number of four bytes. -/

mutual

theorem Value.length_elements_le (owner : String) (field : Field) (type : FieldType)
    (value : Value) (data : List UInt8) (hsuits : value.Suits schema type)
    (hbounded : value.Bounded) (hdata : Value.image schema owner field type value = .ok data) :
    4 * value.elements.length ≤ (Writer.lengthBound - 1) * data.length := by
  match value with
  | .array items =>
      obtain ⟨element, rfl⟩ := Schema.exists_array_of_admits hsuits.admits
      have hshort : items.length < Writer.lengthBound := hbounded.self
      rw [Value.image] at hdata
      obtain ⟨count, behind, hcount, hitems, rfl⟩ := Image.join_eq_ok hdata
      cases hcount
      have hinner := Value.length_itemsElements_le owner field element items behind hsuits.item
        (fun item hitem => hbounded.item hitem) hitems
      rw [Value.elements, List.length_append, List.length_append, Wire.length_bigEndian]
      rw [Writer.lengthBound] at hshort hinner ⊢
      omega
  | .record nested =>
      obtain ⟨id, rfl, -, -⟩ := Schema.exists_object_of_admits hsuits.admits
      rw [Value.image] at hdata
      rw [Value.elements]
      exact Record.length_elements_le nested data hsuits.typed hbounded hdata
  | .bool _ | .int8 _ | .uint8 _ | .int16 _ | .uint16 _ | .int32 _ | .uint32 _ | .int64 _
  | .uint64 _ | .float _ | .double _ | .datetime _ | .text _ | .ordinal _ | .binary _ =>
      exact Nat.zero_le _

theorem Value.length_itemsElements_le (owner : String) (field : Field) (element : FieldType)
    (items : List Value) (data : List UInt8) (hsuits : ∀ item ∈ items, item.Suits schema element)
    (hbounded : ∀ item ∈ items, item.Bounded)
    (hdata : Value.itemsImage schema owner field element items = .ok data) :
    4 * (Value.itemsElements items).length ≤ (Writer.lengthBound - 1) * data.length := by
  match items with
  | [] => exact Nat.zero_le _
  | item :: rest =>
      rw [Value.itemsImage] at hdata
      obtain ⟨front, back, hfront, hback, rfl⟩ := Image.join_eq_ok hdata
      obtain ⟨hsuitsItem, hsuitsRest⟩ := List.forall_mem_cons.mp hsuits
      obtain ⟨hboundedItem, hboundedRest⟩ := List.forall_mem_cons.mp hbounded
      have hitem := Value.length_elements_le owner field element item front hsuitsItem
        hboundedItem hfront
      have hrest := Value.length_itemsElements_le owner field element rest back hsuitsRest
        hboundedRest hback
      rw [Value.itemsElements, List.length_append, List.length_append, Nat.mul_add, Nat.mul_add]
      exact Nat.add_le_add hitem hrest

theorem Record.length_slotsElements_le (owner : String) (fields : List Field)
    (slots : List (Option Value)) (data : List UInt8)
    (hsuits : List.Forall₂ (Field.SlotHolds (Value.Suits schema)) fields slots)
    (hbounded : ∀ held, some held ∈ slots → held.Bounded)
    (hdata : Record.slotsImage schema owner fields slots = .ok data) :
    4 * (Record.slotsElements slots).length ≤ (Writer.lengthBound - 1) * data.length := by
  match slots, fields, hsuits with
  | [], [], .nil => exact Nat.zero_le _
  | some value :: rest, field :: fields, .cons hslot hrest =>
      rw [Record.slotsImage] at hdata
      obtain ⟨front, back, hfront, hback, rfl⟩ := Image.join_eq_ok hdata
      have hvalue := Value.length_elements_le owner field field.type value front (hslot value rfl)
        (hbounded value List.mem_cons_self) hfront
      have hmore := Record.length_slotsElements_le owner fields rest back hrest
        (fun held hheld => hbounded held (List.mem_cons_of_mem _ hheld)) hback
      rw [Record.slotsElements, List.length_append, List.length_append, Nat.mul_add, Nat.mul_add]
      exact Nat.add_le_add hvalue hmore
  | none :: rest, field :: fields, .cons hslot hrest =>
      rw [Record.slotsImage] at hdata
      split at hdata
      · rw [Record.slotsElements]
        exact Record.length_slotsElements_le owner fields rest data hrest
          (fun held hheld => hbounded held (List.mem_cons_of_mem _ hheld)) hdata
      · cases hdata

theorem Record.length_elements_le (record : Record) (data : List UInt8)
    (htyped : record.WellTyped schema) (hbounded : record.Bounded)
    (hdata : record.image schema = .ok data) :
    4 * record.elements.length ≤ (Writer.lengthBound - 1) * data.length := by
  match record with
  | ⟨number, id, slots, transaction⟩ =>
    obtain ⟨header, body, hheader, hbody, rfl⟩ := Record.exists_image_parts hdata
    have hslots := Record.length_slotsElements_le (schema.graph.object id).name
      (schema.graph.object id).fields slots body htyped.suits
      (fun held hheld => Value.Throughout.slot hbounded hheld) hbody
    rw [Record.elements]
    refine Nat.le_trans hslots (Nat.mul_le_mul_left _ ?_)
    simp only [List.length_append]
    omega

end

/-! ## Types of elements -/

/-- The types of elements in the arrays of a type, at every level. -/
def FieldType.elements : FieldType → List FieldType
  | .array element => element :: element.elements
  | _ => []

/-- An array in some field has elements of the type. -/
def Graph.HasElement (graph : Graph) (element : FieldType) : Prop :=
  ∃ id, ∃ field ∈ (graph.object id).fields, element ∈ field.type.elements

/-- A type that has values without bytes: byte fields of length zero, and objects that are nothing
but such values. -/
inductive Graph.Weightless (graph : Graph) : FieldType → Prop where
  | binary : Weightless graph (.binary 0)
  | object {id : ObjectId} (hbare : (graph.object id).overhead = 0)
      (hfields : ∀ field ∈ (graph.object id).fields, Weightless graph field.type) :
      Weightless graph (.object id)

namespace ObjectType

variable {type : ObjectType}

theorem not_hasKindTag_of_bare (hbare : type.overhead = 0) : type.layout.hasKindTag = false := by
  cases htag : type.layout.hasKindTag with
  | false => rfl
  | true =>
      rw [overhead, htag, if_pos rfl, kindTagSize] at hbare
      omega

end ObjectType

theorem Graph.Coherent.required_of_bare (hgraph : schema.graph.Coherent) {id : ObjectId}
    (hbare : (schema.graph.object id).overhead = 0) :
    ∀ field ∈ (schema.graph.object id).fields, field.isOptional = false := by
  intro field hfield
  have hflags : (schema.graph.object id).layout.flagBytes = 0 := by
    rw [ObjectType.overhead] at hbare
    omega
  rw [hgraph.flagBytes_eq, flagBytes] at hflags
  have hnone : (schema.graph.object id).fields.countP (·.isOptional) = 0 := by omega
  rw [List.countP_eq_zero] at hnone
  exact Bool.eq_false_iff.mpr (hnone field hfield)

mutual

/-- A value without bytes is of a type that has such values. -/
theorem Value.weightless (hgraph : schema.graph.Coherent) (type : FieldType) (value : Value)
    (harrived : value.Arrived schema type) (hhollow : value.isSolid schema = false) :
    schema.graph.Weightless type := by
  match value with
  | .binary bytes =>
      obtain ⟨length, rfl⟩ := Schema.exists_binary_of_admits harrived.admits
      have hfitted := harrived.carried_eq
      rw [Value.carried, Value.binary.injEq] at hfitted
      have hlength := Writer.length_fitted bytes length
      rw [Value.isSolid, Bool.not_eq_false', List.isEmpty_iff] at hhollow
      rw [hfitted, hhollow] at hlength
      rw [← hlength]
      exact .binary
  | .record nested =>
      obtain ⟨id, rfl, -, hisA⟩ := Schema.exists_object_of_admits harrived.admits
      obtain ⟨hbare, hfields⟩ := Record.weightless hgraph nested harrived.record hhollow
      -- Without a kind tag no other type stands in its place.
      have htag := ObjectType.not_hasKindTag_of_bare hbare
      have hsame : nested.type = id := by
        rw [Record.typeIn, hgraph.hasKindTag_of_isA hisA] at htag
        exact hgraph.eq_of_isA nested.type id hisA htag
      rw [← hsame]
      exact .object hbare hfields
  | .bool _ | .int8 _ | .uint8 _ | .int16 _ | .uint16 _ | .int32 _ | .uint32 _ | .int64 _
  | .uint64 _ | .float _ | .double _ | .datetime _ | .text _ | .ordinal _ | .array _ =>
      cases hhollow

theorem Record.weightless (hgraph : schema.graph.Coherent) (record : Record)
    (harrived : record.Arrived schema) (hhollow : record.isSolid schema = false) :
    (record.typeIn schema).overhead = 0 ∧
      ∀ field ∈ (record.typeIn schema).fields, schema.graph.Weightless field.type := by
  match record with
  | ⟨number, id, slots, transaction⟩ =>
    rw [Record.isSolid, Bool.or_eq_false_iff] at hhollow
    have hbare : (schema.graph.object id).overhead = 0 := by simpa using hhollow.1
    have hcomplete := (Record.complete_iff _).mp harrived.complete
    have hfields := Record.weightless_slots hgraph (schema.graph.object id).fields slots
      harrived.slots hcomplete (hgraph.required_of_bare hbare) hhollow.2
    exact ⟨hbare, hfields⟩

theorem Record.weightless_slots (hgraph : schema.graph.Coherent) (fields : List Field)
    (slots : List (Option Value))
    (harrived : List.Forall₂ (Field.SlotHolds (Value.Arrived schema)) fields slots)
    (hcomplete : Record.SlotsComplete schema fields slots)
    (hrequired : ∀ field ∈ fields, field.isOptional = false)
    (hhollow : Record.anySolid schema slots = false) :
    ∀ field ∈ fields, schema.graph.Weightless field.type := by
  match slots, fields, harrived with
  | [], [], .nil => exact fun field hfield => absurd hfield List.not_mem_nil
  | some value :: rest, field :: fields, .cons hslot hrest =>
      rw [Record.anySolid, Bool.or_eq_false_iff] at hhollow
      have hmore := (Record.slotsComplete_some.mp hcomplete).2
      have hvalue := Value.weightless hgraph field.type value (hslot value rfl) hhollow.1
      have hfields := Record.weightless_slots hgraph fields rest hrest hmore
        (List.forall_mem_cons.mp hrequired).2 hhollow.2
      exact List.forall_mem_cons.mpr ⟨hvalue, hfields⟩
  | none :: rest, field :: fields, .cons hslot hrest =>
      have hoptional := (Record.slotsComplete_none.mp hcomplete).1
      have hfield := (List.forall_mem_cons.mp hrequired).1
      rw [hoptional] at hfield
      cases hfield

end

mutual

/-- The elements in a value are of types that the schema has arrays of. -/
theorem Value.exists_element (type : FieldType) (value : Value)
    (harrived : value.Arrived schema type) :
    ∀ item ∈ value.elements, ∃ element, item.Arrived schema element ∧
      (element ∈ type.elements ∨ schema.graph.HasElement element) := by
  match value with
  | .array items =>
      obtain ⟨element, rfl⟩ := Schema.exists_array_of_admits harrived.admits
      intro item hitem
      rw [Value.elements] at hitem
      rcases List.mem_append.mp hitem with hitem | hitem
      · exact ⟨element, harrived.item item hitem, .inl List.mem_cons_self⟩
      · obtain ⟨inner, hinner, hplace⟩ :=
          Value.exists_element_of_items element items harrived.item item hitem
        exact ⟨inner, hinner, hplace.imp_left (List.mem_cons_of_mem _)⟩
  | .record nested =>
      obtain ⟨id, rfl, -, -⟩ := Schema.exists_object_of_admits harrived.admits
      intro item hitem
      rw [Value.elements] at hitem
      obtain ⟨element, helement, hplace⟩ :=
        Record.exists_element nested harrived.record item hitem
      exact ⟨element, helement, .inr hplace⟩
  | .bool _ | .int8 _ | .uint8 _ | .int16 _ | .uint16 _ | .int32 _ | .uint32 _ | .int64 _
  | .uint64 _ | .float _ | .double _ | .datetime _ | .text _ | .ordinal _ | .binary _ =>
      exact fun item hitem => absurd hitem List.not_mem_nil

theorem Value.exists_element_of_items (type : FieldType) (items : List Value)
    (harrived : ∀ item ∈ items, item.Arrived schema type) :
    ∀ item ∈ Value.itemsElements items, ∃ element, item.Arrived schema element ∧
      (element ∈ type.elements ∨ schema.graph.HasElement element) := by
  match items with
  | [] => exact fun item hitem => absurd hitem List.not_mem_nil
  | first :: rest =>
      obtain ⟨hfirst, hrest⟩ := List.forall_mem_cons.mp harrived
      intro item hitem
      rw [Value.itemsElements] at hitem
      rcases List.mem_append.mp hitem with hitem | hitem
      · exact Value.exists_element type first hfirst item hitem
      · exact Value.exists_element_of_items type rest hrest item hitem

theorem Record.exists_element (record : Record) (harrived : record.Arrived schema) :
    ∀ item ∈ record.elements, ∃ element, item.Arrived schema element ∧
      schema.graph.HasElement element := by
  match record with
  | ⟨number, id, slots, transaction⟩ =>
    have hfields : ∀ field ∈ (schema.graph.object id).fields, ∀ element ∈ field.type.elements,
        schema.graph.HasElement element :=
      fun field hfield element helement => ⟨id, field, hfield, helement⟩
    exact Record.exists_element_of_slots (schema.graph.object id).fields slots harrived.slots
      hfields

theorem Record.exists_element_of_slots (fields : List Field) (slots : List (Option Value))
    (harrived : List.Forall₂ (Field.SlotHolds (Value.Arrived schema)) fields slots)
    (hfields : ∀ field ∈ fields, ∀ element ∈ field.type.elements,
      schema.graph.HasElement element) :
    ∀ item ∈ Record.slotsElements slots, ∃ element, item.Arrived schema element ∧
      schema.graph.HasElement element := by
  match slots, fields, harrived with
  | [], [], .nil => exact fun item hitem => absurd hitem List.not_mem_nil
  | some value :: rest, field :: fields, .cons hslot hrest =>
      obtain ⟨hfield, hmore⟩ := List.forall_mem_cons.mp hfields
      intro item hitem
      rw [Record.slotsElements] at hitem
      rcases List.mem_append.mp hitem with hitem | hitem
      · obtain ⟨element, helement, hplace⟩ :=
          Value.exists_element field.type value (hslot value rfl) item hitem
        exact ⟨element, helement, hplace.elim (hfield element) id⟩
      · exact Record.exists_element_of_slots fields rest hrest hmore item hitem
  | none :: rest, field :: fields, .cons hslot hrest =>
      intro item hitem
      rw [Record.slotsElements] at hitem
      exact Record.exists_element_of_slots fields rest hrest (List.forall_mem_cons.mp hfields).2
        item hitem

end

/-! ## Values without bytes -/

theorem Record.slotsImage_of_weightless {owner : String} {fields : List Field}
    {slots : List (Option Value)} {data : List UInt8}
    (hslots : List.Forall₂ (Field.SlotHolds (Value.Arrived schema)) fields slots)
    (hempty : ∀ field ∈ fields, ∀ value owner named data, value.Arrived schema field.type →
      Value.image schema owner named field.type value = .ok data → data = [])
    (hdata : Record.slotsImage schema owner fields slots = .ok data) : data = [] := by
  induction hslots generalizing data with
  | nil =>
      rw [Record.slotsImage] at hdata
      cases hdata
      rfl
  | @cons field slot fields rest hslot hrest ih =>
      obtain ⟨hfield, hmore⟩ := List.forall_mem_cons.mp hempty
      cases slot with
      | none =>
          rw [Record.slotsImage] at hdata
          split at hdata
          · exact ih hmore hdata
          · cases hdata
      | some held =>
          rw [Record.slotsImage] at hdata
          obtain ⟨front, back, hfront, hback, rfl⟩ := Image.join_eq_ok hdata
          rw [hfield held owner field front (hslot held rfl) hfront, ih hmore hback,
            List.nil_append]

theorem Graph.Weightless.image_eq (hgraph : schema.graph.Coherent) {type : FieldType}
    (hweightless : schema.graph.Weightless type) :
    ∀ value owner field data, value.Arrived schema type →
      Value.image schema owner field type value = .ok data → data = [] := by
  induction hweightless with
  | binary =>
      intro value owner field data harrived hdata
      cases value
      case binary bytes =>
        rw [Value.image] at hdata
        cases hdata
        exact List.length_eq_zero_iff.mp (Writer.length_fitted bytes 0)
      all_goals cases harrived.admits
  | @object id hbare hfields ih =>
      intro value owner field data harrived hdata
      cases value
      case record nested =>
        have hnested := harrived.record
        have hisA := (Bool.and_eq_true_iff.mp harrived.admits).2
        have htag := ObjectType.not_hasKindTag_of_bare hbare
        rw [hgraph.hasKindTag_eq] at htag
        have hsame : nested.type = id := hgraph.eq_of_isA nested.type id hisA htag
        rw [Value.image] at hdata
        obtain ⟨body, hbody, hlength⟩ := Record.exists_slotsImage hgraph hnested.slots hdata
        have hslots := hnested.slots
        rw [Record.typeIn, hsame] at hbody hlength hslots
        have hbodyEmpty := Record.slotsImage_of_weightless hslots ih hbody
        rw [hbare, hbodyEmpty] at hlength
        exact List.length_eq_zero_iff.mp hlength
      all_goals cases harrived.admits

/-- A value is solid if its encoding has any bytes. -/
theorem Value.isSolid_iff (hgraph : schema.graph.Coherent) {owner : String} {field : Field}
    {type : FieldType} {value : Value} {data : List UInt8} (harrived : value.Arrived schema type)
    (hdata : Value.image schema owner field type value = .ok data) :
    value.isSolid schema = true ↔ data ≠ [] := by
  constructor
  · intro hsolid hempty
    have hcount := Value.count_elements_le hgraph owner field type value data harrived hdata
    rw [hsolid, hempty, Bool.toNat_true, List.length_nil] at hcount
    omega
  · intro hdata'
    by_contra hhollow
    have hweightless := Value.weightless hgraph type value harrived (Bool.eq_false_iff.mpr hhollow)
    exact hdata' (hweightless.image_eq hgraph value owner field data harrived hdata)

/-- A value that arrived has an encoding, and the encoding tells whether the value is solid. -/
theorem Value.Arrived.exists_image (hgraph : schema.graph.Coherent) {type : FieldType}
    {value : Value} (harrived : value.Arrived schema type) (owner : String) (field : Field) :
    ∃ data, Value.image schema owner field type value = .ok data ∧
      (value.isSolid schema = true ↔ data ≠ []) := by
  have htells := Value.image_tells hgraph owner field type value harrived.toSuits
  obtain ⟨data, hdata⟩ := htells.exists_data harrived.complete
  exact ⟨data, hdata, Value.isSolid_iff hgraph harrived hdata⟩

/-! ## Decoded records -/

/-- Some bytes are decoded: they are read as an object of a declared type or as a payload, or they
are unpacked as a message. -/
inductive Schema.Decodes (schema : Schema) (bytes : List UInt8) (record : Record) : Prop where
  | object {declared : ObjectId} {left : Reader}
      (hrun : schema.decodeObject declared (Reader.of bytes) = .ok record left)
  | payload {left : Reader} (hrun : schema.decodePayload (Reader.of bytes) = .ok record left)
  | message {registry : Registry Payload}
      (hrun : (registry.tryUnpack bytes).result = .ok (some ⟨schema, record⟩))

theorem Schema.Decodes.exists_slotsSettled (hgraph : schema.graph.Coherent) {bytes : List UInt8}
    {record : Record} (hdecodes : schema.Decodes bytes record) :
    ∃ size ≤ bytes.length, Record.SlotsSettled schema (depthLimit - 1)
      (record.typeIn schema).fields record.slots size := by
  cases hdecodes with
  | object hrun =>
      obtain ⟨size, hsize, -, -, body, hbody, hslots⟩ :=
        (Schema.streams_readObject schema _ _).size_le
          (Schema.yields_decodeObject hgraph _) hrun
      exact ⟨body, Nat.le_trans hbody hsize, hslots⟩
  | payload hrun =>
      obtain ⟨size, hsize, -, -, body, hbody, hslots⟩ :=
        (Schema.streams_decodePayload schema).size_le
          (Schema.yields_slots_decodePayload hgraph) hrun
      exact ⟨body, Nat.le_trans hbody hsize, hslots⟩
  | message hrun =>
      obtain ⟨command, empty, left, -, hdecode⟩ := Registry.exists_decode_of_tryUnpack hrun
      rw [Payload.decode_eq] at hdecode
      obtain ⟨number, started⟩ := empty
      cases hstarted : started.decode number (Reader.of bytes) with
      | mk arrived outcome =>
          rw [hstarted] at hdecode
          cases hdecode
          obtain ⟨transaction, slots, size, hsize, rfl, hslots⟩ :=
            Record.slotsSettled_of_decode hgraph hstarted
          exact ⟨size, hsize, hslots⟩

theorem Record.SlotsSettled.forall₂_arrived {fields : List Field} {slots : List (Option Value)}
    {size : Nat} (hslots : Record.SlotsSettled schema levels fields slots size) :
    List.Forall₂ (Field.SlotHolds (Value.Arrived schema)) fields slots := by
  refine hslots.slotHolds.imp ?_
  intro field slot hslot value hvalue
  obtain ⟨width, hsettled⟩ := hslot value hvalue
  exact hsettled.arrived

/-- A decoded record has no more elements that take up bytes than there are bytes.  So where the
elements of all arrays in the schema take up bytes, it has no more elements at all.  Elsewhere
their number is bounded by the counts that the bytes have room for.  The elements that take up
bytes are those whose own encoding has any. -/
theorem Schema.Decodes.count_solid_le_length {documents : List Document}
    (hcompile : Graph.compile documents = .ok schema.graph) {bytes : List UInt8} {record : Record}
    (hdecodes : schema.Decodes bytes record) :
    record.elements.countP (Value.isSolid schema) ≤ bytes.length ∧
      ((∀ element, schema.graph.HasElement element → ¬ schema.graph.Weightless element) →
        record.elements.length ≤ bytes.length) ∧
      4 * record.elements.length ≤ (Writer.lengthBound - 1) * bytes.length ∧
      ∀ item ∈ record.elements, ∃ element, schema.graph.HasElement element ∧
        ∀ owner field, ∃ data, Value.image schema owner field element item = .ok data ∧
          (item.isSolid schema = true ↔ data ≠ []) := by
  have hgraph := Graph.coherent_of_compile hcompile
  obtain ⟨size, hsize, hslots⟩ := hdecodes.exists_slotsSettled hgraph
  have harrived := hslots.forall₂_arrived
  obtain ⟨body, hbody, hlength⟩ := hslots.exists_image (record.typeIn schema).name
  have hcount := Record.count_slotsElements_le hgraph _ _ _ body harrived hbody
  rw [Record.elements_eq]
  have hsolid : (Record.slotsElements record.slots).countP (Value.isSolid schema) ≤
      bytes.length := by omega
  have htotal := Record.length_slotsElements_le _ _ _ body
    (harrived.imp fun field slot hslot value hvalue => (hslot value hvalue).toSuits)
    hslots.bounded hbody
  have helements : ∀ item ∈ Record.slotsElements record.slots, ∃ element,
      item.Arrived schema element ∧ schema.graph.HasElement element :=
    Record.exists_element_of_slots _ _ harrived
      fun field hfield element helement => ⟨record.type, field, hfield, helement⟩
  refine ⟨hsolid, ?_, Nat.le_trans htotal (Nat.mul_le_mul_left _ (by omega)), ?_⟩
  · intro hheavy
    have hall : ∀ item ∈ Record.slotsElements record.slots, item.isSolid schema = true := by
      intro item hitem
      obtain ⟨element, helement, hplace⟩ := helements item hitem
      by_contra hhollow
      have hweightless := Value.weightless hgraph element item helement
        (Bool.eq_false_iff.mpr hhollow)
      exact hheavy element hplace hweightless
    rw [← List.countP_eq_length.mpr hall]
    exact hsolid
  · intro item hitem
    obtain ⟨element, helement, hplace⟩ := helements item hitem
    exact ⟨element, hplace, helement.exists_image hgraph⟩

namespace Sample

/-- How many elements are read in place of a declared type. -/
def elementsRead (schema : Schema) (declared : ObjectId) (bytes : List UInt8) : Option Nat :=
  match schema.decodeObject declared (Reader.of bytes) with
  | .ok record _ => some record.elements.length
  | .error _ _ => none

theorem exists_decodes {declared : ObjectId} {bytes : List UInt8} {count : Nat}
    (hread : elementsRead schema declared bytes = some count) :
    ∃ record, schema.Decodes bytes record ∧ record.elements.length = count := by
  unfold elementsRead at hread
  split at hread
  next record left hrun => exact ⟨record, .object hrun, Option.some.inj hread⟩
  next => cases hread

/-- A leaf with two empty lists of tags. -/
def tagged : List UInt8 := [9, 9, 9, 9, 0, 1, 2, 3, 4, 0, 0, 0, 2, 0, 0, 0, 0, 0, 0, 0, 0, 1]

theorem not_weightless (element : FieldType) (helement : Sample.schema.graph.HasElement element) :
    ¬ Sample.schema.graph.Weightless element := by
  obtain ⟨id, field, hfield, hmem⟩ := helement
  have hobject : Sample.schema.graph.object id ∈ default :: Sample.schema.graph.objects.toList := by
    unfold Graph.object
    rw [Array.getD_eq_getD_getElem?]
    cases hplace : Sample.schema.graph.objects[id.index]? with
    | none => exact List.mem_cons_self
    | some object => exact List.mem_cons_of_mem _ (Array.mem_toList_iff.mpr
        (Array.mem_of_getElem? hplace))
  have hall : ∀ object ∈ default :: Sample.schema.graph.objects.toList, ∀ field ∈ object.fields,
      ∀ element ∈ field.type.elements, element = .text ∨ element = .array .text := by
    decide +kernel
  rcases hall _ hobject field hfield element hmem with rfl | rfl
  · intro hweightless
    cases hweightless
  · intro hweightless
    cases hweightless

theorem count_tagged :
    ∃ record, Sample.schema.Decodes tagged record ∧ record.elements.length = 2 ∧
      record.elements.length ≤ tagged.length := by
  have hread : elementsRead Sample.schema ⟨1⟩ tagged = some 2 := by decide +kernel
  obtain ⟨record, hdecodes, hcount⟩ := exists_decodes hread
  exact ⟨record, hdecodes, hcount,
    (Schema.Decodes.count_solid_le_length compile_documents hdecodes).2.1 not_weightless⟩

end Sample

/-! ## Elements without bytes

Objects without fields, and byte fields of length zero, of which a short message holds many. -/

namespace Sample

def boxDocuments : List Document :=
  [⟨"box", .object [
    ("empty", .object []),
    ("flood", .object [("items", .array [.string "@empty"])]),
    ("zeros", .object [("items", .array [.string "binary0"])])]⟩]

def boxSchema : Schema := schemaOf 2 boxDocuments

theorem compile_boxDocuments : Graph.compile boxDocuments = .ok boxSchema.graph :=
  compile_schemaOf 2 (by decide +kernel)

/-- Four bytes are read as five empty objects. -/
theorem flood_exceeds :
    Graph.compile boxDocuments = .ok boxSchema.graph ∧
      ∃ record, boxSchema.Decodes [0, 0, 0, 5] record ∧
        ¬ record.elements.length ≤ [0, 0, 0, 5].length := by
  have hread : elementsRead boxSchema ⟨1⟩ [0, 0, 0, 5] = some 5 := by decide +kernel
  obtain ⟨record, hdecodes, hcount⟩ := exists_decodes hread
  refine ⟨compile_boxDocuments, record, hdecodes, ?_⟩
  rw [hcount]
  decide

end Sample

end WireSchema
