import WireSchema.Proofs.Contents
import WireSchema.Proofs.Presence

/-!
# The image of a record

The image of a record is its encoding as one list of bytes, or the fault that stands in the way of
it.  Encoding a record writes the image, whatever the buffer.
-/

namespace WireSchema

def ObjectType.headerImage (type : ObjectType) (transaction : Option UInt32) : Image :=
  if type.layout.hasHeader then
    match type.wireId with
    | some id => .ok (Wire.bigEndian 4 id.toNat ++ Wire.bigEndian 4 (transaction.getD 0).toNat)
    | none => .error (.notAPayload type.name)
  else .ok []

def ObjectType.kindTagBytes (type : ObjectType) : List UInt8 :=
  if type.layout.hasKindTag then Wire.bigEndian 4 type.kindTag.toNat else []

mutual

def Record.image (schema : Schema) : Record → Image
  | ⟨_, id, slots, transaction⟩ =>
    let type := schema.graph.object id
    Image.join (type.headerImage transaction) <|
      Image.join (.ok type.kindTagBytes) <|
        Image.join (.ok (FlagBits.ofBits (presenceBits type.fields slots)).bytes) <|
          Record.slotsImage schema type.name type.fields slots

def Record.slotsImage (schema : Schema) (owner : String) (fields : List Field) :
    List (Option Value) → Image
  | [] => .ok []
  | some value :: rest =>
    match fields with
    | [] => .ok []
    | field :: fields =>
      Image.join (Value.image schema owner field field.type value)
        (Record.slotsImage schema owner fields rest)
  | none :: rest =>
    match fields with
    | [] => .ok []
    | field :: fields =>
      if field.isOptional then Record.slotsImage schema owner fields rest
      else .error (.missing owner field)

/-- The image of a value of a type.  Owner and field are named when the value does not fit. -/
def Value.image (schema : Schema) (owner : String) (field : Field) (type : FieldType)
    (value : Value) : Image :=
  match type, value with
  | .text, .text value => .ok (Wire.bigEndian 4 value.utf8ByteSize ++ Text.utf8 value)
  | .binary length, .binary bytes => .ok (Writer.fitted bytes length)
  | .enum _, .ordinal value => .ok (Wire.bigEndian 1 value.toNat)
  | .object _, .record nested => nested.image schema
  | .array element, .array items =>
    Image.join (.ok (Wire.bigEndian 4 items.length))
      (Value.itemsImage schema owner field element items)
  | .primitive kind, value =>
    match kind.code? value with
    | some code => .ok (Wire.bigEndian kind.size code)
    | none => .error (schema.mismatch owner field (.primitive kind))
  | type, _ => .error (schema.mismatch owner field type)

def Value.itemsImage (schema : Schema) (owner : String) (field : Field) (element : FieldType) :
    List Value → Image
  | [] => .ok []
  | item :: rest =>
    Image.join (Value.image schema owner field element item)
      (Value.itemsImage schema owner field element rest)

end

theorem Record.exists_image_parts {schema : Schema} {record : Record} {data : List UInt8}
    (hdata : record.image schema = .ok data) :
    ∃ header body,
      (record.typeIn schema).headerImage record.transaction = .ok header ∧
      Record.slotsImage schema (record.typeIn schema).name (record.typeIn schema).fields
        record.slots = .ok body ∧
      data = header ++ ((record.typeIn schema).kindTagBytes ++
        ((FlagBits.ofBits (presenceBits (record.typeIn schema).fields record.slots)).bytes ++
          body)) := by
  obtain ⟨number, id, slots, transaction⟩ := record
  rw [Record.image] at hdata
  obtain ⟨header, behind, hheader, hkindTag, rfl⟩ := Image.join_eq_ok hdata
  obtain ⟨kindTag, behind, hkind, hflags, rfl⟩ := Image.join_eq_ok hkindTag
  obtain ⟨flags, body, hbits, hbody, rfl⟩ := Image.join_eq_ok hflags
  cases hkind
  cases hbits
  exact ⟨header, body, hheader, hbody, rfl⟩

/-! ## Writing the image -/

open Writing (Emits emits_bytes emits_binary emits_pure emits_throw emits_length emits_text)

theorem ObjectType.emits_writeHeader (type : ObjectType) (transaction : Option UInt32) :
    Emits (type.writeHeader transaction) (type.headerImage transaction) True := by
  unfold ObjectType.writeHeader ObjectType.headerImage
  cases type.layout.hasHeader with
  | false => exact emits_pure True
  | true =>
      cases type.wireId with
      | none => exact emits_throw _ True
      | some id =>
          have hboth := (emits_bytes (Wire.bigEndian 4 id.toNat) True).bind
            (emits_bytes (Wire.bigEndian 4 (transaction.getD 0).toNat) True)
          exact hboth.mono fun _ => ⟨trivial, trivial⟩

theorem ObjectType.emits_writeKindTag (type : ObjectType) :
    Emits type.writeKindTag (.ok type.kindTagBytes) True := by
  unfold ObjectType.writeKindTag ObjectType.kindTagBytes
  cases type.layout.hasKindTag with
  | false => exact emits_pure True
  | true => exact emits_bytes (Wire.bigEndian 4 type.kindTag.toNat) True

theorem Value.encode_primitive (schema : Schema) (owner : String) (field : Field)
    (kind : Primitive) (value : Value) :
    Value.encode schema owner field (.primitive kind) value =
      match kind.code? value with
      | some code => Writer.bytes (Wire.bigEndian kind.size code)
      | none => throw (.fault (schema.mismatch owner field (.primitive kind))) := by
  unfold Value.encode
  cases kind <;> cases value <;> rfl

theorem Value.emits_encode_primitive (schema : Schema) (owner : String) (field : Field)
    (kind : Primitive) (value : Value) (fits : Prop) :
    Emits (Value.encode schema owner field (.primitive kind) value)
      (Value.image schema owner field (.primitive kind) value) fits := by
  rw [Value.encode_primitive, Value.image]
  cases kind.code? value with
  | none => exact emits_throw _ fits
  | some code => exact emits_bytes _ fits

/-- A value that does not fit is refused with the same fault in the encoding and in the image. -/
theorem Value.emits_mismatch {schema : Schema} {owner : String} {field : Field}
    {type : FieldType} {value : Value} {fits : Prop}
    (hencode : Value.encode schema owner field type value =
      throw (.fault (schema.mismatch owner field type)))
    (himage : Value.image schema owner field type value =
      .error (schema.mismatch owner field type)) :
    Emits (Value.encode schema owner field type value)
      (Value.image schema owner field type value) fits := by
  rw [hencode, himage]
  exact emits_throw _ fits

mutual

theorem Record.emits_encode (schema : Schema) (record : Record) :
    Emits (record.encode schema) (record.image schema) record.Bounded := by
  obtain ⟨number, id, slots, transaction⟩ := record
  rw [Record.encode, Record.image]
  have hslots := Record.emits_encodeSlots schema (schema.graph.object id).name
    (schema.graph.object id).fields slots
  have hall := ((schema.graph.object id).emits_writeHeader transaction).bind <|
    (schema.graph.object id).emits_writeKindTag.bind <|
      (emits_bytes (FlagBits.ofBits
        (presenceBits (schema.graph.object id).fields slots)).bytes True).bind hslots
  refine hall.mono fun hbounded => ⟨trivial, trivial, trivial, ?_⟩
  intro held hheld
  exact Value.Throughout.slot hbounded hheld

theorem Record.emits_encodeSlots (schema : Schema) (owner : String) (fields : List Field)
    (slots : List (Option Value)) :
    Emits (Record.encodeSlots schema owner fields slots)
      (Record.slotsImage schema owner fields slots)
      (∀ held, some held ∈ slots → held.Bounded) := by
  match slots, fields with
  | [], _ =>
      rw [Record.encodeSlots, Record.slotsImage]
      exact emits_pure _
  | some value :: rest, [] =>
      rw [Record.encodeSlots, Record.slotsImage]
      exact emits_pure _
  | none :: rest, [] =>
      rw [Record.encodeSlots, Record.slotsImage]
      exact emits_pure _
  | some value :: rest, field :: fields =>
      rw [Record.encodeSlots, Record.slotsImage]
      have hvalue := Value.emits_encode schema owner field field.type value
      have hrest := Record.emits_encodeSlots schema owner fields rest
      refine (hvalue.bind hrest).mono fun hbounded => ⟨?_, ?_⟩
      · exact hbounded value List.mem_cons_self
      · exact fun held hheld => hbounded held (List.mem_cons_of_mem _ hheld)
  | none :: rest, field :: fields =>
      rw [Record.encodeSlots, Record.slotsImage]
      split
      · have hrest := Record.emits_encodeSlots schema owner fields rest
        exact hrest.mono fun hbounded held hheld =>
          hbounded held (List.mem_cons_of_mem _ hheld)
      · exact emits_throw _ _

theorem Value.emits_encode (schema : Schema) (owner : String) (field : Field) (type : FieldType)
    (value : Value) :
    Emits (Value.encode schema owner field type value)
      (Value.image schema owner field type value) value.Bounded := by
  cases type with
  | primitive kind => exact Value.emits_encode_primitive schema owner field kind value _
  | text =>
      cases value
      case text text =>
        rw [Value.encode, Value.image]
        exact (emits_text text).mono fun hbounded => hbounded.self
      all_goals exact Value.emits_mismatch rfl rfl
  | binary length =>
      cases value
      case binary bytes =>
        rw [Value.encode, Value.image]
        exact emits_binary _ _ _
      all_goals exact Value.emits_mismatch rfl rfl
  | enum id =>
      cases value
      case ordinal ordinal =>
        rw [Value.encode, Value.image]
        exact emits_bytes _ _
      all_goals exact Value.emits_mismatch rfl rfl
  | object id =>
      cases value
      case record nested =>
        rw [Value.encode, Value.image]
        exact Record.emits_encode schema nested
      all_goals exact Value.emits_mismatch rfl rfl
  | array element =>
      cases value
      case array items =>
        rw [Value.encode, Value.image]
        have hitems := Value.emits_encodeItems schema owner field element items
        refine ((emits_length items.length).bind hitems).mono fun hbounded => ⟨?_, ?_⟩
        · exact hbounded.self
        · exact fun item hitem => hbounded.item hitem
      all_goals exact Value.emits_mismatch rfl rfl

theorem Value.emits_encodeItems (schema : Schema) (owner : String) (field : Field)
    (element : FieldType) (items : List Value) :
    Emits (Value.encodeItems schema owner field element items)
      (Value.itemsImage schema owner field element items)
      (∀ item ∈ items, item.Bounded) := by
  match items with
  | [] =>
      rw [Value.encodeItems, Value.itemsImage]
      exact emits_pure _
  | item :: rest =>
      rw [Value.encodeItems, Value.itemsImage]
      have hitem := Value.emits_encode schema owner field element item
      have hrest := Value.emits_encodeItems schema owner field element rest
      refine (hitem.bind hrest).mono fun hbounded => ⟨?_, ?_⟩
      · exact hbounded item List.mem_cons_self
      · exact fun other hother => hbounded other (List.mem_cons_of_mem _ hother)

end

/-! ## What is written is short

A text or an array whose length does not fit four bytes is not written, however much room there is.
-/

theorem Writer.lt_lengthBound_of_length {count : Nat} {writer left : Writer}
    (hrun : Writer.length count writer = .ok () left) : count < Writer.lengthBound := by
  unfold Writer.length at hrun
  split at hrun
  next hcount => exact hcount
  next => cases hrun

mutual

theorem Record.bounded_of_encode {schema : Schema} (record : Record)
    (htyped : record.WellTyped schema) {writer left : Writer}
    (hrun : record.encode schema writer = .ok () left) : record.Bounded := by
  obtain ⟨number, id, slots, transaction⟩ := record
  rw [Record.encode] at hrun
  obtain ⟨-, middle, -, hrun⟩ := Action.bind_eq_ok hrun
  obtain ⟨-, middle, -, hrun⟩ := Action.bind_eq_ok hrun
  obtain ⟨-, middle, -, hrun⟩ := Action.bind_eq_ok hrun
  exact Value.throughout_record trivial <|
    Record.bounded_of_encodeSlots (schema.graph.object id).name (schema.graph.object id).fields
      slots htyped.suits hrun

theorem Record.bounded_of_encodeSlots {schema : Schema} (owner : String) (fields : List Field)
    (slots : List (Option Value))
    (hslots : List.Forall₂ (Field.SlotHolds (Value.Suits schema)) fields slots)
    {writer left : Writer}
    (hrun : Record.encodeSlots schema owner fields slots writer = .ok () left) :
    ∀ held, some held ∈ slots → held.Bounded := by
  match slots, fields, hslots with
  | [], [], .nil => exact fun held hheld => absurd hheld List.not_mem_nil
  | some value :: rest, field :: fields, .cons hslot hrest =>
      rw [Record.encodeSlots] at hrun
      obtain ⟨_, middle, hvalue, hrun⟩ := Action.bind_eq_ok hrun
      intro held hheld
      rcases List.mem_cons.mp hheld with hsame | hheld
      · cases hsame
        exact Value.bounded_of_encode owner field field.type value (hslot value rfl) hvalue
      · exact Record.bounded_of_encodeSlots owner fields rest hrest hrun held hheld
  | none :: rest, field :: fields, .cons hslot hrest =>
      rw [Record.encodeSlots] at hrun
      split at hrun
      · intro held hheld
        rcases List.mem_cons.mp hheld with hsame | hheld
        · cases hsame
        · exact Record.bounded_of_encodeSlots owner fields rest hrest hrun held hheld
      · cases hrun

theorem Value.bounded_of_encode {schema : Schema} (owner : String) (field : Field)
    (type : FieldType) (value : Value) (hsuits : value.Suits schema type) {writer left : Writer}
    (hrun : Value.encode schema owner field type value writer = .ok () left) : value.Bounded := by
  cases type with
  | primitive kind =>
      have hscalar := Primitive.isScalar_of_admits hsuits.admits
      exact Value.throughout_scalar hscalar.1 hscalar.2
  | text =>
      cases value
      case text words =>
        rw [Value.encode] at hrun
        obtain ⟨_, middle, hlength, -⟩ := Action.bind_eq_ok hrun
        have hshort := Writer.lt_lengthBound_of_length hlength
        rw [Text.length_utf8] at hshort
        exact Value.throughout_scalar trivial hshort
      all_goals cases hsuits.admits
  | binary length =>
      cases value
      case binary bytes => exact Value.throughout_scalar trivial trivial
      all_goals cases hsuits.admits
  | enum id =>
      cases value
      case ordinal ordinal => exact Value.throughout_scalar trivial trivial
      all_goals cases hsuits.admits
  | object id =>
      cases value
      case record nested =>
        rw [Value.encode] at hrun
        exact Record.bounded_of_encode nested hsuits.typed hrun
      all_goals cases hsuits.admits
  | array element =>
      cases value
      case array items =>
        rw [Value.encode] at hrun
        obtain ⟨_, middle, hlength, hrun⟩ := Action.bind_eq_ok hrun
        exact Value.throughout_array (Writer.lt_lengthBound_of_length hlength) <|
          Value.bounded_of_encodeItems owner field element items hsuits.item hrun
      all_goals cases hsuits.admits

theorem Value.bounded_of_encodeItems {schema : Schema} (owner : String) (field : Field)
    (element : FieldType) (items : List Value)
    (hsuits : ∀ item ∈ items, item.Suits schema element) {writer left : Writer}
    (hrun : Value.encodeItems schema owner field element items writer = .ok () left) :
    ∀ item ∈ items, item.Bounded := by
  match items with
  | [] => exact fun item hitem => absurd hitem List.not_mem_nil
  | item :: rest =>
      rw [Value.encodeItems] at hrun
      obtain ⟨_, middle, hitem, hrun⟩ := Action.bind_eq_ok hrun
      obtain ⟨hhead, htail⟩ := List.forall_mem_cons.mp hsuits
      refine List.forall_mem_cons.mpr ⟨?_, ?_⟩
      · exact Value.bounded_of_encode owner field element item hhead hitem
      · exact Value.bounded_of_encodeItems owner field element rest htail hrun

end

end WireSchema
