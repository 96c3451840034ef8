import WireSchema.Codec.Size
import WireSchema.Proofs.Coherent
import WireSchema.Proofs.Image

/-!
# Sizes

The size of a record, computed from the layout of its type and from the widths of the values that
the layout does not count, is the length of its image, as a 64-bit number.  Where the image meets a
fault, measuring meets the same one.
-/

namespace WireSchema

/-! ## What the layout counts -/

/-- The width of all required fields of fixed width. -/
def staticWidth (fields : List Field) : UInt64 :=
  ((fields.filter (·.isStatic)).filterMap (·.type.staticSize?)).foldr (.ofNat · + ·) 0

/-- What a layout counts for one field. -/
def Field.staticWidth (field : Field) : UInt64 :=
  if field.isStatic then .ofNat (field.type.staticSize?.getD 0) else 0

theorem Field.exists_staticSize? {field : Field} (hstatic : field.isStatic = true) :
    ∃ size, field.type.staticSize? = some size := by
  rw [Field.isStatic, Bool.and_eq_true] at hstatic
  exact Option.isSome_iff_exists.mp hstatic.2

theorem staticWidth_cons (field : Field) (fields : List Field) :
    staticWidth (field :: fields) = field.staticWidth + staticWidth fields := by
  unfold staticWidth Field.staticWidth
  cases hstatic : field.isStatic with
  | false => simp [hstatic]
  | true =>
      obtain ⟨size, hsize⟩ := Field.exists_staticSize? hstatic
      simp [hstatic, hsize]

theorem Layout.minSize_eq (layout : Layout) :
    layout.minSize = .ofNat layout.flagBytes + layout.staticFields +
      .ofNat (if layout.hasHeader then headerSize else 0) +
      .ofNat (if layout.hasKindTag then kindTagSize else 0) := by
  rw [apply_ite UInt64.ofNat, apply_ite UInt64.ofNat]
  rfl

theorem length_presenceBits {Accepts : Field → Option Value → Prop} {fields : List Field}
    {slots : List (Option Value)} (hslots : List.Forall₂ Accepts fields slots) :
    (presenceBits fields slots).length = fields.countP (·.isOptional) := by
  unfold presenceBits
  induction hslots with
  | nil => rfl
  | cons hslot hrest ih =>
      rw [List.length_map] at ih ⊢
      rw [List.zip_cons_cons, List.filter_cons, List.countP_cons]
      split
      · rw [List.length_cons, ih]
      · rw [ih, Nat.add_zero]

/-- A value that its type admits has the width that the type tells. -/
theorem Value.image_of_staticSize? {schema : Schema} {type : FieldType} {value : Value}
    {size : Nat} (owner : String) (field : Field) (hsize : type.staticSize? = some size)
    (hadmits : schema.admits type value = true) :
    ∃ data, Value.image schema owner field type value = .ok data ∧ data.length = size := by
  cases type with
  | primitive kind =>
      cases hsize
      obtain ⟨code, hcode⟩ := Primitive.isSome_code?_of_admits hadmits
      refine ⟨Wire.bigEndian kind.size code, ?_, Wire.length_bigEndian _ _⟩
      rw [Value.image, hcode]
  | binary width =>
      cases hsize
      cases value
      case binary bytes =>
        refine ⟨Writer.fitted bytes size, ?_, Writer.length_fitted bytes size⟩
        rw [Value.image]
      all_goals cases hadmits
  | enum id =>
      cases hsize
      cases value
      case ordinal ordinal =>
        refine ⟨Wire.bigEndian 1 ordinal.toNat, ?_, Wire.length_bigEndian _ _⟩
        rw [Value.image]
      all_goals cases hadmits
  | text => cases hsize
  | object id => cases hsize
  | array element => cases hsize

/-! ## Measuring is measuring the image -/

variable {schema : Schema}

theorem Graph.Coherent.staticFields_eq (hgraph : schema.graph.Coherent) (id : ObjectId) :
    (schema.graph.object id).layout.staticFields =
      staticWidth (schema.graph.object id).fields := by
  rw [hgraph.layout_eq]
  rfl

theorem ObjectType.length_headerImage (hgraph : schema.graph.Coherent) (id : ObjectId)
    (transaction : Option UInt32) :
    ((schema.graph.object id).headerImage transaction).length =
      .ok (if (schema.graph.object id).layout.hasHeader then headerSize else 0) := by
  unfold ObjectType.headerImage
  cases hheader : (schema.graph.object id).layout.hasHeader with
  | false => rfl
  | true =>
      have hpayload := (hgraph.hasHeader_eq id).symm.trans hheader
      obtain ⟨wire, hwire, -⟩ := hgraph.exists_wireId id hpayload
      simp [hwire, headerSize]

theorem ObjectType.length_flagBytes (hgraph : schema.graph.Coherent) (id : ObjectId)
    {Accepts : Field → Option Value → Prop} {slots : List (Option Value)}
    (hslots : List.Forall₂ Accepts (schema.graph.object id).fields slots) :
    (FlagBits.ofBits (presenceBits (schema.graph.object id).fields slots)).bytes.length =
      (schema.graph.object id).layout.flagBytes := by
  rw [FlagBits.length_bytes_ofBits, length_presenceBits hslots, hgraph.flagBytes_eq]

theorem ObjectType.length_kindTagBytes (type : ObjectType) :
    type.kindTagBytes.length = if type.layout.hasKindTag then kindTagSize else 0 := by
  unfold ObjectType.kindTagBytes
  split
  · exact Wire.length_bigEndian 4 _
  · rfl

theorem Value.encodedSize_text (schema : Schema) (owner : String) (field : Field)
    (text : String) :
    Value.encodedSize schema owner field .text (.text text) =
      .ok (.ofNat lengthSize + .ofNat text.utf8ByteSize) := by
  unfold Value.encodedSize
  rfl

theorem Value.encodedSize_record (schema : Schema) (owner : String) (field : Field)
    (id : ObjectId) (nested : Record) :
    Value.encodedSize schema owner field (.object id) (.record nested) =
      nested.encodedSize schema := by
  unfold Value.encodedSize
  rfl

theorem Value.encodedSize_array (schema : Schema) (owner : String) (field : Field)
    (element : FieldType) (items : List Value) :
    Value.encodedSize schema owner field (.array element) (.array items) =
      (Value.itemsSize schema owner field element items).map (.ofNat lengthSize + ·) := by
  unfold Value.encodedSize
  rfl

mutual

theorem Record.encodedSize_eq (hgraph : schema.graph.Coherent) (record : Record)
    (htyped : record.WellTyped schema) :
    record.encodedSize schema = (record.image schema).size := by
  obtain ⟨number, id, slots, transaction⟩ := record
  have hslots := Record.slotsSize_eq hgraph (schema.graph.object id).name
    (schema.graph.object id).fields slots htyped.suits
  have hheader := Image.size_of_length (ObjectType.length_headerImage hgraph id transaction)
  have hkindTag := (schema.graph.object id).length_kindTagBytes
  have hbits := ObjectType.length_flagBytes hgraph id htyped.suits
  rw [Record.encodedSize, Record.image, Image.size_join, Image.size_join, Image.size_join,
    hheader, Image.size_ok, hkindTag, Image.size_ok, hbits, ← hslots]
  cases Record.slotsSize schema (schema.graph.object id).name (schema.graph.object id).fields
    slots with
  | error fault => rfl
  | ok more =>
      change Except.ok ((schema.graph.object id).layout.minSize + more) = Except.ok _
      rw [Layout.minSize_eq, hgraph.staticFields_eq]
      congr 1
      dsimp only
      ac_rfl

theorem Record.slotsSize_eq (hgraph : schema.graph.Coherent) (owner : String)
    (fields : List Field) (slots : List (Option Value))
    (hslots : List.Forall₂ (Field.SlotHolds (Value.Suits schema)) fields slots) :
    (Record.slotsSize schema owner fields slots).map (staticWidth fields + ·) =
      (Record.slotsImage schema owner fields slots).size := by
  match slots, fields, hslots with
  | [], [], .nil =>
      rw [Record.slotsSize, Record.slotsImage]
      rfl
  | some value :: rest, field :: fields, .cons hslot hrest =>
      have hvalue := Value.encodedSize_eq hgraph owner field field.type value (hslot value rfl)
      have hmore := Record.slotsSize_eq hgraph owner fields rest hrest
      rw [Record.slotsSize, Record.slotsImage, staticWidth_cons, Image.size_join, ← hmore,
        Field.staticWidth]
      cases hstatic : field.isStatic with
      | true =>
          -- The layout counts the field, and measuring leaves it out.
          obtain ⟨size, hsize⟩ := Field.exists_staticSize? hstatic
          obtain ⟨data, hdata, hlength⟩ :=
            Value.image_of_staticSize? owner field hsize (hslot value rfl).admits
          rw [hdata, hsize, Image.size_ok, hlength]
          cases Record.slotsSize schema owner fields rest with
          | error fault => rfl
          | ok more =>
              change Except.ok (.ofNat size + staticWidth fields + (0 + more)) =
                Except.ok (.ofNat size + (staticWidth fields + more))
              rw [UInt64.zero_add, UInt64.add_assoc]
      | false =>
          rw [hvalue]
          cases Value.image schema owner field field.type value with
          | error fault => rfl
          | ok data =>
              cases Record.slotsSize schema owner fields rest with
              | error fault => rfl
              | ok more =>
                  change Except.ok (0 + staticWidth fields + (.ofNat data.length + more)) =
                    Except.ok (.ofNat data.length + (staticWidth fields + more))
                  rw [UInt64.zero_add]
                  congr 1
                  ac_rfl
  | none :: rest, field :: fields, .cons hslot hrest =>
      have hmore := Record.slotsSize_eq hgraph owner fields rest hrest
      rw [Record.slotsSize, Record.slotsImage, staticWidth_cons]
      cases hoptional : field.isOptional with
      | false => rfl
      | true =>
          have hstatic : field.staticWidth = 0 := by
            simp [Field.staticWidth, Field.isStatic, hoptional]
          rw [if_pos rfl, if_pos rfl, hstatic, UInt64.zero_add]
          exact hmore

theorem Value.encodedSize_eq (hgraph : schema.graph.Coherent) (owner : String) (field : Field)
    (type : FieldType) (value : Value) (hsuits : value.Suits schema type) :
    Value.encodedSize schema owner field type value =
      (Value.image schema owner field type value).size := by
  cases hsize : type.staticSize? with
  | some size =>
      obtain ⟨data, hdata, hlength⟩ := Value.image_of_staticSize? owner field hsize hsuits.admits
      rw [hdata, Image.size_ok, hlength]
      unfold Value.encodedSize
      rw [hsize]
  | none =>
      cases type with
      | primitive kind => cases hsize
      | binary size => cases hsize
      | enum id => cases hsize
      | text =>
          cases value
          case text text =>
            rw [Value.encodedSize_text, Value.image, Image.size_ok, List.length_append,
              Wire.length_bigEndian, Text.length_utf8, UInt64.ofNat_add]
            rfl
          all_goals cases hsuits.admits
      | object id =>
          cases value
          case record nested =>
            rw [Value.encodedSize_record, Value.image]
            exact Record.encodedSize_eq hgraph nested hsuits.typed
          all_goals cases hsuits.admits
      | array element =>
          cases value
          case array items =>
            have hitems := Value.itemsSize_eq hgraph owner field element items hsuits.item
            rw [Value.encodedSize_array, Value.image, Image.size_join, ← hitems, Image.size_ok,
              Wire.length_bigEndian]
            cases Value.itemsSize schema owner field element items <;> rfl
          all_goals cases hsuits.admits

theorem Value.itemsSize_eq (hgraph : schema.graph.Coherent) (owner : String) (field : Field)
    (element : FieldType) (items : List Value)
    (hsuits : ∀ item ∈ items, item.Suits schema element) :
    Value.itemsSize schema owner field element items =
      (Value.itemsImage schema owner field element items).size := by
  match items with
  | [] =>
      rw [Value.itemsSize, Value.itemsImage]
      rfl
  | item :: rest =>
      obtain ⟨hhead, htail⟩ := List.forall_mem_cons.mp hsuits
      have hitem := Value.encodedSize_eq hgraph owner field element item hhead
      have hrest := Value.itemsSize_eq hgraph owner field element rest htail
      rw [Value.itemsSize, Value.itemsImage, hitem, hrest, Image.size_join]

end

theorem Record.length_image_withTransaction (hgraph : schema.graph.Coherent) {record : Record}
    {transaction : Option UInt32} {data other : List UInt8}
    (hdata : record.image schema = .ok data)
    (hother : Record.image schema { record with transaction := transaction } = .ok other) :
    other.length = data.length := by
  obtain ⟨header, body, hheader, hbody, rfl⟩ := Record.exists_image_parts hdata
  obtain ⟨header', body', hheader', hbody', rfl⟩ := Record.exists_image_parts hother
  have hsize := ObjectType.length_headerImage hgraph record.type record.transaction
  have hsize' := ObjectType.length_headerImage hgraph record.type transaction
  rw [Record.typeIn] at hheader hheader'
  rw [hheader, Image.length_ok, Except.ok.injEq] at hsize
  rw [hheader', Image.length_ok, Except.ok.injEq] at hsize'
  cases hbody.symm.trans hbody'
  simp only [List.length_append, hsize, hsize']
  rfl

/-! ## The least size

What the layout counts is also counted without loss of bits in an image, so the least size is a
lower bound even of an image whose length does not fit 64 bits.
-/

theorem Layout.toNat_add_le (first second : UInt64) :
    (first + second).toNat ≤ first.toNat + second.toNat := by
  rw [UInt64.toNat_add]
  exact Nat.mod_le _ _

theorem Layout.toNat_ofNat_le (width : Nat) : (UInt64.ofNat width).toNat ≤ width := by
  rw [UInt64.toNat_ofNat']
  exact Nat.mod_le _ _

theorem Layout.toNat_minSize_le (layout : Layout) :
    layout.minSize.toNat ≤ layout.flagBytes + layout.staticFields.toNat +
      (if layout.hasHeader then headerSize else 0) +
      (if layout.hasKindTag then kindTagSize else 0) := by
  rw [Layout.minSize_eq]
  refine Nat.le_trans (toNat_add_le _ _) (Nat.add_le_add ?_ (toNat_ofNat_le _))
  refine Nat.le_trans (toNat_add_le _ _) (Nat.add_le_add ?_ (toNat_ofNat_le _))
  exact Nat.le_trans (toNat_add_le _ _) (Nat.add_le_add_right (toNat_ofNat_le _) _)

theorem Field.staticWidth_le {schema : Schema} {owner : String} {field : Field} {value : Value}
    {data : List UInt8} (hadmits : schema.admits field.type value = true)
    (hdata : Value.image schema owner field field.type value = .ok data) :
    field.staticWidth.toNat ≤ data.length := by
  unfold Field.staticWidth
  cases hstatic : field.isStatic with
  | false => exact Nat.zero_le _
  | true =>
      obtain ⟨size, hsize⟩ := Field.exists_staticSize? hstatic
      obtain ⟨other, hother, rfl⟩ := Value.image_of_staticSize? owner field hsize hadmits
      cases hother.symm.trans hdata
      rw [if_pos rfl, hsize]
      exact Layout.toNat_ofNat_le _

theorem Record.staticWidth_le {owner : String} {fields : List Field} {slots : List (Option Value)}
    (hslots : List.Forall₂ (Field.SlotHolds (Value.Suits schema)) fields slots)
    {data : List UInt8} (hdata : Record.slotsImage schema owner fields slots = .ok data) :
    (staticWidth fields).toNat ≤ data.length := by
  induction hslots generalizing data with
  | nil => exact Nat.zero_le _
  | @cons field slot fields slots hslot hrest ih =>
      rw [staticWidth_cons]
      refine Nat.le_trans (Layout.toNat_add_le _ _) ?_
      cases slot with
      | some value =>
          rw [Record.slotsImage] at hdata
          obtain ⟨front, back, hfront, hback, rfl⟩ := Image.join_eq_ok hdata
          rw [List.length_append]
          exact Nat.add_le_add (Field.staticWidth_le (hslot value rfl).admits hfront) (ih hback)
      | none =>
          rw [Record.slotsImage] at hdata
          cases hoptional : field.isOptional with
          | false =>
              rw [hoptional] at hdata
              cases hdata
          | true =>
              rw [if_pos hoptional] at hdata
              have hnone : field.staticWidth = 0 := by
                simp [Field.staticWidth, Field.isStatic, hoptional]
              rw [hnone, UInt64.toNat_zero, Nat.zero_add]
              exact ih hdata

theorem Record.minSize_le (hgraph : schema.graph.Coherent) {record : Record}
    (htyped : record.WellTyped schema) {data : List UInt8}
    (hdata : record.image schema = .ok data) :
    (record.typeIn schema).layout.minSize.toNat ≤ data.length := by
  obtain ⟨header, values, hheader, hvalues, rfl⟩ := Record.exists_image_parts hdata
  have hstatic := Record.staticWidth_le htyped.suits hvalues
  have hleast := Layout.toNat_minSize_le (record.typeIn schema).layout
  have hheaderSize := ObjectType.length_headerImage hgraph record.type record.transaction
  have hkindTag := (record.typeIn schema).length_kindTagBytes
  have hflags := ObjectType.length_flagBytes hgraph record.type htyped.suits
  rw [Record.typeIn] at hheader hstatic hleast hkindTag ⊢
  rw [hgraph.staticFields_eq] at hleast
  rw [hheader, Image.length_ok, Except.ok.injEq] at hheaderSize
  rw [List.length_append, List.length_append, List.length_append, hheaderSize, hkindTag, hflags]
  omega

end WireSchema
