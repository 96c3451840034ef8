import WireSchema.Proofs.Packing
import WireSchema.Proofs.Payloads
import WireSchema.Proofs.Truncation

/-!
# Reading any bytes

Whatever bytes a record is read from, it is complete and fits its type at every level.  Measuring it
gives the number of bytes that were read, writing it gives as many bytes, and from these it is read
again as it is.  So bytes that are read are brought into a normal form by writing, although a truth
value, a presence bit or a kind tag can be written in one way only and read in several.
-/

namespace WireSchema

open Reading (Yields)

variable {schema : Schema} {levels : Nat}

/-! ## What is read -/

/-- A value as it is read: it fits its type at every level and arrives as it is, in as many bytes
as it was read from. -/
structure Value.Settled (schema : Schema) (levels : Nat) (type : FieldType) (value : Value)
    (size : Nat) : Prop extends Value.Travels schema levels type value where
  complete : value.Complete schema
  carried_eq : Value.carried schema type value = value
  exists_image : ∀ owner field, ∃ data,
    Value.image schema owner field type value = .ok data ∧ data.length = size

/-- The items of an array as they are read. -/
inductive Value.ItemsSettled (schema : Schema) (levels : Nat) (element : FieldType) :
    List Value → Nat → Prop where
  | nil : ItemsSettled schema levels element [] 0
  | cons {item : Value} {rest : List Value} {size more : Nat}
      (hitem : item.Settled schema levels element size)
      (hrest : ItemsSettled schema levels element rest more) :
      ItemsSettled schema levels element (item :: rest) (size + more)

/-- The slots of a record as they are read; only those of optional fields may be empty. -/
inductive Record.SlotsSettled (schema : Schema) (levels : Nat) :
    List Field → List (Option Value) → Nat → Prop where
  | nil : SlotsSettled schema levels [] [] 0
  | filled {field : Field} {fields : List Field} {value : Value} {rest : List (Option Value)}
      {size more : Nat} (hvalue : value.Settled schema levels field.type size)
      (hrest : SlotsSettled schema levels fields rest more) :
      SlotsSettled schema levels (field :: fields) (some value :: rest) (size + more)
  | empty {field : Field} {fields : List Field} {rest : List (Option Value)} {more : Nat}
      (hoptional : field.isOptional = true)
      (hrest : SlotsSettled schema levels fields rest more) :
      SlotsSettled schema levels (field :: fields) (none :: rest) more

/-- A record as it is read. -/
structure Record.Settled (schema : Schema) (levels : Nat) (record : Record) (size : Nat) :
    Prop extends Record.Travels schema levels record where
  complete : record.Complete schema
  carried_eq : record.carried schema = record
  exists_image : ∃ data, record.image schema = .ok data ∧ data.length = size

/-! ## From the parts to the whole -/

theorem Value.nesting_of_isScalar {value : Value} (hscalar : value.IsScalar) :
    value.nesting = 0 := by
  cases value
  case record => cases hscalar
  case array => cases hscalar
  all_goals rw [Value.nesting]
  all_goals intros; contradiction

theorem Value.settled_of_isScalar {type : FieldType} {value : Value} {size : Nat}
    (hscalar : value.IsScalar) (hadmits : schema.admits type value = true)
    (hwhole : value.truncated = value) (hshort : value.IsShort)
    (hcarried : Value.carried schema type value = value)
    (himage : ∀ owner field, ∃ data,
      Value.image schema owner field type value = .ok data ∧ data.length = size) :
    value.Settled schema levels type size where
  admits := hadmits
  whole := hwhole
  typed := Value.throughout_scalar hscalar (Value.onRecords_of_isScalar hscalar)
  complete := Value.throughout_scalar hscalar (Value.onRecords_of_isScalar hscalar)
  bounded := Value.throughout_scalar hscalar hshort
  nesting_le := by
    rw [Value.nesting_of_isScalar hscalar]
    exact Nat.zero_le levels
  carried_eq := hcarried
  exists_image := himage

namespace Value.ItemsSettled

variable {element : FieldType} {items : List Value} {size : Nat}

theorem exists_of_mem (hitems : ItemsSettled schema levels element items size) :
    ∀ item ∈ items, ∃ width, item.Settled schema levels element width := by
  induction hitems with
  | nil => exact fun item hitem => absurd hitem List.not_mem_nil
  | cons hitem hrest ih => exact List.forall_mem_cons.mpr ⟨⟨_, hitem⟩, ih⟩

theorem truncated_eq (hitems : ItemsSettled schema levels element items size) :
    Value.truncatedItems items = items := by
  induction hitems with
  | nil => rfl
  | cons hitem hrest ih => rw [Value.truncatedItems, hitem.whole, ih]

theorem carried_eq (hitems : ItemsSettled schema levels element items size) :
    Value.carriedItems schema element items = items := by
  induction hitems with
  | nil => rw [Value.carriedItems]
  | cons hitem hrest ih => rw [Value.carriedItems, hitem.carried_eq, ih]

theorem exists_image (hitems : ItemsSettled schema levels element items size) (owner : String)
    (field : Field) :
    ∃ data, Value.itemsImage schema owner field element items = .ok data ∧
      data.length = size := by
  induction hitems with
  | nil => exact ⟨[], by rw [Value.itemsImage], rfl⟩
  | cons hitem hrest ih =>
      obtain ⟨front, hfront, hsize⟩ := hitem.exists_image owner field
      obtain ⟨back, hback, hmore⟩ := ih
      refine ⟨front ++ back, ?_, ?_⟩
      · rw [Value.itemsImage, hfront, hback, Image.join_ok]
      · rw [List.length_append, hsize, hmore]

theorem array (hitems : ItemsSettled schema levels element items size)
    (hshort : items.length < Writer.lengthBound) :
    (Value.array items).Settled schema levels (.array element) (lengthSize + size) := by
  have hall : ∀ item ∈ items, item.Travels schema levels element ∧ item.Complete schema := by
    intro item hitem
    obtain ⟨width, hsettled⟩ := hitems.exists_of_mem item hitem
    exact ⟨hsettled.toTravels, hsettled.complete⟩
  have hcomplete : (Value.array items).Complete schema :=
    Value.throughout_array trivial fun item hitem => (hall item hitem).2
  refine ⟨⟨⟨?_, ?_, ?_⟩, ?_, ?_⟩, hcomplete, ?_, ?_⟩
  · exact List.all_eq_true.mpr fun item hitem => (hall item hitem).1.admits
  · rw [Value.truncated, hitems.truncated_eq]
  · exact Value.throughout_array trivial fun item hitem => (hall item hitem).1.typed
  · exact Value.throughout_array hshort fun item hitem => (hall item hitem).1.bounded
  · rw [Value.nesting, Value.itemsNesting_le_iff]
    exact fun item hitem => (hall item hitem).1.nesting_le
  · rw [Value.carried, hitems.carried_eq]
  · intro owner field
    obtain ⟨data, hdata, hsize⟩ := hitems.exists_image owner field
    refine ⟨Wire.bigEndian 4 items.length ++ data, ?_, ?_⟩
    · rw [Value.image, hdata, Image.join_ok]
    · rw [List.length_append, Wire.length_bigEndian, hsize, lengthSize]

end Value.ItemsSettled

namespace Record.SlotsSettled

variable {fields : List Field} {slots : List (Option Value)} {size : Nat}

theorem slotHolds (hslots : SlotsSettled schema levels fields slots size) :
    List.Forall₂ (Field.SlotHolds fun type value =>
      ∃ width, value.Settled schema levels type width) fields slots := by
  induction hslots with
  | nil => exact .nil
  | filled hvalue hrest ih =>
      refine .cons ?_ ih
      intro held hheld
      cases hheld
      exact ⟨_, hvalue⟩
  | empty hoptional hrest ih =>
      refine .cons ?_ ih
      intro held hheld
      cases hheld

theorem forall₂_accepts (hslots : SlotsSettled schema levels fields slots size) :
    List.Forall₂ schema.Accepts fields slots := by
  refine hslots.slotHolds.imp ?_
  intro field slot hslot value hvalue
  obtain ⟨width, hsettled⟩ := hslot value hvalue
  exact ⟨hsettled.admits, hsettled.whole⟩

theorem slotsComplete (hslots : SlotsSettled schema levels fields slots size) :
    Record.SlotsComplete schema fields slots := by
  induction hslots with
  | nil => exact ⟨by simp, by simp⟩
  | filled hvalue hrest ih => exact Record.slotsComplete_some.mpr ⟨hvalue.complete, ih⟩
  | empty hoptional hrest ih => exact Record.slotsComplete_none.mpr ⟨hoptional, ih⟩

theorem exists_of_mem (hslots : SlotsSettled schema levels fields slots size) {held : Value}
    (hheld : some held ∈ slots) : ∃ type width, held.Settled schema levels type width := by
  obtain ⟨field, -, hslot⟩ := exists_field_of_mem hslots.slotHolds hheld
  exact ⟨field.type, hslot held rfl⟩

theorem typed (hslots : SlotsSettled schema levels fields slots size) :
    ∀ held, some held ∈ slots → held.WellTyped schema := by
  intro held hheld
  obtain ⟨type, width, hsettled⟩ := hslots.exists_of_mem hheld
  exact hsettled.typed

theorem bounded (hslots : SlotsSettled schema levels fields slots size) :
    ∀ held, some held ∈ slots → held.Bounded := by
  intro held hheld
  obtain ⟨type, width, hsettled⟩ := hslots.exists_of_mem hheld
  exact hsettled.bounded

theorem carried_eq (hslots : SlotsSettled schema levels fields slots size) :
    Record.carriedSlots schema fields slots = slots := by
  induction hslots with
  | nil => rw [Record.carriedSlots]
  | filled hvalue hrest ih => rw [Record.carriedSlots, hvalue.carried_eq, ih]
  | empty hoptional hrest ih => rw [Record.carriedSlots, ih]

theorem exists_image (hslots : SlotsSettled schema levels fields slots size) (owner : String) :
    ∃ data, Record.slotsImage schema owner fields slots = .ok data ∧ data.length = size := by
  induction hslots with
  | nil => exact ⟨[], by rw [Record.slotsImage], rfl⟩
  | @filled field fields value rest size more hvalue hrest ih =>
      obtain ⟨front, hfront, hsize⟩ := hvalue.exists_image owner field
      obtain ⟨back, hback, hmore⟩ := ih
      refine ⟨front ++ back, ?_, ?_⟩
      · rw [Record.slotsImage, hfront, hback, Image.join_ok]
      · rw [List.length_append, hsize, hmore]
  | empty hoptional hrest ih =>
      obtain ⟨data, hdata, hsize⟩ := ih
      refine ⟨data, ?_, hsize⟩
      rw [Record.slotsImage, hoptional, if_pos rfl]
      exact hdata

end Record.SlotsSettled

/-- How many bytes a type has besides the slots. -/
def ObjectType.overhead (type : ObjectType) : Nat :=
  (if type.layout.hasHeader then headerSize else 0) +
    ((if type.layout.hasKindTag then kindTagSize else 0) + type.layout.flagBytes)

theorem Record.SlotsSettled.record (hgraph : schema.graph.Coherent) {id : ObjectId}
    {slots : List (Option Value)} {size : Nat} (transaction : Option UInt32)
    (hslots : Record.SlotsSettled schema levels (schema.graph.object id).fields slots size) :
    (Record.mk schema.number id slots transaction).Settled schema levels
      ((schema.graph.object id).overhead + size) := by
  have haccepts := hslots.forall₂_accepts
  refine ⟨⟨?_, ?_, ?_⟩, (Record.complete_iff _).mpr hslots.slotsComplete, ?_, ?_⟩
  · exact Value.throughout_record ⟨rfl, haccepts⟩ hslots.typed
  · exact Value.throughout_record trivial hslots.bounded
  · rw [Record.nesting_le_iff]
    intro held hheld
    obtain ⟨type, width, hsettled⟩ := hslots.exists_of_mem hheld
    exact hsettled.nesting_le
  · rw [Record.carried, hslots.carried_eq]
  · obtain ⟨header, hheader, hheaderSize⟩ :=
      Image.length_eq_ok (ObjectType.length_headerImage hgraph id transaction)
    obtain ⟨body, hbody, hbodySize⟩ := hslots.exists_image (schema.graph.object id).name
    have hflags := ObjectType.length_flagBytes hgraph id haccepts
    refine ⟨header ++ ((schema.graph.object id).kindTagBytes ++
      ((FlagBits.ofBits (presenceBits (schema.graph.object id).fields slots)).bytes ++ body)),
      ?_, ?_⟩
    · rw [Record.image, hheader, hbody, Image.join_ok, Image.join_ok, Image.join_ok]
    · rw [List.length_append, List.length_append, List.length_append, hheaderSize,
        ObjectType.length_kindTagBytes, hflags, hbodySize, ObjectType.overhead]
      omega

/-! ## The readings -/

/-- Reading a nested object gives a record of the declared type, or one that inherits from it. -/
def Schema.ReadsNested (schema : Schema) (levels : Nat) (nested : ObjectId → Reading Record) :
    Prop :=
  ∀ declared, (schema.graph.object declared).isPayload = false →
    Yields (nested declared) fun record size =>
      schema.graph.isA record.type declared = true ∧ record.transaction = none ∧
        ∃ below < levels, record.Settled schema below size

theorem yields_itemsReading {read : Reading Value} {element : FieldType}
    (hread : Yields read fun value size => value.Settled schema levels element size)
    (count : Nat) :
    Yields (itemsReading read count) fun items size =>
      items.length = count ∧ Value.ItemsSettled schema levels element items size := by
  induction count with
  | zero => exact Reading.yields_pure ⟨rfl, .nil⟩
  | succ count ih =>
      rw [itemsReading]
      refine hread.bind fun item size hitem => ih.bind ?_
      rintro rest more ⟨hlength, hrest⟩
      exact Reading.yields_pure ⟨congrArg Nat.succ hlength, .cons hitem hrest⟩

theorem yields_readValue {nested : ObjectId → Reading Record}
    (hnested : schema.ReadsNested levels nested) (type : FieldType)
    (hinner : schema.graph.IsInner type) :
    Yields (readValue schema.graph nested type) fun value size =>
      value.Settled schema levels type size := by
  induction type with
  | primitive kind =>
      rw [readValue]
      refine (Primitive.yields_readPrimitive kind).mono ?_
      rintro value size ⟨hadmits, hwhole, rfl⟩
      have hscalar := Primitive.isScalar_of_admits hadmits
      exact Value.settled_of_isScalar hscalar.1 hadmits hwhole hscalar.2
        (Value.carried_primitive kind value)
        fun owner field => Value.image_of_staticSize? owner field rfl hadmits
  | text =>
      rw [readValue]
      refine (Reading.yields_text.mono ?_).map Value.text
      rintro words size ⟨hshort, rfl⟩
      refine Value.settled_of_isScalar trivial rfl rfl hshort rfl fun owner field => ⟨_, rfl, ?_⟩
      rw [List.length_append, Wire.length_bigEndian, Text.length_utf8, lengthSize]
  | binary length =>
      rw [readValue]
      refine ((Reading.yields_bytes length).mono ?_).map Value.binary
      rintro data size ⟨hlength, rfl⟩
      have hfitted : Writer.fitted data size = data := by
        rw [Writer.fitted, hlength, Nat.sub_self, List.replicate_zero, List.append_nil, ← hlength,
          List.take_length]
      refine Value.settled_of_isScalar trivial rfl rfl trivial ?_
        fun owner field => Value.image_of_staticSize? owner field rfl rfl
      rw [Value.carried, hfitted]
  | enum id =>
      rw [readValue]
      refine ((EnumType.yields_readOrdinal _).mono ?_).map Value.ordinal
      rintro ordinal size ⟨hrange, rfl⟩
      have hadmits : schema.admits (.enum id) (.ordinal ordinal) = true := decide_eq_true hrange
      exact Value.settled_of_isScalar trivial hadmits rfl trivial rfl
        fun owner field => Value.image_of_staticSize? owner field rfl hadmits
  | object id =>
      rw [readValue]
      refine ((hnested id (hinner id rfl)).mono ?_).map Value.record
      rintro ⟨number, concrete, slots, transaction⟩ size
        ⟨hisA, htransaction, below, hbelow, hsettled⟩
      cases htransaction
      refine ⟨⟨⟨?_, rfl, hsettled.typed⟩, hsettled.bounded, ?_⟩, hsettled.complete, ?_, ?_⟩
      · exact Bool.and_eq_true_iff.mpr ⟨beq_of_eq hsettled.typed.self.schema_eq, hisA⟩
      · rw [Value.nesting]
        exact Nat.lt_of_le_of_lt hsettled.nesting_le hbelow
      · rw [Value.carried, hsettled.carried_eq]
      · intro owner field
        rw [Value.image]
        exact hsettled.exists_image
  | array element ih =>
      rw [readValue]
      refine Reading.yields_length.bind ?_
      rintro count size ⟨hcount, rfl⟩
      rw [readItems_eq]
      simp only [List.reverse_nil, List.nil_append, id_map']
      refine (yields_itemsReading (ih hinner) count).bind ?_
      rintro items size ⟨rfl, hitems⟩
      exact Reading.yields_pure (hitems.array hcount)

/-- Whatever the presence bits are, the slots of optional fields are filled or empty, and those of
required fields are filled. -/
theorem yields_slotsReading {read : FieldType → Reading Value} (flags : FlagBits)
    (fields : List Field)
    (hread : ∀ field ∈ fields, Yields (read field.type) fun value size =>
      value.Settled schema levels field.type size) :
    Yields (slotsReading read flags fields) fun slots size =>
      Record.SlotsSettled schema levels fields slots size := by
  induction fields generalizing flags with
  | nil => exact Reading.yields_pure .nil
  | cons field rest ih =>
      obtain ⟨hfield, hrest⟩ := List.forall_mem_cons.mp hread
      cases htaken : (if field.isOptional then flags.next else (true, flags)) with
      | mk present left =>
          cases present with
          | true =>
              rw [slotsReading_of_present htaken]
              refine hfield.bind fun value size hvalue => (ih left hrest).bind ?_
              intro slots more hslots
              exact Reading.yields_pure (.filled hvalue hslots)
          | false =>
              have hoptional := Field.isOptional_of_absent htaken
              rw [slotsReading_of_absent htaken]
              exact ((ih left hrest).mono fun slots size hslots => .empty hoptional hslots).map _

theorem yields_readBody (hgraph : schema.graph.Coherent) {nested : ObjectId → Reading Record}
    (hnested : schema.ReadsNested levels nested) (id : ObjectId) :
    Yields (EStateM.adaptExcept Interruption.cause
        ((schema.graph.object id).readBody (readValue schema.graph nested)))
      fun slots size => ∃ body, size = (schema.graph.object id).layout.flagBytes + body ∧
        Record.SlotsSettled schema levels (schema.graph.object id).fields slots body := by
  rw [ObjectType.readBody_eq]
  refine (FlagBits.yields_read _).bind ?_
  rintro flags size rfl
  have hslots := yields_slotsReading flags (schema.graph.object id).fields fun field hfield =>
    yields_readValue hnested field.type (hgraph.isPayload_target id field hfield)
  exact hslots.mono fun slots body hslots => ⟨body, rfl, hslots⟩

theorem yields_readConcreteType (hgraph : schema.graph.Coherent) (declared : ObjectId) :
    Yields (schema.graph.readConcreteType declared) fun id size =>
      schema.graph.isA id declared = true ∧
        size = if (schema.graph.object id).layout.hasKindTag then kindTagSize else 0 := by
  unfold Graph.readConcreteType
  cases hfamily : (schema.graph.object declared).isPolymorphic with
  | false =>
      have hisA := schema.graph.isA_self declared
      refine Reading.yields_pure ⟨hisA, ?_⟩
      rw [hgraph.hasKindTag_of_isA hisA, hfamily, if_neg Bool.false_ne_true]
  | true =>
      refine Reading.yields_uint32.bind ?_
      rintro tag size rfl
      have hisA := schema.graph.isA_concreteType declared tag
      refine Reading.yields_pure ⟨hisA, ?_⟩
      rw [hgraph.hasKindTag_of_isA hisA, hfamily, if_pos rfl, kindTagSize]

theorem readsNested_readObject (hgraph : schema.graph.Coherent) (levels : Nat) :
    schema.ReadsNested levels (schema.readObject levels) := by
  induction levels with
  | zero =>
      intro declared hpayload reader record left hrun
      cases hrun
  | succ levels ih =>
      intro declared hpayload
      rw [Schema.readObject]
      refine (yields_readConcreteType hgraph declared).bind ?_
      rintro id size ⟨hisA, rfl⟩
      refine (yields_readBody hgraph ih id).bind ?_
      rintro slots size ⟨body, rfl, hslots⟩
      refine Reading.yields_pure ⟨hisA, rfl, levels, Nat.lt_succ_self levels, ?_⟩
      have hsettled := hslots.record hgraph none
      rw [ObjectType.overhead, hgraph.not_hasHeader_of_isA hisA hpayload,
        if_neg Bool.false_ne_true, Nat.zero_add, Nat.add_assoc] at hsettled
      exact hsettled

theorem yields_decodePayload (hgraph : schema.graph.Coherent) :
    Yields schema.decodePayload fun record size =>
      (schema.graph.object record.type).isPayload = true ∧
        (∃ transaction, record.transaction = some transaction) ∧
          record.Settled schema (depthLimit - 1) size := by
  rw [Schema.decodePayload]
  refine Reading.yields_uint32.bind ?_
  rintro command size rfl
  cases hselects : schema.graph.byWireId? command with
  | none => exact Reading.yields_throw _ _
  | some id =>
      obtain ⟨hpayload, hwire⟩ := hgraph.of_byWireId? command id hselects
      refine Reading.yields_uint32.bind ?_
      rintro transaction size rfl
      refine (yields_readBody hgraph (readsNested_readObject hgraph (depthLimit - 1)) id).bind ?_
      rintro slots size ⟨body, rfl, hslots⟩
      refine Reading.yields_pure ⟨hpayload, ⟨transaction, rfl⟩, ?_⟩
      have hsettled := hslots.record hgraph (some transaction)
      have hheader : (schema.graph.object id).layout.hasHeader = true :=
        (hgraph.hasHeader_eq id).trans hpayload
      rw [ObjectType.overhead, hheader, if_pos rfl, hgraph.hasKindTag_of_isPayload hpayload,
        if_neg Bool.false_ne_true, Nat.zero_add, Nat.add_assoc] at hsettled
      have hsize : headerSize + ((schema.graph.object id).layout.flagBytes + body) =
          4 + (4 + ((schema.graph.object id).layout.flagBytes + body + 0)) := by
        rw [headerSize]
        omega
      rw [hsize] at hsettled
      exact hsettled

/-! ## Normal forms -/

/-- A record that was read from a number of bytes: it fits its type and is complete at every level,
its size is that number, as a 64-bit one, and the bytes that are written for it are read as the same
record. -/
structure Record.Normal (schema : Schema) (reading : Reading Record) (record : Record)
    (size : Nat) : Prop where
  typed : record.WellTyped schema
  complete : record.Complete schema
  nesting_le : record.nesting ≤ 63
  encodedSize_eq : record.encodedSize schema = .ok (.ofNat size)
  exists_data : ∃ data : List UInt8, data.length = size ∧
    (∀ writer : Writer, size ≤ writer.remaining →
      record.encode schema writer = .ok () (writer.advance data)) ∧
    ∀ offset rest, reading ⟨offset, data ++ rest⟩ = .ok record ⟨offset + size, rest⟩

theorem Record.Settled.normal (hgraph : schema.graph.Coherent) {reading : Reading Record}
    {record : Record} {size : Nat} (hsettled : record.Settled schema (depthLimit - 1) size)
    (hrecovers : ∀ data, record.image schema = .ok data →
      Reading.Recovers reading data record) : record.Normal schema reading size := by
  obtain ⟨data, hdata, rfl⟩ := hsettled.exists_image
  have hemits := Record.emits_encode schema record
  rw [hdata] at hemits
  refine ⟨hsettled.typed, hsettled.complete, hsettled.nesting_le, ?_, data, rfl, ?_, ?_⟩
  · rw [Record.encodedSize_eq hgraph record hsettled.typed, hdata, Image.size_ok]
  · exact fun writer hroom => hemits.run hsettled.bounded hroom
  · exact hrecovers data hdata

theorem Schema.exists_command_of_decodePayload {reader left : Reader} {record : Record}
    (hrun : schema.decodePayload reader = .ok record left) :
    ∃ command middle, Reader.uint32 reader = .ok command middle ∧
      schema.graph.byWireId? command = some record.type := by
  rw [Schema.decodePayload] at hrun
  obtain ⟨command, middle, hcommand, hrun⟩ := Action.bind_eq_ok hrun
  refine ⟨command, middle, hcommand, ?_⟩
  cases hselects : schema.graph.byWireId? command with
  | none =>
      rw [hselects] at hrun
      cases hrun
  | some id =>
      rw [hselects] at hrun
      obtain ⟨transaction, behind, -, hrun⟩ := Action.bind_eq_ok hrun
      obtain ⟨slots, last, -, hrun⟩ := Action.bind_eq_ok hrun
      cases hrun
      rfl

/-- Reading brings any bytes into a normal form, wherever they start.  An object read in place of a
declared type is of that type or inherits from it, a payload is of the type that the number in
front of it selects, and both are read again from what is written for them.  They are read from no
more bytes than there are, so 64 bits hold their sizes unless there are more bytes than 64 bits
count. -/
theorem Schema.normal_of_decode {documents : List Document}
    (hcompile : Graph.compile documents = .ok schema.graph) (reader : Reader) :
    (∀ declared record left, (schema.graph.object declared).isPayload = false →
      schema.decodeObject declared reader = .ok record left →
        ∃ size ≤ reader.remaining, left.offset = reader.offset + size ∧
          schema.graph.isA record.type declared = true ∧
          record.Normal schema (schema.decodeObject declared) size) ∧
    ∀ record left, schema.decodePayload reader = .ok record left →
      ∃ size ≤ reader.remaining, left.offset = reader.offset + size ∧
        (∃ command middle, Reader.uint32 reader = .ok command middle ∧
          schema.graph.byWireId? command = some record.type) ∧
        record.Normal schema schema.decodePayload size := by
  have hgraph := Graph.coherent_of_compile hcompile
  constructor
  · intro declared record left hpayload hrun
    obtain ⟨size, hsize, hoffset, hisA, htransaction, below, hbelow, hsettled⟩ :=
      (streams_readObject schema depthLimit declared).size_le
        (readsNested_readObject hgraph depthLimit declared hpayload) hrun
    have hsettled : record.Settled schema (depthLimit - 1) size :=
      { hsettled with nesting_le := Nat.le_trans hsettled.nesting_le (Nat.le_pred_of_lt hbelow) }
    refine ⟨size, hsize, hoffset, hisA, hsettled.normal hgraph fun data hdata => ?_⟩
    have hrecovers := Record.recovers_readObject hgraph (depthLimit - 1) declared record data hisA
      hpayload hsettled.toTravels hdata
    rw [hsettled.carried_eq] at hrecovers
    obtain ⟨number, id, slots, transaction⟩ := record
    cases htransaction
    exact hrecovers
  · intro record left hrun
    obtain ⟨size, hsize, hoffset, hpayload, ⟨transaction, htransaction⟩, hsettled⟩ :=
      (streams_decodePayload schema).size_le (yields_decodePayload hgraph) hrun
    refine ⟨size, hsize, hoffset, Schema.exists_command_of_decodePayload hrun,
      hsettled.normal hgraph fun data hdata => ?_⟩
    have hrecovers := Record.recovers_decodePayload hgraph hpayload hsettled.toTravels hdata
    rw [hsettled.carried_eq, htransaction] at hrecovers
    obtain ⟨number, id, slots, own⟩ := record
    cases htransaction
    exact hrecovers

namespace Sample

/-- A node with a kind tag that no type has, and with presence bits that belong to no field. -/
def strangeNode : List UInt8 := [255, 255, 255, 255, 254, 1, 2, 3, 4]

theorem normal_strangeNode :
    ∃ record left, Sample.schema.decodeObject ⟨0⟩ ⟨3, strangeNode ++ [0, 0]⟩ = .ok record left ∧
      ∃ size : Nat, left.offset = 3 + size ∧
        record.encodedSize Sample.schema = .ok (.ofNat size) := by
  have hread : Action.succeeded
      (Sample.schema.decodeObject ⟨0⟩ ⟨3, strangeNode ++ [0, 0]⟩) = true := by decide +kernel
  obtain ⟨record, left, hrun⟩ := Action.exists_ok hread
  obtain ⟨size, -, hoffset, -, hnormal⟩ :=
    (Schema.normal_of_decode compile_documents ⟨3, strangeNode ++ [0, 0]⟩).1 ⟨0⟩ record left
      (by decide +kernel) hrun
  exact ⟨record, left, hrun, size, hoffset, hnormal.encodedSize_eq⟩

end Sample

end WireSchema
