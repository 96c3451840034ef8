import WireSchema.Proofs.Scalars

/-!
# Items at a cursor

What goes into a buffer at once is an item: a number, a truth value, bytes, bytes of a fixed
length, a text or a count.  Items are written one after another from where a writer stands.  The
writer moves forward only, stays within its buffer and leaves the bytes around its way as they
are, also if an item does not fit.  If all items fit, a reader that starts where the writer started
and is asked for the same kinds finds them again, and ends where the writer ended.
-/

namespace WireSchema

/-- What is written at once.  Bytes of a fixed length come with the length. -/
inductive Item where
  | int8 (value : Int8)
  | uint8 (value : UInt8)
  | int16 (value : Int16)
  | uint16 (value : UInt16)
  | int32 (value : Int32)
  | uint32 (value : UInt32)
  | int64 (value : Int64)
  | uint64 (value : UInt64)
  | float (value : Number.Binary32)
  | double (value : Number.Binary64)
  | bool (value : Bool)
  | bytes (data : List UInt8)
  | text (value : String)
  | binary (data : List UInt8) (length : Nat)
  | count (number : Nat)
  deriving DecidableEq, Repr

/-- What a reader is asked for: bytes by their number, everything else by its kind alone. -/
inductive ItemKind where
  | int8
  | uint8
  | int16
  | uint16
  | int32
  | uint32
  | int64
  | uint64
  | float
  | double
  | bool
  | bytes (size : Nat)
  | text
  | count
  deriving DecidableEq, Repr

def ItemKind.read : ItemKind → Reading Item
  | .int8 => .int8 <$> Reader.int8
  | .uint8 => .uint8 <$> Reader.uint8
  | .int16 => .int16 <$> Reader.int16
  | .uint16 => .uint16 <$> Reader.uint16
  | .int32 => .int32 <$> Reader.int32
  | .uint32 => .uint32 <$> Reader.uint32
  | .int64 => .int64 <$> Reader.int64
  | .uint64 => .uint64 <$> Reader.uint64
  | .float => .float <$> Reader.float
  | .double => .double <$> Reader.double
  | .bool => .bool <$> Reader.bool
  | .bytes size => .bytes <$> Reader.bytes size
  | .text => .text <$> Reader.text
  | .count => .count <$> Reader.length

namespace Item

def write : Item → Writing Unit
  | .int8 value => Writer.int8 value
  | .uint8 value => Writer.uint8 value
  | .int16 value => Writer.int16 value
  | .uint16 value => Writer.uint16 value
  | .int32 value => Writer.int32 value
  | .uint32 value => Writer.uint32 value
  | .int64 value => Writer.int64 value
  | .uint64 value => Writer.uint64 value
  | .float value => Writer.float value
  | .double value => Writer.double value
  | .bool value => Writer.bool value
  | .bytes data => Writer.bytes data
  | .text value => Writer.text value
  | .binary data length => Writer.binary data length
  | .count number => Writer.length number

/-- The kind that an item is read back as.  Bytes of a fixed length are bytes like others. -/
def kind : Item → ItemKind
  | .int8 _ => .int8
  | .uint8 _ => .uint8
  | .int16 _ => .int16
  | .uint16 _ => .uint16
  | .int32 _ => .int32
  | .uint32 _ => .uint32
  | .int64 _ => .int64
  | .uint64 _ => .uint64
  | .float _ => .float
  | .double _ => .double
  | .bool _ => .bool
  | .bytes data => .bytes data.length
  | .text _ => .text
  | .binary _ length => .bytes length
  | .count _ => .count

/-- An item as it arrives: bytes of a fixed length are cut or filled up. -/
def arrived : Item → Item
  | .binary data length => .bytes (Writer.fitted data length)
  | item => item

/-- The bytes of an item. -/
def image : Item → List UInt8
  | .int8 value => Wire.bigEndian 1 value.toUInt8.toNat
  | .uint8 value => Wire.bigEndian 1 value.toNat
  | .int16 value => Wire.bigEndian 2 value.toUInt16.toNat
  | .uint16 value => Wire.bigEndian 2 value.toNat
  | .int32 value => Wire.bigEndian 4 value.toUInt32.toNat
  | .uint32 value => Wire.bigEndian 4 value.toNat
  | .int64 value => Wire.bigEndian 8 value.toUInt64.toNat
  | .uint64 value => Wire.bigEndian 8 value.toNat
  | .float value => Wire.bigEndian 4 value.bits.toNat
  | .double value => Wire.bigEndian 8 value.bits.toNat
  | .bool value => Wire.bigEndian 1 (if value then 1 else 0 : UInt8).toNat
  | .bytes data => data
  | .text value => Wire.bigEndian 4 value.utf8ByteSize ++ Text.utf8 value
  | .binary data length => Writer.fitted data length
  | .count number => Wire.bigEndian 4 number

/-- Whether the length or count of an item can be written at all. -/
def Fits : Item → Prop
  | .text value => value.utf8ByteSize < Writer.lengthBound
  | .count number => number < Writer.lengthBound
  | _ => True

/-- Writes items one after another, up to the first that cannot be written. -/
def writeAll : List Item → Writing Unit
  | [] => pure ()
  | item :: rest => do
    item.write
    writeAll rest

/-- The writer that an item leaves behind, written or not. -/
def attempt (item : Item) (writer : Writer) : Writer :=
  match item.write writer with
  | .ok _ left => left
  | .error _ left => left

/-- Attempts items one after another, whether or not those before were written. -/
def attemptEach (items : List Item) (writer : Writer) : Writer :=
  items.foldl (fun writer item => item.attempt writer) writer

end Item

/-- A reader that stands at an offset in a buffer. -/
def Reader.within (buffer : List UInt8) (offset : Nat) : Reader := ⟨offset, buffer.drop offset⟩

/-! ## What a writer leaves alone -/

namespace Writer

variable {writer : Writer}

/-- A writer further on in the same buffer, in which only bytes between the two have changed. -/
structure Extends (later earlier : Writer) : Prop where
  offset_le : earlier.offset ≤ later.offset
  inside : later.offset ≤ later.buffer.length
  length_eq : later.buffer.length = earlier.buffer.length
  before : later.buffer.take earlier.offset = earlier.buffer.take earlier.offset
  behind : later.buffer.drop later.offset = earlier.buffer.drop later.offset

theorem offset_le_length (writer : Writer) : writer.offset ≤ writer.buffer.length := by
  simp [offset, buffer]

theorem Extends.refl (writer : Writer) : writer.Extends writer :=
  ⟨Nat.le_refl _, writer.offset_le_length, rfl, rfl, rfl⟩

theorem Extends.trans {first second third : Writer} (hlater : third.Extends second)
    (hearlier : second.Extends first) : third.Extends first where
  offset_le := Nat.le_trans hearlier.offset_le hlater.offset_le
  inside := hlater.inside
  length_eq := hlater.length_eq.trans hearlier.length_eq
  before := by
    have hle := Nat.min_eq_left hearlier.offset_le
    rw [← hle, ← List.take_take, hlater.before, List.take_take, hle, hearlier.before]
  behind := by
    have hsplit := Nat.add_sub_of_le hlater.offset_le
    rw [hlater.behind, ← hsplit, ← List.drop_drop, hearlier.behind, List.drop_drop]

theorem buffer_advance (writer : Writer) (data : List UInt8) :
    (writer.advance data).buffer =
      writer.written.reverse ++ (data ++ writer.ahead.drop data.length) := by
  simp [advance, buffer]

theorem extends_advance {data : List UInt8} (hroom : data.length ≤ writer.remaining) :
    (writer.advance data).Extends writer := by
  have hoffset : writer.offset = writer.written.reverse.length := by simp [offset]
  have hlength : (data ++ writer.ahead.drop data.length).length = writer.ahead.length := by
    rw [List.length_append, List.length_drop]
    exact Nat.add_sub_of_le hroom
  refine ⟨?_, offset_le_length _, ?_, ?_, ?_⟩
  · rw [offset_advance]
    exact Nat.le_add_right _ _
  · rw [buffer_advance, List.length_append, hlength, buffer, List.length_append]
  · rw [buffer_advance, hoffset, List.take_left, buffer, List.take_left]
  · rw [buffer_advance, offset_advance, hoffset, buffer, ← List.drop_drop, ← List.drop_drop,
      List.drop_left, List.drop_left, List.drop_left]

theorem ahead_eq (writer : Writer) : writer.ahead = writer.buffer.drop writer.offset := by
  have hoffset : writer.offset = writer.written.reverse.length := by simp [offset]
  rw [buffer, hoffset, List.drop_left]

/-- The buffer from the old offset on: the bytes written, then those ahead. -/
theorem drop_buffer_advance (writer : Writer) (data : List UInt8) :
    (writer.advance data).buffer.drop writer.offset = data ++ (writer.advance data).ahead := by
  have hoffset : writer.offset = writer.written.reverse.length := by simp [offset]
  rw [buffer_advance, hoffset, List.drop_left]
  rfl

end Writer

/-! ## Single items -/

namespace Item

variable {writer left : Writer}

/-- How the writing of an item ends: all of it is written, nothing is, or of a text the length
alone. -/
inductive Ends (item : Item) (writer : Writer) : Prop where
  | whole (hfits : item.Fits) (hroom : item.image.length ≤ writer.remaining)
      (hrun : item.write writer = .ok () (writer.advance item.image))
  | refused (failure : Failure) (hrun : item.write writer = .error failure writer)
  | cut (value : String) (failure : Failure) (left : Writer) (hitem : item = .text value)
      (hlength : Writer.length (Text.utf8 value).length writer = .ok () left)
      (hrun : item.write writer = .error failure left)

theorem ends_of_bytes {item : Item} (hfits : item.Fits)
    (hwrite : item.write = Writer.bytes item.image) (writer : Writer) : item.Ends writer := by
  by_cases hroom : writer.remaining < item.image.length
  · refine .refused (.fault (.writeOverflow writer.offset item.image.length)) ?_
    rw [hwrite, Writer.bytes_eq, if_pos hroom]
  · refine .whole hfits (Nat.not_lt.mp hroom) ?_
    rw [hwrite, Writer.bytes_eq, if_neg hroom]

theorem write_count_of_lt {number : Nat} (hnumber : number < Writer.lengthBound)
    (writer : Writer) : (count number).write writer = Writer.bytes (count number).image writer := by
  rw [write, Writer.length, if_pos hnumber]
  rfl

theorem ends_count (number : Nat) (writer : Writer) : (count number).Ends writer := by
  by_cases hnumber : number < Writer.lengthBound
  · by_cases hroom : writer.remaining < (count number).image.length
    · refine .refused (.fault (.writeOverflow writer.offset (count number).image.length)) ?_
      rw [write_count_of_lt hnumber, Writer.bytes_eq, if_pos hroom]
    · refine .whole hnumber (Nat.not_lt.mp hroom) ?_
      rw [write_count_of_lt hnumber, Writer.bytes_eq, if_neg hroom]
  · refine .refused (.fault (.writeOverflow writer.offset number)) ?_
    rw [write, Writer.length, if_neg hnumber]

/-- A text is its length and its bytes; the length is left behind if only it has room. -/
theorem ends_text (value : String) (writer : Writer) : (text value).Ends writer := by
  have hwrite : (text value).write writer =
      (Writer.length (Text.utf8 value).length >>= fun _ => Writer.bytes (Text.utf8 value))
        writer := rfl
  have hsize := Text.length_utf8 value
  cases ends_count (Text.utf8 value).length writer with
  | refused failure hrun => exact .refused failure (hwrite.trans (Action.bind_of_error hrun))
  | cut other failure left hitem => cases hitem
  | whole hfits hroom hrun =>
      have hnext := hwrite.trans (Action.bind_of_ok hrun)
      rw [Writer.bytes_eq] at hnext
      split at hnext
      · exact .cut value _ _ rfl hrun hnext
      next henough =>
        rw [hsize] at hfits hroom hnext henough
        rw [Writer.remaining_advance] at henough
        refine .whole hfits ?_ ?_
        · change (Wire.bigEndian 4 value.utf8ByteSize).length ≤ writer.remaining at hroom
          change ¬ writer.remaining - (Wire.bigEndian 4 value.utf8ByteSize).length < _ at henough
          rw [image, List.length_append, hsize]
          omega
        · rw [hnext, image, Writer.advance_append]
          rfl

theorem ends_binary (data : List UInt8) (width : Nat) (writer : Writer) :
    (binary data width).Ends writer := by
  have hwrite : (binary data width).write writer = Writer.binary data width writer := rfl
  rw [Writer.binary_eq] at hwrite
  split at hwrite
  · -- Whether the end of the field is beyond 64 bits decides only what the failure is.
    split at hwrite
    · exact .refused _ hwrite
    · exact .refused _ hwrite
  next henough =>
    refine .whole trivial ?_ hwrite
    rw [image, Writer.length_fitted]
    exact Nat.le_of_not_lt henough

theorem ends (item : Item) (writer : Writer) : item.Ends writer := by
  cases item
  case text value => exact ends_text value writer
  case count number => exact ends_count number writer
  case binary data width => exact ends_binary data width writer
  all_goals exact ends_of_bytes (by exact trivial) (by rfl) writer

theorem extends_attempt (item : Item) (writer : Writer) :
    (item.attempt writer).Extends writer := by
  unfold attempt
  cases item.ends writer with
  | whole hfits hroom hrun =>
      rw [hrun]
      exact Writer.extends_advance hroom
  | refused failure hrun =>
      rw [hrun]
      exact .refl writer
  | cut value failure left hitem hlength hrun =>
      rw [hrun]
      cases ends_count (Text.utf8 value).length writer with
      | whole hfits hroom hrun' =>
          cases hlength.symm.trans hrun'
          exact Writer.extends_advance hroom
      | refused failure' hrun' => cases hlength.symm.trans hrun'
      | cut other failure' left' hitem' => cases hitem'

end Item

/-! ## Reading items back -/

namespace Reading

theorem recovers_uint16 (value : UInt16) :
    Recovers Reader.uint16 (Wire.bigEndian 2 value.toNat) value := by
  have hword : Recovers (Reader.word 2) (Wire.bigEndian 2 value.toNat) value.toNat :=
    recovers_word value.toNat_lt
  have hvalue := hword.bind_pure UInt16.ofNat
  rw [UInt16.ofNat_toNat] at hvalue
  exact hvalue

theorem recovers_uint64 (value : UInt64) :
    Recovers Reader.uint64 (Wire.bigEndian 8 value.toNat) value := by
  have hword : Recovers (Reader.word 8) (Wire.bigEndian 8 value.toNat) value.toNat :=
    recovers_word value.toNat_lt
  have hvalue := hword.bind_pure UInt64.ofNat
  rw [UInt64.ofNat_toNat] at hvalue
  exact hvalue

theorem recovers_bool (value : Bool) :
    Recovers Reader.bool (Wire.bigEndian 1 (if value then 1 else 0 : UInt8).toNat) value := by
  have hbyte := (recovers_uint8 (if value then 1 else 0)).bind_pure (· == 1)
  cases value <;> exact hbyte

end Reading

namespace Item

theorem recovers_read {item : Item} (hfits : item.Fits) :
    Reading.Recovers item.kind.read item.image item.arrived := by
  cases item
  case int8 value =>
    exact ((Reading.recovers_uint8 value.toUInt8).bind_pure UInt8.toInt8).map Item.int8
  case uint8 value => exact (Reading.recovers_uint8 value).map Item.uint8
  case int16 value =>
    exact ((Reading.recovers_uint16 value.toUInt16).bind_pure UInt16.toInt16).map Item.int16
  case uint16 value => exact (Reading.recovers_uint16 value).map Item.uint16
  case int32 value =>
    exact ((Reading.recovers_uint32 value.toUInt32).bind_pure UInt32.toInt32).map Item.int32
  case uint32 value => exact (Reading.recovers_uint32 value).map Item.uint32
  case int64 value =>
    exact ((Reading.recovers_uint64 value.toUInt64).bind_pure UInt64.toInt64).map Item.int64
  case uint64 value => exact (Reading.recovers_uint64 value).map Item.uint64
  case float value =>
    exact ((Reading.recovers_uint32 value.bits).bind_pure Number.Binary32.mk).map Item.float
  case double value =>
    exact ((Reading.recovers_uint64 value.bits).bind_pure Number.Binary64.mk).map Item.double
  case bool value => exact (Reading.recovers_bool value).map Item.bool
  case bytes data => exact (Reading.recovers_bytes data).map Item.bytes
  case text value => exact (Reading.recovers_text hfits).map Item.text
  case binary data width =>
    have hread := (Reading.recovers_bytes (Writer.fitted data width)).map Item.bytes
    rw [Writer.length_fitted] at hread
    exact hread
  case count number => exact (Reading.recovers_length hfits).map Item.count

/-! ## Sequences of items -/

variable {items : List Item} {writer left : Writer}

theorem extends_attemptEach (items : List Item) (writer : Writer) :
    (attemptEach items writer).Extends writer := by
  induction items generalizing writer with
  | nil => exact .refl writer
  | cons item rest ih =>
      exact (ih (item.attempt writer)).trans (item.extends_attempt writer)

theorem attemptEach_append (front back : List Item) (writer : Writer) :
    attemptEach (front ++ back) writer = attemptEach back (attemptEach front writer) :=
  List.foldl_append

/-- Items that are all written have their bytes one after another. -/
theorem advance_of_writeAll (hrun : writeAll items writer = .ok () left) :
    (∀ item ∈ items, item.Fits) ∧ left = writer.advance (items.flatMap image) ∧
      left = attemptEach items writer := by
  induction items generalizing writer with
  | nil =>
      cases hrun
      exact ⟨by simp, rfl, rfl⟩
  | cons item rest ih =>
      obtain ⟨_, middle, hitem, hrest⟩ := Action.bind_eq_ok hrun
      cases item.ends writer with
      | whole hfits hroom hwrite =>
          cases hitem.symm.trans hwrite
          obtain ⟨hall, hleft, hattempt⟩ := ih hrest
          refine ⟨List.forall_mem_cons.mpr ⟨hfits, hall⟩, ?_, ?_⟩
          · rw [hleft, List.flatMap_cons, Writer.advance_append]
          · change left = attemptEach rest (item.attempt writer)
            rw [attempt, hwrite, ← hattempt]
      | refused failure hwrite => cases hitem.symm.trans hwrite
      | cut value failure left _ _ hwrite => cases hitem.symm.trans hwrite

theorem recovers_mapM (hfits : ∀ item ∈ items, item.Fits) :
    Reading.Recovers ((items.map kind).mapM ItemKind.read) (items.flatMap image)
      (items.map arrived) := by
  induction items with
  | nil => exact Reading.recovers_pure []
  | cons item rest ih =>
      rw [List.forall_mem_cons] at hfits
      rw [List.map_cons, List.mapM_cons]
      exact (recovers_read hfits.1).bind ((ih hfits.2).bind_pure (item.arrived :: ·))

/-- Whatever items are written, the writer moves on within its buffer, at each item and over all of
them, and leaves the rest of the buffer as it is.  An item that does not fit leaves nothing behind,
or of a text the length.  If all items are written, a reader that starts where the writer started
finds them as they arrive and ends where the writer ended. -/
theorem read_written (items : List Item) (writer : Writer) :
    (attemptEach items writer).Extends writer ∧
    (∀ front back, items = front ++ back →
      (attemptEach items writer).Extends (attemptEach front writer)) ∧
    (∀ (item : Item) failure left, item.write (attemptEach items writer) = .error failure left →
      left = attemptEach items writer ∨ ∃ value, item = text value ∧
        Writer.length (Text.utf8 value).length (attemptEach items writer) = .ok () left) ∧
    ∀ left, writeAll items writer = .ok () left →
      left = attemptEach items writer ∧
      (items.map kind).mapM ItemKind.read (Reader.within left.buffer writer.offset) =
        .ok (items.map arrived) (Reader.within left.buffer left.offset) := by
  refine ⟨extends_attemptEach items writer, ?_, ?_, ?_⟩
  · rintro front back rfl
    rw [attemptEach_append]
    exact extends_attemptEach back _
  · intro item failure left hrun
    cases item.ends (attemptEach items writer) with
    | whole hfits hroom hwrite => cases hrun.symm.trans hwrite
    | refused failure' hwrite =>
        cases hrun.symm.trans hwrite
        exact .inl rfl
    | cut value failure' left' hitem hlength hwrite =>
        cases hrun.symm.trans hwrite
        exact .inr ⟨value, hitem, hlength⟩
  · intro left hrun
    obtain ⟨hfits, hleft, hattempt⟩ := advance_of_writeAll hrun
    have hread := recovers_mapM hfits writer.offset left.ahead
    refine ⟨hattempt, ?_⟩
    rw [Reader.within, Reader.within, ← Writer.ahead_eq]
    subst hleft
    rw [Writer.drop_buffer_advance, hread, Writer.offset_advance]

end Item

namespace Sample

/-- Items of every width, among them bytes that are filled up and bytes that are cut. -/
def parcel : List Item :=
  [.uint32 0x01020304, .int16 (-2), .text "hé", .binary [1, 2] 4, .binary [1, 2, 3] 2,
    .bool true, .count 7, .double ⟨0x7ff8000000000001⟩]

/-- A writer at offset 2 of a buffer of 37 bytes, more than the parcel needs. -/
def desk : Writer := ⟨[8, 9], List.replicate 35 0xee⟩

theorem read_parcel : ∃ left, Item.writeAll parcel desk = .ok () left ∧
    (parcel.map Item.kind).mapM ItemKind.read (Reader.within left.buffer 2) =
      .ok [.uint32 0x01020304, .int16 (-2), .text "hé", .bytes [1, 2, 0, 0], .bytes [1, 2],
        .bool true, .count 7, .double ⟨0x7ff8000000000001⟩]
        (Reader.within left.buffer left.offset) := by
  have hfits : Action.succeeded (Item.writeAll parcel desk) = true := by decide +kernel
  obtain ⟨_, left, hrun⟩ := Action.exists_ok hfits
  exact ⟨left, hrun, ((Item.read_written parcel desk).2.2.2 left hrun).2⟩

end Sample
end WireSchema
