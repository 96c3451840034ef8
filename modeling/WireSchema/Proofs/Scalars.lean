import WireSchema.Codec.Encoding
import WireSchema.Codec.Decoding
import WireSchema.Proofs.Instants
import WireSchema.Proofs.Reading
import WireSchema.Proofs.Writing

/-!
# Values of one piece

Values without parts travel as a number of fixed width, as bytes of fixed length, or as a text
behind its length.  Each of them is written as its image and read back from it, and reading any
bytes at all gives a value of the right kind.
-/

namespace WireSchema

/-! ## Bytes and numbers -/

namespace Reading

theorem bytes_eq (count offset : Nat) (bytes : List UInt8) :
    Reader.bytes count ⟨offset, bytes⟩ =
      if bytes.length < count then .error (.unexpectedEnd offset count) ⟨offset, bytes⟩
      else .ok (bytes.take count) ⟨offset + count, bytes.drop count⟩ := by
  have hshort : (bytes.take count).length < count ↔ bytes.length < count := by
    rw [List.length_take]
    omega
  simp only [Reader.bytes, hshort]

theorem recovers_bytes (data : List UInt8) : Recovers (Reader.bytes data.length) data data := by
  intro offset rest
  have henough : ¬ (data ++ rest).length < data.length := by
    rw [List.length_append]
    omega
  rw [bytes_eq, if_neg henough, List.take_left, List.drop_left]

theorem yields_bytes (count : Nat) :
    Yields (Reader.bytes count) fun data taken => data.length = count ∧ taken = count := by
  rintro ⟨offset, bytes⟩ data left hrun
  rw [bytes_eq] at hrun
  split at hrun
  · cases hrun
  · next henough =>
      cases hrun
      refine ⟨count, rfl, ?_, rfl⟩
      rw [List.length_take]
      omega

theorem endsShort_bytes {count offset : Nat} {bytes : List UInt8}
    (hshort : bytes.length < count) : EndsShort (Reader.bytes count) ⟨offset, bytes⟩ := by
  refine ⟨offset, count, ⟨offset, bytes⟩, ?_, Nat.le_add_right _ _, ?_⟩
  · rw [bytes_eq, if_pos hshort]
  · exact Nat.add_lt_add_left hshort offset

theorem streams_bytes (count : Nat) : Streams (Reader.bytes count) where
  shifted distance reader := by
    obtain ⟨offset, bytes⟩ := reader
    rw [Reader.shift, bytes_eq, bytes_eq]
    split
    · rfl
    · simp only [shiftResult, Reader.shift, Nat.add_right_comm]
  taken offset bytes data left hrun := by
    rw [bytes_eq] at hrun
    split at hrun
    · cases hrun
    · next henough =>
        cases hrun
        have hlength : (bytes.take count).length = count := by
          rw [List.length_take]
          omega
        refine ⟨bytes.take count, bytes.drop count, (List.take_append_drop count bytes).symm,
          by rw [hlength], ?_, ?_⟩
        · intro more
          have hread := recovers_bytes (bytes.take count) offset more
          rw [hlength] at hread
          rw [hlength]
          exact hread
        · intro part hpart hproper
          apply endsShort_bytes
          have hle := hpart.length_le
          have hne : part.length ≠ (bytes.take count).length :=
            fun hsame => hproper (hpart.eq_of_length hsame)
          omega
  faulted offset bytes fault left hrun := by
    rw [bytes_eq] at hrun
    split at hrun
    · next hshort => exact .inl (endsShort_bytes hshort)
    · cases hrun

theorem recovers_word {width n : Nat} (hfits : n < Wire.capacity width) :
    Recovers (Reader.word width) (Wire.bigEndian width n) n := by
  have hbytes := recovers_bytes (Wire.bigEndian width n)
  rw [Wire.length_bigEndian] at hbytes
  have hword := hbytes.bind_pure Wire.ofBigEndian
  rw [Wire.ofBigEndian_bigEndian hfits] at hword
  exact hword

theorem yields_word (width : Nat) :
    Yields (Reader.word width) fun n count => n < Wire.capacity width ∧ count = width := by
  refine (yields_bytes width).bind ?_
  rintro data count ⟨hlength, rfl⟩
  refine yields_pure ⟨?_, rfl⟩
  have hbound := Wire.ofBigEndian_lt data
  rw [hlength] at hbound
  exact hbound

theorem streams_word (width : Nat) : Streams (Reader.word width) :=
  (streams_bytes width).bind fun _ => streams_pure _

theorem recovers_uint8 (value : UInt8) :
    Recovers Reader.uint8 (Wire.bigEndian 1 value.toNat) value := by
  have hword : Recovers (Reader.word 1) (Wire.bigEndian 1 value.toNat) value.toNat :=
    recovers_word value.toNat_lt
  have hvalue := hword.bind_pure UInt8.ofNat
  rw [UInt8.ofNat_toNat] at hvalue
  exact hvalue

theorem yields_uint8 : Yields Reader.uint8 fun _ count => count = 1 := by
  refine (yields_word 1).bind ?_
  rintro n count ⟨-, rfl⟩
  exact yields_pure rfl

theorem streams_uint8 : Streams Reader.uint8 := (streams_word 1).bind fun _ => streams_pure _

theorem recovers_uint32 (value : UInt32) :
    Recovers Reader.uint32 (Wire.bigEndian 4 value.toNat) value := by
  have hword : Recovers (Reader.word 4) (Wire.bigEndian 4 value.toNat) value.toNat :=
    recovers_word value.toNat_lt
  have hvalue := hword.bind_pure UInt32.ofNat
  rw [UInt32.ofNat_toNat] at hvalue
  exact hvalue

theorem yields_uint32 : Yields Reader.uint32 fun _ count => count = 4 := by
  refine (yields_word 4).bind ?_
  rintro n count ⟨-, rfl⟩
  exact yields_pure rfl

theorem streams_uint32 : Streams Reader.uint32 := (streams_word 4).bind fun _ => streams_pure _

/-! ## Texts -/

/-- The bytes of a text, once their number is known. -/
def utf8 (count : Nat) : Reading String := do
  let start := (← get).offset
  match Text.ofUtf8? (← Reader.bytes count) with
  | some value => return value
  | none => throw (.invalidUtf8 start)

theorem text_eq : Reader.text = Reader.length >>= utf8 := rfl

theorem utf8_of_some {count offset : Nat} {bytes data : List UInt8} {left : Reader} {text : String}
    (hbytes : Reader.bytes count ⟨offset, bytes⟩ = .ok data left)
    (htext : Text.ofUtf8? data = some text) : utf8 count ⟨offset, bytes⟩ = .ok text left := by
  change (Reader.bytes count >>= fun data =>
    match Text.ofUtf8? data with
    | some value => pure value
    | none => throw (.invalidUtf8 offset)) ⟨offset, bytes⟩ = .ok text left
  rw [Action.bind_of_ok hbytes, htext]
  rfl

theorem utf8_of_none {count offset : Nat} {bytes data : List UInt8} {left : Reader}
    (hbytes : Reader.bytes count ⟨offset, bytes⟩ = .ok data left)
    (htext : Text.ofUtf8? data = none) :
    utf8 count ⟨offset, bytes⟩ = .error (.invalidUtf8 offset) left := by
  change (Reader.bytes count >>= fun data =>
    match Text.ofUtf8? data with
    | some value => pure value
    | none => throw (.invalidUtf8 offset)) ⟨offset, bytes⟩ = .error (.invalidUtf8 offset) left
  rw [Action.bind_of_ok hbytes, htext]
  rfl

theorem utf8_of_error {count offset : Nat} {bytes : List UInt8} {left : Reader}
    {fault : CodecError} (hbytes : Reader.bytes count ⟨offset, bytes⟩ = .error fault left) :
    utf8 count ⟨offset, bytes⟩ = .error fault left :=
  show (Reader.bytes count >>= _) ⟨offset, bytes⟩ = .error fault left from
    Action.bind_of_error hbytes

theorem utf8_cases (count offset : Nat) (bytes : List UInt8) :
    (∃ data left text, Reader.bytes count ⟨offset, bytes⟩ = .ok data left ∧
        Text.ofUtf8? data = some text ∧ utf8 count ⟨offset, bytes⟩ = .ok text left) ∨
      (∃ data left, Reader.bytes count ⟨offset, bytes⟩ = .ok data left ∧
        Text.ofUtf8? data = none ∧
          utf8 count ⟨offset, bytes⟩ = .error (.invalidUtf8 offset) left) ∨
      ∃ fault left, Reader.bytes count ⟨offset, bytes⟩ = .error fault left ∧
        utf8 count ⟨offset, bytes⟩ = .error fault left := by
  cases hbytes : Reader.bytes count ⟨offset, bytes⟩ with
  | ok data left =>
      cases htext : Text.ofUtf8? data with
      | some text => exact .inl ⟨data, left, text, rfl, htext, utf8_of_some hbytes htext⟩
      | none => exact .inr (.inl ⟨data, left, rfl, htext, utf8_of_none hbytes htext⟩)
  | error fault left => exact .inr (.inr ⟨fault, left, rfl, utf8_of_error hbytes⟩)

theorem streams_utf8 (count : Nat) : Streams (utf8 count) where
  shifted distance reader := by
    obtain ⟨offset, bytes⟩ := reader
    have hmoved := (streams_bytes count).shifted distance ⟨offset, bytes⟩
    rcases utf8_cases count offset bytes with
      ⟨data, left, text, hbytes, htext, hrun⟩ | ⟨data, left, hbytes, htext, hrun⟩ |
        ⟨fault, left, hbytes, hrun⟩
    · rw [hbytes] at hmoved
      rw [hrun]
      exact utf8_of_some hmoved htext
    · rw [hbytes] at hmoved
      rw [hrun]
      exact utf8_of_none hmoved htext
    · rw [hbytes] at hmoved
      rw [hrun]
      exact utf8_of_error hmoved
  taken offset bytes result left hrun := by
    rcases utf8_cases count offset bytes with
      ⟨data, left', text, hbytes, htext, hrun'⟩ | ⟨data, left', hbytes, htext, hrun'⟩ |
        ⟨fault, left', hbytes, hrun'⟩
    · rw [hrun] at hrun'
      cases hrun'
      obtain ⟨used, rest, hused, hleft, hmore, hpart⟩ :=
        (streams_bytes count).taken offset bytes data left hbytes
      refine ⟨used, rest, hused, hleft, fun more => utf8_of_some (hmore more) htext, ?_⟩
      intro part hinitial hproper
      obtain ⟨start, need, left, hshort, hlow, hhigh⟩ := hpart part hinitial hproper
      exact ⟨start, need, left, utf8_of_error hshort, hlow, hhigh⟩
    · rw [hrun] at hrun'
      cases hrun'
    · rw [hrun] at hrun'
      cases hrun'
  faulted offset bytes fault left hrun := by
    rcases utf8_cases count offset bytes with
      ⟨data, left', text, hbytes, htext, hrun'⟩ | ⟨data, left', hbytes, htext, hrun'⟩ |
        ⟨fault', left', hbytes, hrun'⟩
    · rw [hrun] at hrun'
      cases hrun'
    · rw [hrun] at hrun'
      cases hrun'
      obtain ⟨used, rest, rfl, -, hmore, -⟩ :=
        (streams_bytes count).taken offset bytes data left hbytes
      refine .inr fun more => ?_
      rw [List.append_assoc]
      exact ⟨_, utf8_of_none (hmore (rest ++ more)) htext⟩
    · rw [hrun] at hrun'
      cases hrun'
      rcases (streams_bytes count).faulted offset bytes fault left hbytes with hshort | hstays
      · obtain ⟨start, need, left, hshort, hlow, hhigh⟩ := hshort
        exact .inl ⟨start, need, left, utf8_of_error hshort, hlow, hhigh⟩
      · refine .inr fun more => ?_
        obtain ⟨left, hleft⟩ := hstays more
        exact ⟨left, utf8_of_error hleft⟩

theorem recovers_length {count : Nat} (hcount : count < Writer.lengthBound) :
    Recovers Reader.length (Wire.bigEndian 4 count) count := by
  unfold Reader.length
  exact recovers_word hcount

theorem yields_length :
    Yields Reader.length fun n count => n < Writer.lengthBound ∧ count = lengthSize :=
  yields_word 4

theorem recovers_text {text : String} (hshort : text.utf8ByteSize < Writer.lengthBound) :
    Recovers Reader.text (Wire.bigEndian 4 text.utf8ByteSize ++ Text.utf8 text) text := by
  rw [text_eq]
  refine (recovers_length hshort).bind ?_
  intro offset rest
  have hbytes := recovers_bytes (Text.utf8 text) offset rest
  rw [Text.length_utf8] at hbytes ⊢
  exact utf8_of_some hbytes (Text.ofUtf8?_utf8 text)

end Reading

theorem Text.utf8_of_ofUtf8? {bytes : List UInt8} {text : String}
    (hsome : Text.ofUtf8? bytes = some text) : Text.utf8 text = bytes := by
  unfold Text.ofUtf8? String.fromUTF8? at hsome
  split at hsome
  · cases hsome
    change bytes.toArray.toList = bytes
    rw [List.toList_toArray]
  · cases hsome

namespace Reading

theorem yields_text :
    Yields Reader.text fun text count =>
      text.utf8ByteSize < Writer.lengthBound ∧ count = lengthSize + text.utf8ByteSize := by
  rw [text_eq]
  refine yields_length.bind ?_
  rintro size count ⟨hbound, rfl⟩
  rintro ⟨offset, bytes⟩ text left hrun
  rcases utf8_cases size offset bytes with
    ⟨data, left', text', hbytes, htext, hrun'⟩ | ⟨data, left', hbytes, htext, hrun'⟩ |
      ⟨fault, left', hbytes, hrun'⟩
  · rw [hrun] at hrun'
    cases hrun'
    obtain ⟨taken, hoffset, hlength, rfl⟩ := yields_bytes size _ _ _ hbytes
    have hsize : text.utf8ByteSize = taken := by
      rw [← Text.length_utf8, Text.utf8_of_ofUtf8? htext, hlength]
    exact ⟨taken, hoffset, by rw [hsize]; exact hbound, by rw [hsize]⟩
  · rw [hrun] at hrun'
    cases hrun'
  · rw [hrun] at hrun'
    cases hrun'

theorem streams_text : Streams Reader.text := (streams_word 4).bind streams_utf8

end Reading

/-! ## Primitive values -/

namespace Primitive

/-- The number that stands for a value of a primitive type. -/
def code? : Primitive → Value → Option Nat
  | .bool, .bool value => some (if value then 1 else 0 : UInt8).toNat
  | .int8, .int8 value => some value.toUInt8.toNat
  | .uint8, .uint8 value => some value.toNat
  | .int16, .int16 value => some value.toUInt16.toNat
  | .uint16, .uint16 value => some value.toNat
  | .int32, .int32 value => some value.toUInt32.toNat
  | .uint32, .uint32 value => some value.toNat
  | .int64, .int64 value => some value.toUInt64.toNat
  | .uint64, .uint64 value => some value.toNat
  | .float, .float value => some value.bits.toNat
  | .double, .double value => some value.bits.toNat
  | .datetime, .datetime value => some (Int64.ofInt value.millis).toUInt64.toNat
  | _, _ => none

/-- The value that a number stands for; not every number of milliseconds is an instant. -/
def valueOf : Primitive → Nat → Reading Value
  | .bool, code => pure (.bool (UInt8.ofNat code == 1))
  | .int8, code => pure (.int8 (UInt8.ofNat code).toInt8)
  | .uint8, code => pure (.uint8 (UInt8.ofNat code))
  | .int16, code => pure (.int16 (UInt16.ofNat code).toInt16)
  | .uint16, code => pure (.uint16 (UInt16.ofNat code))
  | .int32, code => pure (.int32 (UInt32.ofNat code).toInt32)
  | .uint32, code => pure (.uint32 (UInt32.ofNat code))
  | .int64, code => pure (.int64 (UInt64.ofNat code).toInt64)
  | .uint64, code => pure (.uint64 (UInt64.ofNat code))
  | .float, code => pure (.float ⟨UInt32.ofNat code⟩)
  | .double, code => pure (.double ⟨UInt64.ofNat code⟩)
  | .datetime, code =>
    match Time.Instant.ofMillis? (UInt64.ofNat code).toInt64.toInt with
    | some instant => pure (.datetime instant)
    | none => throw (.invalidInstant (UInt64.ofNat code).toInt64.toInt)

theorem readPrimitive_eq (kind : Primitive) :
    readPrimitive kind = Reader.word kind.size >>= kind.valueOf := by
  cases kind <;>
    simp only [readPrimitive, Reader.bool, Reader.int8, Reader.uint8, Reader.int16, Reader.uint16,
      Reader.int32, Reader.uint32, Reader.int64, Reader.uint64, Reader.float, Reader.double,
      map_eq_pure_bind, bind_assoc, pure_bind, size] <;> rfl

theorem isSome_code?_of_admits {kind : Primitive} {value : Value}
    (hadmits : kind.admits value = true) : ∃ code, kind.code? value = some code := by
  cases kind <;> cases value <;> first | exact ⟨_, rfl⟩ | cases hadmits

theorem code?_lt_capacity {kind : Primitive} {value : Value} {code : Nat}
    (hcode : kind.code? value = some code) : code < Wire.capacity kind.size := by
  cases kind <;> cases value <;> cases hcode
  case datetime.datetime value => exact (Int64.ofInt value.millis).toUInt64.toNat_lt
  case double.double value => exact value.bits.toNat_lt
  case float.float value => exact value.bits.toNat_lt
  all_goals apply_rules [UInt8.toNat_lt, UInt16.toNat_lt, UInt32.toNat_lt, UInt64.toNat_lt]

theorem valueOf_code? {kind : Primitive} {value : Value} {code : Nat}
    (hcode : kind.code? value = some code) (hwhole : value.truncated = value) :
    kind.valueOf code = pure value := by
  cases kind <;> cases value <;> cases hcode
  case datetime.datetime value =>
    have htruncated : value.truncated = value := by
      simpa [Value.truncated] using hwhole
    have hmillis : (UInt64.ofNat (Int64.ofInt value.millis).toUInt64.toNat).toInt64.toInt =
        value.millis := by
      rw [UInt64.ofNat_toNat]
      exact value.toInt_ofInt_millis
    simp only [valueOf, hmillis, Time.Instant.ofMillis?_millis htruncated]
  case bool.bool value => cases value <;> rfl
  all_goals simp only [valueOf, UInt8.ofNat_toNat, UInt16.ofNat_toNat, UInt32.ofNat_toNat,
    UInt64.ofNat_toNat] <;> rfl

theorem recovers_readPrimitive {kind : Primitive} {value : Value} {code : Nat}
    (hcode : kind.code? value = some code) (hwhole : value.truncated = value) :
    Reading.Recovers (readPrimitive kind) (Wire.bigEndian kind.size code) value := by
  rw [readPrimitive_eq, ← List.append_nil (Wire.bigEndian kind.size code)]
  refine (Reading.recovers_word (code?_lt_capacity hcode)).bind ?_
  rw [valueOf_code? hcode hwhole]
  exact Reading.recovers_pure value

theorem yields_valueOf (kind : Primitive) (code : Nat) :
    Reading.Yields (kind.valueOf code) fun value count =>
      kind.admits value = true ∧ value.truncated = value ∧ count = 0 := by
  cases kind
  case datetime =>
    rw [valueOf]
    split
    · next instant hinstant =>
        refine Reading.yields_pure ⟨rfl, ?_, rfl⟩
        rw [Value.truncated, Time.Instant.truncated_of_ofMillis? hinstant]
    · exact Reading.yields_throw _ _
  all_goals exact Reading.yields_pure ⟨rfl, rfl, rfl⟩

theorem yields_readPrimitive (kind : Primitive) :
    Reading.Yields (readPrimitive kind) fun value count =>
      kind.admits value = true ∧ value.truncated = value ∧ count = kind.size := by
  rw [readPrimitive_eq]
  refine (Reading.yields_word kind.size).bind ?_
  rintro code count ⟨-, rfl⟩
  refine (yields_valueOf kind code).mono ?_
  rintro value count ⟨hadmits, hwhole, rfl⟩
  exact ⟨hadmits, hwhole, rfl⟩

theorem streams_readPrimitive (kind : Primitive) : Reading.Streams (readPrimitive kind) := by
  rw [readPrimitive_eq]
  refine (Reading.streams_word kind.size).bind fun code => ?_
  cases kind
  case datetime =>
    rw [valueOf]
    split
    · exact Reading.streams_pure _
    · exact Reading.streams_throw fun _ => rfl
  all_goals exact Reading.streams_pure _

end Primitive

/-! ## Ordinals -/

namespace EnumType

theorem recovers_readOrdinal {type : EnumType} {ordinal : UInt8}
    (hrange : ordinal.toNat < type.values.length) :
    Reading.Recovers type.readOrdinal (Wire.bigEndian 1 ordinal.toNat) ordinal := by
  rw [← List.append_nil (Wire.bigEndian 1 ordinal.toNat)]
  refine (Reading.recovers_uint8 ordinal).bind ?_
  rw [if_pos hrange]
  exact Reading.recovers_pure ordinal

theorem yields_readOrdinal (type : EnumType) :
    Reading.Yields type.readOrdinal fun ordinal count =>
      ordinal.toNat < type.values.length ∧ count = 1 := by
  refine Reading.yields_uint8.bind ?_
  rintro ordinal count rfl
  split
  · next hrange => exact Reading.yields_pure ⟨hrange, rfl⟩
  · exact Reading.yields_throw _ _

theorem streams_readOrdinal (type : EnumType) : Reading.Streams type.readOrdinal := by
  refine Reading.streams_uint8.bind fun ordinal => ?_
  split
  · exact Reading.streams_pure ordinal
  · exact Reading.streams_throw fun _ => rfl

end EnumType
end WireSchema
