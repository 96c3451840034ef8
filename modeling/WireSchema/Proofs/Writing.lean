import WireSchema.Proofs.Actions
import WireSchema.Wire.Flags

/-!
# What a writing does

A writing is described by the bytes it is meant to write, its image.  Whatever the buffer, it ends
in one of three ways: all bytes are written, or the fault of the image is met, or the room runs
out.  The description is proved for the single writings and is kept when one writing follows
another, so that nothing more has to be known of a composed writing than its image.
-/

namespace WireSchema

/-- The bytes to be written, or the fault that is met before they are complete. -/
abbrev Image := Except CodecError (List UInt8)

namespace Image

/-- One image after another. -/
def join (first second : Image) : Image := do return (← first) ++ (← second)

def length (image : Image) : Except CodecError Nat := image.map List.length

/-- The length as a 64-bit number. -/
def size (image : Image) : Except CodecError UInt64 := image.map (UInt64.ofNat ·.length)

@[simp] theorem join_ok (first second : List UInt8) :
    join (.ok first) (.ok second) = .ok (first ++ second) := rfl

@[simp] theorem join_error (fault : CodecError) (second : Image) :
    join (.error fault) second = .error fault := rfl

@[simp] theorem join_ok_error (first : List UInt8) (fault : CodecError) :
    join (.ok first) (.error fault) = .error fault := rfl

theorem join_eq_ok {first second : Image} {data : List UInt8}
    (hjoin : join first second = .ok data) :
    ∃ front back, first = .ok front ∧ second = .ok back ∧ data = front ++ back := by
  cases first with
  | error fault => cases hjoin
  | ok front =>
      cases second with
      | error fault => cases hjoin
      | ok back =>
          rw [join_ok, Except.ok.injEq] at hjoin
          exact ⟨front, back, rfl, rfl, hjoin.symm⟩

@[simp] theorem length_ok (data : List UInt8) :
    length (.ok data) = .ok data.length := rfl

theorem length_eq_ok {image : Image} {size : Nat} (hlength : image.length = .ok size) :
    ∃ data, image = .ok data ∧ data.length = size := by
  cases image with
  | error fault => cases hlength
  | ok data => exact ⟨data, rfl, by simpa using hlength⟩

@[simp] theorem size_ok (data : List UInt8) :
    size (.ok data) = .ok (.ofNat data.length) := rfl

@[simp] theorem size_error (fault : CodecError) :
    size (.error fault) = .error fault := rfl

theorem size_of_length {image : Image} {length : Nat} (hlength : image.length = .ok length) :
    image.size = .ok (.ofNat length) := by
  obtain ⟨data, rfl, rfl⟩ := length_eq_ok hlength
  rfl

/-- The sum of two sizes is the size of the whole, also where bits are lost. -/
theorem size_join (first second : Image) :
    (join first second).size = do return (← first.size) + (← second.size) := by
  cases first with
  | error fault => rfl
  | ok front =>
      cases second with
      | error fault => rfl
      | ok back =>
          rw [join_ok, size_ok, List.length_append, UInt64.ofNat_add]
          rfl

end Image

namespace Writer

/-- The writer after some bytes were written. -/
def advance (writer : Writer) (data : List UInt8) : Writer :=
  ⟨data.reverse ++ writer.written, writer.ahead.drop data.length⟩

theorem advance_append (writer : Writer) (first second : List UInt8) :
    writer.advance (first ++ second) = (writer.advance first).advance second := by
  simp [advance, List.append_assoc]

@[simp] theorem offset_advance (writer : Writer) (data : List UInt8) :
    (writer.advance data).offset = writer.offset + data.length := by
  simp [advance, offset, Nat.add_comm]

@[simp] theorem remaining_advance (writer : Writer) (data : List UInt8) :
    (writer.advance data).remaining = writer.remaining - data.length := by
  simp [advance, remaining]

theorem advance_injective (writer : Writer) {first second : List UInt8}
    (hsame : writer.advance first = writer.advance second) : first = second := by
  have hwritten := congrArg Writer.written hsame
  exact List.reverse_inj.mp (List.append_cancel_right hwritten)

theorem bytes_eq (data : List UInt8) (writer : Writer) :
    bytes data writer =
      if writer.remaining < data.length then
        .error (.fault (.writeOverflow writer.offset data.length)) writer
      else .ok () (writer.advance data) := by
  have hshort :
      (writer.ahead.take data.length).length < data.length ↔
        writer.remaining < data.length := by
    rw [List.length_take, remaining]
    omega
  simp only [bytes, hshort]
  rfl

theorem binary_eq (data : List UInt8) (length : Nat) (writer : Writer) :
    binary data length writer =
      if writer.remaining < length then
        if writer.offset + length < UInt64.size then
          .error (.fault (.writeOverflow writer.offset length)) writer
        else .error .panic writer
      else .ok () (writer.advance (fitted data length)) := by
  have hshort :
      (writer.ahead.take length).length < length ↔ writer.remaining < length := by
    rw [List.length_take, remaining]
    omega
  simp only [binary, hshort, bytes_eq, length_fitted]
  split
  · rfl
  · rfl

end Writer

namespace Writing

/-- What a writing fails with for lack of room, if with enough of it it would stop at an offset: an
overflow, or a panic where that offset takes more than 64 bits. -/
inductive OutOfRoom (stop : Nat) : Failure → Prop where
  | overflow (offset need : Nat) : OutOfRoom stop (.fault (.writeOverflow offset need))
  | panic (hstop : UInt64.size ≤ stop) : OutOfRoom stop .panic

theorem OutOfRoom.mono {stop further : Nat} {failure : Failure} (hout : OutOfRoom stop failure)
    (hle : stop ≤ further) : OutOfRoom further failure := by
  cases hout with
  | overflow offset need => exact .overflow offset need
  | panic hstop => exact .panic (Nat.le_trans hstop hle)

/-- How a writing ends that is meant to write an image.  The room runs out only if there is less
of it than needed, or if the image holds a count or a length that `fits` rules out. -/
inductive Ending (action : Writing Unit) (image : Image) (fits : Prop) (room : Nat)
    (writer : Writer) : Prop where
  | written (data : List UInt8) (himage : image = .ok data)
      (hroom : data.length ≤ writer.remaining)
      (hrun : action writer = .ok () (writer.advance data))
  | faulted (fault : CodecError) (left : Writer) (himage : image = .error fault)
      (hrun : action writer = .error (.fault fault) left)
  | short (failure : Failure) (left : Writer) (hrun : action writer = .error failure left)
      (hout : OutOfRoom (writer.offset + room) failure)
      (hroom : fits → writer.remaining < room)

/-- A writing writes an image, whatever writer it is given.  A complete image needs as much room
as it has bytes. -/
def Emits (action : Writing Unit) (image : Image) (fits : Prop) : Prop :=
  ∃ room, (∀ data, image = .ok data → room = data.length) ∧
    ∀ writer, Ending action image fits room writer

/-! ## The single writings -/

theorem emits_bytes (data : List UInt8) (fits : Prop) :
    Emits (Writer.bytes data) (.ok data) fits := by
  refine ⟨data.length, ?_, ?_⟩
  · intro other hother
    cases hother
    rfl
  · intro writer
    by_cases hroom : writer.remaining < data.length
    · refine .short _ writer ?_ (.overflow writer.offset data.length) (fun _ => hroom)
      rw [Writer.bytes_eq, if_pos hroom]
    · refine .written data rfl (by omega) ?_
      rw [Writer.bytes_eq, if_neg hroom]

theorem emits_binary (data : List UInt8) (length : Nat) (fits : Prop) :
    Emits (Writer.binary data length) (.ok (Writer.fitted data length)) fits := by
  refine ⟨length, ?_, ?_⟩
  · intro other hother
    cases hother
    exact (Writer.length_fitted data length).symm
  · intro writer
    have hrun := Writer.binary_eq data length writer
    by_cases hroom : writer.remaining < length
    · rw [if_pos hroom] at hrun
      by_cases hstop : writer.offset + length < UInt64.size
      · rw [if_pos hstop] at hrun
        exact .short _ writer hrun (.overflow writer.offset length) (fun _ => hroom)
      · rw [if_neg hstop] at hrun
        exact .short _ writer hrun (.panic (Nat.le_of_not_lt hstop)) (fun _ => hroom)
    · rw [if_neg hroom] at hrun
      refine .written _ rfl ?_ hrun
      rw [Writer.length_fitted]
      exact Nat.le_of_not_lt hroom

theorem emits_pure (fits : Prop) : Emits (pure ()) (.ok []) fits := by
  refine ⟨0, ?_, ?_⟩
  · intro data hdata
    cases hdata
    rfl
  · intro writer
    exact .written [] rfl (Nat.zero_le _) rfl

theorem emits_throw (fault : CodecError) (fits : Prop) :
    Emits (throw (.fault fault)) (.error fault) fits := by
  refine ⟨0, ?_, ?_⟩
  · intro data hdata
    cases hdata
  · intro writer
    exact .faulted fault writer rfl rfl

/-! ## Following one another -/

theorem Emits.bind {first second : Writing Unit} {front back : Image} {fits more : Prop}
    (hfirst : Emits first front fits) (hsecond : Emits second back more) :
    Emits (first >>= fun _ => second) (front.join back) (fits ∧ more) := by
  obtain ⟨room, hroom, hfirst⟩ := hfirst
  obtain ⟨extra, hextra, hsecond⟩ := hsecond
  refine ⟨room + extra, ?_, ?_⟩
  · intro data hdata
    obtain ⟨one, two, hone, htwo, rfl⟩ := Image.join_eq_ok hdata
    rw [hroom one hone, hextra two htwo, List.length_append]
  · intro writer
    cases hfirst writer with
    | faulted fault left himage hrun =>
        refine .faulted fault left ?_ (Action.bind_of_error hrun)
        rw [himage, Image.join_error]
    | short failure left hrun hout hshort =>
        refine .short failure left (Action.bind_of_error hrun) (hout.mono (by omega)) ?_
        intro hfits
        have := hshort hfits.1
        omega
    | written one himage hone hrun =>
        have hlength := hroom one himage
        have hbind : (first >>= fun _ => second) writer = second (writer.advance one) :=
          Action.bind_of_ok hrun
        cases hsecond (writer.advance one) with
        | written two himage' htwo hrun' =>
            rw [Writer.remaining_advance] at htwo
            refine .written (one ++ two) ?_ ?_ ?_
            · rw [himage, himage', Image.join_ok]
            · rw [List.length_append]
              omega
            · rw [hbind, hrun', Writer.advance_append]
        | faulted fault left himage' hrun' =>
            refine .faulted fault left ?_ (hbind.trans hrun')
            rw [himage, himage', Image.join_ok_error]
        | short failure left hrun' hout hshort =>
            -- What is left after the first part is short for the second.
            rw [Writer.offset_advance] at hout
            refine .short failure left (hbind.trans hrun') (hout.mono (by omega)) ?_
            intro hfits
            have hless := hshort hfits.2
            rw [Writer.remaining_advance] at hless
            omega

theorem Emits.mono {action : Writing Unit} {image : Image} {fits less : Prop}
    (hemits : Emits action image fits) (himp : less → fits) : Emits action image less := by
  obtain ⟨room, hroom, hrun⟩ := hemits
  refine ⟨room, hroom, fun writer => ?_⟩
  cases hrun writer with
  | written data himage hshort hdone => exact .written data himage hshort hdone
  | faulted fault left himage hdone => exact .faulted fault left himage hdone
  | short failure left hdone hout hshort =>
      exact .short failure left hdone hout (fun hless => hshort (himp hless))

theorem emits_length (count : Nat) :
    Emits (Writer.length count) (.ok (Wire.bigEndian 4 count)) (count < Writer.lengthBound) := by
  by_cases hcount : count < Writer.lengthBound
  · have hword : Writer.length count = Writer.bytes (Wire.bigEndian 4 count) := by
      funext writer
      simp only [Writer.length, if_pos hcount, Writer.word]
    rw [hword]
    exact emits_bytes _ _
  · refine ⟨(Wire.bigEndian 4 count).length, ?_, ?_⟩
    · intro data hdata
      cases hdata
      rfl
    · intro writer
      refine .short _ writer ?_ (.overflow writer.offset count) (fun hfits => absurd hfits hcount)
      simp only [Writer.length, if_neg hcount]

theorem emits_text (text : String) :
    Emits (Writer.text text)
      (.ok (Wire.bigEndian 4 text.utf8ByteSize ++ Text.utf8 text))
      (text.utf8ByteSize < Writer.lengthBound) := by
  have hparts := (emits_length (Text.utf8 text).length).bind
    (emits_bytes (Text.utf8 text) True)
  rw [Text.length_utf8] at hparts
  exact hparts.mono (fun hfits => ⟨hfits, trivial⟩)

/-! ## What follows from the description -/

variable {action : Writing Unit} {image : Image} {fits : Prop} {data : List UInt8}
  {fault : CodecError} {failure : Failure} {writer left : Writer}

theorem Emits.run (hemits : Emits action (.ok data) fits) (hfits : fits)
    (hroom : data.length ≤ writer.remaining) :
    action writer = .ok () (writer.advance data) := by
  obtain ⟨room, hneed, hrun⟩ := hemits
  have hroom' := hneed data rfl
  cases hrun writer with
  | written other himage hshort hdone =>
      cases himage
      exact hdone
  | faulted fault left himage hdone => cases himage
  | short failure left hdone hout hshort =>
      have := hshort hfits
      omega

theorem Emits.overflow (hemits : Emits action (.ok data) fits)
    (hroom : writer.remaining < data.length) :
    ∃ failure left, action writer = .error failure left ∧
      OutOfRoom (writer.offset + data.length) failure := by
  obtain ⟨room, hneed, hrun⟩ := hemits
  cases hrun writer with
  | written other himage hshort hdone =>
      cases himage
      omega
  | faulted fault left himage hdone => cases himage
  | short failure left hdone hout hshort =>
      rw [hneed data rfl] at hout
      exact ⟨failure, left, hdone, hout⟩

/-- With enough room the fault of the image is met. -/
theorem Emits.halt (hemits : Emits action (.error fault) fits) (hfits : fits) :
    ∃ room, ∀ writer : Writer, room ≤ writer.remaining →
      ∃ left, action writer = .error (.fault fault) left := by
  obtain ⟨room, -, hrun⟩ := hemits
  refine ⟨room, fun writer hroom => ?_⟩
  cases hrun writer with
  | written other himage hshort hdone => cases himage
  | faulted fault left himage hdone =>
      cases himage
      exact ⟨left, hdone⟩
  | short failure left hdone hout hshort =>
      have := hshort hfits
      omega

/-- A writing that succeeds has written its image, for which there was room. -/
theorem Emits.image_of_ok (hemits : Emits action image fits)
    (hok : action writer = .ok () left) :
    ∃ data, image = .ok data ∧ left = writer.advance data ∧ data.length ≤ writer.remaining := by
  obtain ⟨room, -, hrun⟩ := hemits
  cases hrun writer with
  | written other himage hshort hdone =>
      rw [hok] at hdone
      cases hdone
      exact ⟨other, himage, rfl, hshort⟩
  | faulted fault left himage hdone =>
      rw [hok] at hdone
      cases hdone
  | short failure left hdone hout hshort =>
      rw [hok] at hdone
      cases hdone

/-- A writing fails with the fault of its image, or because the room runs out. -/
theorem Emits.failure_cases (hemits : Emits action image fits)
    (herror : action writer = .error failure left) :
    (∃ fault, image = .error fault ∧ failure = .fault fault) ∨
      ∃ stop, OutOfRoom stop failure := by
  obtain ⟨room, -, hrun⟩ := hemits
  cases hrun writer with
  | written other himage hshort hdone =>
      rw [herror] at hdone
      cases hdone
  | faulted fault left himage hdone =>
      rw [herror] at hdone
      cases hdone
      exact .inl ⟨fault, himage, rfl⟩
  | short other left hdone hout hshort =>
      rw [herror] at hdone
      cases hdone
      exact .inr ⟨_, hout⟩

end Writing
end WireSchema
