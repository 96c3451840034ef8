import WireSchema.Proofs.Actions
import WireSchema.Wire.Flags

/-!
# What a reading does

Four descriptions of a reading are proved for the single readings and kept when one reading
follows another.  `Recovers` names bytes and the value they are read as, and `Refuses` bytes and
what is found fault with in them.  `Yields` tells what holds
of a value and of the number of bytes it was read from.  `Streams` says that a reading looks at no
byte beyond those it takes, so that bytes may be added behind them, that a part of them is not
enough, and that offsets count from where the reading starts.
-/

namespace WireSchema

/-! ## Moving the start -/

/-- The fault of the same reading when it starts further on. -/
def CodecError.shift (distance : Nat) : CodecError → CodecError
  | .writeOverflow offset need => .writeOverflow (offset + distance) need
  | .unexpectedEnd offset need => .unexpectedEnd (offset + distance) need
  | .invalidUtf8 offset => .invalidUtf8 (offset + distance)
  | .depthExceeded offset limit => .depthExceeded (offset + distance) limit
  | other => other

def Reader.shift (distance : Nat) (reader : Reader) : Reader :=
  ⟨reader.offset + distance, reader.rest⟩

namespace Reading

variable {α β : Type}

def shiftResult (distance : Nat) :
    EStateM.Result CodecError Reader α → EStateM.Result CodecError Reader α
  | .ok value left => .ok value (left.shift distance)
  | .error fault left => .error (fault.shift distance) (left.shift distance)

/-! ## Recovering a value -/

/-- Bytes are read as a value, wherever they start and whatever follows them. -/
def Recovers (action : Reading α) (data : List UInt8) (value : α) : Prop :=
  ∀ offset rest,
    action ⟨offset, data ++ rest⟩ = .ok value ⟨offset + data.length, rest⟩

theorem recovers_pure (value : α) : Recovers (pure value) [] value := by
  intro offset rest
  rfl

theorem Recovers.bind {action : Reading α} {f : α → Reading β} {front back : List UInt8}
    {value : α} {result : β} (hfirst : Recovers action front value)
    (hsecond : Recovers (f value) back result) :
    Recovers (action >>= f) (front ++ back) result := by
  intro offset rest
  have hrun := hfirst offset (back ++ rest)
  rw [List.append_assoc, Action.bind_of_ok hrun, hsecond, List.length_append, Nat.add_assoc]

theorem Recovers.bind_pure {action : Reading α} {data : List UInt8} {value : α} (f : α → β)
    (haction : Recovers action data value) :
    Recovers (action >>= fun value => pure (f value)) data (f value) := by
  rw [← List.append_nil data]
  exact haction.bind (recovers_pure (f value))

theorem Recovers.map {action : Reading α} {data : List UInt8} {value : α} (f : α → β)
    (haction : Recovers action data value) : Recovers (f <$> action) data (f value) := by
  rw [map_eq_pure_bind]
  exact haction.bind_pure f

/-! ## Refusing bytes -/

/-- Bytes are refused for one of some causes, wherever they start and whatever follows them. -/
def Refuses (action : Reading α) (data : List UInt8) (Causes : CodecError → Prop) : Prop :=
  ∀ offset rest, ∃ fault left,
    Causes fault ∧ action ⟨offset, data ++ rest⟩ = .error fault left

section Refuses

variable {Causes : CodecError → Prop}

theorem Refuses.bind {action : Reading α} {front : List UInt8}
    (hrefuses : Refuses action front Causes) (next : α → Reading β) (back : List UInt8) :
    Refuses (action >>= next) (front ++ back) Causes := by
  intro offset rest
  obtain ⟨fault, left, hcause, hrun⟩ := hrefuses offset (back ++ rest)
  refine ⟨fault, left, hcause, ?_⟩
  rw [List.append_assoc]
  exact Action.bind_of_error hrun

theorem Refuses.bind_self {action : Reading α} {data : List UInt8}
    (hrefuses : Refuses action data Causes) (next : α → Reading β) :
    Refuses (action >>= next) data Causes := by
  rw [← List.append_nil data]
  exact hrefuses.bind next []

theorem Refuses.map {action : Reading α} {data : List UInt8}
    (hrefuses : Refuses action data Causes) (f : α → β) : Refuses (f <$> action) data Causes := by
  rw [map_eq_pure_bind]
  exact hrefuses.bind_self _

theorem Recovers.refuses {action : Reading α} {next : α → Reading β} {front back : List UInt8}
    {value : α} (hfirst : Recovers action front value)
    (hsecond : Refuses (next value) back Causes) :
    Refuses (action >>= next) (front ++ back) Causes := by
  intro offset rest
  have hrun := hfirst offset (back ++ rest)
  obtain ⟨fault, left, hcause, hnext⟩ := hsecond (offset + front.length) rest
  refine ⟨fault, left, hcause, ?_⟩
  rw [List.append_assoc, Action.bind_of_ok hrun, hnext]

end Refuses

/-! ## What holds of the values read -/

/-- Whatever value is read, `Holds` is true of it and of the number of bytes it took. -/
def Yields (action : Reading α) (Holds : α → Nat → Prop) : Prop :=
  ∀ reader value left, action reader = .ok value left →
    ∃ count, left.offset = reader.offset + count ∧ Holds value count

theorem yields_pure {value : α} {Holds : α → Nat → Prop} (hvalue : Holds value 0) :
    Yields (pure value) Holds := by
  intro reader result left hrun
  cases hrun
  exact ⟨0, rfl, hvalue⟩

theorem yields_throw (fault : CodecError) (Holds : α → Nat → Prop) :
    Yields (throw fault) Holds := by
  intro reader value left hrun
  cases hrun

theorem Yields.bind {action : Reading α} {next : α → Reading β} {Holds : α → Nat → Prop}
    {Then : β → Nat → Prop} (hfirst : Yields action Holds)
    (hsecond : ∀ value count, Holds value count →
      Yields (next value) fun result more => Then result (count + more)) :
    Yields (action >>= next) Then := by
  intro reader result left hrun
  obtain ⟨value, middle, hvalue, hnext⟩ := Action.bind_eq_ok hrun
  obtain ⟨count, hcount, hholds⟩ := hfirst reader value middle hvalue
  obtain ⟨more, hmore, hthen⟩ := hsecond value count hholds middle result left hnext
  exact ⟨count + more, by rw [hmore, hcount, Nat.add_assoc], hthen⟩

theorem Yields.mono {action : Reading α} {Holds Then : α → Nat → Prop}
    (hyields : Yields action Holds) (himp : ∀ value count, Holds value count → Then value count) :
    Yields action Then := by
  intro reader value left hrun
  obtain ⟨count, hcount, hholds⟩ := hyields reader value left hrun
  exact ⟨count, hcount, himp value count hholds⟩

theorem Yields.map {action : Reading α} {Holds : β → Nat → Prop} (f : α → β)
    (haction : Yields action fun value count => Holds (f value) count) :
    Yields (f <$> action) Holds := by
  rw [map_eq_pure_bind]
  exact haction.bind (fun value count hholds => yields_pure (by simpa using hholds))

/-! ## Reading a stream -/

/-- A run ends because bytes are missing that lie beyond the end. -/
def EndsShort (action : Reading α) (reader : Reader) : Prop :=
  ∃ offset need left, action reader = .error (.unexpectedEnd offset need) left ∧
    offset ≤ reader.size ∧ reader.size < offset + need

/-- A reading depends on the bytes it takes and on no others. -/
structure Streams (action : Reading α) : Prop where
  /-- Offsets count from the start. -/
  shifted : ∀ distance reader,
    action (reader.shift distance) = shiftResult distance (action reader)
  /-- A value is read from some first bytes: the same value whatever follows them, and none from
  a part of them. -/
  taken : ∀ offset bytes value left, action ⟨offset, bytes⟩ = .ok value left →
    ∃ used rest, bytes = used ++ rest ∧ left = ⟨offset + used.length, rest⟩ ∧
      (∀ more, action ⟨offset, used ++ more⟩ = .ok value ⟨offset + used.length, more⟩) ∧
      ∀ part, part <+: used → part ≠ used → EndsShort action ⟨offset, part⟩
  /-- A fault is the lack of bytes, or it is met whatever follows. -/
  faulted : ∀ offset bytes fault left, action ⟨offset, bytes⟩ = .error fault left →
    EndsShort action ⟨offset, bytes⟩ ∨
      ∀ more, ∃ left, action ⟨offset, bytes ++ more⟩ = .error fault left

theorem streams_pure (value : α) : Streams (pure value : Reading α) where
  shifted _ _ := rfl
  taken offset bytes result left hrun := by
    cases hrun
    refine ⟨[], bytes, rfl, rfl, fun more => rfl, ?_⟩
    intro part hpart hshort
    exact absurd (List.prefix_nil.mp hpart) hshort
  faulted offset bytes fault left hrun := by cases hrun

/-- A fault that names no offset is met at once, whatever the bytes are. -/
theorem streams_throw {fault : CodecError} (hfault : ∀ distance, fault.shift distance = fault) :
    Streams (throw fault : Reading α) where
  shifted distance reader := by
    change EStateM.Result.error fault (reader.shift distance) =
      .error (fault.shift distance) (reader.shift distance)
    rw [hfault]
  taken offset bytes result left hrun := by cases hrun
  faulted offset bytes other left hrun := by
    cases hrun
    exact .inr fun more => ⟨⟨offset, bytes ++ more⟩, rfl⟩

theorem EndsShort.bind {action : Reading α} {reader : Reader} (next : α → Reading β)
    (hshort : EndsShort action reader) : EndsShort (action >>= next) reader := by
  obtain ⟨offset, need, left, hrun, hlow, hhigh⟩ := hshort
  exact ⟨offset, need, left, Action.bind_of_error hrun, hlow, hhigh⟩

theorem EndsShort.bind_of_ok {action : Reading α} {next : α → Reading β} {value : α}
    {offset : Nat} {used rest : List UInt8}
    (hrun : action ⟨offset, used ++ rest⟩ = .ok value ⟨offset + used.length, rest⟩)
    (hshort : EndsShort (next value) ⟨offset + used.length, rest⟩) :
    EndsShort (action >>= next) ⟨offset, used ++ rest⟩ := by
  obtain ⟨start, need, left, hnext, hlow, hhigh⟩ := hshort
  have hsize : Reader.size ⟨offset, used ++ rest⟩ =
      Reader.size ⟨offset + used.length, rest⟩ := by
    simp only [Reader.size, List.length_append]
    omega
  refine ⟨start, need, left, ?_, ?_, ?_⟩
  · rw [Action.bind_of_ok hrun, hnext]
  · rw [hsize]
    exact hlow
  · rw [hsize]
    exact hhigh

theorem proper_or_append_of_initial {γ : Type} {part one two : List γ}
    (hinitial : part <+: one ++ two) :
    (part <+: one ∧ part ≠ one) ∨ ∃ tail, part = one ++ tail ∧ tail <+: two := by
  obtain ⟨behind, hbehind⟩ := hinitial
  rcases List.append_eq_append_iff.mp hbehind with ⟨gap, hone, -⟩ | ⟨tail, hpart, htwo⟩
  · by_cases hgap : gap = []
    · subst hgap
      rw [List.append_nil] at hone
      exact .inr ⟨[], by rw [hone, List.append_nil], ⟨_, rfl⟩⟩
    · refine .inl ⟨⟨gap, hone.symm⟩, ?_⟩
      intro hwhole
      rw [hwhole] at hone
      exact hgap (List.self_eq_append_right.mp hone)
  · exact .inr ⟨tail, hpart, ⟨behind, htwo.symm⟩⟩

theorem Streams.bind {action : Reading α} {next : α → Reading β} (hfirst : Streams action)
    (hsecond : ∀ value, Streams (next value)) : Streams (action >>= next) where
  shifted distance reader := by
    cases hrun : action reader with
    | ok value middle =>
        have hmoved := hfirst.shifted distance reader
        rw [hrun] at hmoved
        rw [Action.bind_of_ok hmoved, Action.bind_of_ok hrun, (hsecond value).shifted]
    | error fault middle =>
        have hmoved := hfirst.shifted distance reader
        rw [hrun] at hmoved
        rw [Action.bind_of_error hmoved, Action.bind_of_error hrun]
        rfl
  taken offset bytes result left hrun := by
    obtain ⟨value, middle, hvalue, hnext⟩ := Action.bind_eq_ok hrun
    obtain ⟨one, rest, rfl, rfl, hmore, hpart⟩ := hfirst.taken offset bytes value middle hvalue
    obtain ⟨two, rest, rfl, rfl, hmore', hpart'⟩ :=
      (hsecond value).taken (offset + one.length) rest result left hnext
    refine ⟨one ++ two, rest, by rw [List.append_assoc], ?_, ?_, ?_⟩
    · rw [List.length_append, Nat.add_assoc]
    · intro more
      rw [List.append_assoc, Action.bind_of_ok (hmore _), hmore', List.length_append,
        Nat.add_assoc]
    · intro part hinitial hproper
      -- The part ends within the bytes of the first reading, or else the first reading succeeds.
      rcases proper_or_append_of_initial hinitial with ⟨hone, hwhole⟩ | ⟨tail, rfl, htail⟩
      · exact (hpart part hone hwhole).bind next
      · have hproper' : tail ≠ two := by
          rintro rfl
          exact hproper rfl
        exact EndsShort.bind_of_ok (hmore tail) (hpart' tail htail hproper')
  faulted offset bytes fault left hrun := by
    rcases Action.bind_eq_error hrun with hfault | ⟨value, middle, hvalue, hnext⟩
    · rcases hfirst.faulted offset bytes fault left hfault with hshort | hstays
      · exact .inl (hshort.bind next)
      · refine .inr fun more => ?_
        obtain ⟨left, hleft⟩ := hstays more
        exact ⟨left, Action.bind_of_error hleft⟩
    · obtain ⟨one, rest, rfl, rfl, hmore, -⟩ := hfirst.taken offset bytes value middle hvalue
      rcases (hsecond value).faulted (offset + one.length) rest fault left hnext with
        hshort | hstays
      · exact .inl (EndsShort.bind_of_ok (hmore rest) hshort)
      · refine .inr fun more => ?_
        obtain ⟨left, hleft⟩ := hstays more
        refine ⟨left, ?_⟩
        rw [List.append_assoc, Action.bind_of_ok (hmore _), hleft]

theorem Streams.map {action : Reading α} (f : α → β) (haction : Streams action) :
    Streams (f <$> action) := by
  rw [map_eq_pure_bind]
  exact haction.bind fun value => streams_pure (f value)

/-! ## Bytes taken -/

theorem Streams.exists_used {action : Reading α} (hstreams : Streams action)
    {reader left : Reader} {value : α} (hrun : action reader = .ok value left) :
    ∃ used, reader.rest = used ++ left.rest ∧ left.offset = reader.offset + used.length := by
  obtain ⟨used, rest, hbytes, rfl, -, -⟩ :=
    hstreams.taken reader.offset reader.rest value left hrun
  exact ⟨used, hbytes, rfl⟩

/-- A reading takes no more bytes than there are. -/
theorem Streams.rest_le {action : Reading α} (hstreams : Streams action)
    {reader left : Reader} {value : α} (hrun : action reader = .ok value left) :
    left.rest.length ≤ reader.rest.length := by
  obtain ⟨used, hbytes, -⟩ := hstreams.exists_used hrun
  rw [hbytes, List.length_append]
  omega

theorem Streams.size_le {action : Reading α} {Holds : α → Nat → Prop}
    (hstreams : Streams action) (hyields : Yields action Holds) {reader left : Reader} {value : α}
    (hrun : action reader = .ok value left) :
    ∃ size ≤ reader.remaining, left.offset = reader.offset + size ∧ Holds value size := by
  obtain ⟨used, hbytes, hoffset⟩ := hstreams.exists_used hrun
  obtain ⟨size, hsize, hholds⟩ := hyields reader value left hrun
  refine ⟨size, ?_, hsize, hholds⟩
  rw [Reader.remaining, hbytes, List.length_append]
  omega

end Reading
end WireSchema
