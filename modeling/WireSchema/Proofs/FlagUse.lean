import WireSchema.Proofs.Presence

/-!
# Use of presence bits

Presence bits are either appended to be written or read to be taken.  Here both are mixed in any
order.  A bit that is appended joins the one that stands at the position, and changes no other.
Beyond the bytes all bits are clear, and so are all bits from the position on that were not read.
Only appending a set bit can fail to find its place, if a byte and more lies between the bytes and
the position; as long as bits are taken from the bytes alone, the position stays close to them.
-/

namespace WireSchema

/-- What can be done with presence bits.  Reading puts others in their place. -/
inductive FlagAction where
  | push (bit : Bool)
  | next
  | read (reader : Reader) (count : Nat)
  | write (writer : Writer)
  deriving DecidableEq, Repr

namespace FlagBits

/-- The presence bits after an action; none stands for a bit that found no place.  Bits that cannot
be read leave those there are, and writing them changes nothing. -/
def perform (flags : FlagBits) : FlagAction → Option FlagBits
  | .push bit => flags.push bit
  | .next => some flags.next.2
  | .read reader count =>
    match FlagBits.read count reader with
    | .ok taken _ => some taken
    | .error _ _ => some flags
  | .write writer =>
    match flags.write writer with
    | .ok _ _ => some flags
    | .error _ _ => some flags

def run (flags : FlagBits) (actions : List FlagAction) : Option FlagBits :=
  actions.foldlM perform flags

/-- How many bytes were read last, after an action and given how many before it. -/
def bytesReadBy (held : Nat) : FlagAction → Nat
  | .read reader count => if reader.rest.length < count then held else count
  | _ => held

def bytesRead (actions : List FlagAction) : Nat := actions.foldl bytesReadBy 0

/-- Whether bits are taken from the bytes alone, never from beyond them. -/
def takesInside : FlagBits → List FlagAction → Bool
  | _, [] => true
  | flags, action :: rest =>
    (action != .next || decide (flags.index < flags.bytes.length)) &&
      (flags.perform action).all fun after => after.takesInside rest

variable {flags after : FlagBits} {actions : List FlagAction}

/-! ## Single actions -/

theorem perform_read (flags : FlagBits) (reader : Reader) (count : Nat) :
    flags.perform (.read reader count) =
      some (if reader.rest.length < count then flags else ⟨reader.rest.take count, 0⟩) := by
  have hbytes := Reading.bytes_eq count reader.offset reader.rest
  split at hbytes
  next hshort =>
    have hread : FlagBits.read count reader = .error _ _ := Action.bind_of_error hbytes
    rw [perform, hread, if_pos hshort]
  next henough =>
    have hread : FlagBits.read count reader = .ok _ _ := Action.bind_of_ok hbytes
    rw [perform, hread, if_neg henough]

theorem perform_write (flags : FlagBits) (writer : Writer) :
    flags.perform (.write writer) = some flags := by
  rw [perform]
  split <;> rfl

theorem push_eq_none_iff {bit : Bool} :
    flags.push bit = none ↔ bit = true ∧ flags.bytes.length < flags.index := by
  cases bit <;> simp [push, isDetached]

theorem perform_eq_none_iff {action : FlagAction} : flags.perform action = none ↔
    action = .push true ∧ flags.bytes.length < flags.index := by
  cases action with
  | push bit =>
      change flags.push bit = none ↔ _
      rw [push_eq_none_iff, FlagAction.push.injEq]
  | next => simp [perform]
  | read reader count => simp [perform_read]
  | write writer => simp [perform_write]

theorem push_of_le (hplace : flags.index ≤ flags.bytes.length) (bit : Bool) :
    flags.push bit = some (flags.append bit) := by
  simp [push, isDetached, Nat.not_lt.mpr hplace]

theorem append_of_push {bit : Bool} (hpush : flags.push bit = some after) :
    after = flags.append bit ∧ (bit = true → flags.index ≤ flags.bytes.length) := by
  unfold push at hpush
  split at hpush
  · cases hpush
  next hplace =>
    refine ⟨(Option.some.inj hpush).symm, ?_⟩
    rintro rfl
    simpa [isDetached] using hplace

theorem length_grown (flags : FlagBits) (hclose : flags.index ≤ flags.bytes.length) :
    flags.index < flags.grown.length := by
  unfold grown
  split
  · assumption
  · rw [List.length_append, List.length_singleton]
    exact Nat.lt_succ_of_le hclose

/-- A bit that is appended joins the bit at the position. -/
theorem bitAt_push {bit : Bool} (hpush : flags.push bit = some after) (number : Nat) :
    bitAt after.bytes number =
      (bitAt flags.bytes number || (bit && decide (number = flags.position))) := by
  obtain ⟨rfl, hclose⟩ := append_of_push hpush
  cases bit with
  | false =>
      rw [Bool.false_and, Bool.or_false]
      exact flags.bitAt_grown number
  | true =>
      rw [Bool.true_and, ← flags.bitAt_grown,
        ← bitAt_modify number (flags.length_grown (hclose rfl))]
      rfl

/-! ## Whole runs -/

/-- Bits behind the position are clear, those read apart. -/
def ClearFrom (flags : FlagBits) (held : Nat) : Prop :=
  ∀ number, flags.position ≤ number → 8 * held ≤ number → bitAt flags.bytes number = false

theorem bitAt_of_le {bytes : List UInt8} {number : Nat} (hbeyond : 8 * bytes.length ≤ number) :
    bitAt bytes number = false := by
  have hnone : bytes[number / 8]? = none := List.getElem?_eq_none (by omega)
  unfold bitAt
  rw [hnone]

theorem ClearFrom.perform {held : Nat} {action : FlagAction} (hclear : flags.ClearFrom held)
    (hrun : flags.perform action = some after) : after.ClearFrom (bytesReadBy held action) := by
  cases action with
  | push bit =>
      intro number hposition hheld
      have happend := (append_of_push hrun).1
      have hbehind : flags.position < number := by
        rw [happend] at hposition
        exact hposition
      rw [bitAt_push hrun, hclear number (Nat.le_of_lt hbehind) hheld,
        decide_eq_false (Nat.ne_of_gt hbehind), Bool.and_false, Bool.or_false]
  | next =>
      cases hrun
      intro number hposition hheld
      exact hclear number (Nat.le_of_succ_le hposition) hheld
  | read reader count =>
      rw [perform_read, Option.some_inj] at hrun
      subst hrun
      rw [bytesReadBy]
      split
      · exact hclear
      · intro number _ hheld
        apply bitAt_of_le
        have hlength := List.length_take_le count reader.rest
        exact Nat.le_trans (Nat.mul_le_mul_left 8 hlength) hheld
  | write writer =>
      rw [perform_write, Option.some_inj] at hrun
      subst hrun
      exact hclear

theorem ClearFrom.run {held : Nat} (hclear : flags.ClearFrom held)
    (hrun : flags.run actions = some after) :
    after.ClearFrom (actions.foldl bytesReadBy held) := by
  induction actions generalizing flags held with
  | nil =>
      cases hrun
      exact hclear
  | cons action rest ih =>
      obtain ⟨middle, haction, hrest⟩ := Option.bind_eq_some_iff.mp hrun
      exact ih (hclear.perform haction) hrest

theorem clearFrom_empty : empty.ClearFrom 0 := fun _ _ _ => rfl

/-- The position is in the bytes or right behind them. -/
def IsClose (flags : FlagBits) : Prop := flags.position ≤ 8 * flags.bytes.length

theorem IsClose.perform {action : FlagAction} (hclose : flags.IsClose)
    (hinside : action = .next → flags.index < flags.bytes.length) :
    ∃ after, flags.perform action = some after ∧ after.IsClose := by
  unfold IsClose at hclose
  cases action with
  | push bit =>
      have hindex : flags.index ≤ flags.bytes.length := by
        unfold index
        omega
      refine ⟨flags.append bit, push_of_le hindex bit, ?_⟩
      have hlength : (flags.append bit).bytes.length = flags.grown.length := by
        cases bit
        · rfl
        · exact List.length_modify ..
      have hgrown := flags.length_grown hindex
      unfold index at hgrown
      change flags.position + 1 ≤ _
      rw [hlength]
      omega
  | next =>
      have hbelow := hinside rfl
      unfold index at hbelow
      refine ⟨_, rfl, ?_⟩
      change flags.position + 1 ≤ 8 * flags.bytes.length
      omega
  | read reader count =>
      refine ⟨_, perform_read flags reader count, ?_⟩
      split
      · exact hclose
      · exact Nat.zero_le _
  | write writer => exact ⟨flags, perform_write flags writer, hclose⟩

theorem IsClose.exists_run (hclose : flags.IsClose) (hinside : flags.takesInside actions) :
    ∃ after, flags.run actions = some after := by
  induction actions generalizing flags with
  | nil => exact ⟨flags, rfl⟩
  | cons action rest ih =>
      rw [takesInside, Bool.and_eq_true, Bool.or_eq_true, bne_iff_ne, decide_eq_true_eq] at hinside
      obtain ⟨middle, haction, hmiddle⟩ := hclose.perform fun hnext =>
        hinside.1.resolve_left (not_not_intro hnext)
      rw [haction, Option.all_some] at hinside
      obtain ⟨after, hrest⟩ := ih hmiddle hinside.2
      exact ⟨after, Option.bind_eq_some_iff.mpr ⟨middle, haction, hrest⟩⟩

/-- Bits before the position keep their values, unless reading puts other bits in their place and
stands before the first of them. -/
theorem bitAt_perform {action : FlagAction} (hrun : flags.perform action = some after)
    {number : Nat} (hbefore : number < flags.position) (hbefore' : number < after.position) :
    bitAt after.bytes number = bitAt flags.bytes number := by
  cases action with
  | push bit =>
      rw [bitAt_push hrun, decide_eq_false (Nat.ne_of_lt hbefore), Bool.and_false, Bool.or_false]
  | next =>
      cases hrun
      rfl
  | read reader count =>
      rw [perform_read, Option.some_inj] at hrun
      subst hrun
      split at hbefore'
      next hshort => rw [if_pos hshort]
      next => exact absurd hbefore' (Nat.not_lt_zero number)
  | write writer =>
      rw [perform_write, Option.some_inj] at hrun
      rw [hrun]

/-- In a run of any actions, an action fails only if it appends a set bit a byte or more behind the
bytes, which does not happen while bits are taken from the bytes alone.  A bit that is appended
stands at the position, or joins the bit that was read there, and all other bits stay; no action
changes a bit before the position. -/
theorem used_safely (actions : List FlagAction) :
    (empty.takesInside actions → ∃ flags, empty.run actions = some flags) ∧
    ∀ flags, empty.run actions = some flags →
      (∀ action, flags.perform action = none ↔
        action = .push true ∧ flags.bytes.length < flags.index) ∧
      (∀ bit after, flags.perform (.push bit) = some after →
        after.position = flags.position + 1 ∧
        bitAt after.bytes flags.position = (bit || bitAt flags.bytes flags.position) ∧
        (8 * bytesRead actions ≤ flags.position → bitAt after.bytes flags.position = bit) ∧
        ∀ number ≠ flags.position, bitAt after.bytes number = bitAt flags.bytes number) ∧
      ∀ action after, flags.perform action = some after →
        ∀ number, number < flags.position → number < after.position →
          bitAt after.bytes number = bitAt flags.bytes number := by
  refine ⟨IsClose.exists_run (Nat.zero_le _), ?_⟩
  intro flags hrun
  refine ⟨fun _ => perform_eq_none_iff, ?_, fun _ _ haction _ => bitAt_perform haction⟩
  intro bit after hpush
  have hbit : bitAt after.bytes flags.position = (bit || bitAt flags.bytes flags.position) := by
    rw [bitAt_push hpush, decide_eq_true rfl, Bool.and_true, Bool.or_comm]
  refine ⟨?_, hbit, ?_, ?_⟩
  · rw [(append_of_push hpush).1]
    rfl
  · intro hheld
    have hclear := (clearFrom_empty.run hrun) flags.position (Nat.le_refl _) hheld
    rw [hbit, hclear, Bool.or_false]
  · intro number hne
    rw [bitAt_push hpush, decide_eq_false hne, Bool.and_false, Bool.or_false]

end FlagBits

namespace Sample

open FlagBits

/-- Without these bounds neither part holds: a set bit appended eight bits behind the bytes finds
no place, and a clear bit appended where a set one was read leaves that one standing. -/
theorem misplaced_bits :
    empty.run (List.replicate 8 .next ++ [.push true]) = none ∧
      ∃ flags after, empty.run [.read (Reader.of [0xff]) 1] = some flags ∧
        flags.perform (.push false) = some after ∧ bitAt after.bytes flags.position = true := by
  refine ⟨by decide, ⟨[0xff], 0⟩, ⟨[0xff], 1⟩, by decide, by decide, by decide⟩

/-- Two bytes read, of which bits are taken, overwritten and followed by a bit in a third byte. -/
def patchwork : List FlagAction :=
  [.push true, .read (Reader.of [0x04, 0x80]) 2, .next, .push true, .push false, .write (.of []),
    .read (Reader.of []) 1] ++ List.replicate 13 .next

theorem bits_patchwork :
    empty.takesInside patchwork = true ∧ (∃ flags, empty.run patchwork = some flags) ∧
      empty.run patchwork = some ⟨[0x06, 0x80], 16⟩ ∧
      FlagBits.perform ⟨[0x06, 0x80], 16⟩ (.push true) = some ⟨[0x06, 0x80, 0x01], 17⟩ ∧
      bitAt [0x06, 0x80, 0x01] 16 = true ∧ bitAt [0x06, 0x80, 0x01] 2 = bitAt [0x06, 0x80] 2 := by
  have hinside : empty.takesInside patchwork = true := by decide
  have hrun : empty.run patchwork = some ⟨[0x06, 0x80], 16⟩ := by decide
  have hpush : FlagBits.perform ⟨[0x06, 0x80], 16⟩ (.push true) =
      some ⟨[0x06, 0x80, 0x01], 17⟩ := by decide
  obtain ⟨hruns, hsteps⟩ := used_safely patchwork
  obtain ⟨-, hpushes, hearlier⟩ := hsteps _ hrun
  exact ⟨hinside, hruns hinside, hrun, hpush, (hpushes _ _ hpush).2.2.1 (by decide),
    hearlier _ _ hpush 2 (by decide) (by decide)⟩

end Sample
end WireSchema
