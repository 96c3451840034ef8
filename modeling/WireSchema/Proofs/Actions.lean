/-!
# Actions one after another

What moves a state and gives a value or a fault is run here on a state at hand.  A sequence
succeeds when both of its parts do, and fails when one of them does.
-/

namespace WireSchema
namespace Action

variable {ε σ α β : Type} {action : EStateM ε σ α} {f : α → EStateM ε σ β}
  {state middle final : σ} {value : α} {result : β} {fault : ε}

theorem bind_of_ok (hrun : action state = .ok value middle) :
    (action >>= f) state = f value middle := by
  change EStateM.bind action f state = f value middle
  rw [EStateM.bind, hrun]

theorem bind_of_error (hrun : action state = .error fault middle) :
    (action >>= f) state = .error fault middle := by
  change EStateM.bind action f state = .error fault middle
  rw [EStateM.bind, hrun]

theorem bind_eq_ok (hrun : (action >>= f) state = .ok result final) :
    ∃ value middle, action state = .ok value middle ∧ f value middle = .ok result final := by
  cases haction : action state with
  | ok value middle =>
      rw [bind_of_ok haction] at hrun
      exact ⟨value, middle, rfl, hrun⟩
  | error fault middle =>
      rw [bind_of_error haction] at hrun
      cases hrun

theorem bind_eq_error (hrun : (action >>= f) state = .error fault final) :
    action state = .error fault final ∨
      ∃ value middle, action state = .ok value middle ∧ f value middle = .error fault final := by
  cases haction : action state with
  | ok value middle =>
      rw [bind_of_ok haction] at hrun
      exact .inr ⟨value, middle, rfl, hrun⟩
  | error other middle =>
      rw [bind_of_error haction] at hrun
      cases hrun
      exact .inl rfl

/-- Whether a run gave a value. -/
def succeeded : EStateM.Result ε σ α → Bool
  | .ok _ _ => true
  | .error _ _ => false

theorem exists_ok (hrun : succeeded (action state) = true) :
    ∃ value middle, action state = .ok value middle := by
  cases haction : action state with
  | ok value middle => exact ⟨value, middle, rfl⟩
  | error fault middle =>
      rw [haction] at hrun
      cases hrun

/-- The fault of a run, with the state that is left. -/
def fault? : EStateM.Result ε σ α → Option (ε × σ)
  | .ok _ _ => none
  | .error fault state => some (fault, state)

theorem eq_error_of_fault? (hrun : fault? (action state) = some (fault, final)) :
    action state = .error fault final := by
  cases haction : action state with
  | ok value middle =>
      rw [haction] at hrun
      cases hrun
  | error other middle =>
      rw [haction] at hrun
      cases hrun
      rfl

theorem adaptExcept_of_ok {ε' : Type} {g : ε → ε'}
    (hrun : action state = .ok value middle) :
    EStateM.adaptExcept g action state = .ok value middle := by
  rw [EStateM.adaptExcept, hrun]

theorem adaptExcept_of_error {ε' : Type} {g : ε → ε'}
    (hrun : action state = .error fault middle) :
    EStateM.adaptExcept g action state = .error (g fault) middle := by
  rw [EStateM.adaptExcept, hrun]

theorem adaptExcept_eq_ok {ε' : Type} {g : ε → ε'}
    (hrun : EStateM.adaptExcept g action state = .ok value middle) :
    action state = .ok value middle := by
  cases haction : action state with
  | ok value middle =>
      rw [adaptExcept_of_ok haction] at hrun
      cases hrun
      rfl
  | error fault middle =>
      rw [adaptExcept_of_error haction] at hrun
      cases hrun

theorem adaptExcept_eq_error {ε' : Type} {g : ε → ε'} {other : ε'}
    (hrun : EStateM.adaptExcept g action state = .error other middle) :
    ∃ fault, action state = .error fault middle ∧ g fault = other := by
  cases haction : action state with
  | ok value middle =>
      rw [adaptExcept_of_ok haction] at hrun
      cases hrun
  | error fault middle =>
      rw [adaptExcept_of_error haction] at hrun
      cases hrun
      exact ⟨fault, rfl, rfl⟩

theorem adaptExcept_congr {ε' : Type} {g : ε → ε'} {other : EStateM ε σ α}
    (hrun : action state = other middle) :
    EStateM.adaptExcept g action state = EStateM.adaptExcept g other middle := by
  unfold EStateM.adaptExcept
  rw [hrun]

end Action
end WireSchema
