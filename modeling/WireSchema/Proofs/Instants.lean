import WireSchema.Time.Instant

/-!
# Instants in milliseconds

An instant at the beginning of a millisecond is determined by the number of its milliseconds, which
fits 64 bits.  Cutting an instant to its millisecond does not change that number.
-/

namespace WireSchema
namespace Time
namespace Instant

theorem of?_eq_some {seconds : Int} {nanos : Nat} {t : Instant}
    (hsome : of? seconds nanos = some t) : t.seconds = seconds ∧ t.nanos = nanos := by
  unfold of? at hsome
  split at hsome
  next hlower =>
    split at hsome
    next hupper =>
      split at hsome
      next hfraction =>
        cases hsome
        exact ⟨rfl, rfl⟩
      next => cases hsome
    next => cases hsome
  next => cases hsome

theorem of?_seconds_nanos (t : Instant) : of? t.seconds t.nanos = some t := by
  simp only [of?, t.leastSecond_le, t.lt_secondBound, t.nanos_lt, dite_true]

theorem truncated_eq_self_iff (t : Instant) :
    t.truncated = t ↔ t.nanos % 1000000 = 0 := by
  obtain ⟨seconds, nanos, hlower, hupper, hfraction⟩ := t
  simp only [truncated, mk.injEq, true_and]
  omega

theorem truncated_truncated (t : Instant) : t.truncated.truncated = t.truncated := by
  rw [truncated_eq_self_iff]
  simp only [truncated]
  omega

/-- An instant at the beginning of a millisecond is found again by its milliseconds. -/
theorem ofMillis?_millis {t : Instant} (hwhole : t.truncated = t) :
    ofMillis? t.millis = some t := by
  rw [truncated_eq_self_iff] at hwhole
  have hnanos := t.nanos_lt
  have hseconds : t.millis / 1000 = t.seconds := by
    rw [millis]
    omega
  have hrest : (t.millis % 1000).toNat * 1000000 = t.nanos := by
    rw [millis]
    omega
  rw [ofMillis?, hseconds, hrest, of?_seconds_nanos]

theorem truncated_of_ofMillis? {millis : Int} {t : Instant}
    (hsome : ofMillis? millis = some t) : t.truncated = t := by
  have hnanos := (of?_eq_some hsome).2
  rw [truncated_eq_self_iff, hnanos]
  omega

theorem leastSecond_eq : leastSecond = -8334601228800 := by decide +kernel

theorem secondBound_eq : secondBound = 8210266876800 := by decide +kernel

theorem toInt_ofInt_millis (t : Instant) : (Int64.ofInt t.millis).toInt = t.millis := by
  have hlower := t.leastSecond_le
  have hupper := t.lt_secondBound
  have hnanos := t.nanos_lt
  rw [leastSecond_eq] at hlower
  rw [secondBound_eq] at hupper
  apply Int64.toInt_ofInt_of_le
  · rw [millis]
    omega
  · rw [millis]
    omega

end Instant
end Time
end WireSchema
