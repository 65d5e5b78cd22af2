/-
The delays of a retry policy against the formula they are documented with,
`base * 2^(attempts - 1)` capped at `max_delay`, in nanoseconds and without
bounds (`RetryPolicy.formula`). `backoff` computes with whole seconds, at
most 31 doublings and a `u64` that saturates, so it never exceeds the
formula; `backoff_law_iff` is when it reaches it.
-/
import OxidRelay.Startup

namespace OxidRelay

variable {p : RetryPolicy} {attempts : UInt32}

namespace RetryPolicy

/-- The documented delay, in nanoseconds. -/
def formula (p : RetryPolicy) (attempts : UInt32) : Nat :=
  min (p.baseDelay.toNanos * 2 ^ (attempts.toNat - 1)) p.maxDelay.toNanos

/-- The delay is the documented one, and the factor is not out of range.
(The other operations of `backoff` saturate or are total.) -/
structure BackoffLaw (p : RetryPolicy) (attempts : UInt32) : Prop where
  delay : (p.backoff attempts).toNanos = p.formula attempts
  factor : checkedShlOne (min (attempts.toNat - 1) 31) ≠ none

/-- Nothing is cut off the product: the base delay has whole seconds and is
zero or doubled at most 31 times, and the product is a `u64`. -/
structure Uncut (p : RetryPolicy) (attempts : UInt32) : Prop where
  whole : p.baseDelay.nanos = 0
  doublings : p.baseDelay.secs = 0 ∨ attempts.toNat ≤ 32
  fits : p.baseDelay.secs * 2 ^ (attempts.toNat - 1) < 2 ^ 64

/-- The cap is reached all the same: by the whole seconds of the base delay
within 31 doublings, and it is at most `u64::MAX` seconds. -/
structure CapReached (p : RetryPolicy) (attempts : UInt32) : Prop where
  reached : p.maxDelay.toNanos ≤ p.baseDelay.secs * 2 ^ min (attempts.toNat - 1) 31 * 1000000000
  range : p.maxDelay.toNanos ≤ u64Max * 1000000000

/-! ## The product -/

/-- The product before the cap, as `backoff` computes it. -/
def product (p : RetryPolicy) (attempts : UInt32) : Nat :=
  saturatingMul p.baseDelay.secs (2 ^ min (attempts.toNat - 1) 31) * 1000000000

theorem factor_le (attempts : UInt32) : 2 ^ min (attempts.toNat - 1) 31 ≤ 2 ^ (attempts.toNat - 1) :=
  Nat.pow_le_pow_right (by decide) (min_le_left _ _)

/-- The product of a duration, by its seconds and its nanoseconds. -/
theorem toNanos_mul (d : Duration) (n : Nat) : d.toNanos * n = d.secs * n * 1000000000 + d.nanos * n := by
  rw [Duration.toNanos, Nat.add_mul, Nat.mul_right_comm]

theorem product_le (p : RetryPolicy) (attempts : UInt32) :
    p.product attempts ≤ p.baseDelay.toNanos * 2 ^ (attempts.toNat - 1) := by
  have hmul := Nat.mul_le_mul_left p.baseDelay.secs (factor_le attempts)
  rw [toNanos_mul]
  unfold product saturatingMul
  omega

theorem product_eq_iff :
    p.product attempts = p.baseDelay.toNanos * 2 ^ (attempts.toNat - 1) ↔ p.Uncut attempts := by
  have hmul := Nat.mul_le_mul_left p.baseDelay.secs (factor_le attempts)
  have hpos : 0 < 2 ^ (attempts.toNat - 1) := Nat.two_pow_pos _
  rw [toNanos_mul]
  unfold product saturatingMul u64Max
  refine ⟨fun h => ?_, fun h => ?_⟩
  · have hnanos : p.baseDelay.nanos * 2 ^ (attempts.toNat - 1) = 0 := by omega
    have hsecs : p.baseDelay.secs * 2 ^ min (attempts.toNat - 1) 31 =
        p.baseDelay.secs * 2 ^ (attempts.toNat - 1) := by
      omega
    refine ⟨by simpa using hnanos, ?_, by omega⟩
    by_cases hzero : p.baseDelay.secs = 0
    · exact .inl hzero
    · have hpow := Nat.eq_of_mul_eq_mul_left (Nat.pos_of_ne_zero hzero) hsecs
      have hexp := Nat.pow_right_injective (le_refl 2) hpow
      exact .inr (by omega)
  · obtain ⟨hwhole, hdoublings, hfits⟩ := h
    have hsecs : p.baseDelay.secs * 2 ^ min (attempts.toNat - 1) 31 =
        p.baseDelay.secs * 2 ^ (attempts.toNat - 1) := by
      cases hdoublings with
      | inl hzero => rw [hzero, Nat.zero_mul, Nat.zero_mul]
      | inr hle => rw [min_eq_left (by omega)]
    rw [hsecs, hwhole, Nat.zero_mul]
    omega

/-! ## The law -/

/-- **When the delay is the documented one.** That is when nothing is cut
off the product, and when the cap is reached all the same. -/
theorem backoff_law_iff (p : RetryPolicy) (attempts : UInt32) :
    p.BackoffLaw attempts ↔ p.Uncut attempts ∨ p.CapReached attempts := by
  have hshift : min (attempts.toNat - 1) 31 < 64 := by omega
  have hfactor : checkedShlOne (min (attempts.toNat - 1) 31) ≠ none := by simp [checkedShlOne, hshift]
  have hcap : p.CapReached attempts ↔ p.maxDelay.toNanos ≤ p.product attempts := by
    rw [product, saturatingMul, ← Nat.mul_min_mul_right, le_min_iff]
    exact ⟨fun h => ⟨h.reached, h.range⟩, fun h => ⟨h.1, h.2⟩⟩
  have hdelay : (p.backoff attempts).toNanos = min (p.product attempts) p.maxDelay.toNanos :=
    p.backoff_toNanos attempts
  have hlaw : p.BackoffLaw attempts ↔ (p.backoff attempts).toNanos = p.formula attempts :=
    ⟨fun h => h.delay, fun h => ⟨h, hfactor⟩⟩
  have hle := p.product_le attempts
  rw [hlaw, hdelay, hcap, ← product_eq_iff, formula]
  omega

/-- The default policy, but with a base delay of half a second. -/
def halfSecond : RetryPolicy := { (default : RetryPolicy) with baseDelay := ⟨0, 500000000, by decide, by decide⟩ }

/-- **The first delay is zero**, and not half a second. -/
theorem half_second_dropped :
    (halfSecond.backoff 1).toNanos = 0 ∧ halfSecond.formula 1 = 500000000 ∧ ¬ halfSecond.BackoffLaw 1 := by
  have hdelay : (halfSecond.backoff 1).toNanos = 0 := by decide
  have hformula : halfSecond.formula 1 = 500000000 := by decide
  refine ⟨hdelay, hformula, fun h => ?_⟩
  have := h.delay
  rw [hdelay, hformula] at this
  cases this

end RetryPolicy

end OxidRelay
