/-
Retry policy (`oxid-relay-dispatcher`, `retry`): exponential backoff and
the attempt limit.
-/
import OxidRelay.Time

namespace OxidRelay

/-- `u64::MAX`. -/
def u64Max : Nat := 2 ^ 64 - 1

/-- `u64::checked_shl` of one. -/
def checkedShlOne (shift : Nat) : Option Nat := if shift < 64 then some (2 ^ shift) else none

/-- `u64::saturating_mul`. -/
def saturatingMul (a b : Nat) : Nat := min (a * b) u64Max

theorem saturatingMul_lt (a b : Nat) : saturatingMul a b < 2 ^ 64 := by
  simp only [saturatingMul, u64Max]; omega

theorem saturatingMul_mono {a b c : Nat} (h : b ≤ c) : saturatingMul a b ≤ saturatingMul a c := by
  have := Nat.mul_le_mul_left a h
  simp only [saturatingMul]
  omega

/-- Controls how failed deliveries are retried. -/
structure RetryPolicy where
  /-- Attempts before a mail is buried as dead. -/
  maxAttempts : UInt32
  /-- Delay before the first retry. -/
  baseDelay : Duration
  /-- Upper bound of the delay. -/
  maxDelay : Duration

/-- `RetryPolicy::default`. -/
instance : Inhabited RetryPolicy := ⟨5, .fromSecs 30 (by decide), .fromSecs 3600 (by decide)⟩

namespace RetryPolicy

/-- Delay before the next attempt, after `attempts` attempts. -/
def backoff (p : RetryPolicy) (attempts : UInt32) : Duration :=
  let shift := min (attempts.toNat - 1) 31
  let factor := (checkedShlOne shift).getD u64Max
  let secs := saturatingMul p.baseDelay.secs factor
  min (Duration.fromSecs secs (saturatingMul_lt _ _)) p.maxDelay

/-- Whether `attempts` attempts leave no retry. -/
def isExhausted (p : RetryPolicy) (attempts : UInt32) : Bool := p.maxAttempts ≤ attempts

/-- The next attempt of a mail below the limit does not wrap around. -/
theorem toNat_succ_of_lt {n m : UInt32} (h : n < m) : (n + 1).toNat = n.toNat + 1 := by
  have hlt : n.toNat < m.toNat := h
  have := m.toNat_lt
  rw [UInt32.toNat_add]
  exact Nat.mod_eq_of_lt (by simp only [UInt32.toNat_one]; omega)

theorem isExhausted_succ_iff {p : RetryPolicy} {n : UInt32} (h : n < p.maxAttempts) :
    p.isExhausted (n + 1) = true ↔ p.maxAttempts.toNat ≤ n.toNat + 1 := by
  simp only [isExhausted, decide_eq_true_eq, UInt32.le_iff_toNat_le, toNat_succ_of_lt h]

/-! ## The delays grow up to the bound -/

/-- The shift of the factor never overflows. -/
theorem backoff_toNanos (p : RetryPolicy) (attempts : UInt32) : (p.backoff attempts).toNanos =
    min (saturatingMul p.baseDelay.secs (2 ^ min (attempts.toNat - 1) 31) * 1000000000) p.maxDelay.toNanos := by
  have hshift : min (attempts.toNat - 1) 31 < 64 := by omega
  simp only [backoff, checkedShlOne, hshift, if_true, Option.getD_some, Duration.toNanos_min,
    Duration.toNanos_fromSecs]

theorem backoff_mono (p : RetryPolicy) {n m : UInt32} (h : n ≤ m) : p.backoff n ≤ p.backoff m := by
  have hle : n.toNat ≤ m.toNat := h
  have hpow : 2 ^ min (n.toNat - 1) 31 ≤ 2 ^ min (m.toNat - 1) 31 := Nat.pow_le_pow_right (by decide) (by omega)
  have hmul := saturatingMul_mono (a := p.baseDelay.secs) hpow
  rw [Duration.le_iff, backoff_toNanos, backoff_toNanos]
  omega

theorem backoff_le (p : RetryPolicy) (n : UInt32) : p.backoff n ≤ p.maxDelay := by
  rw [Duration.le_iff, backoff_toNanos]
  exact min_le_right _ _

end RetryPolicy

end OxidRelay
