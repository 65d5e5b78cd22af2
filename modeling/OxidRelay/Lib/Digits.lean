/-
Decimal numbers of a fixed width, as text and as numbers: writing one and
reading it back is the identity (`number_padded`), and texts built from
blocks of one width are ordered by their first different block
(`append_lt_append_of_lt`, `append_left_lt`), so that the order of the
text is the order of the numbers (`padded_lt_padded`).
-/
import Mathlib.Data.List.Sort
import Mathlib.Data.String.Basic
import Mathlib.Tactic

namespace Digits

variable {α : Type} [LinearOrder α]

/-! ## Texts block by block -/

/-- Two texts whose first blocks are of one length and ordered are ordered,
whatever follows. -/
theorem append_lt_append_of_lt : ∀ {a b : List α} (s t : List α), a.length = b.length → a < b →
    a ++ s < b ++ t
  | [], [], _, _, _, h => absurd h (lt_irrefl _)
  | x :: a, y :: b, s, t, hl, h => by
    rw [List.cons_append, List.cons_append, List.cons_lt_cons_iff]
    rcases List.cons_lt_cons_iff.1 h with hxy | ⟨rfl, hab⟩
    · exact .inl hxy
    · exact .inr ⟨rfl, append_lt_append_of_lt s t (by simpa using hl) hab⟩

/-- Blocks of one length compare before what follows them. -/
theorem append_lt_append {a b s t : List α} (hl : a.length = b.length) (h : a < b ∨ a = b ∧ s < t) :
    a ++ s < b ++ t := by
  rcases h with h | ⟨rfl, h⟩
  · exact append_lt_append_of_lt s t hl h
  · exact List.append_left_lt h

/-! ## Fixed width decimals -/

/-- The last `w` decimal digits of `n`, most significant first. -/
def padded : Nat → Nat → List Char
  | 0, _ => []
  | w + 1, n => (n / 10 ^ w).digitChar :: padded w (n % 10 ^ w)

@[simp] theorem padded_length (w n : Nat) : (padded w n).length = w := by
  induction w generalizing n with
  | zero => rfl
  | succ w ih => simp [padded, ih]

theorem div_pow_lt {w n : Nat} (h : n < 10 ^ (w + 1)) : n / 10 ^ w < 10 :=
  Nat.div_lt_of_lt_mul (by rwa [pow_succ] at h)

theorem digitChar_lt {a b : Nat} (hb : b < 10) (h : a < b) : a.digitChar < b.digitChar := by
  have ha : a < 10 := h.trans hb
  interval_cases b <;> interval_cases a <;> decide

/-- **The order of fixed width decimals** is the order of the numbers. -/
theorem padded_lt_padded {w n m : Nat} (hm : m < 10 ^ w) (h : n < m) : padded w n < padded w m := by
  induction w generalizing n m with
  | zero => simp at hm; omega
  | succ w ih =>
    rw [padded, padded, List.cons_lt_cons_iff]
    have hdiv : n / 10 ^ w ≤ m / 10 ^ w := Nat.div_le_div_right h.le
    rcases hdiv.lt_or_eq with hlt | heq
    · exact .inl (digitChar_lt (div_pow_lt hm) hlt)
    · refine .inr ⟨by rw [heq], ih (Nat.mod_lt _ (by positivity)) ?_⟩
      have hn := Nat.div_add_mod n (10 ^ w)
      have hm' := Nat.div_add_mod m (10 ^ w)
      rw [heq] at hn
      omega

/-- A wider decimal is a decimal of its leading digits, then one of the rest. -/
theorem padded_add {v w n : Nat} (h : n < 10 ^ (v + w)) :
    padded (v + w) n = padded v (n / 10 ^ w) ++ padded w (n % 10 ^ w) := by
  induction v generalizing n with
  | zero => rw [Nat.zero_add] at h ⊢; rw [Nat.mod_eq_of_lt h]; rfl
  | succ v ih =>
    have hw : n % 10 ^ (v + w) / 10 ^ w = n / 10 ^ w % 10 ^ v := by
      rw [Nat.add_comm, pow_add, Nat.mod_mul_right_div_self]
    rw [Nat.succ_add, padded, padded, ih (Nat.mod_lt _ (by positivity)), List.cons_append, hw,
      Nat.mod_mod_of_dvd _ (pow_dvd_pow _ (Nat.le_add_left _ _)), Nat.div_div_eq_div_mul, ← pow_add,
      Nat.add_comm w v]

theorem plus_lt_digitChar {d : Nat} (h : d < 10) : '+' < d.digitChar := by
  interval_cases d <;> decide

/-- A plus sign sorts before any decimal. -/
theorem plus_lt_padded {w n : Nat} (hn : n < 10 ^ (w + 1)) (s t : List Char) :
    '+' :: s < padded (w + 1) n ++ t := by
  rw [padded, List.cons_append, List.cons_lt_cons_iff]
  exact .inl (plus_lt_digitChar (div_pow_lt hn))

/-- Every character of a decimal is a digit. -/
theorem isDigit_of_mem_padded {w n : Nat} (hn : n < 10 ^ w) {c : Char} (h : c ∈ padded w n) :
    c.isDigit = true := by
  induction w generalizing n with
  | zero => simp [padded] at h
  | succ w ih =>
    simp only [padded, List.mem_cons] at h
    rcases h with rfl | h
    · rw [Nat.isDigit_digitChar]; simpa using div_pow_lt hn
    · exact ih (Nat.mod_lt _ (by positivity)) h

/-! ## Reading -/

/-- The value of a digit. -/
def digit? (c : Char) : Option Nat := if c.isDigit then some (c.toNat - '0'.toNat) else none

/-- Reads exactly `w` digits, after `acc` read so far. -/
def numberFrom (acc : Nat) : Nat → List Char → Option (Nat × List Char)
  | 0, cs => some (acc, cs)
  | _ + 1, [] => none
  | w + 1, c :: cs => (digit? c).bind fun d => numberFrom (acc * 10 + d) w cs

/-- Reads exactly `w` digits. -/
def number (w : Nat) (cs : List Char) : Option (Nat × List Char) := numberFrom 0 w cs

theorem digit?_digitChar {d : Nat} (h : d < 10) : digit? d.digitChar = some d := by
  interval_cases d <;> decide

theorem numberFrom_padded {w n : Nat} (hn : n < 10 ^ w) (acc : Nat) (rest : List Char) :
    numberFrom acc w (padded w n ++ rest) = some (acc * 10 ^ w + n, rest) := by
  induction w generalizing n acc with
  | zero =>
    have : n = 0 := by simpa using hn
    simp [padded, numberFrom, this]
  | succ w ih =>
    have hm : n % 10 ^ w < 10 ^ w := Nat.mod_lt _ (by positivity)
    have hsplit := Nat.div_add_mod n (10 ^ w)
    simp only [padded, List.cons_append, numberFrom, digit?_digitChar (div_pow_lt hn),
      Option.bind_some, ih hm, Option.some.injEq, Prod.mk.injEq, and_true]
    rw [pow_succ]
    linarith [hsplit, Nat.mul_comm (10 ^ w) (n / 10 ^ w)]

/-- **Writing then reading** a fixed width decimal. -/
theorem number_padded {w n : Nat} (hn : n < 10 ^ w) (rest : List Char) :
    number w (padded w n ++ rest) = some (n, rest) := by
  simp [number, numberFrom_padded hn]

end Digits
