/-
What leads to what along an infinite sequence. A property is a predicate on
the indices, so that it can speak of a state, of the step that is taken
there and of the time. `Unless.until` says what becomes of a property that
stays until something better comes, and `LeadsTo.rank` is the rule that
makes progress: what comes closer each time gets there.
-/
import Mathlib.Data.Nat.Find
import Mathlib.Order.Nat

/-- Whenever `P`, then `Q` there or later. -/
def LeadsTo (P Q : Nat → Prop) : Prop := ∀ n, P n → ∃ i, n ≤ i ∧ Q i

/-- `P` again and again. -/
def Recurs (P : Nat → Prop) : Prop := ∀ n, ∃ i, n ≤ i ∧ P i

/-- `P` at each step until `Q`. -/
def Unless (P Q : Nat → Prop) : Prop := ∀ n, P n → P (n + 1) ∨ Q (n + 1)

variable {P Q R E : Nat → Prop} {n i : Nat}

theorem Unless.until (h : Unless P Q) (hP : P n) (hi : n ≤ i) : P i ∨ ∃ j, n < j ∧ j ≤ i ∧ Q j := by
  induction hi with
  | refl => exact .inl hP
  | @step i hi ih =>
    rcases ih with hPi | ⟨j, hj, hji, hQ⟩
    · rcases h i hPi with hnext | hQ
      · exact .inl hnext
      · exact .inr ⟨i + 1, Nat.lt_succ_of_le hi, Nat.le_refl _, hQ⟩
    · exact .inr ⟨j, hj, Nat.le_succ_of_le hji, hQ⟩

/-- What recurs comes a next time. -/
theorem Recurs.next (h : Recurs E) (n : Nat) : ∃ i, n ≤ i ∧ E i ∧ ∀ j, n ≤ j → j < i → ¬ E j := by
  classical
  have hex : ∃ k, E (n + k) := by
    obtain ⟨i, hi, hE⟩ := h n
    exact ⟨i - n, by rwa [Nat.add_sub_cancel' hi]⟩
  refine ⟨n + Nat.find hex, Nat.le_add_right _ _, Nat.find_spec hex, fun j hj hlt hE => ?_⟩
  refine Nat.find_min hex (m := j - n) (by omega) ?_
  rwa [Nat.add_sub_cancel' hj]

namespace LeadsTo

theorem trans (h : LeadsTo P Q) (h' : LeadsTo Q R) : LeadsTo P R := by
  intro n hn
  obtain ⟨i, hi, hQ⟩ := h n hn
  obtain ⟨j, hj, hR⟩ := h' i hQ
  exact ⟨j, hi.trans hj, hR⟩

/-- What each time comes closer, or is there, gets there. -/
theorem rank (m : Nat → Nat) (h : ∀ n, P n → ∃ i, n ≤ i ∧ (Q i ∨ P i ∧ m i < m n)) : LeadsTo P Q := by
  intro n hn
  induction hm : m n using Nat.strongRecOn generalizing n with
  | ind k ih =>
    obtain ⟨i, hi, hQ | ⟨hP, hlt⟩⟩ := h n hn
    · exact ⟨i, hi, hQ⟩
    · obtain ⟨j, hj, hQ⟩ := ih (m i) (hm ▸ hlt) i hP rfl
      exact ⟨j, hi.trans hj, hQ⟩

end LeadsTo
