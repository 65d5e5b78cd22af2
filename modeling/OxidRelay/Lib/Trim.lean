/-
Trimming lists at both ends. What is dropped at one end does not depend on
what is dropped at the other (`trim_eq`), and a wider trim does not see an
earlier narrow one (`trim_trim`).

`peel` is a trim of blanks, a trim of brackets and a trim of blanks again,
each made once. It drops all blanks and brackets around a list exactly when
what it leaves has none at its ends (`peel_eq_core_iff`), and what it leaves
still opens with a bracket exactly when the list does so after blanks,
brackets and blanks (`peel_head_iff`).
-/
import Mathlib.Data.List.DropRight

namespace Trim

variable {α : Type} {p p' q q' : α → Bool} {l : List α} {x : α}

/-! ## One end -/

theorem dropWhile_append_of_all {a : List α} (h : ∀ x ∈ a, p x = true) :
    (a ++ l).dropWhile p = l.dropWhile p := by
  induction a with
  | nil => rfl
  | cons x a ih =>
    rw [List.cons_append, List.dropWhile_cons_of_pos (h x List.mem_cons_self)]
    exact ih fun y hy => h y (List.mem_cons_of_mem _ hy)

theorem dropWhile_dropWhile (h : ∀ x, p x = true → p' x = true) : (l.dropWhile p).dropWhile p' = l.dropWhile p' := by
  induction l with
  | nil => rfl
  | cons x l ih =>
    by_cases hp : p x = true
    · rw [List.dropWhile_cons_of_pos hp, List.dropWhile_cons_of_pos (h x hp), ih]
    · rw [List.dropWhile_cons_of_neg hp]

theorem rdropWhile_cons :
    (x :: l).rdropWhile q = if l.rdropWhile q = [] ∧ q x = true then [] else x :: l.rdropWhile q := by
  unfold List.rdropWhile
  rw [List.reverse_cons, List.dropWhile_append]
  cases h : l.reverse.dropWhile q with
  | nil => by_cases hq : q x = true <;> simp [hq]
  | cons y m => simp

theorem rdropWhile_cons_of_neg (h : q x = false) : (x :: l).rdropWhile q = x :: l.rdropWhile q := by
  simp [rdropWhile_cons, h]

theorem rdropWhile_rdropWhile (h : ∀ x, q x = true → q' x = true) :
    (l.rdropWhile q).rdropWhile q' = l.rdropWhile q' := by
  unfold List.rdropWhile
  rw [List.reverse_reverse, dropWhile_dropWhile h]

/-! ## Both ends -/

/-- **The ends do not interfere.** -/
theorem dropWhile_rdropWhile : (l.rdropWhile q).dropWhile p = (l.dropWhile p).rdropWhile q := by
  induction l with
  | nil => rfl
  | cons x l ih =>
    by_cases hp : p x = true
    · rw [List.dropWhile_cons_of_pos hp, ← ih, rdropWhile_cons]
      split
      · next h => rw [h.1]
      · rw [List.dropWhile_cons_of_pos hp]
    · rw [List.dropWhile_cons_of_neg hp, rdropWhile_cons]
      split
      · rfl
      · rw [List.dropWhile_cons_of_neg hp]

/-- Drops what satisfies `p` at the front and `q` at the back. -/
def trim (p q : α → Bool) (l : List α) : List α := (l.dropWhile p).rdropWhile q

theorem trim_eq (p q : α → Bool) (l : List α) : trim p q l = (l.rdropWhile q).dropWhile p :=
  dropWhile_rdropWhile.symm

theorem trim_reverse : trim p q l.reverse = (trim q p l).reverse := by
  rw [trim_eq q p, trim, List.rdropWhile, List.rdropWhile]

/-- **A wider trim absorbs a narrow one.** -/
theorem trim_trim (hp : ∀ x, p x = true → p' x = true) (hq : ∀ x, q x = true → q' x = true) :
    trim p' q' (trim p q l) = trim p' q' l := by
  -- the back is absorbed with the front still to come, then the front
  rw [trim_eq p' q', trim, rdropWhile_rdropWhile hq, ← trim_eq, trim, dropWhile_dropWhile hp, trim]

/-- A list is left alone when its ends are not to be dropped. -/
theorem trim_eq_self_iff : trim p q l = l ↔ (∀ x ∈ l.head?, p x = false) ∧ ∀ x ∈ l.getLast?, q x = false := by
  have hfront : l.dropWhile p = l ↔ ∀ x ∈ l.head?, p x = false := by
    cases l with
    | nil => simp
    | cons x l => simp
  have hback : l.rdropWhile q = l ↔ ∀ x ∈ l.getLast?, q x = false := by
    rw [List.rdropWhile_eq_self_iff]
    cases l with
    | nil => simp
    | cons x l => simp [List.getLast?_eq_some_getLast]
  rw [← hfront, ← hback]
  refine ⟨fun h => ?_, fun h => ?_⟩
  · have hle := (List.rdropWhile_prefix q (l.dropWhile p)).length_le
    have hdrop : l.dropWhile p = l := by
      refine (List.dropWhile_suffix p).eq_of_length_le ?_
      rw [← trim, h] at hle
      exact hle
    refine ⟨hdrop, ?_⟩
    rw [trim, hdrop] at h
    exact h
  · rw [trim, h.1, h.2]

theorem trim_append {a b : List α} (ha : ∀ x ∈ a, p x = true) (hb : ∀ x ∈ b, q x = true) :
    trim p q (a ++ l ++ b) = trim p q l := by
  have hb' : ∀ x ∈ b.reverse, q x = true := fun x hx => hb x (List.mem_reverse.1 hx)
  rw [List.append_assoc, trim, dropWhile_append_of_all ha, ← trim, trim_eq, List.rdropWhile, List.reverse_append,
    dropWhile_append_of_all hb', ← List.rdropWhile, ← trim_eq]

/-! ## Blanks, brackets, blanks -/

variable {w : α → Bool}

/-- A trim of the blanks `w`, one of the brackets `p` and `q`, and one of the blanks. -/
def peel (w p q : α → Bool) (l : List α) : List α := trim w w (trim p q (trim w w l))

/-- The list without any blank or bracket around it. -/
def core (w p q : α → Bool) (l : List α) : List α := trim (fun x => w x || p x) (fun x => w x || q x) l

/-- Blanks, if any, then brackets, then blanks, then a bracket open the list. -/
def Gapped (w p : α → Bool) (l : List α) : Prop :=
  ∃ a b c x m, l = a ++ (b ++ (c ++ x :: m)) ∧ (∀ y ∈ a, w y = true) ∧ (b ≠ [] ∧ ∀ y ∈ b, p y = true) ∧
    (c ≠ [] ∧ ∀ y ∈ c, w y = true) ∧ p x = true

theorem core_peel : core w p q (peel w p q l) = core w p q l := by
  have hw (r : α → Bool) : ∀ x, w x = true → (w x || r x) = true := fun x h => by simp [h]
  have hr (r : α → Bool) : ∀ x, r x = true → (w x || r x) = true := fun x h => by simp [h]
  unfold core peel
  rw [trim_trim (hw p) (hw q), trim_trim (hr p) (hr q), trim_trim (hw p) (hw q)]

/-- What is peeled has no blank at its ends. -/
theorem peel_blank : (∀ x ∈ (peel w p q l).head?, w x = false) ∧ ∀ x ∈ (peel w p q l).getLast?, w x = false :=
  trim_eq_self_iff.1 (trim_trim (fun _ h => h) fun _ h => h)

/-- **All layers are peeled** exactly when no bracket is left at the ends. -/
theorem peel_eq_core_iff : peel w p q l = core w p q l ↔
    (∀ x ∈ (peel w p q l).head?, p x = false) ∧ ∀ x ∈ (peel w p q l).getLast?, q x = false := by
  rw [← core_peel, eq_comm, core, trim_eq_self_iff]
  simp only [Bool.or_eq_false_iff]
  exact ⟨fun h => ⟨fun x hx => (h.1 x hx).2, fun x hx => (h.2 x hx).2⟩,
    fun h => ⟨fun x hx => ⟨peel_blank.1 x hx, h.1 x hx⟩, fun x hx => ⟨peel_blank.2 x hx, h.2 x hx⟩⟩⟩

/-- A list that starts and ends with neither stays as it is. -/
theorem peel_eq_self (h : core w p q l = l) : peel w p q l = l := by
  obtain ⟨hfront, hback⟩ := trim_eq_self_iff.1 h
  simp only [Bool.or_eq_false_iff] at hfront hback
  have hblank : trim w w l = l := trim_eq_self_iff.2 ⟨fun x hx => (hfront x hx).1, fun x hx => (hback x hx).1⟩
  have hbracket : trim p q l = l := trim_eq_self_iff.2 ⟨fun x hx => (hfront x hx).2, fun x hx => (hback x hx).2⟩
  rw [peel, hblank, hbracket, hblank]

theorem peel_reverse : peel w p q l.reverse = (peel w q p l).reverse := by
  simp only [peel, trim_reverse]

/-- The drops at the front come first as well. -/
theorem peel_eq : peel w p q l =
    (((((l.dropWhile w).dropWhile p).dropWhile w).rdropWhile w).rdropWhile q).rdropWhile w := by
  simp only [peel, trim, dropWhile_rdropWhile]

/-! ## Where a bracket stays -/

theorem Gapped.append (h : Gapped w p l) (r : List α) : Gapped w p (l ++ r) := by
  obtain ⟨a, b, c, x, m, rfl, hgap⟩ := h
  exact ⟨a, b, c, x, m ++ r, by simp, hgap⟩

theorem Gapped.blanks (h : Gapped w p l) {r : List α} (hr : ∀ y ∈ r, w y = true) : Gapped w p (r ++ l) := by
  obtain ⟨a, b, c, x, m, rfl, ha, hgap⟩ := h
  refine ⟨r ++ a, b, c, x, m, by simp, ?_, hgap⟩
  intro y hy
  exact (List.mem_append.1 hy).elim (hr y) (ha y)

theorem Gapped.bracket (h : Gapped w p l) {y : α} (hy : p y = true) : Gapped w p (y :: l) := by
  obtain ⟨a, b, c, x, m, rfl, ha, ⟨hne, hb⟩, ⟨hc, hx⟩⟩ := h
  cases a with
  | nil => exact ⟨[], y :: b, c, x, m, rfl, ha, ⟨List.cons_ne_nil _ _, by simpa [hy] using hb⟩, hc, hx⟩
  | cons z a =>
    -- the blanks in front of the first bracket now stand behind the new one
    obtain ⟨x', b, rfl⟩ := List.exists_cons_of_ne_nil hne
    exact ⟨[], [y], z :: a, x', b ++ (c ++ x :: m), by simp, by simp, ⟨by simp, by simpa using hy⟩,
      ⟨by simp, ha⟩, hb x' List.mem_cons_self⟩

/-- The three drops at the front leave a bracket exactly on a list with a gap. -/
theorem front_iff (hwp : ∀ x, w x = true → p x = false) :
    (∃ x m, ((l.dropWhile w).dropWhile p).dropWhile w = x :: m ∧ p x = true) ↔ Gapped w p l := by
  have hpw {x : α} (h : p x = true) : w x = false := by
    by_contra hw
    simp [hwp x (by simpa using hw)] at h
  refine ⟨fun h => ?_, fun h => ?_⟩
  · obtain ⟨x, m, hm, hx⟩ := h
    have ha := List.takeWhile_append_dropWhile (p := w) (l := l)
    have hb := List.takeWhile_append_dropWhile (p := p) (l := l.dropWhile w)
    have hc := List.takeWhile_append_dropWhile (p := w) (l := (l.dropWhile w).dropWhile p)
    rw [hm] at hc
    refine ⟨_, _, _, x, m, by rw [hc, hb, ha], fun y => List.mem_takeWhile_imp, ⟨?_, fun y => List.mem_takeWhile_imp⟩,
      ⟨?_, fun y => List.mem_takeWhile_imp⟩, hx⟩
    · intro hnil
      -- with no bracket to drop the blanks are dropped twice, and the list cannot start with a bracket
      rw [hnil, List.nil_append] at hb
      rw [hb, List.dropWhile_idempotent] at hm
      rw [hm, List.takeWhile_cons_of_pos hx] at hnil
      cases hnil
    · intro hnil
      rw [hnil, List.nil_append] at hc
      have := List.head?_dropWhile_not p (l.dropWhile w)
      rw [← hc] at this
      simp [hx] at this
  · obtain ⟨a, b, c, x, m, rfl, ha, ⟨hne, hb⟩, ⟨hcne, hc⟩, hx⟩ := h
    refine ⟨x, m, ?_, hx⟩
    obtain ⟨y, b, rfl⟩ := List.exists_cons_of_ne_nil hne
    obtain ⟨z, c, rfl⟩ := List.exists_cons_of_ne_nil hcne
    have hy := hpw (hb y List.mem_cons_self)
    have hz := hwp z (hc z List.mem_cons_self)
    rw [dropWhile_append_of_all ha, List.cons_append, List.dropWhile_cons_of_neg (by simp [hy]), ← List.cons_append,
      dropWhile_append_of_all hb, List.cons_append, List.dropWhile_cons_of_neg (by simp [hz]), ← List.cons_append,
      dropWhile_append_of_all hc, List.dropWhile_cons_of_neg (by simp [hpw hx])]

/-- **A bracket stays at the front** of what is peeled exactly on a list with a gap there. -/
theorem peel_head_iff (hwp : ∀ x, w x = true → p x = false) (hpq : ∀ x, p x = true → q x = false) :
    (∃ x ∈ (peel w p q l).head?, p x = true) ↔ Gapped w p l := by
  have hpw {x : α} (h : p x = true) : w x = false := by
    by_contra hw
    simp [hwp x (by simpa using hw)] at h
  rw [← front_iff hwp, peel_eq]
  generalize ((l.dropWhile w).dropWhile p).dropWhile w = front
  refine ⟨fun h => ?_, fun h => ?_⟩
  · obtain ⟨x, hx, hp⟩ := h
    have hprefix : ((front.rdropWhile w).rdropWhile q).rdropWhile w <+: front :=
      (List.rdropWhile_prefix w _).trans ((List.rdropWhile_prefix q _).trans (List.rdropWhile_prefix w _))
    obtain ⟨m, hm⟩ := hprefix
    obtain ⟨m', hm'⟩ := List.head?_eq_some_iff.1 hx
    rw [hm'] at hm
    exact ⟨x, m' ++ m, hm.symm, hp⟩
  · obtain ⟨x, m, rfl, hp⟩ := h
    rw [rdropWhile_cons_of_neg (hpw hp), rdropWhile_cons_of_neg (hpq x hp), rdropWhile_cons_of_neg (hpw hp)]
    exact ⟨x, rfl, hp⟩

theorem peel_last_iff (hwq : ∀ x, w x = true → q x = false) (hpq : ∀ x, p x = true → q x = false) :
    (∃ x ∈ (peel w p q l).getLast?, q x = true) ↔ Gapped w q l.reverse := by
  have hqp : ∀ x, q x = true → p x = false := by
    intro x hq
    by_contra hp
    simp [hpq x (by simpa using hp)] at hq
  rw [← peel_head_iff hwq hqp, peel_reverse, List.head?_reverse]

/-- **All layers are peeled** exactly from lists without a gap at either end. -/
theorem peel_eq_core_iff_gapped (hwp : ∀ x, w x = true → p x = false) (hwq : ∀ x, w x = true → q x = false)
    (hpq : ∀ x, p x = true → q x = false) :
    peel w p q l = core w p q l ↔ ¬ Gapped w p l ∧ ¬ Gapped w q l.reverse := by
  rw [peel_eq_core_iff, ← peel_head_iff hwp hpq, ← peel_last_iff hwq hpq]
  simp only [not_exists, not_and, Bool.not_eq_true]

end Trim
