/-
Runs of a step relation: Mathlib's `Relation.ReflTransGen`, with the
rules the developments over a run use. `Run.invariant` carries a predicate
along a run; `Run.project` turns a run into a run of another relation,
given that each step is one step of the other between the projections,
which is how the part of a state that concerns one object is followed.

Where the states keep a log that each step adds to, newest first,
`Run.since` carries along a run what holds of a state and of the entries
since a certain one, and `Run.below` what the log was when such an entry
was made.

`Run.Counted` is a run with the number of its steps of one kind, which a
rank that these steps lower bounds (`Run.Counted.le`).
-/
import Mathlib.Logic.Relation

/-- A run of `R` from `s` to `s'`. -/
abbrev Run {σ : Type} (R : σ → σ → Prop) (s s' : σ) : Prop := Relation.ReflTransGen R s s'

namespace Run

variable {σ κ : Type} {R : σ → σ → Prop} {S : κ → κ → Prop} {I : σ → Prop} {s s' : σ}

/-- What one step keeps, a run keeps. -/
theorem invariant (step : ∀ {a b}, I a → R a b → I b) (hs : I s) (h : Run R s s') : I s' := by
  induction h with
  | refl => exact hs
  | tail _ hab ih => exact step ih hab

/-- Under an invariant, a run projects to a run. -/
theorem project {f : σ → κ} (step : ∀ {a b}, I a → R a b → I b) (sim : ∀ {a b}, I a → R a b → S (f a) (f b))
    (hs : I s) (h : Run R s s') : Run S (f s) (f s') := by
  induction h with
  | refl => exact .refl
  | tail hr hab ih => exact ih.tail (sim (invariant step hs hr) hab)

/-- A run of a finer relation is a run of a coarser one. -/
theorem weaken {S : σ → σ → Prop} (h : ∀ a b, R a b → S a b) (hr : Run R s s') : Run S s s' :=
  Relation.ReflTransGen.mono h _ _ hr

/-! ## Counting steps -/

/-- A run of `R` with `n` steps of the kind `K`. -/
inductive Counted (R K : σ → σ → Prop) (s : σ) : Nat → σ → Prop
  | refl : Counted R K s 0 s
  | hit {n : Nat} {a b : σ} : Counted R K s n a → R a b → K a b → Counted R K s (n + 1) b
  | pass {n : Nat} {a b : σ} : Counted R K s n a → R a b → ¬ K a b → Counted R K s n b

/-- The steps of a kind can be counted. -/
theorem counted (K : σ → σ → Prop) (h : Run R s s') : ∃ n, Counted R K s n s' := by
  induction h with
  | refl => exact ⟨0, .refl⟩
  | @tail a b _ hab ih =>
    obtain ⟨n, hn⟩ := ih
    by_cases hk : K a b
    · exact ⟨n + 1, .hit hn hab hk⟩
    · exact ⟨n, .pass hn hab hk⟩

/-- A rank that each step of the kind lowers and no other step raises. -/
theorem Counted.le {K : σ → σ → Prop} {n : Nat} (rank : σ → Nat) (hit : ∀ {a b}, R a b → K a b → rank b < rank a)
    (pass : ∀ {a b}, R a b → ¬ K a b → rank b ≤ rank a) (h : Counted R K s n s') : n + rank s' ≤ rank s := by
  induction h with
  | refl => exact Nat.le_of_eq (Nat.zero_add _)
  | hit _ hab hk ih =>
    have := hit hab hk
    omega
  | pass _ hab hk ih =>
    have := pass hab hk
    omega

/-! ## Logs -/

section Logs

variable {α : Type} {log : σ → List α} {mark : α → Prop} {P : σ → List α → Prop} {Q : List α → Prop}

/-- An entry of a log that was added to is a new one or an old one. -/
theorem append_eq_append_cons {new old l c : List α} {x : α} (h : new ++ old = l ++ x :: c) :
    (∃ l', l = new ++ l' ∧ old = l' ++ x :: c) ∨ ∃ c', new = l ++ x :: c' ∧ c = c' ++ old := by
  rcases List.append_eq_append_iff.1 h with ⟨l', hl, hold⟩ | ⟨c', hnew, hc⟩
  · exact .inl ⟨l', hl, hold⟩
  · cases c' with
    | nil => exact .inl ⟨[], by simpa using hnew.symm, by simpa using hc.symm⟩
    | cons y c' =>
      obtain ⟨rfl, rfl⟩ := List.cons.inj hc
      exact .inr ⟨c', hnew, rfl⟩

/-- **Since an entry.** What a step keeps of a state and the entries since
a mark, and brings about with a mark, holds since every mark. -/
theorem since (keep : ∀ {a b}, I a → R a b → I b) (grow : ∀ {a b}, R a b → log a <:+ log b)
    (kept : ∀ {a b l}, I a → R a b → P a l → ∃ new, log b = new ++ log a ∧ P b (new ++ l))
    (made : ∀ {a b l x c}, I a → R a b → log b = l ++ x :: c ++ log a → mark x → P b l)
    (hI : I s) (hlog : log s = []) (h : Run R s s') : ∀ l x c, log s' = l ++ x :: c → mark x → P s' l := by
  induction h with
  | refl =>
    intro l x c hl
    rw [hlog] at hl
    simp at hl
  | tail hr hab ih =>
    intro l x c hl hx
    have ha := invariant (R := R) (I := I) keep hI hr
    obtain ⟨new, hnew⟩ := grow hab
    rcases append_eq_append_cons (hnew.trans hl) with ⟨l', rfl, hold⟩ | ⟨c', hc', -⟩
    · obtain ⟨new', hnew', hP⟩ := kept ha hab (ih l' x c hold hx)
      rwa [List.append_cancel_right (hnew'.symm.trans hnew.symm)] at hP
    · exact made ha hab (by rw [← hc', hnew]) hx

/-- **Below an entry.** What holds of the log whenever a step adds a mark
to it holds of the log below every mark. -/
theorem below (keep : ∀ {a b}, I a → R a b → I b) (grow : ∀ {a b}, R a b → log a <:+ log b)
    (made : ∀ {a b l x c}, I a → R a b → log b = l ++ x :: c ++ log a → mark x → Q (c ++ log a))
    (hI : I s) (hlog : log s = []) (h : Run R s s') : ∀ l x c, log s' = l ++ x :: c → mark x → Q c := by
  induction h with
  | refl =>
    intro l x c hl
    rw [hlog] at hl
    simp at hl
  | tail hr hab ih =>
    intro l x c hl hx
    obtain ⟨new, hnew⟩ := grow hab
    rcases append_eq_append_cons (hnew.trans hl) with ⟨l', -, hold⟩ | ⟨c', hc', rfl⟩
    · exact ih l' x c hold hx
    · exact made (invariant keep hI hr) hab (by rw [← hc', hnew]) hx

end Logs

end Run
