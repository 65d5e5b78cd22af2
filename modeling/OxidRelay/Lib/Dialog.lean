/-
Programs that ask and go on with the answer. A `Dialog` is a tree with a
request at each inner node and a result at each leaf; `Talk` is one way
through it, the requests made with the answers given. Two programs are
`Alike` when no one who sees requests up to a relation can tell them apart.
-/
import Mathlib.Data.List.Basic

/-- A program of requests `Q`, answers `A` and results `α`. -/
inductive Dialog (Q A α : Type)
  | done (a : α)
  | ask (q : Q) (next : A → Dialog Q A α)

namespace Dialog

variable {Q A α β : Type}

def bind (p : Dialog Q A α) (f : α → Dialog Q A β) : Dialog Q A β :=
  match p with
  | .done a => f a
  | .ask q next => .ask q fun x => (next x).bind f

instance : Monad (Dialog Q A) where
  pure := .done
  bind := bind

/-- The program that asks once and answers what it is told. -/
def request (q : Q) : Dialog Q A A := .ask q .done

/-- The exchanges of a complete run, in order, and its result. -/
inductive Talk : Dialog Q A α → List (Q × A) → α → Prop
  | done (a : α) : Talk (.done a) [] a
  | ask {q : Q} {next : A → Dialog Q A α} {x : A} {t : List (Q × A)} {a : α} :
      Talk (next x) t a → Talk (.ask q next) ((q, x) :: t) a

variable {p : Dialog Q A α} {q : Q} {next : A → Dialog Q A α} {f : α → Dialog Q A β} {t : List (Q × A)} {a b : α}
  {r : β}

@[simp] theorem talk_done : (done b : Dialog Q A α).Talk t a ↔ t = [] ∧ a = b := by
  refine ⟨fun h => ?_, fun h => ?_⟩
  · cases h
    exact ⟨rfl, rfl⟩
  · obtain ⟨rfl, rfl⟩ := h
    exact .done _

@[simp] theorem talk_ask : (ask q next).Talk t a ↔ ∃ x t', t = (q, x) :: t' ∧ (next x).Talk t' a := by
  refine ⟨fun h => ?_, fun h => ?_⟩
  · cases h with
    | ask h => exact ⟨_, _, rfl, h⟩
  · obtain ⟨x, t', rfl, h⟩ := h
    exact .ask h

theorem bind_done (p : Dialog Q A α) : p.bind .done = p := by
  induction p with
  | done a => rfl
  | ask q next ih => exact congrArg (ask q) (funext ih)

theorem bind_assoc {γ : Type} (p : Dialog Q A α) (f : α → Dialog Q A β) (g : β → Dialog Q A γ) :
    (p.bind f).bind g = p.bind fun a => (f a).bind g := by
  induction p with
  | done a => rfl
  | ask q next ih => exact congrArg (ask q) (funext ih)

instance : LawfulMonad (Dialog Q A) :=
  LawfulMonad.mk' (Dialog Q A) bind_done (fun _ _ => rfl) bind_assoc

/-! ## Two programs side by side -/

/-- Programs that ask requests related by `R`, go on alike whatever they
are answered, and end with one result. -/
inductive Alike (R : Q → Q → Prop) : Dialog Q A α → Dialog Q A α → Prop
  | done (a : α) : Alike R (.done a) (.done a)
  | ask {q q' : Q} {next next' : A → Dialog Q A α} : R q q' → (∀ x, Alike R (next x) (next' x)) →
      Alike R (.ask q next) (.ask q' next')

variable {R : Q → Q → Prop} {p' : Dialog Q A α}

/-- A program's run is one of its like, answered the same. -/
theorem Alike.talk (h : Alike R p p') (ht : p.Talk t a) :
    ∃ t', p'.Talk t' a ∧ List.Forall₂ (fun e e' => R e.1 e'.1 ∧ e.2 = e'.2) t t' := by
  induction ht generalizing p' with
  | done a =>
    cases h
    exact ⟨[], .done a, .nil⟩
  | ask _ ih =>
    cases h with
    | ask hq hnext =>
      obtain ⟨t', ht', hall⟩ := ih (hnext _)
      exact ⟨_ :: t', .ask ht', .cons ⟨hq, rfl⟩ hall⟩

theorem Alike.refl (hR : ∀ q, R q q) (p : Dialog Q A α) : Alike R p p := by
  induction p with
  | done a => exact .done a
  | ask q next ih => exact .ask (hR q) ih

theorem Alike.bind (h : Alike R p p') (hf : ∀ a, Alike R (f a) (f a)) : Alike R (p >>= f) (p' >>= f) := by
  induction h with
  | done a => exact hf a
  | ask hq _ ih => exact .ask hq ih

end Dialog
