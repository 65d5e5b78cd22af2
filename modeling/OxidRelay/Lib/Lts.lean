/-
Labelled transition systems, their traces, and forward simulation. A
simulation may be asked for under some labels only; traces of those labels
carry over (`Simulation.traces`).
-/
import Mathlib.Data.Set.Basic

/-- Initial states and labelled steps. -/
structure Lts (σ ℓ : Type) where
  init : σ → Prop
  step : σ → ℓ → σ → Prop

namespace Lts

variable {σ κ ℓ : Type}

/-- The labels of a run to a state, in their order. -/
inductive Trace (M : Lts σ ℓ) : List ℓ → σ → Prop
  | nil : M.init s → Trace M [] s
  | snoc : Trace M ls s → M.step s l s' → Trace M (ls ++ [l]) s'

def traces (M : Lts σ ℓ) : Set (List ℓ) := { ls | ∃ s, M.Trace ls s }

/-- Each step of `M` under an allowed label is one of `N`, between related states. -/
structure Simulation (M : Lts σ ℓ) (N : Lts κ ℓ) (allowed : ℓ → Prop) (R : σ → κ → Prop) : Prop where
  init : ∀ s, M.init s → ∃ k, N.init k ∧ R s k
  step : ∀ s l s' k, allowed l → R s k → M.step s l s' → ∃ k', N.step k l k' ∧ R s' k'

variable {M : Lts σ ℓ} {N : Lts κ ℓ} {s : σ} {ls : List ℓ} {allowed : ℓ → Prop} {R : σ → κ → Prop}

theorem Simulation.trace (h : Simulation M N allowed R) (ht : M.Trace ls s) (hl : ∀ l ∈ ls, allowed l) :
    ∃ k, N.Trace ls k ∧ R s k := by
  induction ht with
  | nil hs =>
    obtain ⟨k, hk, hr⟩ := h.init _ hs
    exact ⟨k, .nil hk, hr⟩
  | snoc _ hstep ih =>
    obtain ⟨k, hk, hr⟩ := ih fun l hmem => hl l (List.mem_append_left _ hmem)
    obtain ⟨k', hstep', hr'⟩ := h.step _ _ _ _ (hl _ (List.mem_append_right _ List.mem_cons_self)) hr hstep
    exact ⟨k', .snoc hk hstep', hr'⟩

/-- **A simulation includes traces.** -/
theorem Simulation.traces (h : Simulation M N allowed R) : M.traces ∩ { ls | ∀ l ∈ ls, allowed l } ⊆ N.traces := by
  intro ls hls
  obtain ⟨⟨s, hs⟩, hl⟩ := hls
  obtain ⟨k, hk, -⟩ := h.trace hs hl
  exact ⟨k, hk⟩

end Lts
