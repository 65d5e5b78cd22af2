/-
Lists whose elements have distinct keys, read by key. `get_replace`,
`get_remove` and `get_perm` say what reading answers after one element is
replaced by another of its key, is dropped, or moves within the list.
-/
import Mathlib.Data.List.Nodup

namespace Keyed

variable {α κ : Type} {key : α → κ} {l l' l₂ : List α} {a b : α} {k : κ}

theorem ne_of_nodup (l₁ : List α) (hn : ((l₁ ++ a :: l₂).map key).Nodup) (hb : b ∈ l₁ ++ l₂) : key b ≠ key a := by
  have hp : (key a :: (l₁ ++ l₂).map key).Nodup := by
    rw [← List.map_cons]
    exact ((List.perm_middle).map key).nodup_iff.1 hn
  intro he
  exact (List.nodup_cons.1 hp).1 (he ▸ List.mem_map_of_mem hb)

theorem nodup_replace (l₁ : List α) (hn : ((l₁ ++ a :: l₂).map key).Nodup) (hb : key b = key a) :
    ((l₁ ++ b :: l₂).map key).Nodup := by
  simpa [hb] using hn

theorem nodup_remove (l₁ : List α) (hn : ((l₁ ++ a :: l₂).map key).Nodup) : ((l₁ ++ l₂).map key).Nodup :=
  hn.sublist (((List.sublist_cons_self a l₂).append_left l₁).map key)

variable [DecidableEq κ]

/-- The element of a key. -/
def get (key : α → κ) (l : List α) (k : κ) : Option α := l.find? fun a => key a = k

theorem get_eq_none : get key l k = none ↔ ∀ a ∈ l, key a ≠ k := by simp [get]

theorem mem_of_get (h : get key l k = some a) : a ∈ l ∧ key a = k :=
  ⟨List.mem_of_find?_eq_some h, by simpa using List.find?_some h⟩

theorem get_eq_some (hn : (l.map key).Nodup) : get key l k = some a ↔ a ∈ l ∧ key a = k := by
  refine ⟨mem_of_get, ?_⟩
  intro h
  obtain ⟨ha, rfl⟩ := h
  cases hg : get key l (key a) with
  | none => exact absurd rfl (get_eq_none.1 hg a ha)
  | some b =>
    obtain ⟨hb, hk⟩ := mem_of_get hg
    rw [List.inj_on_of_nodup_map hn hb ha hk]

/-- At most one element has a key. -/
theorem filter_key (hn : (l.map key).Nodup) (k : κ) : l.filter (fun a => key a = k) = (get key l k).toList := by
  cases hg : get key l k with
  | none => exact List.filter_eq_nil_iff.2 fun a ha => by simpa using get_eq_none.1 hg a ha
  | some a =>
    obtain ⟨ha, rfl⟩ := mem_of_get hg
    have hmem : ∀ b, b ∈ l.filter (fun b => key b = key a) ↔ b = a := by
      intro b
      simp only [List.mem_filter, decide_eq_true_eq]
      exact ⟨fun h => List.inj_on_of_nodup_map hn h.1 ha h.2, fun h => by subst h; exact ⟨ha, rfl⟩⟩
    have hnodup := (List.Nodup.of_map _ hn).filter fun b => key b = key a
    exact List.perm_singleton.1 ((List.perm_ext_iff_of_nodup hnodup (List.nodup_singleton a)).2
      (by simpa using hmem))

theorem get_map {β : Type} (f : β → α) {l : List β} : get key (l.map f) k = (get (key ∘ f) l k).map f :=
  List.find?_map ..

theorem get_perm (hn : (l.map key).Nodup) (h : l.Perm l') : get key l' k = get key l k := by
  have hn' : (l'.map key).Nodup := (h.map key).nodup_iff.1 hn
  cases hg : get key l k with
  | none => exact get_eq_none.2 fun a ha => get_eq_none.1 hg a (h.symm.subset ha)
  | some a =>
    obtain ⟨ha, hk⟩ := mem_of_get hg
    exact (get_eq_some hn').2 ⟨h.subset ha, hk⟩

@[simp] theorem get_nil : get key [] k = none := rfl

theorem get_append {l₁ : List α} : get key (l₁ ++ l₂) k = (get key l₁ k).or (get key l₂ k) := List.find?_append

theorem get_cons_of_ne (h : key a ≠ k) : get key (a :: l) k = get key l k := by simp [get, h]

theorem get_middle (l₁ : List α) (hn : ((l₁ ++ a :: l₂).map key).Nodup) :
    get key (l₁ ++ a :: l₂) (key a) = some a :=
  (get_eq_some hn).2 ⟨by simp, rfl⟩

theorem get_middle_of_ne (l₁ : List α) (h : key a ≠ k) : get key (l₁ ++ a :: l₂) k = get key (l₁ ++ l₂) k := by
  rw [get_append, get_append, get_cons_of_ne h]

/-- **Replacing** an element by one of its key. -/
theorem get_replace (l₁ : List α) (hn : ((l₁ ++ a :: l₂).map key).Nodup) (hb : key b = key a) (k : κ) :
    get key (l₁ ++ b :: l₂) k = if key a = k then some b else get key (l₁ ++ a :: l₂) k := by
  split
  · next h => rw [← h, ← hb]; exact get_middle l₁ (nodup_replace l₁ hn hb)
  · next h => rw [get_middle_of_ne l₁ (hb ▸ h), get_middle_of_ne l₁ h]

/-- **Dropping** an element. -/
theorem get_remove (l₁ : List α) (hn : ((l₁ ++ a :: l₂).map key).Nodup) (k : κ) :
    get key (l₁ ++ l₂) k = if key a = k then none else get key (l₁ ++ a :: l₂) k := by
  split
  · next h => rw [← h]; exact get_eq_none.2 fun b hb => ne_of_nodup l₁ hn hb
  · next h => rw [get_middle_of_ne l₁ h]

end Keyed
