/-
A map with ordered keys (`BTreeMap`): its entries in ascending order of
their keys. The order is a field of the map, so two entries of one key
cannot be built, and iteration is over `entries`.
-/
import Mathlib.Order.Lattice
import OxidRelay.Lib.Keyed

structure SortedMap (κ ν : Type) [LinearOrder κ] where
  entries : List (κ × ν)
  sorted : (entries.map Prod.fst).Pairwise (· < ·)

namespace SortedMap

variable {κ ν : Type} [LinearOrder κ] {m : SortedMap κ ν} {k : κ} {v : ν}

def empty : SortedMap κ ν := ⟨[], List.Pairwise.nil⟩

def single (k : κ) (v : ν) : SortedMap κ ν := ⟨[(k, v)], List.pairwise_singleton _ _⟩

def isEmpty (m : SortedMap κ ν) : Bool := m.entries.isEmpty

def get (m : SortedMap κ ν) (k : κ) : Option ν := (Keyed.get Prod.fst m.entries k).map Prod.snd

theorem nodup (m : SortedMap κ ν) : (m.entries.map Prod.fst).Nodup := m.sorted.imp ne_of_lt

theorem get_eq_some : m.get k = some v ↔ (k, v) ∈ m.entries := by
  unfold get
  rw [Option.map_eq_some_iff]
  constructor
  · intro h
    obtain ⟨⟨k', v'⟩, he, rfl⟩ := h
    obtain ⟨hmem, rfl⟩ := Keyed.mem_of_get he
    exact hmem
  · intro h
    exact ⟨(k, v), (Keyed.get_eq_some m.nodup).2 ⟨h, rfl⟩, rfl⟩

theorem get_eq_none : m.get k = none ↔ ∀ v, (k, v) ∉ m.entries := by
  constructor
  · intro h v hv
    rw [get_eq_some.2 hv] at h
    cases h
  · intro h
    cases hg : m.get k with
    | none => rfl
    | some v => exact absurd (get_eq_some.1 hg) (h v)

@[simp] theorem get_empty : (empty : SortedMap κ ν).get k = none := rfl

/-! ## Inserting -/

/-- The entries with that of a key set, at its place in the order. -/
def insertEntry (k : κ) (v : ν) : List (κ × ν) → List (κ × ν)
  | [] => [(k, v)]
  | e :: es =>
    if k < e.1 then (k, v) :: e :: es
    else if k = e.1 then (k, v) :: es
    else e :: insertEntry k v es

theorem mem_keys_insertEntry {k' : κ} {es : List (κ × ν)} (h : k' ∈ (insertEntry k v es).map Prod.fst) :
    k' = k ∨ k' ∈ es.map Prod.fst := by
  induction es with
  | nil => simpa [insertEntry] using h
  | cons e es ih =>
    unfold insertEntry at h
    split at h
    · simpa using h
    split at h
    · simp only [List.map_cons, List.mem_cons] at h
      exact h.imp_right (List.mem_cons_of_mem _)
    · simp only [List.map_cons, List.mem_cons] at h ⊢
      rcases h with h | h
      · exact .inr (.inl h)
      · exact (ih h).imp_right .inr

theorem insertEntry_sorted {es : List (κ × ν)} (h : (es.map Prod.fst).Pairwise (· < ·)) :
    ((insertEntry k v es).map Prod.fst).Pairwise (· < ·) := by
  induction es with
  | nil => exact List.pairwise_singleton _ _
  | cons e es ih =>
    obtain ⟨he, hes⟩ := List.pairwise_cons.1 h
    unfold insertEntry
    split
    · next hlt => exact List.pairwise_cons.2 ⟨fun k' hk' => (List.mem_cons.1 hk').elim (fun hk => hk ▸ hlt)
        fun hk => hlt.trans (he k' hk), h⟩
    split
    · next heq => exact List.pairwise_cons.2 ⟨fun k' hk' => heq ▸ he k' hk', hes⟩
    · next hlt hne =>
      have hek : e.1 < k := lt_of_le_of_ne (not_lt.1 hlt) (Ne.symm hne)
      refine List.pairwise_cons.2 ⟨fun k' hk' => ?_, ih hes⟩
      exact (mem_keys_insertEntry hk').elim (fun hk => hk ▸ hek) (he k')

theorem get_insertEntry (k' : κ) (es : List (κ × ν)) : Keyed.get Prod.fst (insertEntry k v es) k' =
    if k = k' then some (k, v) else Keyed.get Prod.fst es k' := by
  by_cases hk : k = k'
  · subst hk
    rw [if_pos rfl]
    induction es with
    | nil => simp [insertEntry, Keyed.get]
    | cons e es ih =>
      unfold insertEntry
      split
      · simp [Keyed.get]
      split
      · simp [Keyed.get]
      · next hne => rw [Keyed.get_cons_of_ne (Ne.symm hne), ih]
  · rw [if_neg hk]
    induction es with
    | nil => simp [insertEntry, Keyed.get, hk]
    | cons e es ih =>
      unfold insertEntry
      split
      · exact Keyed.get_cons_of_ne hk
      split
      · next heq => rw [Keyed.get_cons_of_ne hk, Keyed.get_cons_of_ne (heq ▸ hk)]
      · by_cases he : e.1 = k'
        · simp [Keyed.get, he]
        · rw [Keyed.get_cons_of_ne he, Keyed.get_cons_of_ne he, ih]

/-- `BTreeMap::insert`: the later value of a key wins. -/
def insert (m : SortedMap κ ν) (k : κ) (v : ν) : SortedMap κ ν :=
  ⟨insertEntry k v m.entries, insertEntry_sorted m.sorted⟩

theorem ext {m m' : SortedMap κ ν} (h : m.entries = m'.entries) : m = m' := by
  cases m
  cases m'
  cases h
  rfl

theorem insertEntry_of_lt {es : List (κ × ν)} (h : ∀ e ∈ es, e.1 < k) : insertEntry k v es = es ++ [(k, v)] := by
  induction es with
  | nil => rfl
  | cons e es ih =>
    have he := h e List.mem_cons_self
    rw [insertEntry, if_neg he.not_gt, if_neg he.ne', ih fun e' he' => h e' (List.mem_cons_of_mem _ he')]
    rfl

/-- Inserting entries in the order of their keys appends them. -/
theorem entries_foldl_insert (es : List (κ × ν)) : ∀ m : SortedMap κ ν,
    ((m.entries ++ es).map Prod.fst).Pairwise (· < ·) →
      (es.foldl (fun m e => m.insert e.1 e.2) m).entries = m.entries ++ es := by
  induction es with
  | nil =>
    intro m _
    rw [List.append_nil]
    rfl
  | cons e es ih =>
    intro m h
    have hlt : ∀ e' ∈ m.entries, e'.1 < e.1 := by
      rw [List.map_append, List.pairwise_append] at h
      exact fun e' he' => h.2.2 _ (List.mem_map_of_mem he') _ List.mem_cons_self
    have hentries : (m.insert e.1 e.2).entries = m.entries ++ [e] := insertEntry_of_lt hlt
    rw [List.foldl_cons, ih _ (by rw [hentries, List.append_assoc]; exact h), hentries, List.append_assoc]
    rfl

theorem get_insert (m : SortedMap κ ν) (k k' : κ) (v : ν) :
    (m.insert k v).get k' = if k = k' then some v else m.get k' := by
  unfold get
  rw [insert, get_insertEntry]
  split <;> rfl

end SortedMap
