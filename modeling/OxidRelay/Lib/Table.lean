/-
A table with a primary key, and the statements run on one: INSERT, UPDATE
of the rows a condition selects, and SELECT with ORDER BY and LIMIT.

The primary key is a field of the table, so two rows of one key cannot be
built. Each statement is described by what it does to the row of one key
(`find_insert`, `find_update`), which is how the rows of a running system
are followed; `select` is described as a whole (`select_spec`).
-/
import OxidRelay.Lib.Keyed
import Mathlib.Data.List.Sort
import Mathlib.Data.List.TakeWhile
import Mathlib.Data.Set.Card

/-- Rows in insertion order, no two with one key. -/
structure Table (ρ κ : Type) (key : ρ → κ) where
  rows : List ρ
  primaryKey : (rows.map key).Nodup
  deriving DecidableEq

namespace Table

variable {ρ κ : Type} {key : ρ → κ}

@[ext] theorem ext {T U : Table ρ κ key} (h : T.rows = U.rows) : T = U := by
  cases T; cases U; cases h; rfl

instance : Membership ρ (Table ρ κ key) := ⟨fun T r => r ∈ T.rows⟩

theorem mem_def {T : Table ρ κ key} {r : ρ} : r ∈ T ↔ r ∈ T.rows := Iff.rfl

def empty : Table ρ κ key := ⟨[], List.nodup_nil⟩

theorem not_mem_empty {r : ρ} : r ∉ (empty : Table ρ κ key) := List.not_mem_nil

section Find

variable [DecidableEq κ]

/-- The row of a key. -/
def find (T : Table ρ κ key) (k : κ) : Option ρ := Keyed.get key T.rows k

theorem find_eq_some {T : Table ρ κ key} {k : κ} {r : ρ} : T.find k = some r ↔ r ∈ T ∧ key r = k :=
  Keyed.get_eq_some T.primaryKey

theorem find_self {T : Table ρ κ key} {r : ρ} (h : r ∈ T) : T.find (key r) = some r := find_eq_some.2 ⟨h, rfl⟩

theorem find_eq_none {T : Table ρ κ key} {k : κ} : T.find k = none ↔ ∀ r ∈ T, key r ≠ k := Keyed.get_eq_none

theorem filter_key (T : Table ρ κ key) (k : κ) : T.rows.filter (fun r => key r = k) = (T.find k).toList :=
  Keyed.filter_key T.primaryKey k

end Find

/-! ## INSERT -/

section Insert

variable [DecidableEq κ]

/-- Adds a row, or fails on its key. -/
def insert (T : Table ρ κ key) (r : ρ) : Option (Table ρ κ key) :=
  if h : key r ∈ T.rows.map key then none
  else some ⟨T.rows ++ [r], by
    rw [List.map_append, List.nodup_append]
    exact ⟨T.primaryKey, List.nodup_singleton _, fun a ha b hb he => h (by
      rw [List.mem_singleton.1 hb] at he; exact he ▸ ha)⟩⟩

theorem insert_rows {T U : Table ρ κ key} {r : ρ} (h : T.insert r = some U) : U.rows = T.rows ++ [r] := by
  simp only [insert] at h
  split at h
  · cases h
  · cases h; rfl

theorem insert_new {T U : Table ρ κ key} {r : ρ} (h : T.insert r = some U) : T.find (key r) = none := by
  simp only [insert] at h
  split at h
  · cases h
  · next hk =>
    exact find_eq_none.2 fun r' hr' he => hk (List.mem_map.2 ⟨r', hr', he⟩)

theorem insert_isSome {T : Table ρ κ key} {r : ρ} (h : T.find (key r) = none) : (T.insert r).isSome := by
  have hn : key r ∉ T.rows.map key := by
    intro hm
    obtain ⟨r', hr', he⟩ := List.mem_map.1 hm
    exact find_eq_none.1 h r' hr' he
  simp [insert, hn]

theorem mem_insert {T U : Table ρ κ key} {r r' : ρ} (h : T.insert r = some U) : r' ∈ U ↔ r' ∈ T ∨ r' = r := by
  simp [mem_def, insert_rows h]

/-- **INSERT, key by key.** -/
theorem find_insert {T U : Table ρ κ key} {r : ρ} (h : T.insert r = some U) (k : κ) :
    U.find k = if key r = k then some r else T.find k := by
  split
  · next hk => exact find_eq_some.2 ⟨(mem_insert h).2 (.inr rfl), hk⟩
  · next hk =>
    rw [find, insert_rows h, Keyed.get_append, Keyed.get_cons_of_ne hk, Keyed.get_nil, Option.or_none]
    rfl

end Insert

/-! ## UPDATE -/

/-- Rewrites the rows that `p` selects by `f`, which keeps the key. -/
def update (T : Table ρ κ key) (p : ρ → Bool) (f : ρ → ρ) (hf : ∀ r, key (f r) = key r) : Table ρ κ key where
  rows := T.rows.map fun r => if p r then f r else r
  primaryKey := by
    have : (T.rows.map fun r => if p r then f r else r).map key = T.rows.map key := by
      rw [List.map_map]
      refine List.map_congr_left fun r _ => ?_
      simp only [Function.comp_apply]
      split
      · exact hf r
      · rfl
    rw [this]; exact T.primaryKey

/-- `rows_affected` of an UPDATE. -/
def affected (T : Table ρ κ key) (p : ρ → Bool) : Nat := (T.rows.filter p).length

theorem mem_update {T : Table ρ κ key} {p : ρ → Bool} {f : ρ → ρ} {hf} {r : ρ} :
    r ∈ T.update p f hf ↔ ∃ r' ∈ T, r = if p r' then f r' else r' := by
  simp only [mem_def, update, List.mem_map, eq_comm]

theorem affected_eq_zero {T : Table ρ κ key} {p : ρ → Bool} : T.affected p = 0 ↔ ∀ r ∈ T, p r = false := by
  simp [affected, mem_def]

/-- An UPDATE affects as many rows as there are keys of rows it selects. -/
theorem affected_eq_ncard [DecidableEq κ] (T : Table ρ κ key) (p : ρ → Bool) :
    T.affected p = { k | ∃ r, T.find k = some r ∧ p r = true }.ncard := by
  have hset : { k | ∃ r, T.find k = some r ∧ p r = true } = ↑((T.rows.filter p).map key).toFinset := by
    ext k
    simp only [Set.mem_ofPred_eq, List.coe_toFinset, List.mem_map, List.mem_filter, find_eq_some, mem_def]
    exact ⟨fun ⟨r, ⟨hr, hk⟩, hp⟩ => ⟨r, ⟨hr, hp⟩, hk⟩, fun ⟨r, ⟨hr, hp⟩, hk⟩ => ⟨r, ⟨hr, hk⟩, hp⟩⟩
  have hnodup : ((T.rows.filter p).map key).Nodup := T.primaryKey.sublist (List.filter_sublist.map key)
  rw [hset, Set.ncard_coe_finset, List.toFinset_card_of_nodup hnodup, List.length_map]
  rfl

/-- **UPDATE, key by key.** -/
theorem find_update [DecidableEq κ] (T : Table ρ κ key) (p : ρ → Bool) (f : ρ → ρ) (hf) (k : κ) :
    (T.update p f hf).find k = (T.find k).map fun r => if p r then f r else r := by
  cases h : T.find k with
  | none =>
    refine find_eq_none.2 fun r hr => ?_
    obtain ⟨r', hr', rfl⟩ := mem_update.1 hr
    have := find_eq_none.1 h r' hr'
    split
    · rw [hf]; exact this
    · exact this
  | some r =>
    obtain ⟨hr, hk⟩ := find_eq_some.1 h
    refine find_eq_some.2 ⟨mem_update.2 ⟨r, hr, rfl⟩, ?_⟩
    dsimp only
    split
    · rw [hf]; exact hk
    · exact hk

/-! ## Counting -/

section Counting

variable {T U : Table ρ κ key} {r : ρ}

theorem length_filter_cons (q : ρ → Bool) (r : ρ) (rows : List ρ) :
    ((r :: rows).filter q).length = (rows.filter q).length + (q r).toNat := by
  rw [List.filter_cons]
  cases q r <;> rfl

/-- An INSERT adds its row to a count. -/
theorem affected_insert [DecidableEq κ] (h : T.insert r = some U) (q : ρ → Bool) :
    U.affected q = T.affected q + (q r).toNat := by
  rw [affected, affected, insert_rows h, List.filter_append, List.length_append, length_filter_cons]
  simp

/-- An UPDATE adds to a count at most the rows it selects. -/
theorem affected_update_le (T : Table ρ κ key) (p q : ρ → Bool) (f : ρ → ρ) (hf) :
    (T.update p f hf).affected q ≤ T.affected q + T.affected p := by
  simp only [affected, update]
  induction T.rows with
  | nil => simp
  | cons r rows ih =>
    rw [List.map_cons, length_filter_cons, length_filter_cons, length_filter_cons]
    have hq := Bool.toNat_le (q (f r))
    cases p r <;> simp only [Bool.false_eq_true, if_true, if_false, Bool.toNat_true, Bool.toNat_false] <;> omega

theorem finite_keys [DecidableEq κ] (T : Table ρ κ key) (p : ρ → Bool) :
    { k | ∃ r, T.find k = some r ∧ p r = true }.Finite := by
  refine (T.rows.map key).finite_toSet.subset fun k hk => ?_
  obtain ⟨r, hr, -⟩ := hk
  obtain ⟨hmem, rfl⟩ := find_eq_some.1 hr
  exact List.mem_map_of_mem hmem

/-- A count over rows that were counted before, key by key. -/
theorem affected_le_of_find [DecidableEq κ] {p : ρ → Bool}
    (h : ∀ k r', U.find k = some r' → p r' = true → ∃ r, T.find k = some r ∧ p r = true) :
    U.affected p ≤ T.affected p := by
  rw [affected_eq_ncard, affected_eq_ncard]
  refine Set.ncard_le_ncard (fun k hk => ?_) (T.finite_keys p)
  obtain ⟨r', hr', hp⟩ := hk
  exact h k r' hr' hp

/-- The same, of which one is gone. -/
theorem affected_lt_of_find [DecidableEq κ] {p : ρ → Bool}
    (h : ∀ k r', U.find k = some r' → p r' = true → ∃ r, T.find k = some r ∧ p r = true) {k : κ}
    (hr : T.find k = some r) (hp : p r = true) (hgone : ∀ r', U.find k = some r' → p r' = false) :
    U.affected p < T.affected p := by
  rw [affected_eq_ncard, affected_eq_ncard]
  refine Set.ncard_lt_ncard ⟨fun k hk => ?_, fun hsub => ?_⟩ (T.finite_keys p)
  · obtain ⟨r', hr', hp⟩ := hk
    exact h k r' hr' hp
  · obtain ⟨r', hr', hp'⟩ := hsub ⟨r, hr, hp⟩
    rw [hgone r' hr'] at hp'
    cases hp'

/-- An UPDATE of one key changes a count by what it does to its row. -/
theorem affected_update_key [DecidableEq κ] {k : κ} (h : T.find k = some r) (q : ρ → Bool) (f : ρ → ρ) (hf) :
    (T.update (fun r => decide (key r = k)) f hf).affected q + (q r).toNat = T.affected q + (q (f r)).toNat := by
  obtain ⟨hr, rfl⟩ := find_eq_some.1 h
  obtain ⟨l₁, l₂, hrows⟩ := List.append_of_mem (mem_def.1 hr)
  have hn := T.primaryKey
  rw [hrows] at hn
  have hother : ∀ r' ∈ l₁ ++ l₂, (if decide (key r' = key r) = true then f r' else r') = r' := fun r' hr' =>
    if_neg (by simpa using Keyed.ne_of_nodup l₁ hn hr')
  have hmap (l : List ρ) (hl : ∀ r' ∈ l, r' ∈ l₁ ++ l₂) :
      (l.map fun r' => if decide (key r' = key r) = true then f r' else r') = l :=
    (List.map_congr_left fun r' hr' => hother r' (hl r' hr')).trans (List.map_id l)
  have hupdate : (T.update (fun r' => decide (key r' = key r)) f hf).rows = l₁ ++ f r :: l₂ := by
    simp only [update, hrows, List.map_append, List.map_cons, decide_true, if_true,
      hmap l₁ fun _ hr' => List.mem_append_left _ hr', hmap l₂ fun _ hr' => List.mem_append_right _ hr']
  rw [affected, affected, hupdate, hrows, List.filter_append, List.filter_append, List.length_append,
    List.length_append, length_filter_cons, length_filter_cons]
  omega

end Counting

/-! ## SELECT -/

section Select

variable {ω : Type} [LinearOrder ω]

/-- `WHERE p ORDER BY by ASC LIMIT limit` over the rows in the order the
scan meets them. -/
def select (scan : List ρ) (p : ρ → Bool) (by_ : ρ → ω) (limit : Nat) : List ρ :=
  ((scan.filter p).insertionSort fun a b => by_ a ≤ by_ b).take limit

/-- **SELECT.** From rows with distinct keys: distinct rows that `p` takes,
as many as there are up to the limit, in order, and no row left out sorts
strictly before one returned. -/
theorem select_spec {T : Table ρ κ key} {scan : List ρ} (hs : scan.Perm T.rows) (p : ρ → Bool) (by_ : ρ → ω)
    (limit : Nat) :
    (select scan p by_ limit).length = min limit (T.rows.filter p).length ∧
    ((select scan p by_ limit).map key).Nodup ∧
    (∀ r ∈ select scan p by_ limit, r ∈ T ∧ p r = true) ∧
    (select scan p by_ limit).Pairwise (fun a b => by_ a ≤ by_ b) ∧
    (∀ r ∈ T, p r = true → r ∉ select scan p by_ limit → ∀ r' ∈ select scan p by_ limit, by_ r' ≤ by_ r) := by
  let le := fun a b : ρ => by_ a ≤ by_ b
  have : IsTrans ρ le := ⟨fun _ _ _ => le_trans⟩
  have : Std.Total le := ⟨fun a b => le_total (by_ a) (by_ b)⟩
  have hperm : ((scan.filter p).insertionSort le).Perm (T.rows.filter p) :=
    (List.perm_insertionSort le _).trans (hs.filter p)
  have hsorted : ((scan.filter p).insertionSort le).Pairwise le := List.pairwise_insertionSort le _
  have hsub : (select scan p by_ limit).Sublist ((scan.filter p).insertionSort le) := List.take_sublist _ _
  refine ⟨?_, ?_, ?_, hsorted.sublist hsub, ?_⟩
  · simp [select, List.length_take, hperm.length_eq, le]
  · have hn : ((T.rows.filter p).map key).Nodup := T.primaryKey.sublist (List.filter_sublist.map key)
    exact ((hperm.map key).nodup_iff.2 hn).sublist (hsub.map key)
  · intro r hr
    have := hperm.subset (hsub.subset hr)
    simpa [mem_def, List.mem_filter] using this
  · intro r hr hp hout r' hr'
    have hmem : r ∈ (scan.filter p).insertionSort le := hperm.symm.subset (List.mem_filter.2 ⟨hr, hp⟩)
    rw [← List.take_append_drop limit ((scan.filter p).insertionSort le)] at hmem hsorted
    rcases List.mem_append.1 hmem with h | h
    · exact absurd h hout
    · exact (List.pairwise_append.1 hsorted).2.2 r' hr' r h

/-- A limit no smaller than the number of rows leaves none out. -/
theorem mem_select_of_le {T : Table ρ κ key} {scan : List ρ} (hs : scan.Perm T.rows) {p : ρ → Bool}
    {by_ : ρ → ω} {limit : Nat} (hl : (T.rows.filter p).length ≤ limit) {r : ρ} (hr : r ∈ T) (hp : p r = true) :
    r ∈ select scan p by_ limit := by
  have hlen : (scan.filter p).length = (T.rows.filter p).length := (hs.filter p).length_eq
  rw [select, List.take_of_length_le (by simpa [hlen] using hl), List.mem_insertionSort, List.mem_filter]
  exact ⟨hs.symm.subset hr, hp⟩

/-- The rows of `p` that sort strictly before `r`. -/
def before (T : Table ρ κ key) (p : ρ → Bool) (by_ : ρ → ω) (r : ρ) : List ρ :=
  T.rows.filter fun r' => p r' && decide (by_ r' < by_ r)

end Select

end Table
