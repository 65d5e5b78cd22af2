/-
What `Str.contains` and `Str.replace` do, in terms of infixes. The
occurrences that `replace` meets are those of a search from the left:
`search_induction` follows it, and `exists_first` and `replaceChars_first`
say where it stops for the first time.
-/
import Mathlib.Data.List.Infix
import OxidRelay.Lib.Str

namespace Str

variable {pat rep cs acc rest : List Char} {c : Char}

theorem containsChars_iff : containsChars pat cs = true ↔ pat <:+: cs := by
  induction cs with
  | nil => simp [containsChars]
  | cons c cs ih => simp [containsChars, ih, List.infix_cons_iff]

theorem contains_iff {s t : String} : contains s t = true ↔ t.toList <:+: s.toList := containsChars_iff

/-! ## The search from the left -/

/-- Induction along a search: the end, an occurrence, or a character that begins none. -/
theorem search_induction (hp : pat ≠ []) {P : List Char → Prop} (nil : P [])
    (hit : ∀ cs, P cs → P (pat ++ cs)) (miss : ∀ c cs, ¬ pat <+: c :: cs → P cs → P (c :: cs)) (cs : List Char) :
    P cs := by
  induction h : cs.length using Nat.strong_induction_on generalizing cs with
  | _ n ih =>
    cases cs with
    | nil => exact nil
    | cons c cs =>
      by_cases hpre : pat <+: c :: cs
      · obtain ⟨rest, hrest⟩ := hpre
        rw [← hrest] at h ⊢
        have hlt : rest.length < n := by
          have := List.length_pos_of_ne_nil hp
          rw [← h, List.length_append]
          omega
        exact hit rest (ih _ hlt rest rfl)
      · exact miss c cs hpre (ih cs.length (by rw [← h]; simp) cs rfl)

theorem replaceChars_skip (n : Nat) :
    ∀ cs : List Char, replaceChars pat rep n cs = replaceChars pat rep 0 (cs.drop n) := by
  induction n with
  | zero => exact fun _ => rfl
  | succ n ih =>
    intro cs
    cases cs with
    | nil => rfl
    | cons c cs => exact ih cs

/-- An occurrence is replaced. -/
theorem replaceChars_hit (hp : pat ≠ []) (cs : List Char) :
    replaceChars pat rep 0 (pat ++ cs) = rep ++ replaceChars pat rep 0 cs := by
  cases pat with
  | nil => exact absurd rfl hp
  | cons p pat =>
    rw [List.cons_append, replaceChars, if_pos (by simp), replaceChars_skip]
    simp

/-- A character that begins no occurrence is copied. -/
theorem replaceChars_miss (h : ¬ pat <+: c :: cs) :
    replaceChars pat rep 0 (c :: cs) = c :: replaceChars pat rep 0 cs := by
  rw [replaceChars, if_neg (by simpa using h)]

/-- Replacing a pattern by itself changes nothing. -/
theorem replaceChars_self (hp : pat ≠ []) (cs : List Char) : replaceChars pat pat 0 cs = cs := by
  induction cs using search_induction hp with
  | nil => rfl
  | hit cs ih => rw [replaceChars_hit hp, ih]
  | miss c cs hpre ih => rw [replaceChars_miss hpre, ih]

theorem replaceChars_of_absent (h : ¬ pat <:+: cs) : replaceChars pat rep 0 cs = cs := by
  induction cs with
  | nil => rfl
  | cons c cs ih =>
    rw [List.infix_cons_iff, not_or] at h
    rw [replaceChars_miss h.1, ih h.2]

/-! ## The first occurrence -/

/-- No occurrence begins before the one at the end of `acc`. -/
theorem not_prefix_of_first (h : ¬ pat <:+: (c :: acc) ++ pat.dropLast) : ¬ pat <+: c :: (acc ++ (pat ++ rest)) := by
  intro hpre
  refine h (List.IsPrefix.isInfix (List.prefix_of_prefix_length_le hpre ?_ ?_))
  · rw [List.cons_append, List.cons_prefix_cons]
    refine ⟨rfl, ?_⟩
    rw [List.prefix_append_right_inj]
    exact (List.dropLast_prefix pat).trans (List.prefix_append pat rest)
  · simp only [List.length_append, List.length_cons, List.length_dropLast]
    omega

theorem replaceChars_first (hp : pat ≠ []) (h : ¬ pat <:+: acc ++ pat.dropLast) (rest : List Char) :
    replaceChars pat rep 0 (acc ++ (pat ++ rest)) = acc ++ (rep ++ replaceChars pat rep 0 rest) := by
  induction acc with
  | nil => exact replaceChars_hit hp rest
  | cons c acc ih =>
    have hacc : ¬ pat <:+: acc ++ pat.dropLast := fun hin => h (hin.trans (List.suffix_cons _ _).isInfix)
    rw [List.cons_append, replaceChars_miss (not_prefix_of_first h), ih hacc]
    rfl

theorem exists_first (hp : pat ≠ []) (h : pat <:+: cs) :
    ∃ acc rest, cs = acc ++ (pat ++ rest) ∧ ¬ pat <:+: acc ++ pat.dropLast := by
  induction cs using search_induction hp with
  | nil => exact absurd (List.infix_nil.1 h) hp
  | hit cs _ =>
    refine ⟨[], cs, rfl, fun hin => ?_⟩
    have hlen := hin.length_le
    have := List.length_pos_of_ne_nil hp
    simp only [List.nil_append, List.length_dropLast] at hlen
    omega
  | miss c cs hpre ih =>
    obtain ⟨acc, rest, rfl, hfirst⟩ := ih ((List.infix_cons_iff.1 h).resolve_left hpre)
    refine ⟨c :: acc, rest, rfl, fun hin => ?_⟩
    rw [List.cons_append, List.infix_cons_iff] at hin
    refine hin.elim (fun hin => hpre (hin.trans ?_)) hfirst
    rw [List.cons_prefix_cons, List.prefix_append_right_inj]
    exact ⟨rfl, (List.dropLast_prefix pat).trans (List.prefix_append pat rest)⟩

/-- What is put in place of a pattern that occurs is there afterwards. -/
theorem infix_replaceChars (hp : pat ≠ []) (h : pat <:+: cs) (rep : List Char) :
    rep <:+: replaceChars pat rep 0 cs := by
  obtain ⟨acc, rest, rfl, hfirst⟩ := exists_first hp h
  rw [replaceChars_first hp hfirst]
  exact ⟨acc, replaceChars pat rep 0 rest, by simp⟩

/-! ## Parts -/

/-- `str::split`: the parts between the occurrences of a pattern. -/
def splitChars (pat : List Char) : Nat → List Char → List (List Char)
  | _, [] => [[]]
  | n + 1, _ :: cs => splitChars pat n cs
  | 0, c :: cs =>
    if pat.isPrefixOf (c :: cs) then [] :: splitChars pat (pat.length - 1) cs
    else (splitChars pat 0 cs).modifyHead (c :: ·)

theorem splitChars_ne_nil : ∀ (n : Nat) (cs : List Char), splitChars pat n cs ≠ []
  | _, [] => by simp [splitChars]
  | n + 1, _ :: cs => splitChars_ne_nil n cs
  | 0, c :: cs => by
    rw [splitChars]
    split
    · simp
    · cases h : splitChars pat 0 cs with
      | nil => exact absurd h (splitChars_ne_nil 0 cs)
      | cons part parts => simp

/-- What begins a text that is put together from segments ends in one of them. -/
theorem prefix_flatten {segs : List (List Char)} (hp : pat ≠ []) (h : pat <+: segs.flatten) :
    ∃ inner last after b, segs = inner ++ last :: after ∧ b ≠ [] ∧ b <+: last ∧ pat = inner.flatten ++ b := by
  induction segs generalizing pat with
  | nil => exact absurd (List.prefix_nil.1 h) hp
  | cons seg segs ih =>
    rw [List.flatten_cons] at h
    by_cases hseg : pat <+: seg
    · exact ⟨[], seg, segs, pat, rfl, hp, hseg, rfl⟩
    · obtain ⟨rest, rfl⟩ := (List.prefix_or_prefix_of_prefix h (List.prefix_append seg _)).resolve_left hseg
      have hrest : rest ≠ [] := fun hnil => hseg (by rw [hnil, List.append_nil])
      obtain ⟨inner, last, after, b, rfl, hb, hlast, rfl⟩ := ih hrest ((List.prefix_append_right_inj seg).1 h)
      exact ⟨seg :: inner, last, after, b, rfl, hb, hlast, by simp⟩

/-- **Where a text that is put together from segments has a pattern**: in a
segment, or from the end of one through whole ones to the beginning of
another. -/
theorem infix_flatten_iff {segs : List (List Char)} (hp : pat ≠ []) : pat <:+: segs.flatten ↔
    (∃ seg ∈ segs, pat <:+: seg) ∨ ∃ before first inner last after a b,
      segs = before ++ first :: (inner ++ last :: after) ∧ a ≠ [] ∧ b ≠ [] ∧ a <:+ first ∧ b <+: last ∧
        pat = a ++ (inner.flatten ++ b) := by
  constructor
  · intro h
    induction segs with
    | nil => exact absurd (List.infix_nil.1 h) hp
    | cons seg segs ih =>
      rw [List.flatten_cons, List.infix_append_iff_ne_nil] at h
      rcases h with hseg | hsegs | ⟨a, b, ha, hb, rfl, hfirst, hrest⟩
      · exact .inl ⟨seg, List.mem_cons_self, hseg⟩
      · rcases ih hsegs with ⟨s, hs, hin⟩ | ⟨before, first, inner, last, after, a, b, rfl, hcross⟩
        · exact .inl ⟨s, List.mem_cons_of_mem _ hs, hin⟩
        · exact .inr ⟨seg :: before, first, inner, last, after, a, b, rfl, hcross⟩
      · obtain ⟨inner, last, after, b, rfl, hend, hlast, rfl⟩ := prefix_flatten hb hrest
        exact .inr ⟨[], seg, inner, last, after, a, b, rfl, ha, hend, hfirst, hlast, rfl⟩
  · intro h
    rcases h with ⟨seg, hseg, hin⟩ | ⟨before, first, inner, last, after, a, b, rfl, -, -, ⟨x, rfl⟩, ⟨y, rfl⟩, rfl⟩
    · exact hin.trans (List.infix_of_mem_flatten hseg)
    · exact ⟨before.flatten ++ x, y ++ after.flatten, by simp⟩

theorem mem_intersperse {sep seg : List Char} : ∀ {parts : List (List Char)},
    seg ∈ parts.intersperse sep ↔ seg ∈ parts ∨ 2 ≤ parts.length ∧ seg = sep
  | [] => by simp
  | [part] => by simp
  | part :: next :: parts => by
    rw [List.intersperse_cons_cons, List.mem_cons, List.mem_cons, mem_intersperse]
    simp only [List.mem_cons, List.length_cons]
    grind

/-- A list without `c` that begins before a `c` ends before it. -/
theorem prefix_of_append_cons {a b : List Char} (hc : c ∉ pat) (h : pat <+: a ++ c :: b) : pat <+: a := by
  induction a generalizing pat with
  | nil =>
    rcases List.prefix_cons_iff.1 h with rfl | ⟨t, rfl, -⟩
    · exact List.prefix_rfl
    · exact absurd List.mem_cons_self hc
  | cons x a ih =>
    rcases List.prefix_cons_iff.1 h with rfl | ⟨t, rfl, ht⟩
    · exact List.nil_prefix
    · exact (List.prefix_cons_inj x).2 (ih (fun hmem => hc (List.mem_cons_of_mem _ hmem)) ht)

/-- What does not contain `c` lies on one side of it. -/
theorem infix_of_append_cons {a b : List Char} (hc : c ∉ pat) (h : pat <:+: a ++ c :: b) :
    pat <:+: a ∨ pat <:+: b := by
  induction a with
  | nil =>
    rcases List.infix_cons_iff.1 h with hpre | hin
    · exact .inl (prefix_of_append_cons (a := []) hc hpre).isInfix
    · exact .inr hin
  | cons x a ih =>
    rcases List.infix_cons_iff.1 h with hpre | hin
    · exact .inl (prefix_of_append_cons (a := x :: a) hc hpre).isInfix
    · exact (ih hin).imp_left fun hin => hin.trans (List.suffix_cons _ _).isInfix

/-- Separators of characters that a pattern does not contain add no
occurrence of it. -/
theorem infix_of_intercalate (hp : pat ≠ []) (hc : c ∉ pat) (n : Nat) :
    ∀ {parts : List (List Char)}, pat <:+: (List.replicate (n + 1) c).intercalate parts →
      ∃ part ∈ parts, pat <:+: part
  | [], h => absurd (List.infix_nil.1 h) hp
  | [part], h => ⟨part, List.mem_singleton_self _, by rwa [List.intercalate_singleton] at h⟩
  | part :: next :: parts, h => by
    have hskip : ∀ (k : Nat) (cs : List Char), pat <:+: List.replicate k c ++ cs → pat <:+: cs := by
      intro k
      induction k with
      | zero => exact fun _ h => h
      | succ k ih =>
        intro cs h
        rcases infix_of_append_cons (a := []) hc h with hnil | hrest
        · exact absurd (List.infix_nil.1 hnil) hp
        · exact ih cs hrest
    rw [List.intercalate_cons_cons, List.replicate_succ, List.append_assoc, List.cons_append] at h
    rcases infix_of_append_cons hc h with hpart | hrest
    · exact ⟨part, List.mem_cons_self, hpart⟩
    · obtain ⟨found, hmem, hin⟩ := infix_of_intercalate hp hc n (hskip n _ hrest)
      exact ⟨found, List.mem_cons_of_mem _ hmem, hin⟩

/-- Replacing is joining the parts. -/
theorem replaceChars_eq_intercalate : ∀ (n : Nat) (cs : List Char),
    replaceChars pat rep n cs = rep.intercalate (splitChars pat n cs)
  | _, [] => by simp [replaceChars, splitChars, List.intercalate]
  | n + 1, _ :: cs => replaceChars_eq_intercalate n cs
  | 0, c :: cs => by
    rw [replaceChars, splitChars]
    split
    · rw [replaceChars_eq_intercalate _ cs]
      cases h : splitChars pat (pat.length - 1) cs with
      | nil => exact absurd h (splitChars_ne_nil _ _)
      | cons part parts => simp [List.intercalate]
    · rw [replaceChars_eq_intercalate 0 cs]
      cases h : splitChars pat 0 cs with
      | nil => exact absurd h (splitChars_ne_nil _ _)
      | cons part parts => cases parts <;> simp [List.intercalate]

end Str
