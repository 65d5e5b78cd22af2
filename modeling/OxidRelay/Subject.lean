/-
Subject labels. `SubjectConfig::render` replaces `%name%` in the whole
format and then `%original%` in the whole result. What a format says is
the single pass from the left (`pieces`), which takes both placeholders
where it meets them and never looks at what it put in.

The two differ in what the second replacement finds: an `%original%` that
the first one took apart or put together. `keeps_original_iff` says when the
original subject is still in the result, for one sender and for all, and
`render_eq_singlePass_iff` when the result is that of the single pass.
-/
import OxidRelay.Config
import OxidRelay.Lib.Replace

namespace OxidRelay

open Str

def namePlaceholder : List Char := ['%', 'n', 'a', 'm', 'e', '%']

def originalPlaceholder : List Char := ['%', 'o', 'r', 'i', 'g', 'i', 'n', 'a', 'l', '%']

variable {sender original cs : List Char}

theorem namePlaceholder_ne_nil : namePlaceholder ≠ [] := by decide

theorem originalPlaceholder_ne_nil : originalPlaceholder ≠ [] := by decide

theorem SubjectConfig.render_eq (subject : SubjectConfig) (sender original : String) :
    (subject.render sender original).toList =
      replaceChars originalPlaceholder original.toList 0
        (replaceChars namePlaceholder sender.toList 0 (subject.formatFor sender).toList) := by
  unfold SubjectConfig.render Str.replace
  simp only [String.toList_ofList]
  rfl

/-! ## The original subject -/

/-- The parts of a format around the `%name%`s that are replaced. -/
def nameParts (format : String) : List (List Char) := splitChars namePlaceholder 0 format.toList

/-- Between a `%` of one segment and a `%` of a later one, the segments
spell `original`. -/
def Spelled (segs : List (List Char)) : Prop :=
  ∃ before inner after x f g y, segs = before ++ (x ++ '%' :: f) :: (inner ++ (g ++ '%' :: y) :: after) ∧
    f ++ (inner.flatten ++ g) = ['o', 'r', 'i', 'g', 'i', 'n', 'a', 'l']

/-- A part of the format has a whole `%original%`; or the sender's name has
one, and is put between parts; or the name and the parts complete one. -/
def SubjectConfig.KeepsOriginal (subject : SubjectConfig) (sender : String) : Prop :=
  (∃ part ∈ nameParts (subject.formatFor sender), originalPlaceholder <:+: part) ∨
    2 ≤ (nameParts (subject.formatFor sender)).length ∧ originalPlaceholder <:+: sender.toList ∨
    Spelled ((nameParts (subject.formatFor sender)).intersperse sender.toList)

/-- A `%original%` across segments begins with the one `%` and ends with the other. -/
theorem spelled_iff {segs : List (List Char)} : Spelled segs ↔ ∃ before first inner last after a b,
    segs = before ++ first :: (inner ++ last :: after) ∧ a ≠ [] ∧ b ≠ [] ∧ a <:+ first ∧ b <+: last ∧
      originalPlaceholder = a ++ (inner.flatten ++ b) := by
  constructor
  · intro h
    obtain ⟨before, inner, after, x, f, g, y, rfl, hword⟩ := h
    refine ⟨before, _, inner, _, after, '%' :: f, g ++ ['%'], rfl, by simp, by simp, ⟨x, rfl⟩, ⟨y, by simp⟩, ?_⟩
    have hplaceholder : originalPlaceholder = '%' :: (f ++ (inner.flatten ++ g)) ++ ['%'] := by rw [hword]; rfl
    simpa using hplaceholder
  · intro h
    obtain ⟨before, first, inner, last, after, a, b, rfl, ha, hb, ⟨x, rfl⟩, ⟨y, rfl⟩, heq⟩ := h
    obtain ⟨c, f, rfl⟩ := List.exists_cons_of_ne_nil ha
    obtain ⟨g, e, rfl⟩ := List.eq_nil_or_concat b |>.resolve_left hb
    have hsplit : ['%', 'o', 'r', 'i', 'g', 'i', 'n', 'a', 'l'] ++ ['%'] =
        c :: (f ++ (inner.flatten ++ g)) ++ [e] := by
      simpa [originalPlaceholder] using heq
    obtain ⟨hfront, hend⟩ := List.append_inj' hsplit rfl
    obtain ⟨rfl, hword⟩ := List.cons.inj hfront
    obtain ⟨rfl, -⟩ := List.cons.inj hend
    exact ⟨before, inner, after, x, f, g, y, by simp, hword.symm⟩

/-- With the name between the parts there is an `%original%`. -/
theorem SubjectConfig.keepsOriginal_iff_infix (subject : SubjectConfig) (sender : String) :
    subject.KeepsOriginal sender ↔
      originalPlaceholder <:+: sender.toList.intercalate (nameParts (subject.formatFor sender)) := by
  rw [List.intercalate, infix_flatten_iff originalPlaceholder_ne_nil, ← spelled_iff, SubjectConfig.KeepsOriginal,
    ← or_assoc]
  refine or_congr_left ?_
  simp only [mem_intersperse]
  constructor
  · intro h
    rcases h with ⟨part, hpart, hin⟩ | ⟨hname, hin⟩
    · exact ⟨part, .inl hpart, hin⟩
    · exact ⟨_, .inr ⟨hname, rfl⟩, hin⟩
  · intro h
    obtain ⟨seg, hpart | ⟨hname, rfl⟩, hin⟩ := h
    · exact .inl ⟨seg, hpart, hin⟩
    · exact .inr ⟨hname, hin⟩

/-- The original subject is put in place of an `%original%` that there is by then. -/
theorem SubjectConfig.contains_original_iff (subject : SubjectConfig) (sender : String) :
    (∀ original, Str.contains (subject.render sender original) original = true) ↔ subject.KeepsOriginal sender := by
  rw [SubjectConfig.keepsOriginal_iff_infix, nameParts, ← replaceChars_eq_intercalate]
  simp only [contains_iff, SubjectConfig.render_eq]
  generalize replaceChars namePlaceholder sender.toList 0 (subject.formatFor sender).toList = filled
  constructor
  · intro h
    by_contra hnone
    -- Nothing is replaced, so a longer subject has no room.
    have hlong := h (String.ofList ('x' :: filled))
    rw [replaceChars_of_absent hnone, String.toList_ofList] at hlong
    have := hlong.length_le
    simp at this
  · intro h original
    exact infix_replaceChars originalPlaceholder_ne_nil h original.toList

/-- Some sender has no format of its own: a name longer than any that has. -/
theorem SubjectConfig.exists_unlisted (subject : SubjectConfig) :
    ∃ n, subject.senders.get (String.ofList (List.replicate (n + 1) 'x')) = none := by
  refine ⟨(subject.senders.entries.map fun e => e.1.toList.length).sum, ?_⟩
  rw [SortedMap.get_eq_none]
  intro format hmem
  have hle := List.le_sum_of_mem (List.mem_map_of_mem (f := fun e => e.1.toList.length) hmem)
  simp only [String.toList_ofList, List.length_replicate] at hle
  omega

/-- **Which formats keep the original subject for every sender**: a part of
the global format contains `%original%`, and the own formats of senders
keep it for these. -/
theorem SubjectConfig.keepsOriginal_forall_iff (subject : SubjectConfig) :
    (∀ sender, subject.KeepsOriginal sender) ↔
      (∃ part ∈ nameParts subject.format, originalPlaceholder <:+: part) ∧
        ∀ e ∈ subject.senders.entries, subject.KeepsOriginal e.1 := by
  constructor
  · intro h
    refine ⟨?_, fun e _ => h e.1⟩
    obtain ⟨n, hn⟩ := subject.exists_unlisted
    have hkeeps := (subject.keepsOriginal_iff_infix _).1 (h (String.ofList (List.replicate (n + 1) 'x')))
    rw [SubjectConfig.formatFor, hn, String.toList_ofList] at hkeeps
    exact infix_of_intercalate originalPlaceholder_ne_nil (by decide) n hkeeps
  · intro h sender
    obtain ⟨hglobal, hown⟩ := h
    cases hget : subject.senders.get sender with
    | none =>
      left
      rw [SubjectConfig.formatFor, hget]
      exact hglobal
    | some own => exact hown (sender, own) (SortedMap.get_eq_some.1 hget)

/-- **When no original subject is lost**: of one sender, when a part of the
format has an `%original%` that shares no `%` with a `%name%`, or the name
has or completes one; of all senders, when the global format has one that
needs no name, and each sender with a format of its own keeps it. -/
theorem keeps_original_iff (subject : SubjectConfig) :
    (∀ sender, (∀ original, Str.contains (subject.render sender original) original = true) ↔
      subject.KeepsOriginal sender) ∧
    ((∀ sender original, Str.contains (subject.render sender original) original = true) ↔
      (∃ part ∈ nameParts subject.format, originalPlaceholder <:+: part) ∧
        ∀ e ∈ subject.senders.entries, subject.KeepsOriginal e.1) := by
  refine ⟨subject.contains_original_iff, ?_⟩
  rw [← subject.keepsOriginal_forall_iff]
  exact forall_congr' subject.contains_original_iff

/-- A format that is accepted, though its placeholders share a `%`. -/
def overlappingConfig : Config := { (default : Config) with subject := ⟨"%name%original%", .empty⟩ }

/-- The name eats the `%`, and the original subject is gone. -/
theorem overlapping_loses_original :
    overlappingConfig.validate = .ok () ∧
      overlappingConfig.subject.render "Server01" "Status" = "Server01original%" ∧
      Str.contains (overlappingConfig.subject.render "Server01" "Status") "Status" = false := by
  decide

/-! ## The single pass -/

/-- What a format is made of. -/
inductive Piece
  | text (c : Char)
  | name
  | original

/-- The pieces of a format, from the left. The number counts what is left
of a placeholder just met. -/
def pieces : Nat → List Char → List Piece
  | _, [] => []
  | n + 1, _ :: cs => pieces n cs
  | 0, c :: cs =>
    if namePlaceholder.isPrefixOf (c :: cs) then .name :: pieces (namePlaceholder.length - 1) cs
    else if originalPlaceholder.isPrefixOf (c :: cs) then .original :: pieces (originalPlaceholder.length - 1) cs
    else .text c :: pieces 0 cs

def Piece.fill (sender original : List Char) : Piece → List Char
  | .text c => [c]
  | .name => sender
  | .original => original

def fillAll (sender original : List Char) (ps : List Piece) : List Char := ps.flatMap (Piece.fill sender original)

/-- The single pass: every placeholder is replaced where it stands, and
everything else is copied. -/
def singlePass (format sender original : String) : String :=
  String.ofList (fillAll sender.toList original.toList (pieces 0 format.toList))

example : singlePass "[Abs: %name%] %original%" "%original%" "Status" = "[Abs: %original%] Status" := by decide

/-- The pieces as the format has them. -/
def sourceText (ps : List Piece) : List Char := fillAll namePlaceholder originalPlaceholder ps

/-! ### Meeting the placeholders -/

theorem pieces_skip (n : Nat) : ∀ cs : List Char, pieces n cs = pieces 0 (cs.drop n) := by
  induction n with
  | zero => exact fun _ => rfl
  | succ n ih =>
    intro cs
    cases cs with
    | nil => rfl
    | cons c cs => exact ih cs

theorem pieces_name (cs : List Char) : pieces 0 (namePlaceholder ++ cs) = .name :: pieces 0 cs := by
  show pieces 0 ('%' :: (namePlaceholder.tail ++ cs)) = _
  have hpre : namePlaceholder.isPrefixOf ('%' :: (namePlaceholder.tail ++ cs)) = true :=
    List.isPrefixOf_iff_prefix.2 ⟨cs, rfl⟩
  rw [pieces, if_pos hpre, pieces_skip]
  rfl

theorem pieces_original (cs : List Char) : pieces 0 (originalPlaceholder ++ cs) = .original :: pieces 0 cs := by
  show pieces 0 ('%' :: (originalPlaceholder.tail ++ cs)) = _
  have hpre : originalPlaceholder.isPrefixOf ('%' :: (originalPlaceholder.tail ++ cs)) = true :=
    List.isPrefixOf_iff_prefix.2 ⟨cs, rfl⟩
  have hname : ¬ namePlaceholder.isPrefixOf ('%' :: (originalPlaceholder.tail ++ cs)) = true := by
    simp [namePlaceholder, originalPlaceholder]
  rw [pieces, if_neg hname, if_pos hpre, pieces_skip]
  rfl

theorem pieces_text {c : Char} (hn : ¬ namePlaceholder <+: c :: cs) (ho : ¬ originalPlaceholder <+: c :: cs) :
    pieces 0 (c :: cs) = .text c :: pieces 0 cs := by
  rw [pieces, if_neg (by simpa using hn), if_neg (by simpa using ho)]

/-- What a format may begin with. -/
theorem pieces_cases (cs : List Char) : cs = [] ∨ (∃ rest, cs = namePlaceholder ++ rest) ∨
    (∃ rest, cs = originalPlaceholder ++ rest) ∨
    ∃ c rest, cs = c :: rest ∧ ¬ namePlaceholder <+: c :: rest ∧ ¬ originalPlaceholder <+: c :: rest := by
  by_cases hn : namePlaceholder <+: cs
  · obtain ⟨rest, rfl⟩ := hn
    exact .inr (.inl ⟨rest, rfl⟩)
  by_cases ho : originalPlaceholder <+: cs
  · obtain ⟨rest, rfl⟩ := ho
    exact .inr (.inr (.inl ⟨rest, rfl⟩))
  · cases cs with
    | nil => exact .inl rfl
    | cons c rest => exact .inr (.inr (.inr ⟨c, rest, rfl, hn, ho⟩))

theorem length_namePlaceholder_append (cs : List Char) : (namePlaceholder ++ cs).length = cs.length + 6 :=
  List.length_append.trans (Nat.add_comm ..)

theorem length_originalPlaceholder_append (cs : List Char) : (originalPlaceholder ++ cs).length = cs.length + 10 :=
  List.length_append.trans (Nat.add_comm ..)

/-- Induction along the single pass. -/
theorem pieces_induction {P : List Char → Prop} (nil : P []) (name : ∀ cs, P cs → P (namePlaceholder ++ cs))
    (original : ∀ cs, P cs → P (originalPlaceholder ++ cs))
    (text : ∀ c cs, ¬ namePlaceholder <+: c :: cs → ¬ originalPlaceholder <+: c :: cs → P cs → P (c :: cs))
    (cs : List Char) : P cs := by
  induction h : cs.length using Nat.strong_induction_on generalizing cs with
  | _ n ih =>
    rcases pieces_cases cs with rfl | ⟨rest, rfl⟩ | ⟨rest, rfl⟩ | ⟨c, rest, rfl, hn, ho⟩
    · exact nil
    · rw [length_namePlaceholder_append] at h
      exact name rest (ih rest.length (by omega) rest rfl)
    · rw [length_originalPlaceholder_append] at h
      exact original rest (ih rest.length (by omega) rest rfl)
    · rw [List.length_cons] at h
      exact text c rest hn ho (ih rest.length (by omega) rest rfl)

/-- The pieces lose nothing of the format. -/
theorem sourceText_pieces (cs : List Char) : sourceText (pieces 0 cs) = cs := by
  unfold sourceText fillAll
  induction cs using pieces_induction with
  | nil => rfl
  | name cs ih => rw [pieces_name, List.flatMap_cons, ih]; rfl
  | original cs ih => rw [pieces_original, List.flatMap_cons, ih]; rfl
  | text c cs hn ho ih => rw [pieces_text hn ho, List.flatMap_cons, ih]; rfl

/-! ### The first replacement -/

/-- The format after the first replacement. -/
def fillName (sender cs : List Char) : List Char := replaceChars namePlaceholder sender 0 cs

/-- The format after a single pass that leaves `%original%` alone. -/
def fillPieces (sender cs : List Char) : List Char := fillAll sender originalPlaceholder (pieces 0 cs)

theorem fillName_name (cs : List Char) : fillName sender (namePlaceholder ++ cs) = sender ++ fillName sender cs :=
  replaceChars_hit namePlaceholder_ne_nil cs

theorem fillName_original (cs : List Char) :
    fillName sender (originalPlaceholder ++ cs) = originalPlaceholder.dropLast ++ fillName sender ('%' :: cs) := by
  simp [fillName, originalPlaceholder, namePlaceholder, replaceChars_miss]

theorem fillName_nameTail (cs : List Char) :
    fillName sender (namePlaceholder.tail ++ cs) = ['n', 'a', 'm', 'e'] ++ fillName sender ('%' :: cs) := by
  simp [fillName, namePlaceholder, replaceChars_miss]

theorem fillName_originalTail (cs : List Char) :
    fillName sender (originalPlaceholder.tail ++ cs) =
      originalPlaceholder.tail.dropLast ++ fillName sender ('%' :: cs) := by
  simp [fillName, originalPlaceholder, namePlaceholder, replaceChars_miss]

theorem fillName_percent (h : ¬ namePlaceholder.tail <+: cs) :
    fillName sender ('%' :: cs) = '%' :: fillName sender cs :=
  replaceChars_miss fun hpre => h (List.cons_prefix_cons.1 hpre).2

theorem fillPieces_name (cs : List Char) :
    fillPieces sender (namePlaceholder ++ cs) = sender ++ fillPieces sender cs := by
  rw [fillPieces, pieces_name]
  rfl

theorem fillPieces_original (cs : List Char) :
    fillPieces sender (originalPlaceholder ++ cs) = originalPlaceholder ++ fillPieces sender cs := by
  rw [fillPieces, pieces_original]
  rfl

theorem fillPieces_text {c : Char} (hn : ¬ namePlaceholder <+: c :: cs) (ho : ¬ originalPlaceholder <+: c :: cs) :
    fillPieces sender (c :: cs) = c :: fillPieces sender cs := by
  rw [fillPieces, pieces_text hn ho]
  rfl

theorem fillPieces_nameTail (cs : List Char) :
    fillPieces sender (namePlaceholder.tail ++ cs) = ['n', 'a', 'm', 'e'] ++ fillPieces sender ('%' :: cs) := by
  simp [fillPieces_text, namePlaceholder, originalPlaceholder]

theorem fillPieces_percent (hn : ¬ namePlaceholder.tail <+: cs) (ho : ¬ originalPlaceholder.tail <+: cs) :
    fillPieces sender ('%' :: cs) = '%' :: fillPieces sender cs :=
  fillPieces_text (fun hpre => hn (List.cons_prefix_cons.1 hpre).2) fun hpre => ho (List.cons_prefix_cons.1 hpre).2

/-! ### When the first replacement finds the names of the single pass -/

/-- `%`, `%name%`, `%name%name%` and so on. -/
inductive Chain : List Char → Prop
  | one : Chain ['%']
  | more {s : List Char} : Chain s → Chain (namePlaceholder.dropLast ++ s)

/-- The text begins with an even number of `name%`. -/
inductive EvenNames : List Char → Prop
  | none {s : List Char} : ¬ namePlaceholder.tail <+: s → EvenNames s
  | two {s : List Char} : EvenNames s → EvenNames (namePlaceholder.tail ++ (namePlaceholder.tail ++ s))

/-- No `%original%` piece is directly followed by `name%`, with which its
last `%` would be a `%name%`. Only senders that look like names themselves
may have it otherwise. -/
def Separate (sender : List Char) : List Piece → Prop
  | [] => True
  | .original :: ps =>
    (sender = namePlaceholder ∨ ¬ namePlaceholder.tail <+: sourceText ps ∨
      Chain sender ∧ EvenNames (sourceText ps)) ∧ Separate sender ps
  | _ :: ps => Separate sender ps

theorem separate_name (ps : List Piece) : Separate namePlaceholder ps := by
  induction ps with
  | nil => trivial
  | cons p ps ih =>
    cases p with
    | original => exact ⟨.inl rfl, ih⟩
    | _ => exact ih

/-- A chain may change places with `name%`. -/
theorem Chain.append_nameTail (h : Chain sender) :
    sender ++ namePlaceholder.tail = namePlaceholder.dropLast ++ sender := by
  induction h with
  | one => rfl
  | more h ih => rw [List.append_assoc, ih]

/-- Only a chain may. -/
theorem chain_of_append {c : Char} : ∀ {sender : List Char},
    sender ++ (['n', 'a', 'm', 'e'] ++ [c]) = namePlaceholder.dropLast ++ sender → Chain sender ∧ c = '%'
  | [], h => by simp [namePlaceholder] at h
  | [a], h => by
    simp [namePlaceholder] at h
    obtain ⟨rfl, rfl⟩ := h
    exact ⟨.one, rfl⟩
  | [a, b], h => by simp [namePlaceholder] at h
  | [a, b, x], h => by simp [namePlaceholder] at h
  | [a, b, x, y], h => by simp [namePlaceholder] at h
  | a :: b :: x :: y :: z :: sender, h => by
    simp only [namePlaceholder, List.dropLast_cons_cons, List.dropLast_singleton, List.cons_append, List.nil_append,
      List.cons.injEq] at h
    obtain ⟨rfl, rfl, rfl, rfl, rfl, h⟩ := h
    obtain ⟨hchain, rfl⟩ := chain_of_append h
    exact ⟨.more hchain, rfl⟩

theorem fillName_percent_even (hs : Chain sender) (h : EvenNames cs) :
    fillName sender ('%' :: cs) = '%' :: fillName sender cs := by
  induction h with
  | none h => exact fillName_percent h
  | @two cs _ ih =>
    have hname (cs : List Char) : '%' :: (namePlaceholder.tail ++ cs) = namePlaceholder ++ cs := rfl
    rw [hname, fillName_name, fillName_nameTail, ih, fillName_nameTail, hname, fillName_name]
    show sender ++ (namePlaceholder.tail ++ fillName sender cs) =
      namePlaceholder.dropLast ++ (sender ++ fillName sender cs)
    rw [← List.append_assoc, hs.append_nameTail, List.append_assoc]

/-- `a` is no longer than `b` for a sender that is no longer than `%name%`,
and no shorter for one that is no shorter. -/
def Grows (sender : List Char) (a b : Nat) : Prop :=
  (sender.length ≤ 6 → a ≤ b) ∧ (6 ≤ sender.length → b ≤ a)

/-- The first replacement finds at least the names of the single pass, also
when a `%` is put in front. -/
theorem fillName_length (sender cs : List Char) :
    Grows sender (fillName sender cs).length (fillPieces sender cs).length ∧
    Grows sender (fillName sender ('%' :: cs)).length ((fillPieces sender cs).length + 1) := by
  induction h : cs.length using Nat.strong_induction_on generalizing cs with
  | _ n ih =>
    have hplain : Grows sender (fillName sender cs).length (fillPieces sender cs).length := by
      rcases pieces_cases cs with rfl | ⟨y, rfl⟩ | ⟨y, rfl⟩ | ⟨c, y, rfl, hn, ho⟩
      · exact ⟨fun _ => le_refl _, fun _ => le_refl _⟩
      · rw [length_namePlaceholder_append] at h
        have hy := (ih y.length (by omega) y rfl).1
        rw [fillName_name, fillPieces_name]
        simp only [Grows, List.length_append] at hy ⊢
        omega
      · rw [length_originalPlaceholder_append] at h
        have hy := (ih y.length (by omega) y rfl).2
        rw [fillName_original, fillPieces_original, length_originalPlaceholder_append]
        simp only [Grows, List.length_append, List.length_dropLast, originalPlaceholder, List.length_cons,
          List.length_nil] at hy ⊢
        omega
      · rw [List.length_cons] at h
        have hy := (ih y.length (by omega) y rfl).1
        rw [fillName, replaceChars_miss hn, fillPieces_text hn ho]
        simp only [Grows, List.length_cons] at hy ⊢
        exact ⟨fun hs => Nat.succ_le_succ (hy.1 hs), fun hs => Nat.succ_le_succ (hy.2 hs)⟩
    refine ⟨hplain, ?_⟩
    by_cases hn : namePlaceholder.tail <+: cs
    · obtain ⟨x, rfl⟩ := hn
      have hx : x.length + 5 = n := by rw [← h, List.length_append]; exact Nat.add_comm ..
      show Grows sender (fillName sender (namePlaceholder ++ x)).length _
      rw [fillName_name, fillPieces_nameTail]
      by_cases hname : namePlaceholder.tail <+: x
      · obtain ⟨y, rfl⟩ := hname
        have hy := (ih y.length (by rw [List.length_append] at hx; omega) y rfl).2
        show Grows sender _ ((['n', 'a', 'm', 'e'] ++ fillPieces sender (namePlaceholder ++ y)).length + 1)
        rw [fillName_nameTail, fillPieces_name]
        simp only [Grows, List.length_append, List.length_cons, List.length_nil] at hy ⊢
        omega
      by_cases horig : originalPlaceholder.tail <+: x
      · obtain ⟨y, rfl⟩ := horig
        have hy := (ih y.length (by rw [List.length_append] at hx; omega) y rfl).2
        show Grows sender _ ((['n', 'a', 'm', 'e'] ++ fillPieces sender (originalPlaceholder ++ y)).length + 1)
        rw [fillName_originalTail, fillPieces_original]
        simp only [Grows, List.length_append, List.length_dropLast, List.length_tail, originalPlaceholder,
          List.length_cons, List.length_nil] at hy ⊢
        omega
      · have hy := (ih x.length (by omega) x rfl).1
        rw [fillPieces_percent hname horig]
        simp only [Grows, List.length_append, List.length_cons, List.length_nil] at hy ⊢
        omega
    · rw [fillName_percent hn, List.length_cons]
      exact ⟨fun hs => Nat.succ_le_succ (hplain.1 hs), fun hs => Nat.succ_le_succ (hplain.2 hs)⟩

/-- A sender as long as `%name%` that stands where it stood. -/
theorem eq_name_of_append {a b : List Char} (hlen : sender.length = 6)
    (h : sender ++ a = namePlaceholder ++ b) : sender = namePlaceholder :=
  (List.append_inj h hlen).1

/-- **When a `%` in front does not matter**: the sender is `%name%`, or no
name begins there, or names of a chain do in pairs. -/
theorem separate_of_eq (h : fillName sender ('%' :: cs) = '%' :: fillPieces sender cs) :
    sender = namePlaceholder ∨
      (¬ namePlaceholder.tail <+: cs ∨ Chain sender ∧ EvenNames cs) ∧
        fillName sender cs = fillPieces sender cs := by
  induction hl : cs.length using Nat.strong_induction_on generalizing cs with
  | _ n ih =>
    by_cases hn : namePlaceholder.tail <+: cs
    · obtain ⟨x, rfl⟩ := hn
      have hx : x.length + 5 = n := by rw [← hl, List.length_append]; exact Nat.add_comm ..
      have h : sender ++ fillName sender x = '%' :: fillPieces sender (namePlaceholder.tail ++ x) := by
        rw [← fillName_name]
        exact h
      rw [fillPieces_nameTail] at h
      by_cases hname : namePlaceholder.tail <+: x
      · -- Two names: both passes put the sender in once, and one character is left over.
        obtain ⟨y, rfl⟩ := hname
        have h : sender ++ (['n', 'a', 'm', 'e'] ++ fillName sender ('%' :: y)) =
            namePlaceholder.dropLast ++ (sender ++ fillPieces sender y) := by
          rw [← fillName_nameTail, ← fillPieces_name]
          exact h
        cases hc : fillName sender ('%' :: y) with
        | nil =>
          have := congrArg List.length h
          simp [hc, namePlaceholder] at this
          omega
        | cons c rest =>
          rw [hc] at h
          have hsplit : (sender ++ (['n', 'a', 'm', 'e'] ++ [c])) ++ rest =
              (namePlaceholder.dropLast ++ sender) ++ fillPieces sender y := by simpa using h
          obtain ⟨hswap, hrest⟩ := List.append_inj hsplit (by simp [namePlaceholder])
          obtain ⟨hchain, rfl⟩ := chain_of_append hswap
          rcases ih y.length (by rw [List.length_append] at hx; omega) (by rw [hc, hrest]) rfl with
            hs | ⟨hsep, heq⟩
          · exact .inl hs
          · right
            have heven : EvenNames y := hsep.elim .none fun hy => hy.2
            refine ⟨.inr ⟨hchain, .two heven⟩, ?_⟩
            rw [fillName_nameTail, fillPieces_nameTail]
            show _ ++ fillName sender (namePlaceholder ++ y) = _ ++ fillPieces sender (namePlaceholder ++ y)
            rw [fillName_name, fillPieces_name, heq]
      left
      by_cases horig : originalPlaceholder.tail <+: x
      · obtain ⟨y, rfl⟩ := horig
        have hy := (fillName_length sender y).2
        have h : sender ++ (originalPlaceholder.tail.dropLast ++ fillName sender ('%' :: y)) =
            namePlaceholder ++ (originalPlaceholder.tail ++ fillPieces sender y) := by
          rw [← fillName_originalTail, h]
          show namePlaceholder.dropLast ++ fillPieces sender (originalPlaceholder ++ y) = _
          rw [fillPieces_original]
          rfl
        refine eq_name_of_append ?_ h
        have := congrArg List.length h
        simp only [Grows, List.length_append, List.length_dropLast, List.length_tail, originalPlaceholder,
          namePlaceholder, List.length_cons, List.length_nil] at hy this
        omega
      · have hy := (fillName_length sender x).1
        rw [fillPieces_percent hname horig] at h
        have h : sender ++ fillName sender x = namePlaceholder ++ fillPieces sender x := h
        refine eq_name_of_append ?_ h
        have := congrArg List.length h
        simp only [Grows, List.length_append, namePlaceholder, List.length_cons, List.length_nil] at hy this
        omega
    · rw [fillName_percent hn] at h
      exact .inr ⟨.inl hn, (List.cons.inj h).2⟩

/-- The first replacement finds the names of the single pass. -/
theorem fillName_eq_iff (sender cs : List Char) :
    fillName sender cs = fillPieces sender cs ↔ Separate sender (pieces 0 cs) := by
  induction cs using pieces_induction with
  | nil => exact ⟨fun _ => trivial, fun _ => rfl⟩
  | name cs ih =>
    rw [fillName_name, fillPieces_name, List.append_cancel_left_eq, ih, pieces_name]
    rfl
  | text c cs hn ho ih =>
    rw [fillName, replaceChars_miss hn, fillPieces_text hn ho, List.cons.injEq, pieces_text hn ho]
    exact (and_iff_right rfl).trans ih
  | original cs ih =>
    have hsplit : originalPlaceholder ++ fillPieces sender cs =
        originalPlaceholder.dropLast ++ '%' :: fillPieces sender cs := rfl
    rw [fillName_original, fillPieces_original, hsplit, List.append_cancel_left_eq, pieces_original, Separate,
      sourceText_pieces]
    constructor
    · intro h
      rcases separate_of_eq h with rfl | ⟨hsep, heq⟩
      · exact ⟨.inl rfl, separate_name _⟩
      · exact ⟨.inr hsep, ih.1 heq⟩
    · intro h
      obtain ⟨hsep, hrest⟩ := h
      rw [← ih.2 hrest]
      rcases hsep with rfl | hn | ⟨hchain, heven⟩
      · unfold fillName
        rw [replaceChars_self namePlaceholder_ne_nil, replaceChars_self namePlaceholder_ne_nil]
      · exact fillName_percent hn
      · exact fillName_percent_even hchain heven

/-! ### When the second replacement finds the originals of the single pass -/

/-- Between two `%original%` pieces, and after the last, the text with the
sender's name filled in has no `%original%`, and none begins there that
the next piece would complete. `acc` is the text since the last piece. -/
def Inert (sender : List Char) : (acc : List Char) → List Piece → Prop
  | acc, [] => ¬ originalPlaceholder <:+: acc
  | acc, .original :: ps => ¬ originalPlaceholder <:+: acc ++ originalPlaceholder.dropLast ∧ Inert sender [] ps
  | acc, .text c :: ps => Inert sender (acc ++ [c]) ps
  | acc, .name :: ps => Inert sender (acc ++ sender) ps

theorem replaceOriginal_of_inert (original : List Char) {ps : List Piece} {acc : List Char}
    (h : Inert sender acc ps) :
    replaceChars originalPlaceholder original 0 (acc ++ fillAll sender originalPlaceholder ps) =
      acc ++ fillAll sender original ps := by
  unfold fillAll
  induction ps generalizing acc with
  | nil =>
    rw [List.flatMap_nil, List.flatMap_nil, List.append_nil]
    exact replaceChars_of_absent h
  | cons p ps ih =>
    rw [List.flatMap_cons, List.flatMap_cons]
    cases p with
    | original =>
      have hrest : replaceChars originalPlaceholder original 0
          (ps.flatMap (Piece.fill sender originalPlaceholder)) = ps.flatMap (Piece.fill sender original) := ih h.2
      rw [Piece.fill, Piece.fill, replaceChars_first originalPlaceholder_ne_nil h.1, hrest]
    | text c | name =>
      rw [← List.append_assoc, ← List.append_assoc]
      exact ih h

/-- An occurrence that begins in `acc` shows in the result. -/
theorem not_infix_of_replace {text acc rest after : List Char} (hacc : acc <+: text)
    (hlen : text.length < acc.length + 10)
    (h : replaceChars originalPlaceholder ['x'] 0 (text ++ rest) = acc ++ after) :
    ¬ originalPlaceholder <:+: text := by
  intro hin
  obtain ⟨before, tail, rfl, hfirst⟩ := exists_first originalPlaceholder_ne_nil hin
  rw [List.append_assoc, List.append_assoc, replaceChars_first originalPlaceholder_ne_nil hfirst] at h
  rw [List.length_append, length_originalPlaceholder_append] at hlen
  have hlt : before.length < acc.length := by omega
  obtain ⟨more, hmore⟩ := hacc
  have hold : (before ++ (originalPlaceholder ++ tail))[before.length]? = some '%' := by
    rw [List.getElem?_append_right (le_refl _), Nat.sub_self]
    rfl
  have hnew := congrArg (fun l => l[before.length]?) h
  rw [List.getElem?_append_right (le_refl _), Nat.sub_self, List.getElem?_append_left hlt] at hnew
  rw [← hmore, List.getElem?_append_left hlt, ← hnew] at hold
  exact absurd hold (by simp)

theorem inert_of_replaceOriginal {ps : List Piece} {acc : List Char}
    (h : replaceChars originalPlaceholder ['x'] 0 (acc ++ fillAll sender originalPlaceholder ps) =
      acc ++ fillAll sender ['x'] ps) : Inert sender acc ps := by
  unfold fillAll at h
  induction ps generalizing acc with
  | nil => exact not_infix_of_replace (List.prefix_refl acc) (Nat.lt_add_of_pos_right (by decide)) h
  | cons p ps ih =>
    rw [List.flatMap_cons, List.flatMap_cons] at h
    cases p with
    | original =>
      have hsplit : acc ++ (originalPlaceholder ++ ps.flatMap (Piece.fill sender originalPlaceholder)) =
          (acc ++ originalPlaceholder.dropLast) ++ '%' :: ps.flatMap (Piece.fill sender originalPlaceholder) := by
        rw [List.append_assoc]
        rfl
      rw [Piece.fill, Piece.fill] at h
      have hfirst : ¬ originalPlaceholder <:+: acc ++ originalPlaceholder.dropLast := by
        rw [hsplit] at h
        refine not_infix_of_replace (List.prefix_append _ _) ?_ h
        rw [List.length_append]
        exact Nat.add_lt_add_left (by decide) _
      refine ⟨hfirst, ih ?_⟩
      rw [replaceChars_first originalPlaceholder_ne_nil hfirst] at h
      exact (List.cons.inj (List.append_cancel_left h)).2
    | text c | name =>
      rw [← List.append_assoc, ← List.append_assoc] at h
      exact ih h

/-! ### Both replacements -/

/-- The sender's name is treated as data in a format: the first replacement
finds the names of the single pass, the second its originals. -/
def SubjectConfig.TreatsAsData (subject : SubjectConfig) (sender : String) : Prop :=
  let ps := pieces 0 (subject.formatFor sender).toList
  Separate sender.toList ps ∧ Inert sender.toList [] ps

/-- **When a label is that of the single pass**, whatever the original
subject is. -/
theorem render_eq_singlePass_iff (subject : SubjectConfig) (sender : String) :
    (∀ original, subject.render sender original = singlePass (subject.formatFor sender) sender original) ↔
      subject.TreatsAsData sender := by
  have hchars (original : String) :
      subject.render sender original = singlePass (subject.formatFor sender) sender original ↔
      replaceChars originalPlaceholder original.toList 0 (fillName sender.toList (subject.formatFor sender).toList) =
        fillAll sender.toList original.toList (pieces 0 (subject.formatFor sender).toList) := by
    rw [← String.toList_inj, SubjectConfig.render_eq, singlePass, String.toList_ofList]
    rfl
  unfold SubjectConfig.TreatsAsData
  simp only [hchars, ← fillName_eq_iff]
  constructor
  · intro h
    have hname := h (String.ofList originalPlaceholder)
    rw [String.toList_ofList, replaceChars_self originalPlaceholder_ne_nil] at hname
    refine ⟨hname, inert_of_replaceOriginal ?_⟩
    have hmark := h (String.ofList ['x'])
    rwa [String.toList_ofList, hname] at hmark
  · intro h original
    obtain ⟨hname, hinert⟩ := h
    rw [hname]
    exact replaceOriginal_of_inert original.toList hinert

/-- A sender whose name is a placeholder gets the subject twice. -/
theorem name_taken_as_placeholder :
    (default : Config).validate = .ok () ∧
      (default : Config).subject.render "%original%" "Status" = "[Abs: Status] Status" ∧
      singlePass ((default : Config).subject.formatFor "%original%") "%original%" "Status" =
        "[Abs: %original%] Status" ∧
      (default : Config).subject.render "%original%" "Status" ≠
        singlePass ((default : Config).subject.formatFor "%original%") "%original%" "Status" := by
  decide

end OxidRelay
