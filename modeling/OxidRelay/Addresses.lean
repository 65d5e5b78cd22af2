/-
The address inside what a client sends as sender or recipient.
`stripBrackets` trims blanks, `<` and `>`, and blanks, each once, so blanks
between two brackets keep the inner one from it: `sender_normalised_iff`
is when it gets to the address.
-/
import OxidRelay.Access
import OxidRelay.Lib.Trim

namespace OxidRelay

variable {raw s : String}

/-! ## What is asked of an address -/

/-- No blank at either end, no `<` at the start and no `>` at the end. -/
structure Bare (s : String) : Prop where
  start_blank : ∀ c ∈ s.toList.head?, Str.isWhitespace c = false
  end_blank : ∀ c ∈ s.toList.getLast?, Str.isWhitespace c = false
  start_bracket : s.toList.head? ≠ some '<'
  end_bracket : s.toList.getLast? ≠ some '>'

/-- `raw` is `s` with layers of brackets and blanks around it. -/
inductive Layered (s : String) : String → Prop
  | bare : Layered s s
  | brackets {raw : String} (h : Layered s raw) : Layered s ("<" ++ raw ++ ">")
  | blanks {raw : String} (a b : String) (ha : ∀ c ∈ a.toList, Str.isWhitespace c = true)
    (hb : ∀ c ∈ b.toList, Str.isWhitespace c = true) (h : Layered s raw) : Layered s (a ++ raw ++ b)

/-- The address is normalised: it is bare, stripping it again changes
nothing, and a mail is built, with its sender to route by, as from the text
in any of the layers. -/
structure Normalised (raw : String) : Prop where
  bare : Bare (stripBrackets raw)
  idempotent : stripBrackets (stripBrackets raw) = stripBrackets raw
  sender : ∀ s, Layered s raw → stripBrackets s = stripBrackets raw ∧
    ∀ (X : Externals) (h : RelayHandler),
      { h with envelopeFrom := s }.buildNewMail X = { h with envelopeFrom := raw }.buildNewMail X

/-- Blanks stand between brackets: the text starts with blanks, if any, then
`<`s, then blanks, then `<`, or it ends so with `>`. -/
def Spaced (raw : String) : Prop :=
  Trim.Gapped Str.isWhitespace (· = '<') raw.toList ∨ Trim.Gapped Str.isWhitespace (· = '>') raw.toList.reverse

/-! ## The four trims -/

theorem toList_stripBrackets (raw : String) :
    (stripBrackets raw).toList = Trim.peel Str.isWhitespace (· = '<') (· = '>') raw.toList := by
  simp only [stripBrackets, Str.trim, Str.trimStartMatches, Str.trimEndMatches, String.toList_ofList]
  rfl

theorem isWhitespace_bracket {c : Char} (h : Str.isWhitespace c = true) : c ≠ '<' ∧ c ≠ '>' := by
  refine ⟨fun hc => ?_, fun hc => ?_⟩
  · rw [hc] at h
    revert h
    decide
  · rw [hc] at h
    revert h
    decide

/-- The text without any blank or bracket around it. -/
def coreAddress (raw : String) : String :=
  String.ofList (Trim.core Str.isWhitespace (· = '<') (· = '>') raw.toList)

theorem stripBrackets_eq_core_iff : stripBrackets raw = coreAddress raw ↔ ¬ Spaced raw := by
  have hlt (c : Char) (h : Str.isWhitespace c = true) : decide (c = '<') = false := by
    simpa using (isWhitespace_bracket h).1
  have hgt (c : Char) (h : Str.isWhitespace c = true) : decide (c = '>') = false := by
    simpa using (isWhitespace_bracket h).2
  have hne (c : Char) (h : decide (c = '<') = true) : decide (c = '>') = false := by
    rw [decide_eq_true_eq] at h
    subst h
    decide
  unfold Spaced coreAddress
  rw [not_or, ← Trim.peel_eq_core_iff_gapped hlt hgt hne, ← toList_stripBrackets, ← String.toList_inj,
    String.toList_ofList]

theorem bare_iff : Bare (stripBrackets raw) ↔ stripBrackets raw = coreAddress raw := by
  have hcore : stripBrackets raw = coreAddress raw ↔
      Trim.peel Str.isWhitespace (· = '<') (· = '>') raw.toList =
        Trim.core Str.isWhitespace (· = '<') (· = '>') raw.toList := by
    rw [← toList_stripBrackets, ← String.toList_inj, coreAddress, String.toList_ofList]
  have hblank := Trim.peel_blank (w := Str.isWhitespace) (p := (· = '<')) (q := (· = '>')) (l := raw.toList)
  rw [hcore, Trim.peel_eq_core_iff, ← toList_stripBrackets]
  rw [← toList_stripBrackets] at hblank
  simp only [decide_eq_false_iff_not]
  refine ⟨fun h => ?_, fun h => ?_⟩
  · exact ⟨fun x hx hlt => h.start_bracket (hlt ▸ hx), fun x hx hgt => h.end_bracket (hgt ▸ hx)⟩
  · exact ⟨hblank.1, hblank.2, fun hlt => h.1 _ hlt rfl, fun hgt => h.2 _ hgt rfl⟩

theorem stripBrackets_core (h : stripBrackets raw = coreAddress raw) :
    stripBrackets (stripBrackets raw) = stripBrackets raw := by
  rw [← String.toList_inj, toList_stripBrackets]
  refine Trim.peel_eq_self ?_
  rw [toList_stripBrackets, Trim.core_peel, ← toList_stripBrackets, h, coreAddress, String.toList_ofList]

/-! ## Layers -/

theorem Layered.core_eq (h : Layered s raw) : coreAddress s = coreAddress raw := by
  have hlayer (a b l : List Char) (ha : ∀ c ∈ a, (Str.isWhitespace c || decide (c = '<')) = true)
      (hb : ∀ c ∈ b, (Str.isWhitespace c || decide (c = '>')) = true) :
      Trim.core Str.isWhitespace (· = '<') (· = '>') (a ++ l ++ b) =
        Trim.core Str.isWhitespace (· = '<') (· = '>') l := Trim.trim_append ha hb
  induction h with
  | bare => rfl
  | brackets h ih =>
    rw [ih, coreAddress, coreAddress, String.toList_append, String.toList_append,
      hlayer _ _ _ (by simp) (by simp)]
  | blanks a b ha hb h ih =>
    rw [ih, coreAddress, coreAddress, String.toList_append, String.toList_append,
      hlayer _ _ _ (fun c hc => by simp [ha c hc]) fun c hc => by simp [hb c hc]]

/-- Layers do not bring brackets together. -/
theorem Layered.spaced (h : Layered s raw) (hs : Spaced s) : Spaced raw := by
  induction h with
  | bare => exact hs
  | brackets h ih =>
    unfold Spaced
    rw [String.toList_append, String.toList_append, List.reverse_append, List.reverse_append]
    refine ih.imp (fun hg => ?_) fun hg => ?_
    · exact (hg.bracket (y := '<') rfl).append _
    · exact (hg.append _).bracket (y := '>') rfl
  | blanks a b ha hb h ih =>
    unfold Spaced
    rw [String.toList_append, String.toList_append, List.reverse_append, List.reverse_append]
    refine ih.imp (fun hg => ?_) fun hg => ?_
    · exact (hg.blanks ha).append _
    · exact (hg.append _).blanks fun c hc => hb c (List.mem_reverse.1 hc)

/-! ## The law -/

/-- **When an address is normalised.** That is when no blanks stand between
brackets, at the start or at the end. -/
theorem sender_normalised_iff (raw : String) : Normalised raw ↔ ¬ Spaced raw := by
  rw [← stripBrackets_eq_core_iff]
  refine ⟨fun h => ?_, fun h => ?_⟩
  · exact bare_iff.1 h.bare
  · refine ⟨bare_iff.2 h, stripBrackets_core h, fun s hs => ?_⟩
    have hspaced : ¬ Spaced s := fun hs' => stripBrackets_eq_core_iff.1 h (hs.spaced hs')
    have heq : stripBrackets s = stripBrackets raw := by
      rw [stripBrackets_eq_core_iff.2 hspaced, hs.core_eq, h]
    refine ⟨heq, fun X h => ?_⟩
    rw [RelayHandler.buildNewMail_eq, RelayHandler.buildNewMail_eq, heq]

/-- **Brackets stay.** A blank between the two layers of brackets keeps the
inner one, which a second strip then takes. -/
theorem spaced_brackets_stay :
    stripBrackets "< <relay@example.com> >" = "<relay@example.com>" ∧
    stripBrackets (stripBrackets "< <relay@example.com> >") = "relay@example.com" ∧
    ¬ Normalised "< <relay@example.com> >" := by
  have hstrip : stripBrackets "< <relay@example.com> >" = "<relay@example.com>" := by decide
  refine ⟨hstrip, by rw [hstrip]; decide, fun h => h.bare.start_bracket ?_⟩
  rw [hstrip]
  rfl

end OxidRelay
