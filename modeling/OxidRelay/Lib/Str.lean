/-
The string operations of Rust's `str` that the relay uses, on the
characters of a `String`. Lean's own `String.trim` knows only the ASCII
blanks, Rust's the whole Unicode White_Space property.
-/
import Mathlib.Data.List.DropRight
import Mathlib.Data.String.Basic

namespace Str

/-- `char::is_whitespace`: the Unicode property White_Space. -/
def isWhitespace (c : Char) : Bool :=
  let n := c.toNat
  (9 ≤ n && n ≤ 13) || n = 0x20 || n = 0x85 || n = 0xA0 || n = 0x1680 || (0x2000 ≤ n && n ≤ 0x200A) ||
    n = 0x2028 || n = 0x2029 || n = 0x202F || n = 0x205F || n = 0x3000

/-- `str::trim_start_matches`. -/
def trimStartMatches (p : Char → Bool) (s : String) : String := String.ofList (s.toList.dropWhile p)

/-- `str::trim_end_matches`. -/
def trimEndMatches (p : Char → Bool) (s : String) : String := String.ofList (s.toList.rdropWhile p)

/-- `str::trim`. -/
def trim (s : String) : String := trimEndMatches isWhitespace (trimStartMatches isWhitespace s)

/-- `str::is_empty`. -/
def isEmpty (s : String) : Bool := s.toList.isEmpty

/-- `char::to_ascii_lowercase`. -/
def toAsciiLowercase (c : Char) : Char :=
  if 'A'.toNat ≤ c.toNat ∧ c.toNat ≤ 'Z'.toNat then Char.ofNat (c.toNat + 32) else c

/-- `str::eq_ignore_ascii_case`. -/
def eqIgnoreAsciiCase (s t : String) : Bool := s.toList.map toAsciiLowercase = t.toList.map toAsciiLowercase

/-- `str::starts_with`. -/
def startsWith (s pat : String) : Bool := pat.toList.isPrefixOf s.toList

/-- `str::strip_suffix`. -/
def stripSuffix (s pat : String) : Option String :=
  if pat.toList.isSuffixOf s.toList then some (String.ofList (s.toList.rdrop pat.toList.length)) else none

theorem stripSuffix_eq_some {s pat t : String} : stripSuffix s pat = some t ↔ s = t ++ pat := by
  unfold stripSuffix
  rw [← String.toList_inj, String.toList_append]
  refine ⟨fun h => ?_, fun h => ?_⟩
  · split at h
    · next hsuffix =>
      obtain ⟨front, hfront⟩ := List.isSuffixOf_iff_suffix.1 hsuffix
      cases h
      rw [← hfront, List.rdrop_append_length, String.toList_ofList]
    · cases h
  · have hsuffix : pat.toList.isSuffixOf s.toList = true := List.isSuffixOf_iff_suffix.2 ⟨t.toList, h.symm⟩
    rw [if_pos hsuffix, h, List.rdrop_append_length, String.ofList_toList]

theorem stripSuffix_eq_none {s pat : String} : stripSuffix s pat = none ↔ ∀ t, s ≠ t ++ pat := by
  rw [Option.eq_none_iff_forall_ne_some]
  exact forall_congr' fun t => not_congr stripSuffix_eq_some

/-- A text comes before any that it starts. -/
theorem lt_append {s t : String} (h : t ≠ "") : s < s ++ t := by
  have hne : t.toList ≠ [] := fun he => h (String.toList_inj.1 he)
  rw [String.lt_iff_toList_lt, String.toList_append]
  obtain ⟨c, cs, hcs⟩ := List.exists_cons_of_ne_nil hne
  have hlt : s.toList ++ [] < s.toList ++ c :: cs := List.append_left_lt (List.nil_lt_cons c cs)
  rwa [hcs, ← List.append_nil s.toList, List.append_assoc, List.nil_append]

def containsChars (pat : List Char) : List Char → Bool
  | [] => pat.isEmpty
  | c :: cs => pat.isPrefixOf (c :: cs) || containsChars pat cs

/-- `str::contains`. -/
def contains (s pat : String) : Bool := containsChars pat.toList s.toList

/-- `str::replace` on characters, for a pattern that is not empty. The
number counts what is left of a match just replaced. -/
def replaceChars (pat rep : List Char) : Nat → List Char → List Char
  | _, [] => []
  | n + 1, _ :: cs => replaceChars pat rep n cs
  | 0, c :: cs =>
    if pat.isPrefixOf (c :: cs) then rep ++ replaceChars pat rep (pat.length - 1) cs
    else c :: replaceChars pat rep 0 cs

/-- `str::replace`. -/
def replace (s pat rep : String) : String := String.ofList (replaceChars pat.toList rep.toList 0 s.toList)

example : replace "[Abs: %name%] %original%" "%name%" "Server 187" = "[Abs: Server 187] %original%" := by decide

end Str
