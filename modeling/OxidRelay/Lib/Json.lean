/-
Compact JSON text of the values that small records are stored as: strings
with their escapes, objects of strings and nulls, and arrays of such
objects. Each printer is inverted by its reader, whatever text follows
(`readObject_objectChars`, `readArray_arrayChars`).

The readers accept compact text only, without blanks between tokens.
-/
import Mathlib.Data.String.Basic
import Mathlib.Tactic

namespace Json

/-- An object whose values are strings or null. -/
abbrev Members := List (String × Option String)

/-! ## Strings -/

def hexChar (n : Nat) : Char := n.digitChar

def escape (c : Char) : List Char :=
  if c = '"' then ['\\', '"']
  else if c = '\\' then ['\\', '\\']
  else if c = '\n' then ['\\', 'n']
  else if c = '\r' then ['\\', 'r']
  else if c = '\t' then ['\\', 't']
  else if c = Char.ofNat 8 then ['\\', 'b']
  else if c = Char.ofNat 12 then ['\\', 'f']
  else if c.toNat < 32 then ['\\', 'u', '0', '0', hexChar (c.toNat / 16), hexChar (c.toNat % 16)]
  else [c]

/-- The value of a lower-case hexadecimal digit. -/
def hexVal (c : Char) : Nat := if c.isDigit then c.toNat - 48 else c.toNat - 87

def unescape (c : Char) : Option Char :=
  if c = '"' then some '"'
  else if c = '\\' then some '\\'
  else if c = 'n' then some '\n'
  else if c = 'r' then some '\r'
  else if c = 't' then some '\t'
  else if c = 'b' then some (Char.ofNat 8)
  else if c = 'f' then some (Char.ofNat 12)
  else none

/-- The rest of a string after its opening quote. -/
def readChars : List Char → Option (List Char × List Char)
  | [] => none
  | '"' :: rest => some ([], rest)
  | '\\' :: 'u' :: '0' :: '0' :: a :: b :: rest =>
    (readChars rest).map fun (cs, rest) => (Char.ofNat (hexVal a * 16 + hexVal b) :: cs, rest)
  | '\\' :: c :: rest => (unescape c).bind fun c => (readChars rest).map fun (cs, rest) => (c :: cs, rest)
  | c :: rest => (readChars rest).map fun (cs, rest) => (c :: cs, rest)

theorem hexVal_control {n : Nat} (h : n < 32) : hexVal (hexChar (n / 16)) * 16 + hexVal (hexChar (n % 16)) = n := by
  interval_cases n <;> rfl

theorem readChars_escape (c : Char) (cs : List Char) :
    readChars (escape c ++ cs) = (readChars cs).map fun (ds, rest) => (c :: ds, rest) := by
  by_cases h1 : c = '"'
  · subst h1; simp [escape, readChars, unescape]
  by_cases h2 : c = '\\'
  · subst h2; simp [escape, readChars, unescape]
  by_cases h3 : c = '\n'
  · subst h3; simp [escape, readChars, unescape]
  by_cases h4 : c = '\r'
  · subst h4; simp [escape, readChars, unescape]
  by_cases h5 : c = '\t'
  · subst h5; simp [escape, readChars, unescape]
  by_cases h6 : c = Char.ofNat 8
  · subst h6; simp [escape, readChars, unescape]
  by_cases h7 : c = Char.ofNat 12
  · subst h7; simp [escape, readChars, unescape]
  by_cases h8 : c.toNat < 32
  · simp [escape, h1, h2, h3, h4, h5, h6, h7, h8, readChars, hexVal_control h8]
  · simp [escape, h1, h2, h3, h4, h5, h6, h7, h8, readChars]

/-- A string, its quotes included. -/
def stringChars (s : String) : List Char := '"' :: s.toList.flatMap escape ++ ['"']

def readString : List Char → Option (String × List Char)
  | '"' :: cs => (readChars cs).map fun (cs, rest) => (String.ofList cs, rest)
  | _ => none

theorem readString_stringChars (s : String) (rest : List Char) :
    readString (stringChars s ++ rest) = some (s, rest) := by
  have h : ∀ cs : List Char, readChars (cs.flatMap escape ++ '"' :: rest) = some (cs, rest) := by
    intro cs
    induction cs with
    | nil => simp [readChars]
    | cons c cs ih => rw [List.flatMap_cons, List.append_assoc, readChars_escape, ih]; rfl
  have := h s.toList
  simp [stringChars, readString, this]

/-! ## Objects -/

def valueChars : Option String → List Char
  | none => "null".toList
  | some s => stringChars s

def readValue : List Char → Option (Option String × List Char)
  | 'n' :: 'u' :: 'l' :: 'l' :: rest => some (none, rest)
  | cs => (readString cs).map fun (s, rest) => (some s, rest)

theorem readValue_valueChars (v : Option String) (rest : List Char) :
    readValue (valueChars v ++ rest) = some (v, rest) := by
  cases v with
  | none => rfl
  | some s =>
    have h := readString_stringChars s rest
    simp only [valueChars]
    rw [readValue]
    · rw [h]; rfl
    · simp [stringChars]

def memberChars (m : String × Option String) : List Char := stringChars m.1 ++ ':' :: valueChars m.2

def readMember (cs : List Char) : Option ((String × Option String) × List Char) :=
  (readString cs).bind fun (key, cs) =>
    match cs with
    | ':' :: cs => (readValue cs).map fun (value, rest) => ((key, value), rest)
    | _ => none

theorem readMember_memberChars (m : String × Option String) (rest : List Char) :
    readMember (memberChars m ++ rest) = some (m, rest) := by
  simp [readMember, memberChars, readString_stringChars, readValue_valueChars]

/-! ## Sequences -/

section Sequences

variable {α : Type} (text : α → List Char) (read : List Char → Option (α × List Char)) (close : Char)

/-- Items separated by commas, then the closing bracket. -/
def itemsChars : List α → List Char
  | [] => [close]
  | [x] => text x ++ [close]
  | x :: y :: xs => text x ++ ',' :: itemsChars (y :: xs)

/-- At least one and at most `fuel` items and their closing bracket. -/
def readItems : Nat → List Char → Option (List α × List Char)
  | 0, _ => none
  | fuel + 1, cs =>
    (read cs).bind fun (x, cs) =>
      match cs with
      | [] => none
      | c :: rest =>
        if c = close then some ([x], rest)
        else if c = ',' then (readItems fuel rest).map fun (xs, rest) => (x :: xs, rest)
        else none

variable {text read close}

theorem readItems_itemsChars (hc : close ≠ ',') (rest : List Char) : ∀ (xs : List α) (fuel : Nat),
    (∀ x ∈ xs, ∀ rest, read (text x ++ rest) = some (x, rest)) → xs ≠ [] → xs.length ≤ fuel →
      readItems read close fuel (itemsChars text close xs ++ rest) = some (xs, rest)
  | [], _, _, h, _ => absurd rfl h
  | _ :: _, 0, _, _, h => by simp at h
  | [x], fuel + 1, hread, _, _ => by simp [itemsChars, readItems, hread]
  | x :: y :: xs, fuel + 1, hread, _, h => by
    obtain ⟨hx, hxs⟩ := List.forall_mem_cons.1 hread
    have ih := readItems_itemsChars hc rest (y :: xs) fuel hxs (by simp) (by simpa using h)
    simp [itemsChars, readItems, hx, hc.symm, ih]

theorem length_le_itemsChars (text : α → List Char) (close : Char) :
    ∀ xs : List α, xs.length ≤ (itemsChars text close xs).length
  | [] => by simp
  | [x] => by simp [itemsChars]
  | x :: y :: xs => by
    have := length_le_itemsChars text close (y :: xs)
    simp only [itemsChars, List.length_append, List.length_cons] at this ⊢
    omega

variable (text read close)

def sequenceChars (open_ : Char) (xs : List α) : List Char := open_ :: itemsChars text close xs

def readSequence (open_ : Char) : List Char → Option (List α × List Char)
  | [] => none
  | o :: cs =>
    if o ≠ open_ then none
    else match cs with
      | [] => none
      | c :: rest => if c = close then some ([], rest) else readItems read close (c :: rest).length (c :: rest)

variable {text read close}

theorem readSequence_sequenceChars {open_ : Char} {xs : List α}
    (hread : ∀ x ∈ xs, ∀ rest, read (text x ++ rest) = some (x, rest)) (hc : close ≠ ',')
    (hhead : ∀ x ∈ xs, ∀ rest, ∃ c cs, text x ++ rest = c :: cs ∧ c ≠ close) (rest : List Char) :
    readSequence read close open_ (sequenceChars text close open_ xs ++ rest) = some (xs, rest) := by
  cases xs with
  | nil => simp [sequenceChars, itemsChars, readSequence]
  | cons x xs =>
    have hlen := length_le_itemsChars text close (x :: xs)
    have hitems := readItems_itemsChars hc rest (x :: xs)
      (itemsChars text close (x :: xs) ++ rest).length hread (by simp) (by simp at hlen ⊢; omega)
    have hx := (List.forall_mem_cons.1 hhead).1
    obtain ⟨c, cs, hcs, hne⟩ : ∃ c cs, itemsChars text close (x :: xs) ++ rest = c :: cs ∧ c ≠ close := by
      cases xs with
      | nil => simpa [itemsChars] using hx (close :: rest)
      | cons y ys => simpa [itemsChars] using hx (',' :: (itemsChars text close (y :: ys) ++ rest))
    rw [hcs] at hitems
    simp [sequenceChars, readSequence, hcs, hne]
    simpa using hitems

end Sequences

/-! ## Objects and arrays -/

def objectChars (o : Members) : List Char := sequenceChars memberChars '}' '{' o

def readObject (cs : List Char) : Option (Members × List Char) := readSequence readMember '}' '{' cs

theorem readObject_objectChars (o : Members) (rest : List Char) :
    readObject (objectChars o ++ rest) = some (o, rest) :=
  readSequence_sequenceChars (fun m _ => readMember_memberChars m) (by decide)
    (fun m _ rest => ⟨'"', _, by simp [memberChars, stringChars]; rfl, by decide⟩) rest

def arrayChars (os : List Members) : List Char := sequenceChars objectChars ']' '[' os

def readArray (cs : List Char) : Option (List Members × List Char) := readSequence readObject ']' '[' cs

theorem readArray_arrayChars (os : List Members) (rest : List Char) :
    readArray (arrayChars os ++ rest) = some (os, rest) :=
  readSequence_sequenceChars (fun o _ => readObject_objectChars o) (by decide)
    (fun o _ rest => ⟨'{', _, by simp [objectChars, sequenceChars]; rfl, by decide⟩) rest

end Json
