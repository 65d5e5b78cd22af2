/-
The text formats the queue is stored in, as a `Codec`: hyphenated UUIDs
and compact JSON. `Codec` asks for no more than that what is written is
read back, so everything shown for any codec holds of `textCodec`.

`parseUuid` reads the hyphenated form alone, which is the one the queue
writes.
-/
import OxidRelay.Lib.Json
import OxidRelay.Sqlite

namespace OxidRelay

/-! ## UUIDs -/

/-- The last `w` hexadecimal digits of `n`. -/
def hexDigits : Nat → Nat → List Char
  | 0, _ => []
  | w + 1, n => hexDigits w (n / 16) ++ [(n % 16).digitChar]

def hexNumber (cs : List Char) : Nat := cs.foldl (fun acc c => acc * 16 + Json.hexVal c) 0

theorem hexVal_digitChar {n : Nat} (h : n < 16) : Json.hexVal n.digitChar = n := by interval_cases n <;> rfl

theorem digitChar_ne_hyphen {n : Nat} (h : n < 16) : n.digitChar ≠ '-' := by interval_cases n <;> decide

theorem hexNumber_hexDigits {w n : Nat} (h : n < 16 ^ w) : hexNumber (hexDigits w n) = n := by
  induction w generalizing n with
  | zero => simp at h; simp [hexDigits, hexNumber, h]
  | succ w ih =>
    have hdiv : n / 16 < 16 ^ w := Nat.div_lt_of_lt_mul (by rw [pow_succ] at h; omega)
    have := ih hdiv
    simp only [hexNumber] at this
    simp only [hexDigits, hexNumber, List.foldl_append, List.foldl_cons, List.foldl_nil, this,
      hexVal_digitChar (Nat.mod_lt n (by decide : 0 < 16))]
    omega

theorem hyphen_notMem_hexDigits (w n : Nat) : '-' ∉ hexDigits w n := by
  induction w generalizing n with
  | zero => simp [hexDigits]
  | succ w ih =>
    simp only [hexDigits, List.mem_append, List.mem_singleton, not_or]
    exact ⟨ih _, (digitChar_ne_hyphen (Nat.mod_lt n (by decide))).symm⟩

/-- Groups of 8, 4, 4, 4 and the remaining digits. -/
def hyphenate (h : List Char) : List Char :=
  h.take 8 ++ '-' :: (h.drop 8).take 4 ++ '-' :: (h.drop 12).take 4 ++ '-' :: (h.drop 16).take 4 ++ '-' :: h.drop 20

def dropHyphens (cs : List Char) : List Char := cs.filter fun c => c ≠ '-'

theorem dropHyphens_hyphenate {h : List Char} (hn : '-' ∉ h) : dropHyphens (hyphenate h) = h := by
  have hf : dropHyphens h = h := List.filter_eq_self.2 fun c hc => by
    simp only [decide_eq_true_eq]
    intro h
    subst h
    exact hn hc
  have hsplit : h = h.take 8 ++ ((h.drop 8).take 4 ++
      ((h.drop 12).take 4 ++ ((h.drop 16).take 4 ++ h.drop 20))) := by
    conv_lhs => rw [← List.take_append_drop 8 h, ← List.take_append_drop 4 (h.drop 8), List.drop_drop,
      ← List.take_append_drop 4 (h.drop (8 + 4)), List.drop_drop, ← List.take_append_drop 4 (h.drop (8 + 4 + 4)),
      List.drop_drop]
  have hdrop : dropHyphens (hyphenate h) = dropHyphens h := by
    conv_rhs => rw [hsplit]
    simp [dropHyphens, hyphenate, List.filter_append]
  rw [hdrop, hf]

/-- `Uuid::to_string`. -/
def hyphenatedText (u : Uuid) : String := String.ofList (hyphenate (hexDigits 32 u.bits.toNat))

/-- `Uuid::parse_str`, of a hyphenated text. -/
def parseHyphenated (raw : String) : Except String Uuid :=
  let u : Uuid := ⟨BitVec.ofNat 128 (hexNumber (dropHyphens raw.toList))⟩
  if hyphenatedText u = raw then .ok u else .error "invalid UUID"

theorem parseHyphenated_hyphenatedText (u : Uuid) : parseHyphenated (hyphenatedText u) = .ok u := by
  have hlt : u.bits.toNat < 16 ^ 32 := by
    have := u.bits.isLt
    norm_num at this ⊢
    exact this
  have hu : BitVec.ofNat 128 (hexNumber (dropHyphens (hyphenatedText u).toList)) = u.bits := by
    rw [hyphenatedText, String.toList_ofList, dropHyphens_hyphenate (hyphen_notMem_hexDigits _ _),
      hexNumber_hexDigits hlt, BitVec.ofNat_toNat, BitVec.setWidth_eq]
  rw [parseHyphenated, hu]
  exact if_pos rfl

/-! ## The codec -/

/-- A whole text read by a reader of its beginning. -/
def wholeText {α : Type} (read : List Char → Option (α × List Char)) (raw : String) : Except String α :=
  match read raw.toList with
  | some (x, []) => .ok x
  | _ => .error "invalid JSON"

theorem wholeText_ofList {α : Type} {read : List Char → Option (α × List Char)} {text : α → List Char}
    (h : ∀ x rest, read (text x ++ rest) = some (x, rest)) (x : α) :
    wholeText read (String.ofList (text x)) = .ok x := by
  have := h x []
  rw [List.append_nil] at this
  simp [wholeText, this]

/-- Hyphenated UUIDs and compact JSON. -/
def textCodec : Codec where
  uuidText := hyphenatedText
  parseUuid := parseHyphenated
  objectText o := String.ofList (Json.objectChars o)
  parseObject := wholeText Json.readObject
  arrayText os := String.ofList (Json.arrayChars os)
  parseArray := wholeText Json.readArray
  addressError _ := "missing field `email` at line 1 column 2"
  timeError _ := "input contains invalid characters"
  duplicateError := "error returned from database: (code: 1555) UNIQUE constraint failed: mails.id"
  debugText s := "\"" ++ s ++ "\""
  parseUuid_uuidText := parseHyphenated_hyphenatedText
  parseObject_objectText := wholeText_ofList Json.readObject_objectChars
  parseArray_arrayText := wholeText_ofList Json.readArray_arrayChars

/-- The mail the tests of the relay deliver, written in 1970. -/
def exampleMail : Mail :=
  Mail.fromNew
    ⟨Address.new "relay@example.com", [Address.new "ziel@example.com"], "Status", "Okay", some "smtp"⟩ default ⟨0⟩

/-- The same under other ids. -/
def exampleMails (n : BitVec 128) : Mail := { exampleMail with id := ⟨n⟩ }

example : (mailToRow textCodec exampleMail).sender = "\x7b\"email\":\"relay@example.com\"\x7d" := by decide

end OxidRelay
