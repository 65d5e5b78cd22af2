/-
Clock values as the relay handles them: `chrono::DateTime<Utc>`, the
proleptic Gregorian calendar behind its fields, `to_rfc3339` and
`parse_from_rfc3339`, and the additions and subtractions of a
`chrono::Duration`.

A `DateTime` is a second count since 1970 and the nanoseconds within that
second; inside a leap second chrono lets the nanoseconds run on to two
thousand million. The range fields are chrono's `MIN_UTC` and `MAX_UTC`.
-/
import OxidRelay.Lib.Digits

namespace OxidRelay

open Digits

/-! ## Instants -/

/-- First second of `DateTime::<Utc>::MIN_UTC`, -262143-01-01T00:00:00. -/
def minSecs : Int := -8334601228800

/-- Last second of `DateTime::<Utc>::MAX_UTC`, +262142-12-31T23:59:59. -/
def maxSecs : Int := 8210266876799

@[ext]
structure DateTime where
  /-- Seconds since 1970-01-01T00:00:00Z. -/
  secs : Int
  /-- Nanoseconds in the second; from `10^9` on inside a leap second. -/
  frac : Nat
  frac_lt : frac < 2000000000
  /-- Only the last second of a minute can be followed by a leap second. -/
  leap : 1000000000 ≤ frac → secs % 60 = 59
  min_le : minSecs ≤ secs
  le_max : secs ≤ maxSecs
  deriving DecidableEq

theorem frac_zero_lt : 0 < 2000000000 := by decide

/-- 1970-01-01T00:00:00Z. -/
instance : Inhabited DateTime := ⟨⟨0, 0, by decide, by decide, by decide, by decide⟩⟩

/-- Midnight of 1970-01-01 and some seconds later. -/
def secondsPastEpoch (n : Nat) (h : n < 8210266876800) : DateTime where
  secs := n
  frac := 0
  frac_lt := frac_zero_lt
  leap := by simp
  min_le := by simp only [minSecs]; omega
  le_max := by simp only [maxSecs]; omega

/-- Gives `Fin 86400` its numerals. -/
instance neZero_secondsOfDay : NeZero 86400 := ⟨by decide⟩

/-- A second of that day. -/
def firstDay (n : Fin 86400) : DateTime := secondsPastEpoch n.val (by omega)

namespace DateTime

/-- chrono orders instants by second, then by nanosecond. -/
def key (d : DateTime) : Lex (Int × Nat) := toLex (d.secs, d.frac)

theorem key_injective : Function.Injective key := by
  intro a b h
  simp only [key, toLex_inj, Prod.mk.injEq] at h
  exact DateTime.ext h.1 h.2

instance : LinearOrder DateTime := LinearOrder.lift' key key_injective

theorem lt_iff {a b : DateTime} : a < b ↔ a.secs < b.secs ∨ a.secs = b.secs ∧ a.frac < b.frac :=
  Prod.Lex.toLex_lt_toLex (x := (a.secs, a.frac)) (y := (b.secs, b.frac))

theorem le_iff {a b : DateTime} : a ≤ b ↔ a.secs < b.secs ∨ a.secs = b.secs ∧ a.frac ≤ b.frac :=
  Prod.Lex.toLex_le_toLex (x := (a.secs, a.frac)) (y := (b.secs, b.frac))

/-- The instant of a second and its nanoseconds, when there is one. -/
def ofSecs? (secs : Int) (frac : Nat) : Option DateTime :=
  if h : frac < 2000000000 ∧ (1000000000 ≤ frac → secs % 60 = 59) ∧ minSecs ≤ secs ∧ secs ≤ maxSecs then
    some ⟨secs, frac, h.1, h.2.1, h.2.2.1, h.2.2.2⟩
  else none

@[simp] theorem ofSecs?_self (d : DateTime) : ofSecs? d.secs d.frac = some d :=
  dif_pos ⟨d.frac_lt, d.leap, d.min_le, d.le_max⟩

theorem ofSecs?_eq_some {secs : Int} {frac : Nat} {d : DateTime} (h : ofSecs? secs frac = some d) :
    d.secs = secs ∧ d.frac = frac := by
  simp only [ofSecs?] at h
  split at h
  · cases h; exact ⟨rfl, rfl⟩
  · cases h

/-- The instant `nanos` nanoseconds after 1970, outside any leap second. -/
def ofNanos? (nanos : Int) : Option DateTime := ofSecs? (nanos / 1000000000) (nanos % 1000000000).toNat

/-- `checked_add_signed`: `DateTime + TimeDelta` panics on `none`. A leap
second is left forwards or backwards as if it were no second at all. -/
def checkedAdd (d : DateTime) (delta : Int) : Option DateTime :=
  let secsToAdd := delta.tdiv 1000000000
  let fracToAdd := delta.tmod 1000000000
  if d.frac < 1000000000 then ofNanos? (d.secs * 1000000000 + d.frac + delta)
  else if 0 < secsToAdd ∨ 0 < fracToAdd ∧ 2000000000 ≤ d.frac + fracToAdd then
    ofNanos? (d.secs * 1000000000 + (d.frac - 1000000000) + delta)
  else if secsToAdd < 0 then ofNanos? (d.secs * 1000000000 + d.frac + delta)
  else ofSecs? d.secs (d.frac + fracToAdd).toNat

/-- `checked_sub_signed`: `DateTime - TimeDelta` panics on `none`. -/
def checkedSub (d : DateTime) (delta : Int) : Option DateTime := d.checkedAdd (-delta)

/-! ## Calendar -/

/-- Days from 0000-01-01 to the first day of year `y`. -/
def daysBeforeYear (y : Int) : Int := 365 * y + (y + 3) / 4 - (y + 99) / 100 + (y + 399) / 400

/-- Days from 0000-01-01 to 1970-01-01. -/
def epochDays : Int := 719528

def isLeapYear (y : Int) : Bool := y % 4 = 0 ∧ (y % 100 ≠ 0 ∨ y % 400 = 0)

/-- The year a day lies in: an estimate from the mean length of a year,
corrected by at most one. -/
def yearOfDay (day : Int) : Int :=
  let y := 400 * day / 146097
  if day < daysBeforeYear y then y - 1
  else if daysBeforeYear (y + 1) ≤ day then y + 1
  else y

/-- Days in a year before its month `m`, counted from 1. -/
def daysBeforeMonth (leap : Bool) (m : Nat) : Nat :=
  let l := if leap then 1 else 0
  match m with
  | 0 | 1 => 0
  | 2 => 31
  | 3 => 59 + l
  | 4 => 90 + l
  | 5 => 120 + l
  | 6 => 151 + l
  | 7 => 181 + l
  | 8 => 212 + l
  | 9 => 243 + l
  | 10 => 273 + l
  | 11 => 304 + l
  | 12 => 334 + l
  | _ => 365 + l

/-- The month of the `o`-th day of a year, counted from 0. -/
def monthOfOrdinal (leap : Bool) (o : Nat) : Nat :=
  ((List.range 12).filter fun i => daysBeforeMonth leap (i + 1) ≤ o).length

/-- Days since 0000-01-01. -/
def day (d : DateTime) : Int := d.secs / 86400 + epochDays

def year (d : DateTime) : Int := yearOfDay d.day

def ordinal0 (d : DateTime) : Nat := (d.day - daysBeforeYear d.year).toNat

def month (d : DateTime) : Nat := monthOfOrdinal (isLeapYear d.year) d.ordinal0

def dayOfMonth (d : DateTime) : Nat := d.ordinal0 - daysBeforeMonth (isLeapYear d.year) d.month + 1

/-- Seconds since midnight. -/
def secondOfDay (d : DateTime) : Nat := (d.secs % 86400).toNat

def hour (d : DateTime) : Nat := d.secondOfDay / 3600

def minute (d : DateTime) : Nat := d.secondOfDay / 60 % 60

def second (d : DateTime) : Nat := d.secondOfDay % 60

/-- The years that `to_rfc3339` writes with four digits and no sign. -/
def YearInRange (d : DateTime) : Prop := 0 ≤ d.year ∧ d.year ≤ 9999

instance : DecidablePred YearInRange := fun _ => inferInstanceAs (Decidable (_ ∧ _))

/-! ## Text -/

/-- `{:+05}`: a sign and at least four digits. -/
def signedYear (y : Int) : List Char :=
  (if 0 ≤ y then '+' else '-') :: List.leftpad 4 '0' (Nat.toDigits 10 y.natAbs)

def yearText (y : Int) : List Char := if 0 ≤ y ∧ y ≤ 9999 then padded 4 y.toNat else signedYear y

/-- `SecondsFormat::AutoSi`: no fraction, milliseconds, microseconds or
nanoseconds, the shortest that loses nothing. -/
def fractionText (nano : Nat) : List Char :=
  if nano = 0 then []
  else if nano % 1000000 = 0 then '.' :: padded 3 (nano / 1000000)
  else if nano % 1000 = 0 then '.' :: padded 6 (nano / 1000)
  else '.' :: padded 9 nano

/-- The seconds and nanoseconds as written: a leap second is second 60. -/
def writtenSecond (d : DateTime) : Nat := if 1000000000 ≤ d.frac then d.second + 1 else d.second

def writtenNano (d : DateTime) : Nat := if 1000000000 ≤ d.frac then d.frac - 1000000000 else d.frac

def rfc3339Chars (d : DateTime) : List Char :=
  [yearText d.year, ['-'], padded 2 d.month, ['-'], padded 2 d.dayOfMonth, ['T'],
    padded 2 d.hour, [':'], padded 2 d.minute, [':'], padded 2 d.writtenSecond,
    fractionText d.writtenNano, "+00:00".toList].flatten

/-- `DateTime::<Utc>::to_rfc3339`. -/
def toRfc3339 (d : DateTime) : String := String.ofList d.rfc3339Chars

/-! ## Parsing -/

def expect (c : Char) : List Char → Option (List Char)
  | x :: cs => if x = c then some cs else none
  | [] => none

/-- The separator of date and time: chrono takes `T`, `t` and a blank. -/
def separator : List Char → Option (List Char)
  | x :: cs => if x = 'T' ∨ x = 't' ∨ x = ' ' then some cs else none
  | [] => none

/-- At least one digit of a fraction; digits after the ninth are dropped. -/
def fractionDigits (cs : List Char) : Option (Nat × List Char) := do
  let ds := cs.takeWhile Char.isDigit
  if ds = [] then none
  let (n, _) ← number (ds.take 9).length ds
  return (n * 10 ^ (9 - (ds.take 9).length), cs.dropWhile Char.isDigit)

def fraction : List Char → Option (Nat × List Char)
  | '.' :: cs => fractionDigits cs
  | cs => some (0, cs)

/-- The offset from UTC in seconds: `Z`, `z` or a sign, hours and minutes.
For a minus chrono takes the hyphen and U+2212. -/
def zone : List Char → Option (Int × List Char)
  | 'Z' :: cs | 'z' :: cs => some (0, cs)
  | sign :: cs => do
    if sign ≠ '+' ∧ sign ≠ '-' ∧ sign ≠ '−' then none
    let (h, cs) ← number 2 cs
    let cs ← expect ':' cs
    let (m, cs) ← number 2 cs
    if 23 < h ∨ 59 < m then none
    let offset : Int := h * 3600 + m * 60
    return (if sign = '+' then offset else -offset, cs)
  | [] => none

/-- The instant with the given local fields at `offset` seconds east of UTC,
when they name a date, a time of day and an instant in range. -/
def ofFields (year : Int) (month day hour minute second nano : Nat) (offset : Int) : Option DateTime :=
  let leap := isLeapYear year
  let secs := (daysBeforeYear year + daysBeforeMonth leap month + day - 1 - epochDays) * 86400 +
    hour * 3600 + minute * 60 + (if second = 60 then 59 else second) - offset
  if 1 ≤ month ∧ month ≤ 12 ∧ 1 ≤ day ∧ day + daysBeforeMonth leap month ≤ daysBeforeMonth leap (month + 1) ∧
      hour ≤ 23 ∧ minute ≤ 59 ∧ second ≤ 60 then
    ofSecs? secs (if second = 60 then nano + 1000000000 else nano)
  else none

/-- Year, month and day. -/
def datePart (cs : List Char) : Option ((Nat × Nat × Nat) × List Char) := do
  let (year, cs) ← number 4 cs
  let cs ← expect '-' cs
  let (month, cs) ← number 2 cs
  let cs ← expect '-' cs
  let (day, cs) ← number 2 cs
  return ((year, month, day), cs)

/-- Hour, minute, second and nanosecond. -/
def timePart (cs : List Char) : Option ((Nat × Nat × Nat × Nat) × List Char) := do
  let (hour, cs) ← number 2 cs
  let cs ← expect ':' cs
  let (minute, cs) ← number 2 cs
  let cs ← expect ':' cs
  let (second, cs) ← number 2 cs
  let (nano, cs) ← fraction cs
  return ((hour, minute, second, nano), cs)

def parseChars (cs : List Char) : Option DateTime := do
  let ((year, month, day), cs) ← datePart cs
  let cs ← separator cs
  let ((hour, minute, second, nano), cs) ← timePart cs
  let (offset, cs) ← zone cs
  if cs ≠ [] then none
  ofFields year month day hour minute second nano offset

/-- `DateTime::parse_from_rfc3339(raw)`, as the UTC instant it names. -/
def parseFromRfc3339 (raw : String) : Option DateTime := parseChars raw.toList

end DateTime

/-! ## Durations -/

/-- `std::time::Duration`. -/
@[ext]
structure Duration where
  secs : Nat
  nanos : Nat
  secs_lt : secs < 2 ^ 64
  nanos_lt : nanos < 1000000000
  deriving DecidableEq

namespace Duration

def toNanos (d : Duration) : Nat := d.secs * 1000000000 + d.nanos

theorem toNanos_injective : Function.Injective toNanos := by
  intro a b h
  have := a.nanos_lt
  have := b.nanos_lt
  simp only [toNanos] at h
  exact Duration.ext (by omega) (by omega)

instance : LinearOrder Duration := LinearOrder.lift' toNanos toNanos_injective

theorem le_iff {a b : Duration} : a ≤ b ↔ a.toNanos ≤ b.toNanos := Iff.rfl

theorem toNanos_min (a b : Duration) : (min a b).toNanos = min a.toNanos b.toNanos :=
  (show Monotone toNanos from fun _ _ h => h).map_min

/-- `Duration::from_secs`, of a `u64`. -/
def fromSecs (secs : Nat) (h : secs < 2 ^ 64) : Duration := ⟨secs, 0, h, by decide⟩

@[simp] theorem toNanos_fromSecs {secs : Nat} {h : secs < 2 ^ 64} :
    (fromSecs secs h).toNanos = secs * 1000000000 := Nat.add_zero _

/-- `chrono::Duration::from_std`, in nanoseconds: it errors above
`i64::MAX` milliseconds. -/
def toChrono (d : Duration) : Option Int :=
  if d.toNanos ≤ (2 ^ 63 - 1) * 1000000 then some d.toNanos else none

end Duration

/-- `chrono::Duration::seconds`, in nanoseconds. -/
def chronoSeconds (secs : Int) : Int := secs * 1000000000

end OxidRelay
