/-
The text of an instant against the instant: within the four-digit years
`to_rfc3339` is an order embedding for the byte-wise order SQLite compares
TEXT with (`toRfc3339_le_iff`), whatever number of fraction digits the two
texts have, and `parse_from_rfc3339` reads back the same instant
(`parseFromRfc3339_toRfc3339`).

Both go field by field. A day lies in its year (`yearOfDay_spec`) and its
month (`monthOfOrdinal_spec`), so a later instant differs first in an
earlier written field (`Fields.lt_of_lt`); and each field is written with
a fixed width, so the texts differ there first as well.
-/
import OxidRelay.Time

namespace OxidRelay.DateTime

open Digits

/-! ## Years and months -/

theorem daysBeforeYear_succ (y : Int) :
    daysBeforeYear (y + 1) = daysBeforeYear y + 365 + if isLeapYear y then 1 else 0 := by
  simp only [daysBeforeYear, isLeapYear, decide_eq_true_eq]
  split <;> omega

theorem daysBeforeYear_mono {a b : Int} (h : a ≤ b) : daysBeforeYear a ≤ daysBeforeYear b := by
  simp only [daysBeforeYear]; omega

/-- **A day lies in its year.** -/
theorem yearOfDay_spec (day : Int) :
    daysBeforeYear (yearOfDay day) ≤ day ∧ day < daysBeforeYear (yearOfDay day + 1) := by
  simp only [yearOfDay]
  split
  · rename_i h
    simp only [sub_add_cancel]
    refine ⟨?_, h⟩
    simp only [daysBeforeYear]; omega
  · split
    · rename_i h
      refine ⟨h, ?_⟩
      simp only [daysBeforeYear]; omega
    · omega

theorem daysBeforeMonth_mono {l : Bool} {a b : Nat} (h : a ≤ b) :
    daysBeforeMonth l a ≤ daysBeforeMonth l b := by
  refine monotone_nat_of_le_succ (f := daysBeforeMonth l) (fun n => ?_) h
  match n with
  | 0 | 1 | 2 | 3 | 4 | 5 | 6 | 7 | 8 | 9 | 10 | 11 | 12 => cases l <;> simp [daysBeforeMonth]
  | n + 13 => simp [daysBeforeMonth]

/-- The months that start on or before a day are the first ones. -/
theorem startedMonths_spec (l : Bool) (o k : Nat) :
    ∃ m, ((List.range k).filter fun i => daysBeforeMonth l (i + 1) ≤ o).length = m ∧ m ≤ k ∧
      (∀ i < m, daysBeforeMonth l (i + 1) ≤ o) ∧ (m < k → o < daysBeforeMonth l (m + 1)) := by
  induction k with
  | zero => exact ⟨0, rfl, le_rfl, fun i hi => by omega, fun h => by omega⟩
  | succ k ih =>
    obtain ⟨m, hm, hle, hstarted, hnext⟩ := ih
    rw [List.range_succ, List.filter_append, List.length_append, hm]
    by_cases hk : daysBeforeMonth l (k + 1) ≤ o
    · -- the month after the last one started cannot come before this one
      have hmk : m = k := by
        by_contra hne
        have := daysBeforeMonth_mono (l := l) (show m + 1 ≤ k + 1 by omega)
        have := hnext (by omega)
        omega
      refine ⟨k + 1, by simp [hk, hmk], le_rfl, fun i hi => ?_, fun h => by omega⟩
      exact (daysBeforeMonth_mono (by omega)).trans hk
    · refine ⟨m, by simp [hk], by omega, hstarted, fun _ => ?_⟩
      by_cases hmk : m < k
      · exact hnext hmk
      · rw [show m = k by omega]
        omega

/-- **A day of the year lies in its month.** -/
theorem monthOfOrdinal_spec {leap : Bool} {o : Nat} (h : o < 365 + if leap then 1 else 0) :
    1 ≤ monthOfOrdinal leap o ∧ monthOfOrdinal leap o ≤ 12 ∧
      daysBeforeMonth leap (monthOfOrdinal leap o) ≤ o ∧
      o < daysBeforeMonth leap (monthOfOrdinal leap o + 1) := by
  obtain ⟨m, hm, hle, hstarted, hnext⟩ := startedMonths_spec leap o 12
  rw [show monthOfOrdinal leap o = m from hm]
  have hpos : 1 ≤ m := by
    by_contra hzero
    have hfirst : o < daysBeforeMonth leap (m + 1) := hnext (by omega)
    rw [show m = 0 by omega] at hfirst
    exact absurd hfirst (Nat.not_lt_zero o)
  refine ⟨hpos, hle, ?_, ?_⟩
  · have := hstarted (m - 1) (by omega)
    rwa [Nat.sub_add_cancel hpos] at this
  · by_cases hlast : m < 12
    · exact hnext hlast
    · rw [show m = 12 by omega]
      exact h

theorem daysInMonth_le {l : Bool} {m : Nat} (h₁ : 1 ≤ m) (h₂ : m ≤ 12) :
    daysBeforeMonth l (m + 1) ≤ daysBeforeMonth l m + 31 := by
  interval_cases m <;> cases l <;> simp [daysBeforeMonth]

/-! ## The fields of an instant -/

theorem ordinal0_cast (d : DateTime) : (d.ordinal0 : Int) = d.day - daysBeforeYear d.year := by
  have := (yearOfDay_spec d.day).1
  rw [ordinal0, year, Int.toNat_of_nonneg (by omega)]

theorem ordinal0_lt (d : DateTime) : d.ordinal0 < 365 + if isLeapYear d.year then 1 else 0 := by
  have h := (yearOfDay_spec d.day).2
  have hs := daysBeforeYear_succ d.year
  have ho := ordinal0_cast d
  change d.day < daysBeforeYear (d.year + 1) at h
  split <;> simp_all <;> omega

theorem month_spec (d : DateTime) : 1 ≤ d.month ∧ d.month ≤ 12 ∧
    daysBeforeMonth (isLeapYear d.year) d.month ≤ d.ordinal0 ∧
    d.ordinal0 < daysBeforeMonth (isLeapYear d.year) (d.month + 1) :=
  monthOfOrdinal_spec d.ordinal0_lt

theorem dayOfMonth_spec (d : DateTime) :
    daysBeforeMonth (isLeapYear d.year) d.month + d.dayOfMonth = d.ordinal0 + 1 := by
  have := d.month_spec.2.2.1
  simp only [dayOfMonth]; omega

theorem dayOfMonth_le (d : DateTime) : d.dayOfMonth ≤ 31 := by
  have h := d.month_spec
  have := daysInMonth_le (l := isLeapYear d.year) h.1 h.2.1
  have := d.dayOfMonth_spec
  omega

theorem secondOfDay_cast (d : DateTime) : (d.secondOfDay : Int) = d.secs % 86400 :=
  Int.toNat_of_nonneg (Int.emod_nonneg _ (by decide))

theorem secondOfDay_lt (d : DateTime) : d.secondOfDay < 86400 := by
  have := d.secondOfDay_cast; omega

theorem hour_le (d : DateTime) : d.hour ≤ 23 := by
  have := d.secondOfDay_lt; simp only [hour]; omega

theorem minute_le (d : DateTime) : d.minute ≤ 59 := by simp only [minute]; omega

theorem second_le (d : DateTime) : d.second ≤ 59 := by simp only [second]; omega

theorem secondOfDay_eq (d : DateTime) : d.secondOfDay = d.hour * 3600 + d.minute * 60 + d.second := by
  simp only [hour, minute, second]; omega

theorem writtenSecond_le (d : DateTime) : d.writtenSecond ≤ 60 := by
  have := d.second_le; simp only [writtenSecond]; split <;> omega

theorem writtenNano_lt (d : DateTime) : d.writtenNano < 1000000000 := by
  have := d.frac_lt; simp only [writtenNano]; split <;> omega

/-- Inside a leap second the second of the minute is 59. -/
theorem second_eq_of_leap (d : DateTime) (h : 1000000000 ≤ d.frac) : d.second = 59 := by
  have := d.leap h
  have := d.secondOfDay_cast
  simp only [second]; omega

/-! ## Text order -/

/-- The fraction and the offset, the last two blocks of a text. -/
def tailText (nano : Nat) : List Char := fractionText nano ++ "+00:00".toList

/-- After the point come three digits, and each further three only when
something nonzero is left. -/
theorem tailText_eq {n : Nat} (h : n < 1000000000) : tailText n =
    if n = 0 then "+00:00".toList
    else '.' :: (padded 3 (n / 1000000) ++
      if n % 1000000 = 0 then "+00:00".toList
      else padded 3 (n / 1000 % 1000) ++
        if n % 1000 = 0 then "+00:00".toList else padded 3 (n % 1000) ++ "+00:00".toList) := by
  have h6 : n / 1000 < 10 ^ (3 + 3) := by omega
  have h9 : n < 10 ^ (6 + 3) := by omega
  have e6 : padded 6 (n / 1000) = padded 3 (n / 1000000) ++ padded 3 (n / 1000 % 1000) := by
    rw [padded_add (v := 3) (w := 3) h6, Nat.div_div_eq_div_mul]; rfl
  have e9 : padded 9 n = padded 6 (n / 1000) ++ padded 3 (n % 1000) := padded_add (v := 6) (w := 3) h9
  simp only [tailText, fractionText]
  split
  · rfl
  split
  · simp
  split
  · simp [e6]
  · simp [e6, e9]

theorem tailText_lt_tailText {n m : Nat} (hm : m < 1000000000) (h : n < m) : tailText n < tailText m := by
  rw [tailText_eq (h.trans hm), tailText_eq hm, if_neg (show m ≠ 0 by omega)]
  split
  · exact List.cons_lt_cons_iff.2 (.inl (by decide))
  refine List.cons_lt_cons_iff.2 (.inr ⟨rfl, append_lt_append (by simp) ?_⟩)
  rcases (Nat.div_le_div_right (c := 1000000) h.le).lt_or_eq with hlt | heq
  · exact .inl (padded_lt_padded (by omega) hlt)
  refine .inr ⟨by rw [heq], ?_⟩
  rw [if_neg (show m % 1000000 ≠ 0 by omega)]
  split
  · exact plus_lt_padded (w := 2) (by omega) _ _
  refine append_lt_append (by simp) ?_
  rcases (show n / 1000 % 1000 ≤ m / 1000 % 1000 by omega).lt_or_eq with hlt | heq
  · exact .inl (padded_lt_padded (by omega) hlt)
  refine .inr ⟨by rw [heq], ?_⟩
  rw [if_neg (show m % 1000 ≠ 0 by omega)]
  split
  · exact plus_lt_padded (w := 2) (by omega) _ _
  · exact append_lt_append (by simp) (.inl (padded_lt_padded (by omega) (by omega)))

/-- The seven written fields, lexicographically. -/
def FieldsLt (a b : DateTime) : Prop :=
  a.year < b.year ∨ a.year = b.year ∧ (a.month < b.month ∨ a.month = b.month ∧
    (a.dayOfMonth < b.dayOfMonth ∨ a.dayOfMonth = b.dayOfMonth ∧ (a.hour < b.hour ∨ a.hour = b.hour ∧
      (a.minute < b.minute ∨ a.minute = b.minute ∧
        (a.writtenSecond < b.writtenSecond ∨ a.writtenSecond = b.writtenSecond ∧
          a.writtenNano < b.writtenNano)))))

theorem year_le_of_day_le {a b : DateTime} (h : a.day ≤ b.day) : a.year ≤ b.year := by
  by_contra hlt
  have h₁ := (yearOfDay_spec a.day).1
  have h₂ := (yearOfDay_spec b.day).2
  have := daysBeforeYear_mono (a := b.year + 1) (b := a.year) (by omega)
  simp only [year] at this
  omega

/-- A later day differs first in an earlier one of year, month and day. -/
theorem date_lt_of_day_lt {a b : DateTime} (h : a.day < b.day) :
    a.year < b.year ∨ a.year = b.year ∧
      (a.month < b.month ∨ a.month = b.month ∧ a.dayOfMonth < b.dayOfMonth) := by
  rcases (year_le_of_day_le h.le).lt_or_eq with hy | hy
  · exact .inl hy
  refine .inr ⟨hy, ?_⟩
  have hord : a.ordinal0 < b.ordinal0 := by
    have ha := a.ordinal0_cast
    have hb := b.ordinal0_cast
    rw [hy] at ha
    omega
  have ha := a.month_spec
  have hb := b.month_spec
  have hda := a.dayOfMonth_spec
  have hdb := b.dayOfMonth_spec
  rw [hy] at ha hda
  rcases lt_trichotomy a.month b.month with hm | hm | hm
  · exact .inl hm
  · rw [hm] at hda
    exact .inr ⟨hm, by omega⟩
  · have := daysBeforeMonth_mono (l := isLeapYear b.year) (show b.month + 1 ≤ a.month from hm)
    omega

theorem date_eq_of_day_eq {a b : DateTime} (h : a.day = b.day) :
    a.year = b.year ∧ a.month = b.month ∧ a.dayOfMonth = b.dayOfMonth := by
  simp [year, month, dayOfMonth, ordinal0, h]

/-- **A later instant differs first in an earlier field.** -/
theorem fieldsLt_of_lt {a b : DateTime} (h : a < b) : FieldsLt a b := by
  rw [lt_iff] at h
  have hday : a.day ≤ b.day := by simp only [day]; omega
  rcases hday.lt_or_eq with hd | hd
  · rcases date_lt_of_day_lt hd with hy | ⟨hy, hm | ⟨hm, hd⟩⟩
    · exact .inl hy
    · exact .inr ⟨hy, .inl hm⟩
    · exact .inr ⟨hy, .inr ⟨hm, .inl hd⟩⟩
  obtain ⟨hy, hm, hdom⟩ := date_eq_of_day_eq hd
  refine .inr ⟨hy, .inr ⟨hm, .inr ⟨hdom, ?_⟩⟩⟩
  have ha := a.secondOfDay_cast
  have hb := b.secondOfDay_cast
  simp only [day] at hd
  have hsod : a.secondOfDay < b.secondOfDay ∨ a.secondOfDay = b.secondOfDay ∧ a.frac < b.frac := by omega
  have hla := a.second_eq_of_leap
  have hfa := a.frac_lt
  simp only [hour, minute, writtenSecond, writtenNano, second] at hla ⊢
  split <;> split <;> omega

theorem yearText_lt_yearText {a b : Int} (ha : 0 ≤ a) (hb : b ≤ 9999) (h : a < b) :
    yearText a < yearText b := by
  rw [yearText, yearText, if_pos ⟨ha, by omega⟩, if_pos ⟨by omega, hb⟩]
  exact padded_lt_padded (by omega) (by omega)

theorem yearText_length {y : Int} (h : 0 ≤ y ∧ y ≤ 9999) : (yearText y).length = 4 := by
  rw [yearText, if_pos h, padded_length]

theorem rfc3339Chars_eq (d : DateTime) : d.rfc3339Chars =
    yearText d.year ++ ('-' :: (padded 2 d.month ++ ('-' :: (padded 2 d.dayOfMonth ++ ('T' ::
      (padded 2 d.hour ++ (':' :: (padded 2 d.minute ++ (':' :: (padded 2 d.writtenSecond ++
        tailText d.writtenNano)))))))))) := by
  simp [rfc3339Chars, tailText]

theorem rfc3339Chars_lt {a b : DateTime} (ha : a.YearInRange) (hb : b.YearInRange) (h : a < b) :
    a.rfc3339Chars < b.rfc3339Chars := by
  have hf := fieldsLt_of_lt h
  have hmb := b.month_spec
  have hdb := b.dayOfMonth_le
  have hhb := b.hour_le
  have hib := b.minute_le
  have hsb := b.writtenSecond_le
  have two : ∀ {n m : Nat}, m ≤ 60 → n < m → padded 2 n < padded 2 m :=
    fun hm hn => padded_lt_padded (by omega) hn
  rw [rfc3339Chars_eq, rfc3339Chars_eq]
  refine append_lt_append (by rw [yearText_length ha, yearText_length hb]) ?_
  rcases hf with hf | ⟨hy, hf⟩
  · exact .inl (yearText_lt_yearText ha.1 hb.2 hf)
  refine .inr ⟨by rw [hy], List.cons_lt_cons_iff.2 (.inr ⟨rfl, append_lt_append (by simp) ?_⟩)⟩
  rcases hf with hf | ⟨hm, hf⟩
  · exact .inl (two (by omega) hf)
  refine .inr ⟨by rw [hm], List.cons_lt_cons_iff.2 (.inr ⟨rfl, append_lt_append (by simp) ?_⟩)⟩
  rcases hf with hf | ⟨hd, hf⟩
  · exact .inl (two (by omega) hf)
  refine .inr ⟨by rw [hd], List.cons_lt_cons_iff.2 (.inr ⟨rfl, append_lt_append (by simp) ?_⟩)⟩
  rcases hf with hf | ⟨hh, hf⟩
  · exact .inl (two (by omega) hf)
  refine .inr ⟨by rw [hh], List.cons_lt_cons_iff.2 (.inr ⟨rfl, append_lt_append (by simp) ?_⟩)⟩
  rcases hf with hf | ⟨hi, hf⟩
  · exact .inl (two (by omega) hf)
  refine .inr ⟨by rw [hi], List.cons_lt_cons_iff.2 (.inr ⟨rfl, append_lt_append (by simp) ?_⟩)⟩
  rcases hf with hf | ⟨hs, hf⟩
  · exact .inl (two (by omega) hf)
  · exact .inr ⟨by rw [hs], tailText_lt_tailText b.writtenNano_lt hf⟩

theorem toRfc3339_lt {a b : DateTime} (ha : a.YearInRange) (hb : b.YearInRange) (h : a < b) :
    a.toRfc3339 < b.toRfc3339 := by
  rw [String.lt_iff_toList_lt, toRfc3339, toRfc3339, String.toList_ofList, String.toList_ofList]
  exact rfc3339Chars_lt ha hb h

/-- **Text order is time order** for instants with years 0 to 9999. -/
theorem toRfc3339_lt_iff {a b : DateTime} (ha : a.YearInRange) (hb : b.YearInRange) :
    a.toRfc3339 < b.toRfc3339 ↔ a < b := by
  refine ⟨fun h => ?_, toRfc3339_lt ha hb⟩
  rcases lt_trichotomy a b with hab | rfl | hab
  · exact hab
  · exact absurd h (lt_irrefl _)
  · exact absurd (toRfc3339_lt hb ha hab) h.asymm

theorem toRfc3339_le_iff {a b : DateTime} (ha : a.YearInRange) (hb : b.YearInRange) :
    a.toRfc3339 ≤ b.toRfc3339 ↔ a ≤ b := by
  rw [← not_lt, ← not_lt, toRfc3339_lt_iff hb ha]

/-! ## Between two instants -/

theorem year_mono {a b : DateTime} (h : a ≤ b) : a.year ≤ b.year := by
  refine year_le_of_day_le ?_
  simp only [day]
  rcases le_iff.1 h with h | ⟨h, -⟩ <;> omega

theorem YearInRange.between {a b c : DateTime} (ha : a.YearInRange) (hb : b.YearInRange) (hac : a ≤ c)
    (hcb : c ≤ b) : c.YearInRange :=
  ⟨ha.1.trans (year_mono hac), (year_mono hcb).trans hb.2⟩

theorem ofNanos?_le {d c : DateTime} {nanos : Int} (hn : nanos ≤ d.secs * 1000000000 + d.frac)
    (h : ofNanos? nanos = some c) (hd : d.frac < 1000000000 ∨ nanos / 1000000000 ≤ d.secs) : c ≤ d := by
  obtain ⟨hs, hf⟩ := ofSecs?_eq_some h
  rw [le_iff, hs, hf]
  omega

/-- Subtracting moves no instant forwards. -/
theorem checkedSub_le {d c : DateTime} {delta : Int} (hd : 0 ≤ delta) (h : d.checkedSub delta = some c) :
    c ≤ d := by
  simp only [checkedSub, checkedAdd] at h
  have hq : (-delta).tdiv 1000000000 = -(delta / 1000000000) := by
    rw [Int.neg_tdiv, Int.tdiv_eq_ediv_of_nonneg hd]
  have hr : (-delta).tmod 1000000000 = -(delta % 1000000000) := by
    rw [Int.neg_tmod, Int.tmod_eq_emod_of_nonneg hd]
  have := d.frac_lt
  rw [hq, hr] at h
  split at h
  · exact ofNanos?_le (by omega) h (by omega)
  · split at h
    · omega
    · split at h
      · exact ofNanos?_le (by omega) h (by omega)
      · obtain ⟨hs, hf⟩ := ofSecs?_eq_some h
        rw [le_iff, hs, hf]
        omega

theorem le_ofNanos? {d c : DateTime} {nanos : Int} (h : ofNanos? nanos = some c)
    (hd : d.secs < nanos / 1000000000 ∨ d.secs * 1000000000 + d.frac ≤ nanos ∧ d.frac < 1000000000) : d ≤ c := by
  obtain ⟨hs, hf⟩ := ofSecs?_eq_some h
  rw [le_iff, hs, hf]
  omega

/-- Adding moves no instant backwards. -/
theorem le_checkedAdd {d c : DateTime} {delta : Int} (hd : 0 ≤ delta) (h : d.checkedAdd delta = some c) : d ≤ c := by
  simp only [checkedAdd, Int.tdiv_eq_ediv_of_nonneg hd, Int.tmod_eq_emod_of_nonneg hd] at h
  have := d.frac_lt
  split at h
  · exact le_ofNanos? h (by omega)
  · split at h
    · exact le_ofNanos? h (by omega)
    · split at h
      · omega
      · obtain ⟨hs, hf⟩ := ofSecs?_eq_some h
        rw [le_iff, hs, hf]
        omega

/-! ## Where a year begins -/

theorem le_yearOfDay_iff {y day : Int} : y ≤ yearOfDay day ↔ daysBeforeYear y ≤ day := by
  obtain ⟨hle, hlt⟩ := yearOfDay_spec day
  constructor
  · intro h
    exact (daysBeforeYear_mono h).trans hle
  · intro h
    by_contra hne
    exact absurd (daysBeforeYear_mono (show yearOfDay day + 1 ≤ y by omega)) (by omega)

/-- The first second of a year. -/
def firstSecond (y : Int) : Int := (daysBeforeYear y - epochDays) * 86400

theorem le_year_iff {d : DateTime} {y : Int} : y ≤ d.year ↔ firstSecond y ≤ d.secs := by
  rw [year, le_yearOfDay_iff, day, firstSecond]
  omega

theorem year_lt_iff {d : DateTime} {y : Int} : d.year < y ↔ d.secs < firstSecond y := by
  rw [← not_le, le_year_iff, not_le]

/-- A clock value of the years 1970 to 2100. -/
def Contemporary (now : DateTime) : Prop := 1970 ≤ now.year ∧ now.year ≤ 2100

theorem contemporary_iff {now : DateTime} : now.Contemporary ↔ 0 ≤ now.secs ∧ now.secs < 4133980800 := by
  have hlast : now.year ≤ 2100 ↔ now.year < 2101 := by omega
  rw [Contemporary, hlast, le_year_iff, year_lt_iff]
  rfl

theorem yearInRange_iff {t : DateTime} : t.YearInRange ↔ -62167219200 ≤ t.secs ∧ t.secs < 253402300800 := by
  have hlast : t.year ≤ 9999 ↔ t.year < 10000 := by omega
  rw [YearInRange, hlast, le_year_iff, year_lt_iff]
  rfl

/-! ## Moving by whole seconds -/

theorem ofSecs?_isSome {secs : Int} {frac : Nat} (hf : frac < 1000000000) (hmin : minSecs ≤ secs)
    (hmax : secs ≤ maxSecs) : ∃ d, ofSecs? secs frac = some d :=
  ⟨_, dif_pos ⟨by omega, fun h => absurd h (by omega), hmin, hmax⟩⟩

theorem ofNanos?_isSome {nanos : Int} (hmin : minSecs ≤ nanos / 1000000000)
    (hmax : nanos / 1000000000 ≤ maxSecs) : ∃ d, ofNanos? nanos = some d :=
  ofSecs?_isSome (by omega) hmin hmax

/-- Adding whole seconds: they are added, unless that leaves the range. -/
theorem checkedAdd_seconds {d : DateTime} {k : Int} (hk : 0 ≤ k) :
    (d.secs + k ≤ maxSecs → ∃ c, d.checkedAdd (chronoSeconds k) = some c) ∧
      ∀ c, d.checkedAdd (chronoSeconds k) = some c → c.secs = d.secs + k := by
  have hnanos : chronoSeconds k = k * 1000000000 := rfl
  have hq : (chronoSeconds k).tdiv 1000000000 = k := Int.mul_tdiv_cancel _ (by decide)
  have hr : (chronoSeconds k).tmod 1000000000 = 0 := Int.mul_tmod_left ..
  have := d.frac_lt
  have := d.min_le
  simp only [checkedAdd, hq, hr]
  split
  · have hdiv : (d.secs * 1000000000 + d.frac + chronoSeconds k) / 1000000000 = d.secs + k := by omega
    refine ⟨fun hmax => ofNanos?_isSome (by omega) (by omega), fun c h => ?_⟩
    rw [(ofSecs?_eq_some h).1, hdiv]
  split
  · have hdiv :
        (d.secs * 1000000000 + (d.frac - 1000000000) + chronoSeconds k) / 1000000000 = d.secs + k := by omega
    refine ⟨fun hmax => ofNanos?_isSome (by omega) (by omega), fun c h => ?_⟩
    rw [(ofSecs?_eq_some h).1, hdiv]
  · have hzero : k = 0 := by omega
    rw [hzero, if_neg (by decide), add_zero, add_zero, Int.toNat_natCast, ofSecs?_self]
    exact ⟨fun _ => ⟨d, rfl⟩, fun c h => by cases h; rfl⟩

/-- Subtracting whole seconds: they are subtracted, or one less inside a
leap second, unless that leaves the range. -/
theorem checkedSub_seconds {d : DateTime} {k : Int} (hk : 0 ≤ k) :
    (minSecs ≤ d.secs - k → ∃ c, d.checkedSub (chronoSeconds k) = some c) ∧
      ∀ c, d.checkedSub (chronoSeconds k) = some c →
        d.secs - k ≤ c.secs ∧ (d.frac < 1000000000 → c.secs = d.secs - k) := by
  have hnanos : -chronoSeconds k = -k * 1000000000 := (Int.neg_mul ..).symm
  have hq : (-chronoSeconds k).tdiv 1000000000 = -k := by rw [hnanos]; exact Int.mul_tdiv_cancel _ (by decide)
  have hr : (-chronoSeconds k).tmod 1000000000 = 0 := by rw [hnanos]; exact Int.mul_tmod_left ..
  have := d.frac_lt
  have := d.le_max
  simp only [checkedSub, checkedAdd, hq, hr]
  split
  · have hdiv : (d.secs * 1000000000 + d.frac + -chronoSeconds k) / 1000000000 = d.secs - k := by omega
    refine ⟨fun hmax => ofNanos?_isSome (by omega) (by omega), fun c h => ?_⟩
    rw [(ofSecs?_eq_some h).1, hdiv]
    exact ⟨le_refl _, fun _ => rfl⟩
  rw [if_neg (by omega)]
  split
  · have hdiv : (d.secs * 1000000000 + d.frac + -chronoSeconds k) / 1000000000 = d.secs - k + 1 := by omega
    refine ⟨fun hmax => ofNanos?_isSome (by omega) (by omega), fun c h => ?_⟩
    rw [(ofSecs?_eq_some h).1, hdiv]
    exact ⟨by omega, fun hf => by omega⟩
  · have hzero : k = 0 := by omega
    rw [hzero, add_zero, Int.toNat_natCast, ofSecs?_self, sub_zero]
    exact ⟨fun _ => ⟨d, rfl⟩, fun c h => by cases h; exact ⟨le_refl _, fun _ => rfl⟩⟩

/-! ## Reading back -/

theorem takeWhile_padded {w n : Nat} (hn : n < 10 ^ w) (s : List Char) :
    (padded w n ++ '+' :: s).takeWhile Char.isDigit = padded w n := by
  rw [List.takeWhile_append_of_pos fun c hc => isDigit_of_mem_padded hn hc]
  simp [show Char.isDigit '+' = false by decide]

theorem dropWhile_padded {w n : Nat} (hn : n < 10 ^ w) (s : List Char) :
    (padded w n ++ '+' :: s).dropWhile Char.isDigit = '+' :: s := by
  rw [List.dropWhile_append_of_pos fun c hc => isDigit_of_mem_padded hn hc]
  simp [show Char.isDigit '+' = false by decide]

theorem fractionDigits_padded {w n : Nat} (hw : 0 < w ∧ w ≤ 9) (hn : n < 10 ^ w) (s : List Char) :
    fractionDigits (padded w n ++ '+' :: s) = some (n * 10 ^ (9 - w), '+' :: s) := by
  have hne : padded w n ≠ [] := by
    intro h
    have := padded_length w n
    rw [h] at this
    simp at this
    omega
  have hlen : ((padded w n).take 9).length = w := by simp; omega
  have hnum : number w (padded w n) = some (n, []) := by simpa using number_padded hn []
  simp [fractionDigits, takeWhile_padded hn, dropWhile_padded hn, hne, hlen, hnum]

theorem fraction_tailText {n : Nat} (h : n < 1000000000) :
    fraction (tailText n) = some (n, "+00:00".toList) := by
  have hplus : "+00:00".toList = '+' :: "00:00".toList := rfl
  simp only [tailText, fractionText, hplus]
  split
  · next h0 => rw [h0]; rfl
  split
  · rw [List.cons_append, fraction, fractionDigits_padded (w := 3) (by omega) (by omega)]
    simp only [Option.some.injEq, Prod.mk.injEq, and_true]; omega
  split
  · rw [List.cons_append, fraction, fractionDigits_padded (w := 6) (by omega) (by omega)]
    simp only [Option.some.injEq, Prod.mk.injEq, and_true]; omega
  · rw [List.cons_append, fraction, fractionDigits_padded (w := 9) (by omega) (by omega)]
    simp

theorem zone_utc : zone "+00:00".toList = some (0, []) := by decide

/-- The written fields name the instant they were taken from. -/
theorem ofFields_self (d : DateTime) :
    ofFields d.year d.month d.dayOfMonth d.hour d.minute d.writtenSecond d.writtenNano 0 = some d := by
  have hm := d.month_spec
  have hd := d.dayOfMonth_spec
  have hpos : 1 ≤ d.dayOfMonth := by simp [dayOfMonth]
  have hday : daysBeforeYear d.year + daysBeforeMonth (isLeapYear d.year) d.month + d.dayOfMonth - 1 -
      epochDays = d.secs / 86400 := by
    have := d.ordinal0_cast
    simp only [day] at this
    omega
  have hs := d.second_le
  have hsecs : d.secs / 86400 * 86400 + d.hour * 3600 + d.minute * 60 + d.second = d.secs := by
    have := d.secondOfDay_cast
    have := d.secondOfDay_eq
    omega
  have hleap : (if d.writtenSecond = 60 then 59 else d.writtenSecond) = d.second := by
    have := d.second_eq_of_leap
    simp only [writtenSecond]
    split <;> split <;> omega
  have hfrac : (if d.writtenSecond = 60 then d.writtenNano + 1000000000 else d.writtenNano) = d.frac := by
    have := d.second_eq_of_leap
    simp only [writtenSecond, writtenNano]
    split <;> split <;> omega
  rw [ofFields, if_pos ⟨hm.1, hm.2.1, hpos, by omega, d.hour_le, d.minute_le, d.writtenSecond_le⟩,
    hday, hleap, hfrac, sub_zero, hsecs, ofSecs?_self]

theorem two_digits {n : Nat} (h : n ≤ 60) (rest : List Char) :
    number 2 (padded 2 n ++ rest) = some (n, rest) := number_padded (by omega) rest

theorem datePart_text {d : DateTime} (h : d.YearInRange) (rest : List Char) :
    datePart (yearText d.year ++ ('-' :: (padded 2 d.month ++ ('-' :: (padded 2 d.dayOfMonth ++ rest))))) =
      some ((d.year.toNat, d.month, d.dayOfMonth), rest) := by
  have hyear : ∀ rest, number 4 (padded 4 d.year.toNat ++ rest) = some (d.year.toNat, rest) :=
    number_padded (by have := h.1; have := h.2; omega)
  have hm := d.month_spec
  rw [yearText, if_pos ⟨h.1, h.2⟩]
  simp only [datePart, hyear, expect, two_digits (show d.month ≤ 60 by omega),
    two_digits (d.dayOfMonth_le.trans (by omega)), Option.bind_eq_bind, Option.bind_some, if_true]
  rfl

theorem timePart_text (d : DateTime) :
    timePart (padded 2 d.hour ++ (':' :: (padded 2 d.minute ++ (':' :: (padded 2 d.writtenSecond ++
      tailText d.writtenNano))))) =
      some ((d.hour, d.minute, d.writtenSecond, d.writtenNano), "+00:00".toList) := by
  simp only [timePart, expect, two_digits (d.hour_le.trans (by omega)),
    two_digits (d.minute_le.trans (by omega)), two_digits d.writtenSecond_le,
    fraction_tailText d.writtenNano_lt, Option.bind_eq_bind, Option.bind_some, if_true]
  rfl

/-- **Reading back a written instant** with a year from 0 to 9999. -/
theorem parseFromRfc3339_toRfc3339 {d : DateTime} (h : d.YearInRange) :
    parseFromRfc3339 d.toRfc3339 = some d := by
  rw [parseFromRfc3339, toRfc3339, String.toList_ofList, rfc3339Chars_eq]
  simp only [parseChars, datePart_text h, separator, timePart_text, zone_utc, Option.bind_eq_bind,
    Option.bind_some, true_or, if_true]
  simpa [Int.toNat_of_nonneg h.1] using d.ofFields_self

/-! ## Years with a sign -/

/-- Outside the four-digit years a text begins with a sign. -/
theorem rfc3339Chars_signed {d : DateTime} (h : ¬ d.YearInRange) :
    ∃ sign rest, d.rfc3339Chars = sign :: rest ∧ digit? sign = none ∧ ∀ n < 10, sign < n.digitChar := by
  have hyear : yearText d.year = signedYear d.year := if_neg h
  rw [rfc3339Chars_eq, hyear, signedYear, List.cons_append]
  refine ⟨_, _, rfl, ?_⟩
  split
  · exact ⟨by decide, fun n hn => plus_lt_digitChar hn⟩
  · exact ⟨by decide, fun n hn => by interval_cases n <;> decide⟩

/-- Such a text is not read back. -/
theorem parseFromRfc3339_signed {d : DateTime} (h : ¬ d.YearInRange) : parseFromRfc3339 d.toRfc3339 = none := by
  obtain ⟨sign, rest, htext, hdigit, -⟩ := rfc3339Chars_signed h
  rw [parseFromRfc3339, toRfc3339, String.toList_ofList, htext]
  simp [parseChars, datePart, number, numberFrom, hdigit]

end OxidRelay.DateTime
