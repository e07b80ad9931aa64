import Coatheal.Library.PyText
import Mathlib.Algebra.BigOperators.Intervals

/-!
# The calendar

Where a number lies among intervals that follow each other, the dates of the
Gregorian calendar that come from it, and the text of a moment to the second. Days
have different dates, and moments of years with four digits have different texts.
-/

namespace Coatheal.Library.Calendar

open Text PyText

/-- The interval from which on a number is counted, and its place behind the start of that interval: intervals of the lengths
`length k`, `length (k + 1)` and so on follow each other. -/
def locate (length : ℕ → ℕ) : ℕ → ℕ → ℕ → ℕ × ℕ
  | 0, k, n => (k, n)
  | fuel + 1, k, n => if n < length k then (k, n) else locate length fuel (k + 1) (n - length k)

section Locate

variable {length : ℕ → ℕ} {fuel k n : ℕ}

/-- A number is made of the intervals in front of its own and its place there. -/
theorem locate_sum (length : ℕ → ℕ) (fuel k n : ℕ) : k ≤ (locate length fuel k n).1 ∧
    n = ∑ j ∈ Finset.Ico k (locate length fuel k n).1, length j + (locate length fuel k n).2 := by
  induction fuel generalizing k n with
  | zero => simp [locate]
  | succ fuel ih =>
    rw [locate]
    by_cases hn : n < length k
    · simp [hn]
    · rw [if_neg hn]
      obtain ⟨hk, hsum⟩ := ih (k + 1) (n - length k)
      refine ⟨Nat.le_of_succ_le hk, ?_⟩
      rw [Finset.sum_eq_sum_Ico_succ_bot (Nat.lt_of_succ_le hk), add_assoc, ← hsum]
      omega

/-- The place is inside the interval, where none is empty and there is fuel enough. -/
theorem locate_lt (hpos : ∀ j, 0 < length j) (hfuel : n ≤ fuel) :
    (locate length fuel k n).2 < length (locate length fuel k n).1 := by
  induction fuel generalizing k n with
  | zero =>
    rw [locate, Nat.le_zero.mp hfuel]
    exact hpos k
  | succ fuel ih =>
    rw [locate]
    by_cases hn : n < length k
    · simp [hn]
    · rw [if_neg hn]
      have := hpos k
      exact ih (by omega)

/-- Two numbers of one interval and one place are one number. -/
theorem locate_injective {other otherFuel : ℕ}
    (h : locate length fuel k n = locate length otherFuel k other) : n = other := by
  rw [(locate_sum length fuel k n).2, h]
  exact (locate_sum length otherFuel k other).2.symm

end Locate

/-- A leap year. -/
def isLeap (year : ℕ) : Bool := year % 4 = 0 && (year % 100 ≠ 0 || year % 400 = 0)

/-- The days of a year. -/
def yearLength (year : ℕ) : ℕ := if isLeap year then 366 else 365

/-- The days of a month; behind December there is no month any more. -/
def monthLength (year month : ℕ) : ℕ :=
  if month = 2 then (if isLeap year then 29 else 28)
  else if month = 4 ∨ month = 6 ∨ month = 9 ∨ month = 11 then 30 else 31

/-- A date. -/
structure Date where
  year : ℕ
  month : ℕ
  day : ℕ
deriving DecidableEq

/-- The date of a day that is counted from the first of January of the year 1. -/
def dateOf (days : ℕ) : Date :=
  let year := locate yearLength days 1 days
  let month := locate (monthLength year.1) year.2 1 year.2
  ⟨year.1, month.1, month.2 + 1⟩

/-- The day on which Unix time starts. -/
def unixStart : ℕ := 719162

/-- Unix time starts with the year 1970. -/
example : dateOf unixStart = ⟨1970, 1, 1⟩ := by decide +kernel

/-- No year is empty. -/
theorem yearLength_pos (year : ℕ) : 0 < yearLength year := by
  unfold yearLength
  split <;> omega

/-- No month is empty, and none has more than 31 days. -/
theorem monthLength_pos (year month : ℕ) : 0 < monthLength year month ∧ monthLength year month ≤ 31 := by
  unfold monthLength
  repeat' split
  all_goals omega

/-- The months of a year have its days. -/
theorem sum_monthLength (year : ℕ) : ∑ month ∈ Finset.Ico 1 13, monthLength year month = yearLength year := by
  simp only [Finset.sum_Ico_eq_sum_range, Finset.sum_range_succ, Finset.sum_range_zero, monthLength, yearLength]
  cases isLeap year <;> rfl

/-- Days have different dates. -/
theorem dateOf_injective {days other : ℕ} (h : dateOf days = dateOf other) : days = other := by
  obtain ⟨hyear, hmonth, hday⟩ := Date.mk.inj h
  have hplace : (locate yearLength days 1 days).2 = (locate yearLength other 1 other).2 := by
    rw [hyear] at hmonth hday
    exact locate_injective (Prod.ext hmonth (Nat.succ.inj hday))
  exact locate_injective (Prod.ext hyear hplace)

/-- Dates have the months of a year and the days of a month. -/
theorem dateOf_bounds (days : ℕ) : (dateOf days).month ≤ 12 ∧ (dateOf days).day ≤ 31 := by
  have hplace := locate_lt yearLength_pos (le_refl days) (k := 1)
  obtain ⟨hfirst, hsum⟩ := locate_sum (monthLength (locate yearLength days 1 days).1)
    (locate yearLength days 1 days).2 1 (locate yearLength days 1 days).2
  refine ⟨?_, ?_⟩
  · -- all months of the year together would not be longer than the place in the year
    by_contra hlate
    have hle := Finset.sum_le_sum_of_subset (f := monthLength (locate yearLength days 1 days).1)
      (Finset.Ico_subset_Ico_right (a := 1) (not_le.mp hlate))
    rw [sum_monthLength] at hle
    exact absurd (hle.trans (Nat.le.intro hsum.symm)) (not_le.mpr hplace)
  · exact (locate_lt (fun month => (monthLength_pos _ month).1) (le_refl _)).trans_le (monthLength_pos _ _).2

/-- The year of a day, between its days as leap years and as others. -/
theorem dateOf_year_bounds (days : ℕ) :
    365 * ((dateOf days).year - 1) ≤ days ∧ days < 366 * (dateOf days).year := by
  obtain ⟨hfirst, hsum⟩ := locate_sum yearLength days 1 days
  have hplace := locate_lt yearLength_pos (le_refl days) (k := 1)
  have hlength (year : ℕ) : 365 ≤ yearLength year ∧ yearLength year ≤ 366 := by
    unfold yearLength
    split <;> omega
  have hlow := Finset.card_nsmul_le_sum (Finset.Ico 1 (locate yearLength days 1 days).1) yearLength 365
    fun year _ => (hlength year).1
  have hhigh := Finset.sum_le_card_nsmul (Finset.Ico 1 (locate yearLength days 1 days).1) yearLength 366
    fun year _ => (hlength year).2
  rw [Nat.card_Ico, smul_eq_mul] at hlow hhigh
  change _ ≤ ∑ year ∈ _, yearLength year at hlow
  change ∑ year ∈ _, yearLength year ≤ _ at hhigh
  have hlast := (hlength (locate yearLength days 1 days).1).2
  change 365 * ((locate yearLength days 1 days).1 - 1) ≤ days ∧ days < 366 * (locate yearLength days 1 days).1
  omega

/-- The days of the first years, so many of them. -/
def daysOfYears (years : ℕ) : ℕ := 365 * years + years / 4 - years / 100 + years / 400

/-- A year follows the years in front of it. -/
theorem daysOfYears_succ (years : ℕ) : daysOfYears (years + 1) = daysOfYears years + yearLength (years + 1) := by
  have hleap : isLeap (years + 1) = true ↔ 4 ∣ years + 1 ∧ (¬ 100 ∣ years + 1 ∨ 400 ∣ years + 1) := by
    simp [isLeap, Nat.dvd_iff_mod_eq_zero]
  have hhundred : 100 ∣ years + 1 → 4 ∣ years + 1 := fun h => Dvd.dvd.trans (by decide) h
  have hfour : 400 ∣ years + 1 → 100 ∣ years + 1 := fun h => Dvd.dvd.trans (by decide) h
  have hless : years / 100 ≤ years / 4 := Nat.div_le_div_left (by decide) (by decide)
  unfold daysOfYears yearLength
  rw [Nat.succ_div, Nat.succ_div, Nat.succ_div]
  by_cases h4 : 4 ∣ years + 1
  · by_cases h100 : 100 ∣ years + 1
    · by_cases h400 : 400 ∣ years + 1
      · rw [if_pos (hleap.mpr ⟨h4, Or.inr h400⟩), if_pos h4, if_pos h100, if_pos h400]
        omega
      · rw [if_neg fun h => (hleap.mp h).2.elim (· h100) h400, if_pos h4, if_pos h100, if_neg h400]
        omega
    · rw [if_pos (hleap.mpr ⟨h4, Or.inl h100⟩), if_pos h4, if_neg h100, if_neg fun h => h100 (hfour h)]
      omega
  · rw [if_neg fun h => h4 (hleap.mp h).1, if_neg h4, if_neg fun h => h4 (hhundred h),
      if_neg fun h => h4 (hhundred (hfour h))]
    omega

/-- The years in front of a year have the days that they are counted with. -/
theorem sum_yearLength (years : ℕ) : ∑ year ∈ Finset.Ico 1 (years + 1), yearLength year = daysOfYears years := by
  induction years with
  | zero => rfl
  | succ years ih => rw [Finset.sum_Ico_succ_top (by omega), ih, daysOfYears_succ]

/-- The days of a year in front of a month. -/
def daysOfMonths (year months : ℕ) : ℕ := ∑ month ∈ Finset.Ico 1 (months + 1), monthLength year month

/-- A day is a day of its date's month, behind the months and years in front of it. -/
theorem dateOf_sum (days : ℕ) : ∃ years months, (dateOf days).year = years + 1 ∧ (dateOf days).month = months + 1 ∧
    1 ≤ (dateOf days).day ∧ (dateOf days).day ≤ monthLength (years + 1) (months + 1) ∧ months < 12 ∧
    days = daysOfYears years + daysOfMonths (years + 1) months + ((dateOf days).day - 1) := by
  obtain ⟨hyear, hyears⟩ := locate_sum yearLength days 1 days
  obtain ⟨hmonth, hmonths⟩ := locate_sum (monthLength (locate yearLength days 1 days).1)
    (locate yearLength days 1 days).2 1 (locate yearLength days 1 days).2
  have hday := @locate_lt (monthLength (locate yearLength days 1 days).1) (locate yearLength days 1 days).2 1
    (locate yearLength days 1 days).2 (fun month => (monthLength_pos _ month).1) le_rfl
  have htwelve := (dateOf_bounds days).1
  have hdate : dateOf days = ⟨(locate yearLength days 1 days).1, (locate (monthLength (locate yearLength days 1 days).1)
    (locate yearLength days 1 days).2 1 (locate yearLength days 1 days).2).1, (locate (monthLength (locate yearLength days 1 days).1)
    (locate yearLength days 1 days).2 1 (locate yearLength days 1 days).2).2 + 1⟩ := rfl
  generalize hy : locate yearLength days 1 days = year at *
  generalize hm : locate (monthLength year.1) year.2 1 year.2 = month at *
  obtain ⟨years, hsucc⟩ := Nat.exists_eq_add_of_le' hyear
  obtain ⟨months, hmonthsucc⟩ := Nat.exists_eq_add_of_le' hmonth
  rw [hdate] at htwelve ⊢
  rw [hsucc] at hyears hmonths hday
  rw [hmonthsucc] at hmonths hday htwelve
  rw [sum_yearLength] at hyears
  refine ⟨years, months, hsucc, hmonthsucc, Nat.succ_pos _, hday, htwelve, ?_⟩
  rw [Nat.add_sub_cancel, add_assoc]
  unfold daysOfMonths
  rw [← hmonths, ← hyears]
/-- A moment of Unix time as `%Y%m%d-%H%M%S`, from the year 1 to the year 9999. -/
def showMoment (seconds : ℤ) : Option (List Char) :=
  let days := seconds / 86400 + unixStart
  let time := (seconds % 86400).toNat
  let date := dateOf days.toNat
  if days < 0 ∨ 9999 < date.year then none
  else some (showNat date.year ++ padded 2 date.month ++ padded 2 date.day ++ '-' ::
    (padded 2 (time / 3600) ++ padded 2 (time / 60 % 60) ++ padded 2 (time % 60)))

/-- Padded numbers are told apart. -/
theorem padded_injective {decimals value other : ℕ} (h : padded decimals value = padded decimals other) :
    value = other := by
  have hvalue (value : ℕ) : Nat.ofDigitChars 10 (padded decimals value) 0 = value := by
    unfold padded
    rw [Nat.ofDigitChars_append, Nat.ofDigitChars_replicate_zero, Nat.mul_zero]
    exact Nat.ofDigitChars_ten_toDigits
  rw [← hvalue value, h, hvalue]

/-- Numbers are told apart. -/
theorem showNat_injective {value other : ℕ} (h : showNat value = showNat other) : value = other := by
  have hvalue (value : ℕ) : Nat.ofDigitChars 10 (showNat value) 0 = value := Nat.ofDigitChars_ten_toDigits
  rw [← hvalue value, h, hvalue]

/-- The text of a moment in Unix time, whose year has four digits. -/
theorem showMoment_eq {seconds : ℕ} (h : seconds < 10 ^ 11) :
    ∃ date : Date, dateOf (seconds / 86400 + unixStart) = date ∧ (showNat date.year).length = 4 ∧
      showMoment seconds = some (showNat date.year ++ padded 2 date.month ++ padded 2 date.day ++ '-' ::
        (padded 2 (seconds % 86400 / 3600) ++ padded 2 (seconds % 86400 / 60 % 60) ++
          padded 2 (seconds % 86400 % 60))) := by
  refine ⟨_, rfl, ?_, ?_⟩
  all_goals
    obtain ⟨hlow, hhigh⟩ := dateOf_year_bounds (seconds / 86400 + unixStart)
    rw [unixStart] at hlow hhigh ⊢
  · have hle : (showNat (dateOf (seconds / 86400 + 719162)).year).length ≤ 4 :=
      (Nat.length_toDigits_le_iff (by omega) (by omega)).mpr (by omega)
    have hgt : ¬ (showNat (dateOf (seconds / 86400 + 719162)).year).length ≤ 3 := fun hshort => by
      have := (Nat.length_toDigits_le_iff (by omega) (by omega)).mp hshort
      omega
    omega
  · have hdays : ((seconds : ℤ) / 86400 + (719162 : ℕ)).toNat = seconds / 86400 + 719162 := by omega
    have htime : ((seconds : ℤ) % 86400).toNat = seconds % 86400 := by omega
    rw [showMoment, unixStart, hdays, htime, if_neg (by omega)]

/-- The text of a moment has 15 characters. -/
theorem length_showMoment {seconds : ℕ} (h : seconds < 10 ^ 11) :
    ∃ text, showMoment seconds = some text ∧ text.length = 15 := by
  obtain ⟨date, hdate, hyear, htext⟩ := showMoment_eq h
  obtain ⟨hmonth, hday⟩ := dateOf_bounds (seconds / 86400 + unixStart)
  rw [hdate] at hmonth hday
  have hlength {value : ℕ} (hvalue : value < 100) : (padded 2 value).length = 2 :=
    length_padded (by omega) hvalue
  refine ⟨_, htext, ?_⟩
  simp only [List.length_append, List.length_cons, hyear, hlength (show date.month < 100 by omega),
    hlength (show date.day < 100 by omega), hlength (show seconds % 86400 / 3600 < 100 by omega),
    hlength (show seconds % 86400 / 60 % 60 < 100 by omega), hlength (show seconds % 86400 % 60 < 100 by omega)]

/-- Moments have different texts, before the year 5138. -/
theorem showMoment_injective {seconds other : ℕ} (h : seconds < 10 ^ 11) (hother : other < 10 ^ 11)
    (hsame : showMoment seconds = showMoment other) : seconds = other := by
  obtain ⟨date, hdate, hyear, htext⟩ := showMoment_eq h
  obtain ⟨date', hdate', hyear', htext'⟩ := showMoment_eq hother
  rw [htext, htext', Option.some.injEq] at hsame
  have hlength {value : ℕ} (hvalue : value < 100) : (padded 2 value).length = 2 :=
    length_padded (by omega) hvalue
  have hmonth := (dateOf_bounds (seconds / 86400 + unixStart)).1
  have hday := (dateOf_bounds (seconds / 86400 + unixStart)).2
  have hmonth' := (dateOf_bounds (other / 86400 + unixStart)).1
  have hday' := (dateOf_bounds (other / 86400 + unixStart)).2
  rw [hdate] at hmonth hday
  rw [hdate'] at hmonth' hday'
  obtain ⟨hfront, hback⟩ := List.append_inj hsame (by
    simp only [List.length_append, hyear, hyear', hlength (show date.month < 100 by omega),
      hlength (show date.day < 100 by omega), hlength (show date'.month < 100 by omega),
      hlength (show date'.day < 100 by omega)])
  obtain ⟨hfront, hdays⟩ := List.append_inj' hfront (by
    rw [hlength (by omega), hlength (by omega)])
  obtain ⟨hyears, hmonths⟩ := List.append_inj hfront (by rw [hyear, hyear'])
  obtain ⟨hfront, hseconds⟩ := List.append_inj' (List.cons.inj hback).2 (by
    rw [hlength (by omega), hlength (by omega)])
  obtain ⟨hhours, hminutes⟩ := List.append_inj' hfront (by
    rw [hlength (by omega), hlength (by omega)])
  have hsameDate : date = date' := by
    have hone := showNat_injective hyears
    cases date
    cases date'
    simp only [Date.mk.injEq]
    exact ⟨hone, padded_injective hmonths, padded_injective hdays⟩
  have hsameDays := dateOf_injective (hdate.trans (hsameDate.trans hdate'.symm))
  have hhour := padded_injective hhours
  have hminute := padded_injective hminutes
  have hsecond := padded_injective hseconds
  omega

end Coatheal.Library.Calendar
