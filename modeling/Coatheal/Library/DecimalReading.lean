import Coatheal.Library.Decimal
import Mathlib.Algebra.Order.Ring.Abs
import Mathlib.Tactic.FieldSimp
import Mathlib.Tactic.Linarith
import Mathlib.Tactic.NormNum
import Mathlib.Tactic.Positivity
import Mathlib.Tactic.Ring

/-!
# Printed numbers read back

A number printed with six significant digits is read back as the double nearest
to those digits. Six digits are few enough to survive the rounding to a double,
so a number comes back as it was exactly when it is the double nearest to some
decimal number of six digits.
-/

namespace Coatheal.Library.Text

/-- A number less than one half away from an integer is rounded to it. -/
theorem roundHalfEven_eq {x : ℚ} {m : ℤ} (h : |x - m| < 1 / 2) : roundHalfEven x = m := by
  obtain ⟨hlow, hhigh⟩ := abs_lt.mp h
  unfold roundHalfEven
  by_cases hle : (m : ℚ) ≤ x
  · have hfloor : ⌊x⌋ = m := Int.floor_eq_iff.mpr ⟨hle, by linarith⟩
    rw [hfloor, if_pos hhigh]
  · have hfloor : ⌊x⌋ = m - 1 := by
      refine Int.floor_eq_iff.mpr ⟨?_, ?_⟩ <;> push_cast <;> linarith
    rw [hfloor]
    push_cast
    rw [if_neg (by linarith), if_pos (by linarith)]
    ring

/-- Rounding changes a number by at most one half. -/
theorem abs_roundHalfEven_sub_le (x : ℚ) : |(roundHalfEven x : ℚ) - x| ≤ 1 / 2 := by
  have hlow := Int.floor_le x
  have hhigh := Int.lt_floor_add_one x
  unfold roundHalfEven
  split_ifs <;> push_cast <;> rw [abs_le] <;> constructor <;> linarith

/-- The nearest double is near, in proportion to the number. -/
theorem abs_nearestDouble_sub_le (x : ℚ) : |nearestDouble x - x| ≤ |x| / 2 ^ 53 := by
  by_cases hx : x = 0
  · subst hx
    norm_num [nearestDouble, roundHalfEven]
  have hlog : (2 : ℚ) ^ Int.log 2 |x| ≤ |x| := by
    have h := Int.zpow_log_le_self (R := ℚ) (b := 2) (by norm_num) (abs_pos.mpr hx)
    exact_mod_cast h
  have hunit : (2 : ℚ) ^ (Int.log 2 |x| - 52) = (2 : ℚ) ^ Int.log 2 |x| / 2 ^ 52 := by
    rw [zpow_sub₀ (by norm_num)]
    norm_num
  have hpos : (0 : ℚ) < (2 : ℚ) ^ (Int.log 2 |x| - 52) := zpow_pos (by norm_num) _
  have herror := abs_roundHalfEven_sub_le (x / (2 : ℚ) ^ (Int.log 2 |x| - 52))
  unfold nearestDouble
  simp only
  set unit : ℚ := (2 : ℚ) ^ (Int.log 2 |x| - 52)
  have hdiff : (roundHalfEven (x / unit) : ℚ) * unit - x =
      ((roundHalfEven (x / unit) : ℚ) - x / unit) * unit := by
    field_simp
  rw [hdiff, abs_mul, abs_of_pos hpos]
  calc |(roundHalfEven (x / unit) : ℚ) - x / unit| * unit
      ≤ 1 / 2 * unit := by
        exact mul_le_mul_of_nonneg_right herror hpos.le
    _ = (2 : ℚ) ^ Int.log 2 |x| / 2 ^ 53 := by
        rw [hunit]
        ring
    _ ≤ |x| / 2 ^ 53 := by
        exact div_le_div_of_nonneg_right hlog (by norm_num)

/-- The double nearest to zero is zero. -/
@[simp]
theorem nearestDouble_zero : nearestDouble 0 = 0 := by
  norm_num [nearestDouble, roundHalfEven]

/-- The number the six digits of a significand make. -/
def sixDigits (x : ℚ) : ℚ := ((significand x).1 : ℚ) * (10 : ℚ) ^ ((significand x).2 - 5)

/-- A number near one of six digits has these digits. -/
theorem significand_of_near {x : ℚ} {m : ℕ} {k : ℤ} (hlow : 100000 ≤ m) (hhigh : m < 1000000)
    (hnear : |x - m * (10 : ℚ) ^ k| < (10 : ℚ) ^ k / 20) : significand x = (m, k + 5) := by
  have hk : (0 : ℚ) < (10 : ℚ) ^ k := zpow_pos (by norm_num) _
  obtain ⟨hbelow, habove⟩ := abs_lt.mp hnear
  have hlowQ : (100000 : ℚ) ≤ m := by exact_mod_cast hlow
  have hhighQ : (m : ℚ) ≤ 999999 := by exact_mod_cast Nat.le_of_lt_succ hhigh
  have hpow : ∀ j : ℕ, (10 : ℚ) ^ (k + j) = 10 ^ k * 10 ^ j := fun j => by
    rw [zpow_add₀ (by norm_num), zpow_natCast]
  have hlowK : (100000 : ℚ) * 10 ^ k ≤ m * 10 ^ k := mul_le_mul_of_nonneg_right hlowQ hk.le
  have hhighK : (m : ℚ) * 10 ^ k ≤ 999999 * 10 ^ k := mul_le_mul_of_nonneg_right hhighQ hk.le
  have hx : 0 < x := by linarith
  have hlog : ∀ e : ℤ, (10 : ℚ) ^ e ≤ x → x < (10 : ℚ) ^ (e + 1) → Int.log 10 x = e := by
    intro e hle hlt
    refine le_antisymm ?_ ?_
    · have h := (Int.lt_zpow_iff_log_lt (b := 10) (by norm_num) hx (x := e + 1)).mp (by exact_mod_cast hlt)
      omega
    · exact (Int.zpow_le_iff_le_log (b := 10) (by norm_num) hx).mp (by exact_mod_cast hle)
  unfold significand
  simp only [abs_of_pos hx]
  by_cases hcase : (10 : ℚ) ^ (k + 5) ≤ x
  · -- The number has as many digits before the point as its neighbour.
    have hfive := hpow 5
    have hsix := hpow 6
    push_cast at hfive hsix
    rw [hlog (k + 5) hcase (by rw [add_assoc]; norm_num; rw [hsix]; linarith)]
    have hround : roundHalfEven (x / (10 : ℚ) ^ (k + 5 - 5)) = (m : ℤ) := by
      refine roundHalfEven_eq ?_
      rw [add_sub_cancel_right]
      have hdiff : x / (10 : ℚ) ^ k - ((m : ℤ) : ℚ) = (x - m * (10 : ℚ) ^ k) / (10 : ℚ) ^ k := by
        push_cast
        field_simp
      rw [hdiff, abs_div, abs_of_pos hk, div_lt_iff₀ hk]
      linarith
    rw [hround, Int.toNat_natCast, if_neg (by omega)]
  · -- The number is just under a power of ten, and rounding brings it up to that.
    have hcase := not_le.mp hcase
    have hfive := hpow 5
    push_cast at hfive
    rw [hfive] at hcase
    have hm : m = 100000 := by
      by_contra hne
      have hmore : (100001 : ℚ) ≤ m := by exact_mod_cast (by omega : 100001 ≤ m)
      have := mul_le_mul_of_nonneg_right hmore hk.le
      linarith
    subst hm
    have hfour := hpow 4
    push_cast at hfour
    have hpred : (10 : ℚ) ^ (k + 4 - 5) = 10 ^ k / 10 := by
      rw [show k + 4 - 5 = k - 1 by ring, zpow_sub₀ (by norm_num), zpow_one]
    rw [hlog (k + 4) (by rw [hfour]; push_cast at hbelow; linarith)
      (by rw [add_assoc]; norm_num; rw [hfive]; linarith)]
    have hround : roundHalfEven (x / (10 : ℚ) ^ (k + 4 - 5)) = (1000000 : ℤ) := by
      refine roundHalfEven_eq ?_
      have hdiff : x / (10 : ℚ) ^ (k + 4 - 5) - ((1000000 : ℤ) : ℚ) =
          (x - (100000 : ℕ) * (10 : ℚ) ^ k) / ((10 : ℚ) ^ k / 10) := by
        rw [hpred]
        push_cast
        field_simp
        ring
      rw [hdiff, abs_div, abs_of_pos (by positivity : (0 : ℚ) < 10 ^ k / 10), div_lt_iff₀ (by positivity)]
      linarith
    rw [hround, if_pos (by rfl)]
    exact Prod.ext rfl (by ring)

/-- The significand of a number other than zero has six digits. -/
theorem significand_bounds {x : ℚ} (hx : x ≠ 0) :
    100000 ≤ (significand x).1 ∧ (significand x).1 < 1000000 := by
  have hpos : 0 < |x| := abs_pos.mpr hx
  have hlow : (10 : ℚ) ^ Int.log 10 |x| ≤ |x| := by
    exact_mod_cast Int.zpow_log_le_self (R := ℚ) (b := 10) (by norm_num) hpos
  have hhigh : |x| < (10 : ℚ) ^ (Int.log 10 |x| + 1) := by
    exact_mod_cast Int.lt_zpow_succ_log_self (R := ℚ) (b := 10) (by norm_num) |x|
  unfold significand
  simp only
  generalize Int.log 10 |x| = e at hlow hhigh ⊢
  have hunit : (0 : ℚ) < (10 : ℚ) ^ (e - 5) := zpow_pos (by norm_num) _
  have hlow' : (100000 : ℚ) ≤ |x| / (10 : ℚ) ^ (e - 5) := by
    rw [le_div_iff₀ hunit]
    calc (100000 : ℚ) * (10 : ℚ) ^ (e - 5) = (10 : ℚ) ^ e := by
          rw [zpow_sub₀ (by norm_num)]
          norm_num
          ring
      _ ≤ |x| := hlow
  have hhigh' : |x| / (10 : ℚ) ^ (e - 5) < 1000000 := by
    rw [div_lt_iff₀ hunit]
    calc |x| < (10 : ℚ) ^ (e + 1) := hhigh
      _ = 1000000 * (10 : ℚ) ^ (e - 5) := by
          rw [zpow_sub₀ (by norm_num), zpow_add₀ (by norm_num)]
          norm_num
          ring
  have herror := abs_le.mp (abs_roundHalfEven_sub_le (|x| / (10 : ℚ) ^ (e - 5)))
  generalize |x| / (10 : ℚ) ^ (e - 5) = y at hlow' hhigh' herror ⊢
  have hge : 100000 ≤ roundHalfEven y := by
    have hQ : ((99999 : ℤ) : ℚ) < (roundHalfEven y : ℚ) := by
      push_cast
      linarith [herror.1]
    have hZ : 99999 < roundHalfEven y := by exact_mod_cast hQ
    omega
  have hle : roundHalfEven y ≤ 1000000 := by
    have hQ : (roundHalfEven y : ℚ) < ((1000001 : ℤ) : ℚ) := by
      push_cast
      linarith [herror.2]
    have hZ : roundHalfEven y < 1000001 := by exact_mod_cast hQ
    omega
  split <;> constructor <;> simp only <;> omega

/-- The significand does not see the sign. -/
theorem significand_abs (x : ℚ) : significand |x| = significand x := by
  unfold significand
  rw [abs_abs]

/-- A printed number of six digits has six characters. -/
theorem length_showNat {value : ℕ} (hlow : 100000 ≤ value) (hhigh : value < 1000000) :
    (showNat value).length = 6 := by
  have hle : (showNat value).length ≤ 6 :=
    (Nat.length_toDigits_le_iff (by norm_num) (by norm_num)).mpr (by norm_num; exact hhigh)
  have hgt : ¬ (showNat value).length ≤ 5 := fun h =>
    absurd ((Nat.length_toDigits_le_iff (by norm_num) (by norm_num)).mp h) (by norm_num; exact hlow)
  omega

/-- Only zeros are dropped at the end of a fraction. -/
theorem dropZeros_append (digits : List Char) :
    ∃ zeros, digits = dropZeros digits ++ List.replicate zeros '0' := by
  have hsplit := List.takeWhile_append_dropWhile (p := fun c => decide (c = '0')) (l := digits.reverse)
  have hzeros : digits.reverse.takeWhile (fun c => decide (c = '0')) =
      List.replicate (digits.reverse.takeWhile fun c => decide (c = '0')).length '0' :=
    List.eq_replicate_length.mpr fun c hc => by simpa using List.mem_takeWhile_imp hc
  refine ⟨(digits.reverse.takeWhile fun c => decide (c = '0')).length, ?_⟩
  calc digits = digits.reverse.reverse := (List.reverse_reverse digits).symm
    _ = (digits.reverse.dropWhile fun c => decide (c = '0')).reverse ++
          (digits.reverse.takeWhile fun c => decide (c = '0')).reverse := by
        rw [← List.reverse_append, hsplit]
    _ = _ := by
        rw [dropZeros]
        congr 1
        conv_lhs => rw [hzeros, List.reverse_replicate]

/-- Zeros that are dropped at the end of a fraction do not change the number. -/
theorem value_dropZeros (whole fraction : List Char) (exponent : ℤ) :
    (Nat.ofDigitChars 10 (whole ++ dropZeros fraction) 0 : ℚ) *
        (10 : ℚ) ^ (exponent - (dropZeros fraction).length) =
      (Nat.ofDigitChars 10 (whole ++ fraction) 0 : ℚ) * (10 : ℚ) ^ (exponent - fraction.length) := by
  obtain ⟨zeros, hzeros⟩ := dropZeros_append fraction
  have hvalue : Nat.ofDigitChars 10 (whole ++ fraction) 0 =
      10 ^ zeros * Nat.ofDigitChars 10 (whole ++ dropZeros fraction) 0 := by
    conv_lhs => rw [hzeros]
    rw [← List.append_assoc, Nat.ofDigitChars_append, Nat.ofDigitChars_replicate_zero]
  have hlength : (fraction.length : ℤ) = (dropZeros fraction).length + zeros := by
    conv_lhs => rw [hzeros]
    simp
  rw [hvalue, hlength, ← sub_sub, zpow_sub₀ (by norm_num) (exponent - _) (zeros : ℤ)]
  push_cast
  rw [zpow_natCast]
  field_simp

/-- A text that may follow the digits of a number: it does not begin with a digit or a point. -/
def EndsDigits (tail : List Char) : Prop := ∀ c ∈ tail.head?, c.isDigit = false ∧ c ≠ '.'

/-- Digits at the front of a text are told from what follows them. -/
theorem span_digits {digits tail : List Char} (hdigits : ∀ c ∈ digits, c.isDigit = true)
    (htail : ∀ c ∈ tail.head?, c.isDigit = false) :
    (digits ++ tail).takeWhile Char.isDigit = digits ∧
      (digits ++ tail).dropWhile Char.isDigit = tail := by
  have hnone : tail.takeWhile Char.isDigit = [] ∧ tail.dropWhile Char.isDigit = tail := by
    cases tail with
    | nil => exact ⟨rfl, rfl⟩
    | cons c rest =>
      have hc : ¬ c.isDigit = true := by
        rw [htail c rfl]
        exact Bool.false_ne_true
      exact ⟨List.takeWhile_cons_of_neg hc, List.dropWhile_cons_of_neg hc⟩
  rw [List.takeWhile_append_of_pos hdigits, List.dropWhile_append_of_pos hdigits, hnone.1, hnone.2,
    List.append_nil]
  exact ⟨rfl, rfl⟩

/-- Digits with a fraction are read as the number they make, with the exponent that follows. -/
theorem wholeDecimal_pointed {whole fraction tail : List Char} {exponent : ℤ}
    (hwhole : ∀ c ∈ whole, c.isDigit = true) (hne : whole ≠ [])
    (hfraction : ∀ c ∈ fraction, c.isDigit = true) (htail : EndsDigits tail)
    (hexponent : wholeExponent tail = some exponent) :
    wholeDecimal (pointed whole fraction ++ tail) =
      some ((Nat.ofDigitChars 10 (whole ++ fraction) 0 : ℚ) * (10 : ℚ) ^ (exponent - fraction.length)) := by
  have hsome : ∀ more : List Char, ¬ whole ++ more = [] := by
    intro more h
    exact hne (List.append_eq_nil_iff.mp h).1
  unfold pointed
  by_cases hempty : fraction = []
  · subst hempty
    rw [if_pos rfl]
    obtain ⟨htake, hdrop⟩ := span_digits hwhole fun c hc => (htail c hc).1
    have hnopoint : ∀ rest, tail ≠ '.' :: rest := by
      rintro rest rfl
      exact (htail '.' rfl).2 rfl
    unfold wholeDecimal
    rw [htake, hdrop]
    dsimp only
    split
    · exact absurd rfl (hnopoint _)
    · rw [if_neg (hsome []), hexponent]
      rfl
  · rw [if_neg hempty, List.append_assoc, List.cons_append]
    obtain ⟨htake, hdrop⟩ := @span_digits _ ('.' :: (fraction ++ tail)) hwhole (by simp)
    obtain ⟨htake', hdrop'⟩ := span_digits hfraction fun c hc => (htail c hc).1
    unfold wholeDecimal
    simp only [htake, hdrop, htake', hdrop', if_neg (hsome fraction), hexponent]
    rfl

/-- It does not matter for the number that zeros were dropped at the end of the fraction. -/
theorem wholeDecimal_dropZeros {whole fraction tail : List Char} {exponent : ℤ}
    (hwhole : ∀ c ∈ whole, c.isDigit = true) (hne : whole ≠ [])
    (hfraction : ∀ c ∈ fraction, c.isDigit = true) (htail : EndsDigits tail)
    (hexponent : wholeExponent tail = some exponent) :
    wholeDecimal (pointed whole (dropZeros fraction) ++ tail) =
      some ((Nat.ofDigitChars 10 (whole ++ fraction) 0 : ℚ) * (10 : ℚ) ^ (exponent - fraction.length)) := by
  rw [wholeDecimal_pointed hwhole hne (fun c hc => hfraction c (mem_of_mem_dropZeros hc)) htail hexponent,
    value_dropZeros]

/-- Without an exponent the exponent is zero. -/
theorem wholeExponent_nil : wholeExponent [] = some 0 := rfl

/-- A printed exponent is read back. -/
theorem wholeExponent_showExponent (exponent : ℤ) : wholeExponent (showExponent exponent) = some exponent := by
  have hpadded : ∀ value : ℕ, wholeNat (if (showNat value).length < 2 then '0' :: showNat value
      else showNat value) = some value := by
    intro value
    split
    · have hdigits : ('0' :: showNat value).all Char.isDigit = true :=
        List.all_eq_true.mpr fun c hc => by
          rcases List.mem_cons.mp hc with rfl | hmem
          · decide
          · exact showNat_digits hmem
      rw [wholeNat, if_pos ⟨List.cons_ne_nil _ _, hdigits⟩, Nat.ofDigitChars_cons]
      exact congrArg some Nat.ofDigitChars_ten_toDigits
    · exact wholeNat_showNat value
  unfold showExponent wholeExponent
  simp only [true_or, if_true]
  by_cases hneg : exponent < 0
  · simp only [if_pos hneg, splitSign, hpadded, if_true]
    refine congrArg some ?_
    dsimp only
    omega
  · simp only [if_neg hneg, splitSign, hpadded, Bool.false_eq_true, if_false]
    refine congrArg some ?_
    dsimp only
    omega

/-- Six digits and an exponent in the default form of an output stream. -/
def showSignificand (value : ℕ) (exponent : ℤ) : List Char :=
  if 0 ≤ exponent ∧ exponent < 6 then
    pointed ((showNat value).take (exponent.toNat + 1)) (dropZeros ((showNat value).drop (exponent.toNat + 1)))
  else if -4 ≤ exponent ∧ exponent < 0 then
    pointed ['0'] (dropZeros (List.replicate (-exponent - 1).toNat '0' ++ showNat value))
  else
    pointed ((showNat value).take 1) (dropZeros ((showNat value).drop 1)) ++ showExponent exponent

/-- Six digits and an exponent are read as the number they make. -/
theorem wholeDecimal_showSignificand {value : ℕ} {exponent : ℤ} (hlow : 100000 ≤ value)
    (hhigh : value < 1000000) :
    wholeDecimal (showSignificand value exponent) =
      some ((value : ℚ) * (10 : ℚ) ^ (exponent - 5)) := by
  have hlength := length_showNat hlow hhigh
  have hvalue : Nat.ofDigitChars 10 (showNat value) 0 = value := Nat.ofDigitChars_ten_toDigits
  have htake : ∀ k, ∀ c ∈ (showNat value).take k, c.isDigit = true :=
    fun k c hc => showNat_digits (List.mem_of_mem_take hc)
  have hdrop : ∀ k, ∀ c ∈ (showNat value).drop k, c.isDigit = true :=
    fun k c hc => showNat_digits (List.mem_of_mem_drop hc)
  have hne : ∀ k, (showNat value).take (k + 1) ≠ [] := by
    intro k h
    have hlen := congrArg List.length h
    rw [List.length_take, hlength, List.length_nil] at hlen
    omega
  have hend : EndsDigits [] := fun c hc => by cases hc
  unfold showSignificand
  split
  case isTrue hfixed =>
    -- The point stands within the six digits or after them.
    have hread := wholeDecimal_dropZeros (htake (exponent.toNat + 1)) (hne _) (hdrop (exponent.toNat + 1))
      hend wholeExponent_nil
    rw [List.append_nil] at hread
    rw [hread, List.take_append_drop, hvalue, List.length_drop, hlength]
    congr 3
    omega
  case isFalse =>
    split
    case isTrue hsmall =>
      -- Zeros stand between the point and the six digits.
      have hzero : ∀ c ∈ ['0'], Char.isDigit c = true := forall_mem_of_all (by decide)
      have hdigits : ∀ c ∈ List.replicate (-exponent - 1).toNat '0' ++ showNat value, c.isDigit = true := by
        intro c hc
        rcases List.mem_append.mp hc with hmem | hmem
        · rw [List.eq_of_mem_replicate hmem]
          decide
        · exact showNat_digits hmem
      have hzeros : Nat.ofDigitChars 10 (['0'] ++ (List.replicate (-exponent - 1).toNat '0' ++ showNat value)) 0 =
          value := by
        rw [Nat.ofDigitChars_append, Nat.ofDigitChars_append, Nat.ofDigitChars_replicate_zero]
        simpa [Nat.ofDigitChars_cons] using hvalue
      have hread := wholeDecimal_dropZeros hzero (List.cons_ne_nil _ _) hdigits hend wholeExponent_nil
      rw [List.append_nil] at hread
      rw [hread, hzeros, List.length_append, List.length_replicate, hlength]
      congr 3
      omega
    case isFalse =>
      have hexp : EndsDigits (showExponent exponent) := by
        intro c hc
        cases hc
        decide
      rw [wholeDecimal_dropZeros (htake 1) (hne 0) (hdrop 1) hexp (wholeExponent_showExponent exponent),
        List.take_append_drop, hvalue, List.length_drop, hlength]
      norm_num

/-- The default form of a number is its sign and its six digits. -/
theorem formatG_eq {x : ℚ} (hx : x ≠ 0) :
    formatG x = if x < 0 then '-' :: showSignificand (significand x).1 (significand x).2
      else showSignificand (significand x).1 (significand x).2 := by
  unfold formatG
  simp only [if_neg hx]
  rfl

/-- The first character of a pointed number is that of its whole digits. -/
theorem head?_pointed {whole fraction tail : List Char} (hne : whole ≠ []) :
    (pointed whole fraction ++ tail).head? = whole.head? := by
  cases whole with
  | nil => exact absurd rfl hne
  | cons c rest =>
    unfold pointed
    split <;> rfl

/-- Six digits and an exponent begin with a digit. -/
theorem head?_showSignificand {value : ℕ} (exponent : ℤ) :
    ∃ c, (showSignificand value exponent).head? = some c ∧ c.isDigit = true := by
  have htake : ∀ k, (showNat value).take (k + 1) ≠ [] ∧
      ∃ c, ((showNat value).take (k + 1)).head? = some c ∧ c.isDigit = true := by
    intro k
    cases hshow : showNat value with
    | nil => exact absurd hshow (showNat_ne_nil value)
    | cons c rest => exact ⟨List.cons_ne_nil _ _, c, rfl, showNat_digits (hshow ▸ List.mem_cons_self)⟩
  have happend : ∀ text : List Char, text = text ++ [] := fun text => (List.append_nil text).symm
  unfold showSignificand
  split
  · rw [happend (pointed _ _), head?_pointed (htake _).1]
    exact (htake _).2
  · split
    · rw [happend (pointed _ _), head?_pointed (List.cons_ne_nil _ _)]
      exact ⟨'0', rfl, by decide⟩
    · rw [head?_pointed (htake 0).1]
      exact (htake 0).2

/-- A text that begins with a digit has no white space and no sign at its front. -/
theorem splitSign_of_head? {text : List Char} (h : ∃ c, text.head? = some c ∧ c.isDigit = true) :
    text.dropWhile isSpace = text ∧ splitSign text = (false, text) := by
  obtain ⟨c, hhead, hc⟩ := h
  cases text with
  | nil => cases hhead
  | cons d rest =>
    cases hhead
    obtain ⟨hspace, hminus, hplus⟩ := isDigit_plain hc
    refine ⟨List.dropWhile_cons_of_neg (by simp [hspace]), ?_⟩
    unfold splitSign
    split
    · rename_i heq
      exact absurd (List.cons.inj heq).1 hminus
    · rename_i heq
      exact absurd (List.cons.inj heq).1 hplus
    · rfl

/-- A printed number other than zero is read as the double nearest to its six digits, with its sign. -/
theorem wholeDouble_formatG_of_ne {x : ℚ} (hx : x ≠ 0) :
    wholeDouble (formatG x) =
      if inDoubleRange (nearestDouble (sixDigits x)) then
        some (if x < 0 then -nearestDouble (sixDigits x) else nearestDouble (sixDigits x))
      else none := by
  obtain ⟨hlow, hhigh⟩ := significand_bounds hx
  have hread := @wholeDecimal_showSignificand _ (significand x).2 hlow hhigh
  obtain ⟨hspace, hsign⟩ := splitSign_of_head? (@head?_showSignificand (significand x).1 (significand x).2)
  rw [formatG_eq hx]
  by_cases hneg : x < 0
  · have hminus : ('-' :: showSignificand (significand x).1 (significand x).2).dropWhile isSpace =
        '-' :: showSignificand (significand x).1 (significand x).2 :=
      List.dropWhile_cons_of_neg (by decide)
    rw [if_pos hneg, wholeDouble, hminus]
    simp only [splitSign, hread, Option.bind_some, if_true, if_pos hneg]
    rfl
  · rw [if_neg hneg, wholeDouble, hspace, hsign]
    simp only [hread, Option.bind_some, Bool.false_eq_true, if_false, if_neg hneg]
    rfl

/-- The number is, up to its sign, the double nearest to a decimal number of six digits. -/
def HasSixDigits (x : ℚ) : Prop :=
  ∃ (m : ℕ) (k : ℤ), m < 1000000 ∧ |x| = nearestDouble (m * (10 : ℚ) ^ k)

/-- A decimal number of at most six digits can be written with exactly six. -/
theorem exists_sixDigits {m : ℕ} (hpos : 0 < m) (hm : m < 1000000) (k : ℤ) :
    ∃ (m' : ℕ) (k' : ℤ), 100000 ≤ m' ∧ m' < 1000000 ∧ (m' : ℚ) * (10 : ℚ) ^ k' = m * (10 : ℚ) ^ k := by
  have hshift : ∀ j : ℕ, 100000 ≤ m * 10 ^ j → m * 10 ^ j < 1000000 →
      ∃ (m' : ℕ) (k' : ℤ), 100000 ≤ m' ∧ m' < 1000000 ∧
        (m' : ℚ) * (10 : ℚ) ^ k' = m * (10 : ℚ) ^ k := by
    intro j hlow hhigh
    refine ⟨m * 10 ^ j, k - j, hlow, hhigh, ?_⟩
    rw [zpow_sub₀ (by norm_num), zpow_natCast]
    push_cast
    field_simp
  rcases Nat.lt_or_ge m 10 with h1 | h1
  · exact hshift 5 (by omega) (by omega)
  rcases Nat.lt_or_ge m 100 with h2 | h2
  · exact hshift 4 (by omega) (by omega)
  rcases Nat.lt_or_ge m 1000 with h3 | h3
  · exact hshift 3 (by omega) (by omega)
  rcases Nat.lt_or_ge m 10000 with h4 | h4
  · exact hshift 2 (by omega) (by omega)
  rcases Nat.lt_or_ge m 100000 with h5 | h5
  · exact hshift 1 (by omega) (by omega)
  · exact hshift 0 (by omega) (by omega)

/-- The six digits of the double nearest to a number of six digits are those of the number. -/
theorem sixDigits_nearestDouble {m : ℕ} {k : ℤ} (hlow : 100000 ≤ m) (hhigh : m < 1000000) :
    sixDigits (nearestDouble (m * (10 : ℚ) ^ k)) = m * (10 : ℚ) ^ k := by
  have hk : (0 : ℚ) < (10 : ℚ) ^ k := zpow_pos (by norm_num) _
  have hm : (m : ℚ) ≤ 1000000 := by exact_mod_cast hhigh.le
  have hpos : (0 : ℚ) ≤ m * (10 : ℚ) ^ k := by
    exact mul_nonneg (Nat.cast_nonneg m) hk.le
  have hnear : |nearestDouble (m * (10 : ℚ) ^ k) - m * (10 : ℚ) ^ k| < (10 : ℚ) ^ k / 20 := by
    refine lt_of_le_of_lt (abs_nearestDouble_sub_le _) ?_
    rw [abs_of_nonneg hpos]
    have hle : (m : ℚ) * (10 : ℚ) ^ k ≤ 1000000 * (10 : ℚ) ^ k := mul_le_mul_of_nonneg_right hm hk.le
    rw [div_lt_div_iff₀ (by norm_num) (by norm_num)]
    nlinarith
  rw [sixDigits, significand_of_near hlow hhigh hnear, add_sub_cancel_right]

/-- A number is read back as it was exactly when it is a double of six digits. -/
theorem wholeDouble_formatG_eq_some_iff {x : ℚ} :
    wholeDouble (formatG x) = some x ↔ inDoubleRange x = true ∧ HasSixDigits x := by
  by_cases hx : x = 0
  · subst hx
    have hzero : wholeDouble (formatG 0) = some 0 := by decide +kernel
    refine iff_of_true hzero ⟨by decide, 0, 0, by norm_num, ?_⟩
    rw [abs_zero, Nat.cast_zero, zero_mul, nearestDouble_zero]
  have hrange : inDoubleRange |x| = inDoubleRange x := by
    simp [inDoubleRange, abs_abs]
  have hsix : sixDigits |x| = sixDigits x := by
    rw [sixDigits, sixDigits, significand_abs]
  rw [wholeDouble_formatG_of_ne hx]
  constructor
  · intro h
    split at h
    case isFalse => cases h
    case isTrue hin =>
      have hvalue : |x| = nearestDouble (sixDigits x) := by
        have heq := Option.some.inj h
        split at heq
        · rename_i hneg
          rw [abs_of_neg hneg]
          linarith
        · rename_i hneg
          rw [abs_of_nonneg (not_lt.mp hneg)]
          exact heq.symm
      refine ⟨by rw [← hrange, hvalue, hin], (significand x).1, (significand x).2 - 5,
        (significand_bounds hx).2, hvalue⟩
  · rintro ⟨hin, m, k, hm, hvalue⟩
    have hpos : 0 < m := by
      rcases Nat.eq_zero_or_pos m with rfl | hpos
      · rw [Nat.cast_zero, zero_mul, nearestDouble_zero] at hvalue
        exact absurd (abs_eq_zero.mp hvalue) hx
      · exact hpos
    obtain ⟨m', k', hlow, hhigh, heq⟩ := exists_sixDigits hpos hm k
    rw [← heq] at hvalue
    have hdigits : nearestDouble (sixDigits x) = |x| := by
      rw [← hsix, hvalue, sixDigits_nearestDouble hlow hhigh]
    rw [hdigits, hrange, if_pos hin]
    split
    · rename_i hneg
      rw [abs_of_neg hneg, neg_neg]
    · rename_i hneg
      rw [abs_of_nonneg (not_lt.mp hneg)]

end Coatheal.Library.Text
