import Coatheal.Library.Text
import Mathlib.Data.Int.Log
import Mathlib.Data.Rat.Floor
import Mathlib.Data.Real.Basic

/-!
# Fractional numbers as text

The form an output stream gives a number by default, six significant digits in
fixed or scientific form, and the reading of a decimal numeral. Infinities,
not-a-numbers and hexadecimal numerals are left out: a rational has none.
-/

namespace Coatheal.Library.Text

/-- The nearest integer, halves to the even one. -/
def roundHalfEven (x : ℚ) : ℤ :=
  if x - ⌊x⌋ < 1 / 2 then ⌊x⌋
  else if 1 / 2 < x - ⌊x⌋ then ⌊x⌋ + 1
  else if ⌊x⌋ % 2 = 0 then ⌊x⌋ else ⌊x⌋ + 1

/-- The six significant digits of a number as an integer, and its decimal exponent. -/
def significand (x : ℚ) : ℕ × ℤ :=
  let exponent := Int.log 10 |x|
  let digits := (roundHalfEven (|x| / (10 : ℚ) ^ (exponent - 5))).toNat
  if digits = 1000000 then (100000, exponent + 1) else (digits, exponent)

/-- Drop the zeros at the end of a fraction. -/
def dropZeros (digits : List Char) : List Char := (digits.reverse.dropWhile (· = '0')).reverse

/-- Whole digits with the fraction after a point, when there is one. -/
def pointed (whole fraction : List Char) : List Char :=
  if fraction = [] then whole else whole ++ '.' :: fraction

/-- A decimal exponent with its sign and at least two digits. -/
def showExponent (exponent : ℤ) : List Char :=
  let digits := showNat exponent.natAbs
  'e' :: (if exponent < 0 then '-' else '+') :: (if digits.length < 2 then '0' :: digits else digits)

/-- The default form of a number on an output stream. -/
def formatG (x : ℚ) : List Char :=
  let (value, exponent) := significand x
  let digits := showNat value
  let body :=
    if x = 0 then ['0']
    else if 0 ≤ exponent ∧ exponent < 6 then
      pointed (digits.take (exponent.toNat + 1)) (dropZeros (digits.drop (exponent.toNat + 1)))
    else if -4 ≤ exponent ∧ exponent < 0 then
      pointed ['0'] (dropZeros (List.replicate (-exponent - 1).toNat '0' ++ digits))
    else pointed (digits.take 1) (dropZeros (digits.drop 1)) ++ showExponent exponent
  if x < 0 then '-' :: body else body

/-- A number with six decimals. -/
def formatF (x : ℚ) : List Char :=
  let scaled := (roundHalfEven (|x| * 1000000)).toNat
  let digits := showNat (scaled % 1000000)
  let body := showNat (scaled / 1000000) ++
    '.' :: (List.replicate (6 - digits.length) '0' ++ digits)
  if x < 0 then '-' :: body else body

/-- The characters a printed number can have. -/
def isNumeral (c : Char) : Bool := c.isDigit || c ∈ ['-', '+', '.', 'e']

/-- The digits of a printed number are numeral characters. -/
theorem showNat_numeral {value : ℕ} {c : Char} (h : c ∈ showNat value) : isNumeral c := by
  simp [isNumeral, showNat_digits h]

/-- Dropping zeros leaves characters of the fraction. -/
theorem mem_of_mem_dropZeros {digits : List Char} {c : Char} (h : c ∈ dropZeros digits) :
    c ∈ digits := by
  have hrev : c ∈ digits.reverse.dropWhile (· = '0') := List.mem_reverse.mp h
  exact List.mem_reverse.mp ((List.dropWhile_sublist _).subset hrev)

/-- A pointed number has the characters of its parts and a point. -/
theorem pointed_numeral {whole fraction : List Char} (hwhole : ∀ c ∈ whole, isNumeral c)
    (hfraction : ∀ c ∈ fraction, isNumeral c) : ∀ c ∈ pointed whole fraction, isNumeral c := by
  intro c hc
  unfold pointed at hc
  split at hc
  · exact hwhole c hc
  · rcases List.mem_append.mp hc with hmem | hmem
    · exact hwhole c hmem
    · rcases List.mem_cons.mp hmem with rfl | hmem
      · decide
      · exact hfraction c hmem

/-- A printed exponent has numeral characters only. -/
theorem showExponent_numeral {exponent : ℤ} {c : Char} (h : c ∈ showExponent exponent) :
    isNumeral c := by
  rcases List.mem_cons.mp h with rfl | h
  · decide
  rcases List.mem_cons.mp h with rfl | h
  · split <;> decide
  split at h
  · rcases List.mem_cons.mp h with rfl | h
    · decide
    · exact showNat_numeral h
  · exact showNat_numeral h

/-- A printed number has numeral characters only. -/
theorem formatG_numeral {x : ℚ} {c : Char} (h : c ∈ formatG x) : isNumeral c := by
  have htake : ∀ value k, ∀ c ∈ (showNat value).take k, isNumeral c :=
    fun _ _ _ hc => showNat_numeral (List.mem_of_mem_take hc)
  have hdrop : ∀ value k, ∀ c ∈ dropZeros ((showNat value).drop k), isNumeral c :=
    fun _ _ _ hc => showNat_numeral (List.mem_of_mem_drop (mem_of_mem_dropZeros hc))
  have hzeros : ∀ k value, ∀ c ∈ dropZeros (List.replicate k '0' ++ showNat value), isNumeral c := by
    intro k value c hc
    rcases List.mem_append.mp (mem_of_mem_dropZeros hc) with hmem | hmem
    · rw [List.eq_of_mem_replicate hmem]
      decide
    · exact showNat_numeral hmem
  have hzero : ∀ c ∈ ['0'], isNumeral c := forall_mem_of_all (by decide)
  have hbody : ∀ body : List Char, (∀ c ∈ body, isNumeral c) →
      c ∈ (if x < 0 then '-' :: body else body) → isNumeral c := by
    intro body hall hc
    split at hc
    · rcases List.mem_cons.mp hc with rfl | hc
      · decide
      · exact hall c hc
    · exact hall c hc
  refine hbody _ ?_ h
  split_ifs
  · exact hzero
  · exact pointed_numeral (htake _ _) (hdrop _ _)
  · exact pointed_numeral hzero (hzeros _ _)
  · intro c hc
    rcases List.mem_append.mp hc with hmem | hmem
    · exact pointed_numeral (htake _ _) (hdrop _ _) c hmem
    · exact showExponent_numeral hmem

/-- The exponent after the digits of a numeral; nothing else may follow. -/
def wholeExponent : List Char → Option ℤ
  | [] => some 0
  | c :: rest =>
    if c = 'e' ∨ c = 'E' then
      let (negative, digits) := splitSign rest
      (wholeNat digits).map fun value => if negative then -(value : ℤ) else value
    else none

/-- The numbers a double can hold without overflow or loss of digits. -/
def inDoubleRange (x : ℚ) : Bool :=
  x = 0 ∨ ((2 : ℚ) ^ (-1022 : ℤ) ≤ |x| ∧ |x| < (2 : ℚ) ^ (1024 : ℤ))

/-- The nearest number of 53 binary digits, halves to the even one. -/
def nearestDouble (x : ℚ) : ℚ :=
  let unit := (2 : ℚ) ^ (Int.log 2 |x| - 52)
  roundHalfEven (x / unit) * unit

/-- A whole text as a decimal numeral without a sign, taken exactly. -/
def wholeDecimal (body : List Char) : Option ℚ :=
  let whole := body.takeWhile Char.isDigit
  let afterWhole := body.dropWhile Char.isDigit
  let (fraction, afterFraction) := match afterWhole with
    | '.' :: rest => (rest.takeWhile Char.isDigit, rest.dropWhile Char.isDigit)
    | rest => ([], rest)
  if whole ++ fraction = [] then none
  else (wholeExponent afterFraction).map fun (exponent : ℤ) =>
    (Nat.ofDigitChars 10 (whole ++ fraction) 0 : ℚ) * (10 : ℚ) ^ (exponent - fraction.length)

/-- A whole text as a double. -/
def wholeDouble (text : List Char) : Option ℚ :=
  let (negative, body) := splitSign (text.dropWhile isSpace)
  (wholeDecimal body).bind fun exact =>
    let value := nearestDouble exact
    if inDoubleRange value then some (if negative then -value else value) else none

end Coatheal.Library.Text
