import Coatheal.Library.DecimalReading
import Mathlib.Data.List.Infix
import Mathlib.Data.NNRat.Defs

/-!
# Python's view of a text

The ground station is written in Python. Stripping and splitting, the reading of
integers and floats and the test for digits follow its documentation for any
Unicode text, with the digits and the white space of the Unicode tables.
-/

namespace Coatheal.Library.PyText

open Text

/-- White space, for `str.strip` and around numbers. -/
def isSpace (c : Char) : Bool :=
  let code := c.toNat
  decide (9 ≤ code ∧ code ≤ 13) || decide (28 ≤ code ∧ code ≤ 32) || decide (0x2000 ≤ code ∧ code ≤ 0x200A) ||
    decide (code ∈ [0x85, 0xA0, 0x1680, 0x2028, 0x2029, 0x202F, 0x205F, 0x3000])

/-- `str.strip` without an argument. -/
def strip (text : List Char) : List Char := trim isSpace text

/-- The zeros of the Unicode decimal digits; the other nine digits follow each. -/
def decimalZeros : List ℕ :=
  [0x30, 0x660, 0x6F0, 0x7C0, 0x966, 0x9E6, 0xA66, 0xAE6, 0xB66, 0xBE6, 0xC66, 0xCE6, 0xD66, 0xDE6, 0xE50, 0xED0,
    0xF20, 0x1040, 0x1090, 0x17E0, 0x1810, 0x1946, 0x19D0, 0x1A80, 0x1A90, 0x1B50, 0x1BB0, 0x1C40, 0x1C50, 0xA620,
    0xA8D0, 0xA900, 0xA9D0, 0xA9F0, 0xAA50, 0xABF0, 0xFF10] ++ [0x104A0, 0x10D30, 0x11066, 0x110F0, 0x11136, 0x111D0,
    0x112F0, 0x11450, 0x114D0, 0x11650, 0x116C0, 0x11730, 0x118E0, 0x11950, 0x11C50, 0x11D50, 0x11DA0, 0x16A60,
    0x16AC0, 0x16B50, 0x1D7CE, 0x1D7D8, 0x1D7E2, 0x1D7EC, 0x1D7F6, 0x1E140, 0x1E2F0, 0x1E950, 0x1FBF0]

/-- The ranges of the characters that are digits but no decimal digits, such as superscripts. -/
def otherDigits : List (ℕ × ℕ) :=
  [(0xB2, 0xB3), (0xB9, 0xB9), (0x1369, 0x1371), (0x19DA, 0x19DA), (0x2070, 0x2070), (0x2074, 0x2079),
    (0x2080, 0x2089), (0x2460, 0x2468), (0x2474, 0x247C), (0x2488, 0x2490), (0x24EA, 0x24EA), (0x24F5, 0x24FD),
    (0x24FF, 0x24FF), (0x2776, 0x277E), (0x2780, 0x2788), (0x278A, 0x2792), (0x10A40, 0x10A43), (0x10E60, 0x10E68),
    (0x11052, 0x1105A), (0x1F100, 0x1F10A)]

/-- The value of a decimal digit. -/
def decimalValue (c : Char) : Option ℕ :=
  (decimalZeros.find? fun first => decide (first ≤ c.toNat ∧ c.toNat < first + 10)).map (c.toNat - ·)

/-- A character that `str.isdigit` counts. -/
def isDigit (c : Char) : Bool :=
  (decimalValue c).isSome || otherDigits.any fun range => decide (range.1 ≤ c.toNat ∧ c.toNat ≤ range.2)

/-- `str.isdigit`. -/
def isDigits (text : List Char) : Bool := text ≠ [] && text.all isDigit

/-- The digits after a first one, with single underscores between digits. -/
def moreDigits : List Char → Option (List ℕ)
  | [] => some []
  | '_' :: c :: rest => do
    let digit ← decimalValue c
    let digits ← moreDigits rest
    return digit :: digits
  | c :: rest => do
    let digit ← decimalValue c
    let digits ← moreDigits rest
    return digit :: digits

/-- A nonempty row of digits with single underscores between them. -/
def digitRow : List Char → Option (List ℕ)
  | [] => none
  | c :: rest => do
    let digit ← decimalValue c
    let digits ← moreDigits rest
    return digit :: digits

/-- The most digits a text may have that is read as an integer. -/
def maxStrDigits : ℕ := 4300

/-- `int` of a text. -/
def int (text : List Char) : Option ℤ := do
  let (negative, body) := splitSign (strip text)
  let digits ← digitRow body
  if maxStrDigits < digits.length then none
  else
    let value : ℕ := digits.foldl (fun value digit => 10 * value + digit) 0
    return if negative then -(value : ℤ) else value

/-- `str.lower`. Characters outside ASCII stay: no letter or digit that a reader asks for is the lower case
of one. -/
def lower (text : List Char) : List Char := text.map Char.toLower

/-- `str.removeprefix`. -/
def removeprefix (start text : List Char) : List Char :=
  if start.isPrefixOf text then text.drop start.length else text

/-- The size of a float. -/
inductive Magnitude where
  | finite (value : ℚ≥0)
  | infinite
  | nan
deriving DecidableEq

/-- A float: its sign, which zeros and not-a-numbers have too, and its size. -/
structure Double where
  negative : Bool
  magnitude : Magnitude
deriving DecidableEq

/-- The double nearest to a number that is not negative, subnormal ones included; from the middle between
the largest double and the next power on it is infinite. -/
def doubleOf (exact : ℚ) : Magnitude :=
  let unit := (2 : ℚ) ^ max (Int.log 2 exact - 52) (-1074)
  let value := roundHalfEven (exact / unit) * unit
  if (2 : ℚ) ^ (1024 : ℤ) ≤ value then .infinite else .finite value.toNNRat

/-- A decimal digit as an ASCII digit; other characters stay. -/
def asciiDigit (c : Char) : Char :=
  match decimalValue c with
  | some digit => Char.ofNat ('0'.toNat + digit)
  | none => c

/-- Take out underscores, each of which has to stand between digits. -/
def dropUnderscores : List Char → Option (List Char)
  | [] => some []
  | '_' :: _ => none
  | [c] => some [c]
  | c :: '_' :: next :: rest =>
    if c.isDigit && next.isDigit then (dropUnderscores (next :: rest)).map (c :: ·) else none
  | c :: rest => (dropUnderscores rest).map (c :: ·)

/-- `float` of a text. -/
def float (text : List Char) : Option Double := do
  let plain ← dropUnderscores ((strip text).map asciiDigit)
  let (negative, body) := splitSign plain
  if body.map Char.toLower ∈ ["inf".toList, "infinity".toList] then return ⟨negative, .infinite⟩
  else if body.map Char.toLower = "nan".toList then return ⟨negative, .nan⟩
  else
    let exact ← wholeDecimal body
    return ⟨negative, doubleOf exact⟩

/-- Decimals padded with zeros in front. -/
def padded (decimals value : ℕ) : List Char :=
  List.replicate (decimals - (showNat value).length) '0' ++ showNat value

/-- The size of a number with a fixed number of decimals, not none. -/
def showMagnitude (decimals : ℕ) : Magnitude → List Char
  | .infinite => "inf".toList
  | .nan => "nan".toList
  | .finite value =>
    let scaled := (roundHalfEven ((value : ℚ) * 10 ^ decimals)).toNat
    showNat (scaled / 10 ^ decimals) ++ '.' :: padded decimals (scaled % 10 ^ decimals)

/-- A number with a fixed number of decimals. -/
def showFixed (decimals : ℕ) (value : Double) : List Char :=
  if value.negative then '-' :: showMagnitude decimals value.magnitude else showMagnitude decimals value.magnitude

/-- A number rounded to a number of decimals, as a double. -/
def rounded (decimals : ℕ) (value : Double) : Double :=
  { value with magnitude := match value.magnitude with
    | .infinite => .infinite
    | .nan => .nan
    | .finite value => doubleOf ((roundHalfEven ((value : ℚ) * 10 ^ decimals) : ℚ) / 10 ^ decimals) }

/-- An ASCII digit lies between the digits zero and nine. -/
theorem toNat_of_isDigit {c : Char} (h : c.isDigit = true) : 48 ≤ c.toNat ∧ c.toNat ≤ 57 := by
  simp only [Char.isDigit, Bool.and_eq_true, decide_eq_true_eq, ge_iff_le] at h
  exact ⟨UInt32.le_iff_toNat_le.mp h.1, UInt32.le_iff_toNat_le.mp h.2⟩

/-- An ASCII digit is a decimal digit with its usual value. -/
theorem decimalValue_of_isDigit {c : Char} (h : c.isDigit = true) : decimalValue c = some (c.toNat - 48) := by
  obtain ⟨hlow, hhigh⟩ := toNat_of_isDigit h
  have hfirst : decide (0x30 ≤ c.toNat ∧ c.toNat < 0x30 + 10) = true := decide_eq_true ⟨hlow, by omega⟩
  have hzeros : decimalZeros = 0x30 :: decimalZeros.tail := rfl
  unfold decimalValue
  rw [hzeros, List.find?_cons]
  simp only [hfirst]
  rfl

/-- An ASCII digit is its own ASCII digit. -/
theorem asciiDigit_of_isDigit {c : Char} (h : c.isDigit = true) : asciiDigit c = c := by
  obtain ⟨hlow, -⟩ := toNat_of_isDigit h
  have hsum : '0'.toNat + (c.toNat - 48) = c.toNat := by
    have hzero : '0'.toNat = 48 := rfl
    omega
  unfold asciiDigit
  rw [decimalValue_of_isDigit h]
  dsimp only
  rw [hsum, Char.ofNat_toNat]

/-- A printed count has digits only. -/
theorem isDigits_showNat (value : ℕ) : isDigits (showNat value) = true := by
  refine Bool.and_eq_true_iff.mpr ⟨decide_eq_true (showNat_ne_nil value), List.all_eq_true.mpr fun c hc => ?_⟩
  rw [isDigit, decimalValue_of_isDigit (showNat_digits hc)]
  rfl

/-- An ASCII digit is no white space. -/
theorem isSpace_of_isDigit {c : Char} (h : c.isDigit = true) : isSpace c = false := by
  obtain ⟨hlow, hhigh⟩ := toNat_of_isDigit h
  unfold isSpace
  dsimp only
  simp only [Bool.or_eq_false_iff, decide_eq_false_iff_not, List.mem_cons, List.not_mem_nil, or_false]
  omega

/-- A row of ASCII digits is read digit by digit. -/
theorem moreDigits_of_digits {text : List Char} (h : ∀ c ∈ text, c.isDigit = true) :
    moreDigits text = some (text.map fun c => c.toNat - 48) := by
  induction text with
  | nil => rfl
  | cons c rest ih =>
    have hc := h c List.mem_cons_self
    have hrest := ih fun d hd => h d (List.mem_cons_of_mem _ hd)
    have hne : c ≠ '_' := by
      rintro rfl
      exact absurd hc (by decide)
    unfold moreDigits
    split
    · rename_i heq
      cases heq
    · rename_i heq
      exact absurd (List.cons.inj heq).1 hne
    · rename_i heq
      obtain ⟨rfl, rfl⟩ := List.cons.inj heq
      rw [decimalValue_of_isDigit hc, hrest]
      rfl

/-- A nonempty row of ASCII digits is read digit by digit. -/
theorem digitRow_of_digits {text : List Char} (hne : text ≠ []) (h : ∀ c ∈ text, c.isDigit = true) :
    digitRow text = some (text.map fun c => c.toNat - 48) := by
  cases text with
  | nil => exact absurd rfl hne
  | cons c rest =>
    unfold digitRow
    dsimp only
    rw [decimalValue_of_isDigit (h c List.mem_cons_self),
      moreDigits_of_digits fun d hd => h d (List.mem_cons_of_mem _ hd)]
    rfl

/-- The digits of a printed number make the number. -/
theorem foldl_showNat (value : ℕ) :
    ((showNat value).map fun c => c.toNat - 48).foldl (fun value digit => 10 * value + digit) 0 = value := by
  rw [List.foldl_map]
  exact Nat.ofDigitChars_ten_toDigits

/-- A printed integer has no white space at its ends. -/
theorem strip_showInt (value : ℤ) : strip (showInt value) = showInt value := by
  refine trim_eq_self fun c hc => ?_
  rcases showInt_chars hc with hdigit | rfl
  · exact isSpace_of_isDigit hdigit
  · decide

/-- A printed integer is read back, unless it is too long to be read at all. -/
theorem int_showInt {value : ℤ} (h : (showNat value.natAbs).length ≤ maxStrDigits) :
    int (showInt value) = some value := by
  have hrow := digitRow_of_digits (showNat_ne_nil value.natAbs) fun c hc => showNat_digits hc
  have hlength : ¬ maxStrDigits < ((showNat value.natAbs).map fun c => c.toNat - 48).length := by
    rw [List.length_map]
    exact not_lt.mpr h
  unfold int
  rw [strip_showInt]
  by_cases hneg : value < 0
  · have habs : -(value.natAbs : ℤ) = value := by omega
    rw [showInt, if_pos hneg]
    simp only [splitSign, hrow, Option.bind_eq_bind, Option.bind_some, if_neg hlength, foldl_showNat, if_true, habs]
    rfl
  · have habs : (value.natAbs : ℤ) = value := by omega
    rw [showInt, if_neg hneg, splitSign_showNat]
    simp only [hrow, Option.bind_eq_bind, Option.bind_some, if_neg hlength, foldl_showNat, Bool.false_eq_true,
      if_false, habs]
    rfl

/-- Integers of 64 bits are short enough to be read. -/
theorem int_showInt_of_lt {value : ℤ} (h : value.natAbs < 2 ^ 64) : int (showInt value) = some value := by
  refine int_showInt ?_
  have hlength : (showNat value.natAbs).length ≤ 20 :=
    (Nat.length_toDigits_le_iff (by omega) (by omega)).mpr (h.trans (by norm_num))
  exact hlength.trans (by decide)

/-- The characters of printed numbers, and of the words for the infinite and for what is no number. -/
def isNumberChar (c : Char) : Bool := c.isDigit || decide (c ∈ ['-', '.', 'i', 'n', 'f', 'a'])

/-- A number has no white space, no foreign digits and no underscores. -/
theorem isNumberChar_plain {c : Char} (h : isNumberChar c = true) :
    isSpace c = false ∧ asciiDigit c = c ∧ c ≠ '_' := by
  unfold isNumberChar at h
  rcases Bool.or_eq_true_iff.mp h with hdigit | hother
  · refine ⟨isSpace_of_isDigit hdigit, asciiDigit_of_isDigit hdigit, ?_⟩
    rintro rfl
    exact absurd hdigit (by decide)
  · have hmem := of_decide_eq_true hother
    simp only [List.mem_cons, List.not_mem_nil, or_false] at hmem
    rcases hmem with rfl | rfl | rfl | rfl | rfl | rfl
    all_goals exact ⟨by decide, by decide, by decide⟩

/-- A text without underscores stays as it is. -/
theorem dropUnderscores_eq_self {text : List Char} (h : '_' ∉ text) : dropUnderscores text = some text := by
  fun_induction dropUnderscores text with
  | case1 => rfl
  | case2 rest => exact absurd List.mem_cons_self h
  | case3 c => rfl
  | case4 c next rest hdigits ih =>
    exact absurd (List.mem_cons_of_mem c List.mem_cons_self) h
  | case5 c next rest hdigits =>
    exact absurd (List.mem_cons_of_mem c List.mem_cons_self) h
  | case6 c rest hc hrest hnext ih =>
    rw [ih fun hmem => h (List.mem_cons_of_mem c hmem)]
    rfl

/-- What is rounded from a number that is not negative is not negative. -/
theorem roundHalfEven_nonneg {x : ℚ} (h : 0 ≤ x) : 0 ≤ roundHalfEven x := by
  have hfloor : 0 ≤ ⌊x⌋ := Int.floor_nonneg.mpr h
  unfold roundHalfEven
  split
  · exact hfloor
  split
  · exact hfloor.trans (by omega)
  split
  · exact hfloor
  · exact hfloor.trans (by omega)

/-- Padded decimals are digits. -/
theorem padded_digits {decimals value : ℕ} {c : Char} (h : c ∈ padded decimals value) : c.isDigit = true := by
  rcases List.mem_append.mp h with hzero | hdigit
  · rw [List.eq_of_mem_replicate hzero]
    decide
  · exact showNat_digits hdigit

/-- There are as many padded decimals as asked for. -/
theorem length_padded {decimals value : ℕ} (hpos : 0 < decimals) (h : value < 10 ^ decimals) :
    (padded decimals value).length = decimals := by
  have hlength : (showNat value).length ≤ decimals := (Nat.length_toDigits_le_iff (by omega) hpos).mpr h
  unfold padded
  rw [List.length_append, List.length_replicate]
  omega

/-- A number before the point and padded decimals after it are read as one. -/
theorem wholeDecimal_padded {decimals : ℕ} (hpos : 0 < decimals) (scaled : ℕ) :
    wholeDecimal (showNat (scaled / 10 ^ decimals) ++ '.' :: padded decimals (scaled % 10 ^ decimals)) =
      some ((scaled : ℚ) / 10 ^ decimals) := by
  have hbound : scaled % 10 ^ decimals < 10 ^ decimals := Nat.mod_lt _ (by positivity)
  have hlength := length_padded hpos hbound
  have hne : padded decimals (scaled % 10 ^ decimals) ≠ [] := by
    intro hnil
    rw [hnil, List.length_nil] at hlength
    omega
  have hvalue : Nat.ofDigitChars 10 (showNat (scaled / 10 ^ decimals) ++
      padded decimals (scaled % 10 ^ decimals)) 0 = scaled := by
    have hwhole : Nat.ofDigitChars 10 (showNat (scaled / 10 ^ decimals)) 0 = scaled / 10 ^ decimals :=
      Nat.ofDigitChars_ten_toDigits
    have hfraction : Nat.ofDigitChars 10 (padded decimals (scaled % 10 ^ decimals)) 0 =
        scaled % 10 ^ decimals := by
      unfold padded
      rw [Nat.ofDigitChars_append, Nat.ofDigitChars_replicate_zero, Nat.mul_zero]
      exact Nat.ofDigitChars_ten_toDigits
    rw [Nat.ofDigitChars_append, hwhole, Nat.ofDigitChars_eq_ofDigitChars_zero, hlength, hfraction]
    exact Nat.div_add_mod scaled (10 ^ decimals)
  have hread := @wholeDecimal_pointed (showNat (scaled / 10 ^ decimals))
    (padded decimals (scaled % 10 ^ decimals)) [] 0 (fun c hc => showNat_digits hc) (showNat_ne_nil _)
    (fun c hc => padded_digits hc) (by simp [EndsDigits]) rfl
  rw [List.append_nil, pointed, if_neg hne, hvalue, hlength] at hread
  rw [hread, zero_sub, zpow_neg, zpow_natCast, div_eq_mul_inv]

/-- A printed size has number characters only. -/
theorem showMagnitude_chars {decimals : ℕ} {magnitude : Magnitude} {c : Char}
    (h : c ∈ showMagnitude decimals magnitude) : isNumberChar c = true ∧ c ≠ '-' := by
  have hdigit (hc : c.isDigit = true) : isNumberChar c = true ∧ c ≠ '-' := by
    refine ⟨by simp [isNumberChar, hc], ?_⟩
    rintro rfl
    exact absurd hc (by decide)
  cases magnitude with
  | infinite =>
    have hword : ∀ c ∈ "inf".toList, isNumberChar c = true ∧ c ≠ '-' := forall_mem_of_all (by decide)
    exact hword c h
  | nan =>
    have hword : ∀ c ∈ "nan".toList, isNumberChar c = true ∧ c ≠ '-' := forall_mem_of_all (by decide)
    exact hword c h
  | finite value =>
    rcases List.mem_append.mp h with hwhole | hrest
    · exact hdigit (showNat_digits hwhole)
    · rcases List.mem_cons.mp hrest with rfl | hfraction
      · exact ⟨by decide, by decide⟩
      · exact hdigit (padded_digits hfraction)

/-- A printed number has number characters only. -/
theorem showFixed_chars {decimals : ℕ} {value : Double} {c : Char} (h : c ∈ showFixed decimals value) :
    isNumberChar c = true := by
  unfold showFixed at h
  split at h
  · rcases List.mem_cons.mp h with rfl | hmem
    · decide
    · exact (showMagnitude_chars hmem).1
  · exact (showMagnitude_chars h).1

/-- A printed number has no white space at its ends. -/
theorem strip_showFixed (decimals : ℕ) (value : Double) :
    strip (showFixed decimals value) = showFixed decimals value :=
  trim_eq_self fun _ hc => (isNumberChar_plain (showFixed_chars hc)).1

/-- The sign of a printed number is cut off. -/
theorem splitSign_showFixed (decimals : ℕ) (value : Double) :
    splitSign (showFixed decimals value) = (value.negative, showMagnitude decimals value.magnitude) := by
  unfold showFixed
  cases value.negative with
  | true => rfl
  | false =>
    simp only [Bool.false_eq_true, if_false]
    have hplain (c : Char) (hc : c ∈ showMagnitude decimals value.magnitude) : c ≠ '-' ∧ c ≠ '+' := by
      refine ⟨(showMagnitude_chars hc).2, ?_⟩
      rintro rfl
      exact absurd (showMagnitude_chars hc).1 (by decide)
    unfold splitSign
    split
    · rename_i rest heq
      exact absurd rfl (hplain '-' (heq ▸ List.mem_cons_self)).1
    · rename_i rest heq
      exact absurd rfl (hplain '+' (heq ▸ List.mem_cons_self)).2
    · rfl

/-- A text that begins with a digit is no word. -/
theorem map_toLower_ne {text word : List Char} (hfirst : ∃ c rest, text = c :: rest ∧ c.isDigit = true)
    (hletters : word.head?.any Char.isDigit = false) : text.map Char.toLower ≠ word := by
  rintro rfl
  obtain ⟨c, rest, heq, hdigit⟩ := hfirst
  have hlower : c.toLower.isDigit = true := by
    have hbounds := toNat_of_isDigit hdigit
    unfold Char.toLower
    rw [dif_neg ?_]
    · exact hdigit
    · intro hupper
      have hlow : 65 ≤ c.toNat := UInt32.le_iff_toNat_le.mp hupper.1
      omega
  rw [heq] at hletters
  exact absurd (hlower.symm.trans hletters) (by decide)

/-- A printed number is read as the double nearest to what was printed. -/
theorem float_showFixed {decimals : ℕ} (hpos : 0 < decimals) (value : Double) :
    float (showFixed decimals value) = some (rounded decimals value) := by
  have hsame : (showFixed decimals value).map asciiDigit = (showFixed decimals value).map id :=
    List.map_congr_left fun c hc => (isNumberChar_plain (showFixed_chars hc)).2.1
  have hascii : (showFixed decimals value).map asciiDigit = showFixed decimals value :=
    hsame.trans (List.map_id _)
  have hplain : dropUnderscores (showFixed decimals value) = some (showFixed decimals value) :=
    dropUnderscores_eq_self fun hmem => (isNumberChar_plain (showFixed_chars hmem)).2.2 rfl
  unfold float rounded
  rw [strip_showFixed, hascii, hplain]
  simp only [Option.bind_eq_bind, Option.bind_some, splitSign_showFixed]
  cases hmagnitude : value.magnitude with
  | infinite => rfl
  | nan => rfl
  | finite x =>
    have hread := wholeDecimal_padded hpos (roundHalfEven ((x : ℚ) * 10 ^ decimals)).toNat
    have hfirst : ∃ c rest, showMagnitude decimals (.finite x) = c :: rest ∧ c.isDigit = true := by
      unfold showMagnitude
      dsimp only
      cases hshow : showNat ((roundHalfEven ((x : ℚ) * 10 ^ decimals)).toNat / 10 ^ decimals) with
      | nil => exact absurd hshow (showNat_ne_nil _)
      | cons c rest => exact ⟨c, _, rfl, showNat_digits (hshow ▸ List.mem_cons_self)⟩
    have hword (word : List Char) (hletters : word.head?.any Char.isDigit = false) :
        (showMagnitude decimals (.finite x)).map Char.toLower ≠ word := map_toLower_ne hfirst hletters
    rw [if_neg ?_, if_neg (hword _ rfl)]
    · unfold showMagnitude
      dsimp only
      rw [hread]
      have hnonneg := roundHalfEven_nonneg (x := (x : ℚ) * 10 ^ decimals) (by positivity)
      have hcast : ((roundHalfEven ((x : ℚ) * 10 ^ decimals)).toNat : ℚ) =
          (roundHalfEven ((x : ℚ) * 10 ^ decimals) : ℚ) := by
        exact_mod_cast Int.toNat_of_nonneg hnonneg
      rw [hcast]
      rfl
    · intro hmem
      rcases List.mem_cons.mp hmem with heq | hmem
      · exact hword _ rfl heq
      · exact hword _ rfl (List.mem_singleton.mp hmem)

/-- A printed count is read as the double nearest to it. -/
theorem float_showNat (value : ℕ) : float (showNat value) = some ⟨false, doubleOf value⟩ := by
  have hchars : ∀ c ∈ showNat value, isNumberChar c = true := fun c hc => by simp [isNumberChar, showNat_digits hc]
  have hfirst : ∃ c rest, showNat value = c :: rest ∧ c.isDigit = true := by
    cases hshow : showNat value with
    | nil => exact absurd hshow (showNat_ne_nil value)
    | cons c rest => exact ⟨c, rest, rfl, showNat_digits (hshow ▸ List.mem_cons_self)⟩
  have hstrip : strip (showNat value) = showNat value := trim_eq_self fun c hc => (isNumberChar_plain (hchars c hc)).1
  have hascii : (showNat value).map asciiDigit = showNat value :=
    (List.map_congr_left fun c hc => (isNumberChar_plain (hchars c hc)).2.1).trans (List.map_id _)
  have hplain : dropUnderscores (showNat value) = some (showNat value) :=
    dropUnderscores_eq_self fun hmem => (isNumberChar_plain (hchars _ hmem)).2.2 rfl
  have hread : wholeDecimal (showNat value) = some (value : ℚ) := by
    have hwhole := @wholeDecimal_pointed (showNat value) [] [] 0 (fun c hc => showNat_digits hc) (showNat_ne_nil _)
      (fun c hc => absurd hc List.not_mem_nil) (by simp [EndsDigits]) rfl
    have hdigits : Nat.ofDigitChars 10 (showNat value) 0 = value := Nat.ofDigitChars_ten_toDigits
    rw [List.append_nil, pointed, if_pos rfl, List.append_nil, hdigits] at hwhole
    simpa using hwhole
  unfold float
  rw [hstrip, hascii, hplain]
  simp only [Option.bind_eq_bind, Option.bind_some, splitSign_showNat]
  rw [if_neg ?_, if_neg (map_toLower_ne hfirst rfl), hread]
  · rfl
  · intro hmem
    rcases List.mem_cons.mp hmem with heq | hmem
    · exact map_toLower_ne hfirst rfl heq
    · exact map_toLower_ne hfirst rfl (List.mem_singleton.mp hmem)

/-- A text whose first and last characters are not of the class is its own trim. -/
theorem trim_eq_self_of_ends {blank : Char → Bool} {text : List Char}
    (hfirst : ∀ c ∈ text.head?, blank c = false) (hlast : ∀ c ∈ text.getLast?, blank c = false) :
    trim blank text = text := by
  have hdrop (l : List Char) (h : ∀ c ∈ l.head?, blank c = false) : l.dropWhile blank = l := by
    cases l with
    | nil => rfl
    | cons c l => exact List.dropWhile_cons_of_neg (by simp [h c rfl])
  rw [trim, hdrop text hfirst, hdrop text.reverse (by rwa [List.head?_reverse]), List.reverse_reverse]

/-- A text that is its own trim has neither a first nor a last character of the class. -/
theorem ends_of_trim_eq_self {blank : Char → Bool} {text : List Char} (h : trim blank text = text) :
    (∀ c ∈ text.head?, blank c = false) ∧ ∀ c ∈ text.getLast?, blank c = false := by
  have hhead (l : List Char) : ∀ c ∈ (l.dropWhile blank).head?, blank c = false := by
    intro c hc
    induction l with
    | nil => cases hc
    | cons d l ih =>
      by_cases hd : blank d = true
      · rw [List.dropWhile_cons_of_pos hd] at hc
        exact ih hc
      · rw [List.dropWhile_cons_of_neg hd] at hc
        cases hc
        simpa using hd
  have hback : ((text.dropWhile blank).reverse.dropWhile blank) = text.reverse := by
    rw [← List.reverse_eq_iff]
    exact h
  have hlast : ∀ c ∈ text.reverse.head?, blank c = false := hback ▸ hhead (text.dropWhile blank).reverse
  refine ⟨?_, by rwa [List.head?_reverse] at hlast⟩
  -- nothing can have been dropped in front: the trim would be shorter
  have hlength : text.length ≤ (text.dropWhile blank).length := by
    have hle := ((List.dropWhile_sublist blank).length_le : _ ≤ (text.dropWhile blank).reverse.length)
    rw [hback, List.length_reverse, List.length_reverse] at hle
    exact hle
  have hsame : text.dropWhile blank = text := (List.dropWhile_sublist blank).eq_of_length_le hlength
  rw [← hsame]
  exact hhead text

/-- White space in front of a text is stripped. -/
theorem strip_append_left {front text : List Char} (h : ∀ c ∈ front, isSpace c = true) :
    strip (front ++ text) = strip text := trim_append_left h

/-- White space after a text is stripped. -/
theorem strip_append_right {text back : List Char} (h : ∀ c ∈ back, isSpace c = true) :
    strip (text ++ back) = strip text := trim_append_right h

/-- What stands around the stripped text is white space. -/
theorem exists_strip (text : List Char) : ∃ front back, text = front ++ strip text ++ back ∧
    (∀ c ∈ front, isSpace c = true) ∧ ∀ c ∈ back, isSpace c = true := padded_trim isSpace text

/-- What stands in front of a text without a separator goes to its first piece. -/
theorem splitOn_append_left {separator : Char} {front : List Char} (h : separator ∉ front) (text : List Char) :
    (front ++ text).splitOn separator = (text.splitOn separator).modifyHead (front ++ ·) := by
  induction front with
  | nil => exact (congrFun List.modifyHead_id _).symm
  | cons c front ih =>
    have hc : (c == separator) = false := beq_eq_false_iff_ne.mpr fun heq => h (heq ▸ List.mem_cons_self)
    rw [List.cons_append, List.splitOn_cons_eq_if_modifyHead, hc, ih fun hmem => h (List.mem_cons_of_mem c hmem)]
    simp only [Bool.false_eq_true, if_false, List.modifyHead_modifyHead]
    rfl

/-- What stands after a text without a separator goes to its last piece. -/
theorem splitOn_append_right {separator : Char} {back : List Char} (h : separator ∉ back) (text : List Char) :
    ∃ init last, text.splitOn separator = init ++ [last] ∧
      (text ++ back).splitOn separator = init ++ [last ++ back] := by
  induction text with
  | nil => exact ⟨[], [], rfl, List.splitOn_eq_singleton h⟩
  | cons c text ih =>
    obtain ⟨init, last, htext, hboth⟩ := ih
    rw [List.cons_append, List.splitOn_cons_eq_if_modifyHead, List.splitOn_cons_eq_if_modifyHead, htext, hboth]
    cases hc : c == separator with
    | true => exact ⟨[] :: init, last, by simp, by simp⟩
    | false =>
      cases init with
      | nil => exact ⟨[], c :: last, by simp, by simp⟩
      | cons first init => exact ⟨(c :: first) :: init, last, by simp, by simp⟩

/-- Stripping a text and then its pieces is stripping its pieces. -/
theorem map_strip_splitOn {separator : Char} (h : isSpace separator = false) (text : List Char) :
    ((strip text).splitOn separator).map strip = (text.splitOn separator).map strip := by
  obtain ⟨front, back, htext, hfront, hback⟩ := exists_strip text
  have hnot {edge : List Char} (hedge : ∀ c ∈ edge, isSpace c = true) : separator ∉ edge :=
    fun hmem => absurd (h.symm.trans (hedge separator hmem)) Bool.false_ne_true
  obtain ⟨init, last, hcore, hboth⟩ := splitOn_append_right (hnot hback) (strip text)
  conv_rhs => rw [htext, List.append_assoc, splitOn_append_left (hnot hfront), hboth]
  rw [hcore]
  cases init with
  | nil => simp [strip_append_left hfront, strip_append_right hback]
  | cons first init => simp [strip_append_left hfront, strip_append_right hback]

/-- Stripping twice is stripping once. -/
theorem strip_strip (text : List Char) : strip (strip text) = strip text := trim_trim isSpace text

/-- An integer is read with white space around it. -/
theorem int_strip (text : List Char) : int (strip text) = int text := by
  unfold int
  rw [strip_strip]

/-- Splitting gives the pieces that are read up to a delimiter, and an empty one after a delimiter at the end. -/
theorem splitOn_eq_getlines (delimiter : Char) (text : List Char) :
    text.splitOn delimiter = getlines delimiter text ∨
      text.splitOn delimiter = getlines delimiter text ++ [[]] := by
  induction text with
  | nil => exact Or.inr rfl
  | cons c rest ih =>
    rw [List.splitOn_cons_eq_if_modifyHead, getlines]
    by_cases hc : c = delimiter
    · rw [if_pos (beq_iff_eq.mpr hc), if_pos hc]
      exact ih.imp (congrArg ([] :: ·)) (congrArg ([] :: ·))
    · rw [if_neg (mt beq_iff_eq.mp hc), if_neg hc]
      cases hpieces : getlines delimiter rest with
      | nil =>
        rw [hpieces] at ih
        rcases ih with hnone | hempty
        · exact absurd hnone (List.splitOn_ne_nil _ _)
        · exact Or.inl (by rw [hempty]; rfl)
      | cons piece pieces =>
        rw [hpieces] at ih
        rcases ih with hsame | hmore
        · exact Or.inl (by rw [hsame]; rfl)
        · exact Or.inr (by rw [hmore]; rfl)

/-- What reading up to a delimiter and splitting both return does not end in an empty piece. -/
theorem splitOn_last_ne_nil {delimiter : Char} {text : List Char} {init : List (List Char)}
    (hsame : text.splitOn delimiter = getlines delimiter text) : text.splitOn delimiter ≠ init ++ [[]] := by
  induction text generalizing init with
  | nil => exact absurd hsame (List.splitOn_ne_nil _ _)
  | cons c rest ih =>
    rw [List.splitOn_cons_eq_if_modifyHead] at hsame ⊢
    rw [getlines] at hsame
    by_cases hc : c = delimiter
    · rw [if_pos (beq_iff_eq.mpr hc)] at hsame ⊢
      rw [if_pos hc] at hsame
      intro hlast
      cases init with
      | nil => exact List.splitOn_ne_nil _ _ (List.cons.inj hlast).2
      | cons first init => exact ih (List.cons.inj hsame).2 (List.cons.inj hlast).2
    · rw [if_neg (mt beq_iff_eq.mp hc)] at hsame ⊢
      rw [if_neg hc] at hsame
      intro hlast
      cases hpieces : rest.splitOn delimiter with
      | nil => exact List.splitOn_ne_nil _ _ hpieces
      | cons piece pieces =>
        rw [hpieces] at hlast hsame
        cases init with
        | nil => exact absurd (List.cons.inj hlast).1 (List.cons_ne_nil c piece)
        | cons first init =>
          have hpieces' : pieces = init ++ [[]] := (List.cons.inj hlast).2
          have hlast' : rest.splitOn delimiter = (piece :: init) ++ [[]] := by rw [hpieces, hpieces', List.cons_append]
          refine ih ?_ hlast'
          cases hlines : getlines delimiter rest with
          | nil =>
            rw [hlines] at hsame
            rw [hpieces'] at hsame
            exact absurd (List.cons.inj hsame).2 (by simp)
          | cons line lines =>
            rw [hlines] at hsame
            have hboth := List.cons.inj hsame
            rw [hpieces, (List.cons.inj hboth.1).2, hboth.2]

/-- The capitals of ASCII. -/
def capitals : List Char := (List.range 26).map fun place => Char.ofNat (65 + place)

/-- Lower case changes capitals only. -/
theorem toLower_eq_or_mem (c : Char) : c.toLower = c ∨ c ∈ capitals := by
  by_cases h : c.val ≥ 'A'.val ∧ c.val ≤ 'Z'.val
  · have hlow : 65 ≤ c.toNat := UInt32.le_iff_toNat_le.mp h.1
    have hhigh : c.toNat ≤ 90 := UInt32.le_iff_toNat_le.mp h.2
    have hplace : 65 + (c.toNat - 65) = c.toNat := by omega
    refine Or.inr (List.mem_map.mpr ⟨c.toNat - 65, List.mem_range.mpr (by omega), ?_⟩)
    rw [hplace, Char.ofNat_toNat]
  · left
    exact dif_neg h

/-- The ranges of the digits. -/
def digitRanges : List (ℕ × ℕ) := decimalZeros.map (fun first => (first, first + 9)) ++ otherDigits

/-- A digit is in one of the ranges. -/
theorem exists_digitRange {c : Char} (h : isDigit c = true) :
    ∃ range ∈ digitRanges, range.1 ≤ c.toNat ∧ c.toNat ≤ range.2 := by
  rcases Bool.or_eq_true_iff.mp h with hdecimal | hother
  · unfold decimalValue at hdecimal
    rw [Option.isSome_map, List.find?_isSome] at hdecimal
    obtain ⟨first, hfirst, hwithin⟩ := hdecimal
    have hwithin := of_decide_eq_true hwithin
    exact ⟨(first, first + 9), List.mem_append_left _ (List.mem_map_of_mem hfirst), hwithin.1, by omega⟩
  · obtain ⟨range, hrange, hwithin⟩ := List.any_eq_true.mp hother
    exact ⟨range, List.mem_append_right _ hrange, of_decide_eq_true hwithin⟩

/-- No digit is white space. -/
theorem isSpace_of_digit {c : Char} (h : isDigit c = true) : isSpace c = false := by
  obtain ⟨range, hrange, hlow, hhigh⟩ := exists_digitRange h
  have hapart : ∀ range ∈ digitRanges, (range.2 < 9 ∨ 13 < range.1) ∧ (range.2 < 28 ∨ 32 < range.1) ∧
      (range.2 < 0x2000 ∨ 0x200A < range.1) ∧
      ∀ code ∈ [0x85, 0xA0, 0x1680, 0x2028, 0x2029, 0x202F, 0x205F, 0x3000], range.2 < code ∨ code < range.1 := by
    decide
  obtain ⟨hcontrol, hseparator, hwide, hother⟩ := hapart range hrange
  unfold isSpace
  dsimp only
  simp only [Bool.or_eq_false_iff, decide_eq_false_iff_not]
  refine ⟨⟨⟨by omega, by omega⟩, by omega⟩, fun hmem => ?_⟩
  have hcode := hother _ hmem
  omega

/-- The digits after a first one, without underscores. -/
theorem moreDigits_eq {text : List Char} (h : '_' ∉ text) : moreDigits text = text.mapM decimalValue := by
  induction text with
  | nil => rfl
  | cons c rest ih =>
    have hne : c ≠ '_' := fun heq => h (heq ▸ List.mem_cons_self)
    unfold moreDigits
    split
    · rename_i heq
      cases heq
    · rename_i heq
      exact absurd (List.cons.inj heq).1 hne
    · rename_i heq
      obtain ⟨rfl, rfl⟩ := List.cons.inj heq
      rw [ih fun hmem => h (List.mem_cons_of_mem _ hmem), List.mapM_cons]

/-- What is left of a text that starts with a digit when its sign is taken off. -/
theorem splitSign_of_isDigits {text : List Char} (h : ∀ c ∈ text, isDigit c = true) :
    splitSign text = (false, text) := by
  cases text with
  | nil => rfl
  | cons c rest =>
    have hc := h c List.mem_cons_self
    unfold splitSign
    split
    · rename_i heq
      rw [(List.cons.inj heq).1] at hc
      exact absurd hc (by decide)
    · rename_i heq
      rw [(List.cons.inj heq).1] at hc
      exact absurd hc (by decide)
    · rfl

/-- The number that decimal digits of any script write. -/
def digitsNat (text : List Char) : ℕ := text.foldl (fun value c => 10 * value + (decimalValue c).getD 0) 0

/-- Decimal digits have values; anything else among them has none. -/
theorem mapM_decimalValue (text : List Char) : text.mapM decimalValue =
    if text.all (fun c => (decimalValue c).isSome) then some (text.map fun c => (decimalValue c).getD 0) else none := by
  induction text with
  | nil => rfl
  | cons c rest ih =>
    rw [List.mapM_cons, ih]
    cases hc : decimalValue c with
    | none => simp [hc]
    | some digit =>
      by_cases hrest : rest.all (fun c => (decimalValue c).isSome) = true
      · simp [hc, hrest]
      · simp [hc, Bool.eq_false_iff.mpr hrest]

/-- Digits are read as an integer exactly when all of them are decimal and they are not too many. -/
theorem int_of_isDigits {text : List Char} (h : isDigits text = true) :
    int text = if (text.all fun c => (decimalValue c).isSome) && decide (text.length ≤ maxStrDigits) then
      some (digitsNat text : ℤ) else none := by
  obtain ⟨hne, hdigits⟩ := (Bool.and_eq_true _ _).mp h |>.imp of_decide_eq_true List.all_eq_true.mp
  have hstrip : strip text = text := trim_eq_self fun c hc => isSpace_of_digit (hdigits c hc)
  have hunderscore : '_' ∉ text := fun hmem => absurd (hdigits _ hmem) (by decide)
  have hrow : digitRow text = text.mapM decimalValue := by
    cases text with
    | nil => exact absurd rfl hne
    | cons c rest =>
      unfold digitRow
      dsimp only
      rw [moreDigits_eq fun hmem => hunderscore (List.mem_cons_of_mem c hmem), List.mapM_cons]
  unfold int
  rw [hstrip, splitSign_of_isDigits hdigits]
  dsimp only
  rw [hrow, mapM_decimalValue]
  by_cases hall : (text.all fun c => (decimalValue c).isSome) = true
  · rw [hall, if_pos rfl]
    by_cases hshort : text.length ≤ maxStrDigits
    · have hvalue : (text.map fun c => (decimalValue c).getD 0).foldl (fun value digit => 10 * value + digit) 0 =
          digitsNat text := List.foldl_map
      simp [hshort, not_lt.mpr hshort, hvalue]
    · simp [hshort, not_le.mp hshort]
  · simp [Bool.eq_false_iff.mpr hall]

end Coatheal.Library.PyText
