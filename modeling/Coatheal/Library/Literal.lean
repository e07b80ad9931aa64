import Coatheal.Library.PyText

/-!
# Integers with a base of their own

A stream that is told no base takes the base from the number: `0x` for hexadecimal, `0` for octal, else
decimal. Python's `int` with base zero does too, but has other prefixes, underscores and no octal zero. A
number that both read is the same in both, unless it has a minus sign, which wraps in an unsigned reading.
-/

namespace Coatheal.Library.Literal

open Text PyText

/-- The value of a digit in a base. -/
def digitIn (base : ℕ) (c : Char) : Option ℕ :=
  let code := c.toNat
  let value := if c.isDigit then code - 48 else if 97 ≤ code ∧ code ≤ 102 then code - 87
    else if 65 ≤ code ∧ code ≤ 70 then code - 55 else base
  if value < base then some value else none

/-- The number that digits write. -/
def valueIn (base : ℕ) (digits : List ℕ) : ℕ := digits.foldl (fun value digit => base * value + digit) 0

/-- A nonempty row of digits. -/
def numberIn (base : ℕ) (text : List Char) : Option ℕ :=
  if text = [] then none else (text.mapM (digitIn base)).map (valueIn base)

/-- A number without its sign, as a stream without a base reads it. -/
def streamMagnitude : List Char → Option ℕ
  | '0' :: c :: rest => if c = 'x' ∨ c = 'X' then numberIn 16 rest else numberIn 8 (c :: rest)
  | text => numberIn 10 text

/-- An unsigned number of 64 bits, as a stream without a base reads it. -/
def streamSize (text : List Char) : Option ℕ :=
  let (negative, body) := splitSign text
  (streamMagnitude body).bind fun magnitude =>
    if magnitude < 2 ^ 64 then some (if negative then (2 ^ 64 - magnitude) % 2 ^ 64 else magnitude) else none

/-- Digits after a first one, with single underscores between digits. -/
def moreIn (base : ℕ) : List Char → Option (List ℕ)
  | [] => some []
  | '_' :: c :: rest => do return (← digitIn base c) :: (← moreIn base rest)
  | c :: rest => do return (← digitIn base c) :: (← moreIn base rest)

/-- A nonempty row of digits with single underscores between them. -/
def rowIn (base : ℕ) : List Char → Option (List ℕ)
  | [] => none
  | c :: rest => do return (← digitIn base c) :: (← moreIn base rest)

/-- Digits after a prefix, which an underscore may follow. -/
def prefixed (base : ℕ) (text : List Char) : Option ℕ :=
  (rowIn base (if text.head? = some '_' then text.tail else text)).map (valueIn base)

/-- Decimal digits, not too many. -/
def decimalRow (text : List Char) : Option ℕ := do
  let digits ← rowIn 10 text
  if maxStrDigits < digits.length then none else return valueIn 10 digits

/-- A number without its sign, for `int` with base zero. -/
def literalMagnitude : List Char → Option ℕ
  | '0' :: c :: rest =>
    if c = 'x' ∨ c = 'X' then prefixed 16 rest
    else if c = 'o' ∨ c = 'O' then prefixed 8 rest
    else if c = 'b' ∨ c = 'B' then prefixed 2 rest
    else (decimalRow ('0' :: c :: rest)).bind fun value => if value = 0 then some 0 else none
  | text => decimalRow text

/-- `int` with base zero. -/
def intLiteral (text : List Char) : Option ℤ :=
  let (negative, body) := splitSign ((strip text).map asciiDigit)
  (literalMagnitude body).map fun magnitude : ℕ => if negative then -(magnitude : ℤ) else magnitude

/-- The digits of bases up to sixteen. -/
def hexDigits : List Char := "0123456789abcdefABCDEF".toList

/-- A digit is one of them. -/
theorem mem_hexDigits {base : ℕ} {c : Char} (h : (digitIn base c).isSome = true) : c ∈ hexDigits := by
  have hself : Char.ofNat c.toNat = c := Char.ofNat_toNat c
  have hcodes : ∀ code < 103, (48 ≤ code ∧ code ≤ 57) ∨ (97 ≤ code ∧ code ≤ 102) ∨ (65 ≤ code ∧ code ≤ 70) →
      Char.ofNat code ∈ hexDigits := by decide
  have hrange : (48 ≤ c.toNat ∧ c.toNat ≤ 57) ∨ (97 ≤ c.toNat ∧ c.toNat ≤ 102) ∨ (65 ≤ c.toNat ∧ c.toNat ≤ 70) := by
    unfold digitIn at h
    dsimp only at h
    by_cases hdigit : c.isDigit = true
    · exact Or.inl (toNat_of_isDigit hdigit)
    rw [if_neg hdigit] at h
    by_cases hlower : 97 ≤ c.toNat ∧ c.toNat ≤ 102
    · exact Or.inr (Or.inl hlower)
    rw [if_neg hlower] at h
    by_cases hupper : 65 ≤ c.toNat ∧ c.toNat ≤ 70
    · exact Or.inr (Or.inr hupper)
    · rw [if_neg hupper, if_neg (lt_irrefl base)] at h
      exact absurd h (by simp)
  rw [← hself]
  exact hcodes c.toNat (by omega) hrange

/-- A digit is no white space, no underscore and no sign, and stays as it is. -/
theorem hexDigit_plain {c : Char} (h : c ∈ hexDigits) :
    Text.isSpace c = false ∧ PyText.isSpace c = false ∧ asciiDigit c = c ∧ c ≠ '_' ∧ c ≠ '-' ∧ c ≠ '+' := by
  have hall : ∀ c ∈ hexDigits,
      Text.isSpace c = false ∧ PyText.isSpace c = false ∧ asciiDigit c = c ∧ c ≠ '_' ∧ c ≠ '-' ∧ c ≠ '+' :=
    forall_mem_of_all (by decide)
  exact hall c h

/-- Without underscores the digits are read one by one. -/
theorem moreIn_eq {base : ℕ} {text : List Char} (h : '_' ∉ text) : moreIn base text = text.mapM (digitIn base) := by
  induction text with
  | nil => rfl
  | cons c rest ih =>
    have hne : c ≠ '_' := fun heq => h (heq ▸ List.mem_cons_self)
    unfold moreIn
    split
    · rename_i heq
      cases heq
    · rename_i heq
      exact absurd (List.cons.inj heq).1 hne
    · rename_i heq
      obtain ⟨rfl, rfl⟩ := List.cons.inj heq
      rw [ih fun hmem => h (List.mem_cons_of_mem _ hmem), List.mapM_cons]

/-- Without underscores a row of digits is read digit by digit. -/
theorem rowIn_eq {base : ℕ} {text : List Char} (h : '_' ∉ text) (hne : text ≠ []) :
    rowIn base text = text.mapM (digitIn base) := by
  cases text with
  | nil => exact absurd rfl hne
  | cons c rest => rw [rowIn, moreIn_eq fun hmem => h (List.mem_cons_of_mem c hmem), List.mapM_cons]

/-- What is read digit by digit has a digit at each place. -/
theorem isSome_of_mapM {α : Type*} {f : Char → Option α} {text : List Char} {values : List α}
    (h : text.mapM f = some values) : ∀ c ∈ text, (f c).isSome = true := by
  induction text generalizing values with
  | nil => exact fun c hc => absurd hc List.not_mem_nil
  | cons c rest ih =>
    rw [List.mapM_cons] at h
    obtain ⟨value, hvalue, h⟩ := Option.bind_eq_some_iff.mp h
    obtain ⟨more, hmore, -⟩ := Option.bind_eq_some_iff.mp h
    intro d hd
    rcases List.mem_cons.mp hd with rfl | hd
    · rw [hvalue]
      rfl
    · exact ih hmore d hd

/-- A number is a nonempty row of digits. -/
theorem numberIn_eq_some {base value : ℕ} {text : List Char} (h : numberIn base text = some value) :
    text ≠ [] ∧ ∃ digits, text.mapM (digitIn base) = some digits ∧ valueIn base digits = value := by
  unfold numberIn at h
  split at h
  case isTrue => cases h
  case isFalse hne => exact ⟨hne, Option.map_eq_some_iff.mp h⟩

/-- The characters of a number are digits. -/
theorem mem_of_numberIn {base value : ℕ} {text : List Char} (h : numberIn base text = some value) :
    ∀ c ∈ text, c ∈ hexDigits := by
  obtain ⟨-, digits, hdigits, -⟩ := numberIn_eq_some h
  exact fun c hc => mem_hexDigits (isSome_of_mapM hdigits c hc)

/-- A digit of a base is one of a greater base. -/
theorem digitIn_mono {low high digit : ℕ} {c : Char} (hle : low ≤ high) (h : digitIn low c = some digit) :
    digitIn high c = some digit := by
  unfold digitIn at h ⊢
  dsimp only at h ⊢
  have hwithin (value : ℕ) (hvalue : (if value < low then some value else none) = some digit) :
      (if value < high then some value else none) = some digit := by
    split at hvalue
    case isTrue hlt => rw [if_pos (hlt.trans_le hle), hvalue]
    case isFalse => cases hvalue
  by_cases hdigit : c.isDigit = true
  · rw [if_pos hdigit] at h ⊢
    exact hwithin _ h
  rw [if_neg hdigit] at h ⊢
  by_cases hlower : 97 ≤ c.toNat ∧ c.toNat ≤ 102
  · rw [if_pos hlower] at h ⊢
    exact hwithin _ h
  rw [if_neg hlower] at h ⊢
  by_cases hupper : 65 ≤ c.toNat ∧ c.toNat ≤ 70
  · rw [if_pos hupper] at h ⊢
    exact hwithin _ h
  · rw [if_neg hupper, if_neg (lt_irrefl low)] at h
    cases h

/-- Digits of a base are digits of a greater base. -/
theorem mapM_digitIn_mono {low high : ℕ} {text : List Char} {digits : List ℕ} (hle : low ≤ high)
    (h : text.mapM (digitIn low) = some digits) : text.mapM (digitIn high) = some digits := by
  induction text generalizing digits with
  | nil => exact h
  | cons c rest ih =>
    rw [List.mapM_cons] at h ⊢
    obtain ⟨digit, hdigit, h⟩ := Option.bind_eq_some_iff.mp h
    obtain ⟨more, hmore, h⟩ := Option.bind_eq_some_iff.mp h
    rw [digitIn_mono hle hdigit, ih hmore]
    exact h

/-- Digits write no less in a greater base. -/
theorem valueIn_mono {low high : ℕ} (hle : low ≤ high) (digits : List ℕ) : valueIn low digits ≤ valueIn high digits := by
  have hfold (small great : ℕ) (h : small ≤ great) :
      digits.foldl (fun value digit => low * value + digit) small ≤
        digits.foldl (fun value digit => high * value + digit) great := by
    induction digits generalizing small great with
    | nil => exact h
    | cons digit digits ih => exact ih _ _ (Nat.add_le_add_right (Nat.mul_le_mul hle h) digit)
  exact hfold 0 0 le_rfl

/-- The characters of a number with its prefix. -/
theorem mem_of_streamMagnitude {text : List Char} {magnitude : ℕ} (h : streamMagnitude text = some magnitude) :
    ∀ c ∈ text, c ∈ hexDigits ∨ c = 'x' ∨ c = 'X' := by
  unfold streamMagnitude at h
  intro d hd
  split at h
  case h_1 c rest =>
    rcases List.mem_cons.mp hd with rfl | hd
    · exact Or.inl (by decide)
    split at h
    case isTrue hx =>
      rcases List.mem_cons.mp hd with rfl | hd
      · exact Or.inr hx
      · exact Or.inl (mem_of_numberIn h d hd)
    case isFalse => exact Or.inl (mem_of_numberIn h d hd)
  case h_2 => exact Or.inl (mem_of_numberIn h d hd)

/-- A prefix does not change what the digits after it write. -/
theorem prefixed_eq {base value : ℕ} {text : List Char} (h : numberIn base text = some value) :
    prefixed base text = some value := by
  obtain ⟨hne, digits, hdigits, rfl⟩ := numberIn_eq_some h
  have hunderscore : '_' ∉ text := fun hmem => (hexDigit_plain (mem_of_numberIn h '_' hmem)).2.2.2.1 rfl
  have hhead : ¬ text.head? = some '_' := fun hhead => hunderscore (List.mem_of_head? hhead)
  unfold prefixed
  rw [if_neg hhead, rowIn_eq hunderscore hne, hdigits]
  rfl

/-- Decimal digits are read as the number they write, if at all. -/
theorem decimalRow_eq {text : List Char} {digits : List ℕ} {value : ℕ} (hdigits : text.mapM (digitIn 10) = some digits)
    (hne : text ≠ []) (h : decimalRow text = some value) : value = valueIn 10 digits := by
  have hunderscore : '_' ∉ text := fun hmem =>
    (hexDigit_plain (mem_hexDigits (isSome_of_mapM hdigits '_' hmem))).2.2.2.1 rfl
  unfold decimalRow at h
  rw [rowIn_eq hunderscore hne, hdigits, Option.bind_eq_bind, Option.bind_some] at h
  split at h
  · cases h
  · exact (Option.some.inj h).symm

/-- A number that starts with a zero, for `int` with base zero. -/
theorem literalMagnitude_zero (c : Char) (rest : List Char) : literalMagnitude ('0' :: c :: rest) =
    if c = 'x' ∨ c = 'X' then prefixed 16 rest
    else if c = 'o' ∨ c = 'O' then prefixed 8 rest
    else if c = 'b' ∨ c = 'B' then prefixed 2 rest
    else (decimalRow ('0' :: c :: rest)).bind fun value => if value = 0 then some 0 else none := rfl

/-- A number without its sign that both read is the same in both. -/
theorem literalMagnitude_eq {text : List Char} {magnitude value : ℕ} (h : streamMagnitude text = some magnitude)
    (hvalue : literalMagnitude text = some value) : value = magnitude := by
  unfold streamMagnitude at h
  split at h
  case h_1 c rest =>
    rw [literalMagnitude_zero] at hvalue
    by_cases hx : c = 'x' ∨ c = 'X'
    · rw [if_pos hx] at h hvalue
      rw [prefixed_eq h] at hvalue
      exact (Option.some.inj hvalue).symm
    · rw [if_neg hx] at h hvalue
      obtain ⟨-, digits, hdigits, rfl⟩ := numberIn_eq_some h
      have hfirst : (digitIn 8 c).isSome = true := isSome_of_mapM hdigits c List.mem_cons_self
      have hletters : ¬ (c = 'o' ∨ c = 'O') ∧ ¬ (c = 'b' ∨ c = 'B') := by
        refine ⟨?_, ?_⟩
        all_goals
          rintro (rfl | rfl)
          all_goals exact absurd hfirst (by decide)
      rw [if_neg hletters.1, if_neg hletters.2] at hvalue
      obtain ⟨decimal, hdecimal, hzero⟩ := Option.bind_eq_some_iff.mp hvalue
      have hten : ('0' :: c :: rest).mapM (digitIn 10) = some (0 :: digits) := by
        rw [List.mapM_cons, mapM_digitIn_mono (by decide) hdigits]
        rfl
      have hsame : decimal = valueIn 10 (0 :: digits) := decimalRow_eq hten (List.cons_ne_nil _ _) hdecimal
      split at hzero
      case isTrue hnone =>
        have hle : valueIn 8 digits ≤ valueIn 10 (0 :: digits) := valueIn_mono (by decide) digits
        have hvalue := Option.some.inj hzero
        omega
      case isFalse => cases hzero
  case h_2 hother =>
    obtain ⟨hne, digits, hdigits, rfl⟩ := numberIn_eq_some h
    unfold literalMagnitude at hvalue
    split at hvalue
    · exact absurd rfl (hother _ _)
    · exact decimalRow_eq hdigits hne hvalue

/-- Only a sign is split off. -/
theorem mem_of_splitSign {text body : List Char} {negative : Bool} (h : splitSign text = (negative, body)) :
    ∀ c ∈ text, c ∈ body ∨ c = '-' ∨ c = '+' := by
  intro c hc
  unfold splitSign at h
  split at h
  · obtain ⟨-, rfl⟩ := Prod.mk.inj h
    exact (List.mem_cons.mp hc).symm.imp_right Or.inl
  · obtain ⟨-, rfl⟩ := Prod.mk.inj h
    exact (List.mem_cons.mp hc).symm.imp_right Or.inr
  · obtain ⟨-, rfl⟩ := Prod.mk.inj h
    exact Or.inl hc

/-- What a stream reads as a number has no white space, and its digits are of ASCII. -/
theorem plain_of_streamSize {text : List Char} {value : ℕ} (h : streamSize text = some value) :
    strip text = text ∧ text.map asciiDigit = text := by
  have hplain : ∀ c ∈ text, PyText.isSpace c = false ∧ asciiDigit c = c := by
    intro c hc
    unfold streamSize at h
    cases hsplit : splitSign text with
    | mk negative body =>
      rw [hsplit] at h
      obtain ⟨magnitude, hmagnitude, -⟩ := Option.bind_eq_some_iff.mp h
      rcases mem_of_splitSign hsplit c hc with hbody | rfl | rfl
      · rcases mem_of_streamMagnitude hmagnitude c hbody with hdigit | rfl | rfl
        · exact ⟨(hexDigit_plain hdigit).2.1, (hexDigit_plain hdigit).2.2.1⟩
        · decide
        · decide
      · decide
      · decide
  have hsame : ∀ c ∈ text, asciiDigit c = id c := fun c hc => (hplain c hc).2
  refine ⟨trim_eq_self fun c hc => (hplain c hc).1, ?_⟩
  rw [List.map_congr_left hsame, List.map_id]

/-- A number that both read is the same in both, unless it has a minus sign. -/
theorem intLiteral_of_streamSize {text : List Char} {value : ℕ} {read : ℤ} (h : streamSize text = some value)
    (hread : intLiteral text = some read) : read = value ∨ read < 0 := by
  obtain ⟨hstrip, hascii⟩ := plain_of_streamSize h
  unfold intLiteral at hread
  unfold streamSize at h
  rw [hstrip, hascii] at hread
  cases hsplit : splitSign text with
  | mk negative body =>
    rw [hsplit] at h hread
    obtain ⟨magnitude, hmagnitude, h⟩ := Option.bind_eq_some_iff.mp h
    obtain ⟨literal, hliteral, rfl⟩ := Option.map_eq_some_iff.mp hread
    obtain rfl := literalMagnitude_eq hmagnitude hliteral
    split at h
    case isFalse => cases h
    case isTrue hfits =>
      obtain rfl := Option.some.inj h
      cases negative with
      | false => exact Or.inl rfl
      | true =>
        by_cases hzero : literal = 0
        · left
          subst hzero
          rfl
        · right
          simp only [if_true]
          omega

/-- Reading with functions that agree on the text. -/
theorem mapM_congr {α : Type*} {f g : Char → Option α} {text : List Char} (h : ∀ c ∈ text, f c = g c) :
    text.mapM f = text.mapM g := by
  induction text with
  | nil => rfl
  | cons c rest ih =>
    rw [List.mapM_cons, List.mapM_cons, h c List.mem_cons_self, ih fun d hd => h d (List.mem_cons_of_mem c hd)]

/-- Digits of a base up to ten are read by `int` as they are. -/
theorem digitRow_eq {text : List Char} {values digits : List ℕ} (h : digitRow text = some values)
    (hdigits : text.mapM (digitIn 10) = some digits) : values = digits := by
  have hhex : ∀ c ∈ text, c ∈ hexDigits := fun c hc => mem_hexDigits (isSome_of_mapM hdigits c hc)
  have hunderscore : '_' ∉ text := fun hmem => (hexDigit_plain (hhex '_' hmem)).2.2.2.1 rfl
  have hsame : ∀ c ∈ hexDigits, decimalValue c = digitIn 10 c := forall_mem_of_all (by decide)
  cases text with
  | nil => cases h
  | cons c rest =>
    have hrow : digitRow (c :: rest) = (c :: rest).mapM decimalValue := by
      rw [digitRow, moreDigits_eq fun hmem => hunderscore (List.mem_cons_of_mem c hmem), List.mapM_cons]
    rw [hrow, mapM_congr fun d hd => hsame d (hhex d hd), hdigits] at h
    exact (Option.some.inj h).symm

/-- The decimal reading of a number is no less than the stream's. -/
theorem le_of_digitRow {text : List Char} {magnitude : ℕ} {values : List ℕ}
    (h : streamMagnitude text = some magnitude) (hvalues : digitRow text = some values) :
    magnitude ≤ valueIn 10 values := by
  unfold streamMagnitude at h
  split at h
  case h_1 c rest =>
    by_cases hx : c = 'x' ∨ c = 'X'
    · -- an `x` is no decimal digit
      have hnone : digitRow ('0' :: c :: rest) = none := by
        rcases hx with rfl | rfl
        · rfl
        · rfl
      rw [hnone] at hvalues
      cases hvalues
    · rw [if_neg hx] at h
      obtain ⟨-, digits, hdigits, rfl⟩ := numberIn_eq_some h
      have hten : ('0' :: c :: rest).mapM (digitIn 10) = some (0 :: digits) := by
        rw [List.mapM_cons, mapM_digitIn_mono (by decide) hdigits]
        rfl
      rw [digitRow_eq hvalues hten]
      exact valueIn_mono (by decide) digits
  case h_2 =>
    obtain ⟨-, digits, hdigits, rfl⟩ := numberIn_eq_some h
    rw [digitRow_eq hvalues hdigits]

/-- A number that a stream and the decimal `int` read is negative for `int`, or no less than for the stream. -/
theorem int_of_streamSize {text : List Char} {value : ℕ} {read : ℤ} (h : streamSize text = some value)
    (hread : int text = some read) : read < 0 ∨ (value : ℤ) ≤ read := by
  obtain ⟨hstrip, -⟩ := plain_of_streamSize h
  unfold int at hread
  unfold streamSize at h
  rw [hstrip] at hread
  cases hsplit : splitSign text with
  | mk negative body =>
    rw [hsplit] at h hread
    obtain ⟨magnitude, hmagnitude, h⟩ := Option.bind_eq_some_iff.mp h
    obtain ⟨values, hvalues, hread⟩ := Option.bind_eq_some_iff.mp hread
    have hle : magnitude ≤ valueIn 10 values := le_of_digitRow hmagnitude hvalues
    split at hread
    · cases hread
    split at h
    case isFalse => cases h
    case isTrue hfits =>
      obtain rfl := Option.some.inj h
      obtain rfl := Option.some.inj hread
      have hvalue : values.foldl (fun value digit => 10 * value + digit) 0 = valueIn 10 values := rfl
      rw [hvalue]
      cases negative with
      | false =>
        right
        simp only [Bool.false_eq_true, if_false]
        exact_mod_cast hle
      | true =>
        simp only [if_true]
        by_cases hzero : valueIn 10 values = 0
        · right
          have hmagnitude : magnitude = 0 := by omega
          subst hmagnitude
          rw [hzero]
          decide
        · left
          omega

end Coatheal.Library.Literal
