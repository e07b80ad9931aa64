import Mathlib.Data.List.Basic
import Mathlib.Data.List.TakeWhile
import Mathlib.Data.Real.Basic

/-!
# Lines, fields and integers as text

Texts are lists of characters. Reading up to a delimiter, trimming, cutting at
a first delimiter and the decimal form of integers follow the standard library;
the lemmas say when what was written is read back.
-/

namespace Coatheal.Library.Text

/-- What is checked character by character holds of every character. -/
theorem forall_mem_of_all {p : Char → Prop} [DecidablePred p] {text : List Char}
    (h : (text.all fun c => p c) = true) : ∀ c ∈ text, p c := by
  simpa using h

/-- What holds of the characters of a literal holds of the literal. The kernel need not decode it then. -/
theorem of_chars (p : List Char → Prop) (chars : List Char) (h : p chars) : p (String.ofList chars).toList := by
  rwa [String.toList_ofList]

/-- The pieces that repeated reading up to a delimiter returns. A text that ends in the delimiter
has no empty last piece. -/
def getlines (delimiter : Char) : List Char → List (List Char)
  | [] => []
  | c :: rest =>
    if c = delimiter then [] :: getlines delimiter rest
    else match getlines delimiter rest with
      | [] => [[c]]
      | line :: lines => (c :: line) :: lines

/-- A piece without the delimiter, followed by it, is read first. -/
theorem getlines_append {delimiter : Char} {line : List Char} (h : delimiter ∉ line)
    (rest : List Char) :
    getlines delimiter (line ++ delimiter :: rest) = line :: getlines delimiter rest := by
  induction line with
  | nil => simp [getlines]
  | cons c line ih =>
    have hc : c ≠ delimiter := fun heq => h (heq ▸ List.mem_cons_self)
    have hline : delimiter ∉ line := fun hmem => h (List.mem_cons_of_mem _ hmem)
    rw [List.cons_append, getlines, if_neg hc, ih hline]

/-- A last piece that is not empty needs no delimiter after it. -/
theorem getlines_last {delimiter : Char} {line : List Char} (h : delimiter ∉ line)
    (hne : line ≠ []) : getlines delimiter line = [line] := by
  induction line with
  | nil => exact absurd rfl hne
  | cons c line ih =>
    have hc : c ≠ delimiter := fun heq => h (heq ▸ List.mem_cons_self)
    have hline : delimiter ∉ line := fun hmem => h (List.mem_cons_of_mem _ hmem)
    rw [getlines, if_neg hc]
    by_cases hempty : line = []
    · simp [hempty, getlines]
    · rw [ih hline hempty]

/-- A text that breaks off in its first piece gives what there is of it, and later breaks are read after
the first piece. -/
theorem getlines_take_append {delimiter : Char} {line : List Char} (h : delimiter ∉ line)
    (rest : List Char) (count : ℕ) :
    getlines delimiter ((line ++ delimiter :: rest).take count) =
      if count ≤ line.length then
        if line.take count = [] then [] else [line.take count]
      else line :: getlines delimiter (rest.take (count - line.length - 1)) := by
  rw [List.take_append]
  by_cases hshort : count ≤ line.length
  · have hnone : count - line.length = 0 := by omega
    rw [if_pos hshort, hnone, List.take_zero, List.append_nil]
    by_cases hempty : line.take count = []
    · rw [if_pos hempty, hempty]
      rfl
    · rw [if_neg hempty]
      exact getlines_last (fun hmem => h (List.mem_of_mem_take hmem)) hempty
  · have hmore : count - line.length = count - line.length - 1 + 1 := by omega
    rw [if_neg hshort, List.take_of_length_le (by omega : line.length ≤ count), hmore, List.take_succ_cons,
      getlines_append h]
    rfl

/-- Write every piece with a delimiter after it. -/
def putlines (delimiter : Char) (lines : List (List Char)) : List Char :=
  lines.flatMap fun line => line ++ [delimiter]

/-- What is written piece by piece is read back piece by piece. -/
theorem getlines_putlines {delimiter : Char} {lines : List (List Char)}
    (h : ∀ line ∈ lines, delimiter ∉ line) :
    getlines delimiter (putlines delimiter lines) = lines := by
  induction lines with
  | nil => rfl
  | cons line lines ih =>
    have htail : getlines delimiter (putlines delimiter lines) = lines :=
      ih fun l hl => h l (List.mem_cons_of_mem _ hl)
    have hhead : delimiter ∉ line := h line List.mem_cons_self
    calc getlines delimiter (putlines delimiter (line :: lines))
        = getlines delimiter (line ++ delimiter :: putlines delimiter lines) := by
          simp [putlines]
      _ = line :: lines := by rw [getlines_append hhead, htail]

/-- Pieces that were written are read before what follows them. -/
theorem getlines_putlines_append {delimiter : Char} {lines : List (List Char)}
    (h : ∀ line ∈ lines, delimiter ∉ line) (rest : List Char) :
    getlines delimiter (putlines delimiter lines ++ rest) = lines ++ getlines delimiter rest := by
  induction lines with
  | nil => rfl
  | cons line lines ih =>
    have htail := ih fun l hl => h l (List.mem_cons_of_mem _ hl)
    have hhead : delimiter ∉ line := h line List.mem_cons_self
    calc getlines delimiter (putlines delimiter (line :: lines) ++ rest)
        = getlines delimiter (line ++ delimiter :: (putlines delimiter lines ++ rest)) := by
          simp [putlines]
      _ = (line :: lines) ++ getlines delimiter rest := by rw [getlines_append hhead, htail, List.cons_append]

/-- A piece that was read has no delimiter in it. -/
theorem notMem_getlines {delimiter : Char} {text line : List Char} (h : line ∈ getlines delimiter text) :
    delimiter ∉ line := by
  induction text generalizing line with
  | nil => exact absurd h List.not_mem_nil
  | cons c rest ih =>
    rw [getlines] at h
    by_cases hc : c = delimiter
    · rw [if_pos hc] at h
      rcases List.mem_cons.mp h with rfl | hin
      · exact List.not_mem_nil
      · exact ih hin
    · rw [if_neg hc] at h
      cases hrest : getlines delimiter rest with
      | nil =>
        rw [hrest] at h
        rw [List.mem_singleton.mp h, List.mem_singleton]
        exact fun heq => hc heq.symm
      | cons first lines =>
        rw [hrest] at h ih
        rcases List.mem_cons.mp h with rfl | hin
        · intro hmem
          rcases List.mem_cons.mp hmem with heq | hfirst
          · exact hc heq.symm
          · exact ih List.mem_cons_self hfirst
        · exact ih (List.mem_cons_of_mem _ hin)

/-- The characters of a piece that was read are characters of the text. -/
theorem mem_of_mem_getlines {delimiter : Char} {text line : List Char} (h : line ∈ getlines delimiter text)
    {c : Char} (hc : c ∈ line) : c ∈ text := by
  induction text generalizing line with
  | nil => exact absurd h List.not_mem_nil
  | cons first rest ih =>
    rw [getlines] at h
    split at h
    · rcases List.mem_cons.mp h with rfl | hin
      · cases hc
      · exact List.mem_cons_of_mem _ (ih hin hc)
    · cases hrest : getlines delimiter rest with
      | nil =>
        rw [hrest] at h
        obtain rfl := List.mem_singleton.mp h
        exact List.mem_singleton.mp hc ▸ List.mem_cons_self
      | cons piece pieces =>
        rw [hrest] at h ih
        rcases List.mem_cons.mp h with rfl | hin
        · rcases List.mem_cons.mp hc with rfl | hmem
          · exact List.mem_cons_self
          · exact List.mem_cons_of_mem _ (ih List.mem_cons_self hmem)
        · exact List.mem_cons_of_mem _ (ih (List.mem_cons_of_mem _ hin) hc)

/-- The pieces of a text that breaks off are pieces that were written, or break off themselves. -/
theorem mem_getlines_take_putlines {delimiter : Char} {lines : List (List Char)}
    (h : ∀ line ∈ lines, delimiter ∉ line) {count : ℕ} {line : List Char}
    (hline : line ∈ getlines delimiter ((putlines delimiter lines).take count)) :
    ∃ whole ∈ lines, ∃ kept, line = whole.take kept := by
  induction lines generalizing count with
  | nil => simp [putlines, getlines] at hline
  | cons first lines ih =>
    have htext : putlines delimiter (first :: lines) = first ++ delimiter :: putlines delimiter lines := by
      simp [putlines]
    rw [htext, getlines_take_append (h first List.mem_cons_self)] at hline
    split at hline
    · split at hline
      · cases hline
      · exact ⟨first, List.mem_cons_self, count, List.mem_singleton.mp hline⟩
    · rcases List.mem_cons.mp hline with rfl | hin
      · exact ⟨line, List.mem_cons_self, line.length, line.take_length.symm⟩
      · obtain ⟨whole, hwhole, hkept⟩ := ih (fun l hl => h l (List.mem_cons_of_mem _ hl)) hin
        exact ⟨whole, List.mem_cons_of_mem _ hwhole, hkept⟩

/-- Drop the characters of a class at both ends. -/
def trim (blank : Char → Bool) (text : List Char) : List Char :=
  ((text.dropWhile blank).reverse.dropWhile blank).reverse

/-- A text none of whose characters is of the class is its own trim. -/
theorem trim_eq_self {blank : Char → Bool} {text : List Char}
    (h : ∀ c ∈ text, blank c = false) : trim blank text = text := by
  have hdrop : ∀ l : List Char, (∀ c ∈ l, blank c = false) → l.dropWhile blank = l := by
    intro l hl
    cases l with
    | nil => rfl
    | cons c l => rw [List.dropWhile_cons_of_neg (by simp [hl c List.mem_cons_self])]
  rw [trim, hdrop text h, hdrop text.reverse fun c hc => h c (List.mem_reverse.mp hc),
    List.reverse_reverse]

/-- A beginning whose first and last characters are not of the class stays at the beginning. -/
theorem trim_append {blank : Char → Bool} {first last : Char} {middle : List Char}
    (hfirst : blank first = false) (hlast : blank last = false) (rest : List Char) :
    ∃ trimmed, trim blank (first :: middle ++ last :: rest) = first :: middle ++ last :: trimmed := by
  have hfront : (first :: middle ++ last :: rest).dropWhile blank = first :: middle ++ last :: rest :=
    List.dropWhile_cons_of_neg (by simp [hfirst])
  have hback : (first :: middle ++ last :: rest).reverse = rest.reverse ++ last :: (first :: middle).reverse := by
    simp
  rw [trim, hfront, hback, List.dropWhile_append]
  by_cases hall : (rest.reverse.dropWhile blank).isEmpty = true
  · rw [if_pos hall, List.dropWhile_cons_of_neg (by simp [hlast])]
    exact ⟨[], by simp⟩
  · rw [if_neg hall]
    exact ⟨(rest.reverse.dropWhile blank).reverse, by simp⟩

/-- Characters of the class in front of a text are trimmed. -/
theorem trim_append_left {blank : Char → Bool} {front text : List Char} (h : ∀ c ∈ front, blank c = true) :
    trim blank (front ++ text) = trim blank text := by
  unfold trim
  rw [List.dropWhile_append_of_pos h]

/-- Characters of the class after a text are trimmed. -/
theorem trim_append_right {blank : Char → Bool} {text back : List Char} (h : ∀ c ∈ back, blank c = true) :
    trim blank (text ++ back) = trim blank text := by
  have hback : ∀ c ∈ back.reverse, blank c = true := fun c hc => h c (List.mem_reverse.mp hc)
  unfold trim
  rw [List.dropWhile_append]
  split
  case isTrue hempty =>
    have hnil : text.dropWhile blank = [] := List.isEmpty_iff.mp hempty
    have hgone : back.dropWhile blank = [] := List.dropWhile_eq_nil_iff.mpr h
    rw [hnil, hgone]
  case isFalse =>
    rw [List.reverse_append, List.dropWhile_append_of_pos hback]

/-- A word with characters of a class around it. -/
def Padded (blank : Char → Bool) (word text : List Char) : Prop :=
  ∃ front back, text = front ++ word ++ back ∧ (∀ c ∈ front, blank c = true) ∧ ∀ c ∈ back, blank c = true

/-- What stands around the trimmed text is of the class. -/
theorem padded_trim (blank : Char → Bool) (text : List Char) : Padded blank (trim blank text) text := by
  refine ⟨text.takeWhile blank, ((text.dropWhile blank).reverse.takeWhile blank).reverse, ?_, ?_, ?_⟩
  · have hback := List.takeWhile_append_dropWhile (p := blank) (l := (text.dropWhile blank).reverse)
    have hcore : trim blank text ++ ((text.dropWhile blank).reverse.takeWhile blank).reverse =
        text.dropWhile blank := by
      unfold trim
      rw [← List.reverse_append, hback, List.reverse_reverse]
    rw [List.append_assoc, hcore]
    exact List.takeWhile_append_dropWhile.symm
  · exact fun c hc => List.mem_takeWhile_imp hc
  · exact fun c hc => List.mem_takeWhile_imp (List.mem_reverse.mp hc)

/-- A word with no character of the class is what trimming leaves of it and what stands around it. -/
theorem Padded.trim_eq {blank : Char → Bool} {word text : List Char} (h : Padded blank word text)
    (hword : ∀ c ∈ word, blank c = false) : trim blank text = word := by
  obtain ⟨front, back, rfl, hfront, hback⟩ := h
  rw [trim_append_right hback, trim_append_left hfront, trim_eq_self hword]

/-- Trimming leaves nothing of a text exactly when all of it is of the class. -/
theorem trim_eq_nil {blank : Char → Bool} {text : List Char} :
    trim blank text = [] ↔ ∀ c ∈ text, blank c = true := by
  unfold trim
  rw [List.reverse_eq_nil_iff, List.dropWhile_eq_nil_iff]
  refine ⟨fun h c hc => ?_, fun h c hc => h c ((List.dropWhile_sublist blank).mem (List.mem_reverse.mp hc))⟩
  have hsplit := List.takeWhile_append_dropWhile (p := blank) (l := text)
  rw [← hsplit] at hc
  rcases List.mem_append.mp hc with hfront | hback
  · exact List.mem_takeWhile_imp hfront
  · exact h c (List.mem_reverse.mpr hback)

/-- Trimming comes before or after a change that keeps the class. -/
theorem trim_map {blank : Char → Bool} {f : Char → Char} (h : ∀ c, blank (f c) = blank c) (text : List Char) :
    trim blank (text.map f) = (trim blank text).map f := by
  have hcomp : blank ∘ f = blank := by
    funext c
    exact h c
  unfold trim
  rw [List.dropWhile_map, hcomp, ← List.map_reverse, List.dropWhile_map, hcomp, ← List.map_reverse]

/-- Trimming twice is trimming once. -/
theorem trim_trim (blank : Char → Bool) (text : List Char) : trim blank (trim blank text) = trim blank text := by
  obtain ⟨front, back, htext, hfront, hback⟩ := padded_trim blank text
  calc trim blank (trim blank text)
      = trim blank (trim blank text ++ back) := (trim_append_right hback).symm
    _ = trim blank (front ++ (trim blank text ++ back)) := (trim_append_left hfront).symm
    _ = trim blank text := by rw [← List.append_assoc, ← htext]

/-- Trimming adds no character. -/
theorem mem_of_mem_trim {blank : Char → Bool} {text : List Char} {c : Char} (h : c ∈ trim blank text) :
    c ∈ text := by
  have hback := (List.dropWhile_sublist blank).mem (List.mem_reverse.mp h)
  exact (List.dropWhile_sublist blank).mem (List.mem_reverse.mp hback)

/-- Trimming loses none of the characters that are not of the class. -/
theorem countP_trim {blank p : Char → Bool} (h : ∀ c, blank c = true → p c = false) (text : List Char) :
    (trim blank text).countP p = text.countP p := by
  obtain ⟨front, back, htext, hfront, hback⟩ := padded_trim blank text
  have hnone : ∀ part : List Char, (∀ c ∈ part, blank c = true) → part.countP p = 0 := fun part hpart =>
    List.countP_eq_zero.mpr fun c hc => by simp [h c (hpart c hc)]
  calc (trim blank text).countP p
      = (front ++ trim blank text ++ back).countP p := by
        rw [List.countP_append, List.countP_append, hnone front hfront, hnone back hback, Nat.zero_add, Nat.add_zero]
    _ = text.countP p := by rw [← htext]

/-- The texts before and after the first delimiter. -/
def cut (delimiter : Char) (text : List Char) : Option (List Char × List Char) :=
  match text.dropWhile (· ≠ delimiter) with
  | [] => none
  | _ :: value => some (text.takeWhile (· ≠ delimiter), value)

/-- A key without the delimiter is cut off at it. -/
theorem cut_append {delimiter : Char} {key : List Char} (h : delimiter ∉ key)
    (value : List Char) : cut delimiter (key ++ delimiter :: value) = some (key, value) := by
  have hkey : ∀ c ∈ key, decide (c ≠ delimiter) = true := by
    intro c hc
    exact decide_eq_true fun heq => h (heq ▸ hc)
  have hdrop : (key ++ delimiter :: value).dropWhile (· ≠ delimiter) = delimiter :: value := by
    rw [List.dropWhile_append_of_pos hkey, List.dropWhile_cons_of_neg (by simp)]
  have htake : (key ++ delimiter :: value).takeWhile (· ≠ delimiter) = key := by
    rw [List.takeWhile_append_of_pos hkey, List.takeWhile_cons_of_neg (by simp), List.append_nil]
  rw [cut, hdrop, htake]

/-- A text without the delimiter cannot be cut. -/
theorem cut_eq_none {delimiter : Char} {text : List Char} (h : delimiter ∉ text) :
    cut delimiter text = none := by
  have hdrop : text.dropWhile (· ≠ delimiter) = [] := by
    refine List.dropWhile_eq_nil_iff.mpr fun c hc => ?_
    exact decide_eq_true fun heq => h (heq ▸ hc)
  rw [cut, hdrop]

/-- What a cut returns was there, on both sides of the delimiter. -/
theorem cut_eq_some {delimiter : Char} {text key value : List Char}
    (h : cut delimiter text = some (key, value)) : text = key ++ delimiter :: value ∧ delimiter ∉ key := by
  unfold cut at h
  have hsplit := List.takeWhile_append_dropWhile (p := fun c => decide (c ≠ delimiter)) (l := text)
  cases hdrop : text.dropWhile (· ≠ delimiter) with
  | nil =>
    rw [hdrop] at h
    exact absurd h (by simp)
  | cons c rest =>
    rw [hdrop] at h hsplit
    obtain ⟨rfl, rfl⟩ := Prod.mk.inj (Option.some.inj h)
    have hc : c = delimiter := by
      have hne : text.dropWhile (fun c => decide (c ≠ delimiter)) ≠ [] := by
        rw [hdrop]
        exact List.cons_ne_nil c rest
      have hfirst := List.head_dropWhile_not (fun c => decide (c ≠ delimiter)) hne
      simp only [hdrop, List.head_cons, decide_eq_false_iff_not, not_not] at hfirst
      exact hfirst
    rw [hc] at hsplit
    refine ⟨hsplit.symm, fun hmem => ?_⟩
    simpa using List.mem_takeWhile_imp hmem

/-- A change that makes and takes no delimiter comes before or after the cut. -/
theorem cut_map {delimiter : Char} {f : Char → Char} (h : ∀ c, f c = delimiter ↔ c = delimiter) (text : List Char) :
    cut delimiter (text.map f) = (cut delimiter text).map fun sides => (sides.1.map f, sides.2.map f) := by
  have hmem (part : List Char) (hpart : delimiter ∉ part) : delimiter ∉ part.map f := by
    intro hin
    obtain ⟨c, hc, hfc⟩ := List.mem_map.mp hin
    exact hpart ((h c).mp hfc ▸ hc)
  by_cases hin : delimiter ∈ text
  · obtain ⟨key, value, rfl, hkey⟩ := List.eq_append_cons_of_mem hin
    rw [cut_append hkey, List.map_append, List.map_cons, (h delimiter).mpr rfl, cut_append (hmem key hkey)]
    rfl
  · rw [cut_eq_none hin, cut_eq_none (hmem text hin)]
    rfl

/-- A text that breaks off is cut as the whole is, unless it breaks off within the key. -/
theorem cut_take {delimiter : Char} {key : List Char} (h : delimiter ∉ key) (value : List Char)
    (count : ℕ) :
    cut delimiter ((key ++ delimiter :: value).take count) =
      if count ≤ key.length then none else some (key, value.take (count - key.length - 1)) := by
  rw [List.take_append]
  by_cases hshort : count ≤ key.length
  · have hnone : count - key.length = 0 := by omega
    rw [if_pos hshort, hnone, List.take_zero, List.append_nil]
    exact cut_eq_none fun hmem => h (List.mem_of_mem_take hmem)
  · have hmore : count - key.length = count - key.length - 1 + 1 := by omega
    rw [if_neg hshort, List.take_of_length_le (by omega : key.length ≤ count), hmore, List.take_succ_cons,
      cut_append h]
    rfl

/-- The white space that number parsing skips. -/
def isSpace (c : Char) : Bool := c ∈ [' ', '\t', '\n', '\x0b', '\x0c', '\r']

/-- The sign at the front of a number, and the rest. -/
def splitSign : List Char → Bool × List Char
  | '-' :: rest => (true, rest)
  | '+' :: rest => (false, rest)
  | text => (false, text)

/-- A nonempty text of digits as a number. -/
def wholeNat (text : List Char) : Option ℕ :=
  if text ≠ [] ∧ text.all Char.isDigit then some (Nat.ofDigitChars 10 text 0) else none

/-- A whole text as an integer, of any size. -/
def wholeInt (text : List Char) : Option ℤ :=
  let (negative, digits) := splitSign (text.dropWhile isSpace)
  (wholeNat digits).map fun value => if negative then -(value : ℤ) else value

/-- A natural number in decimal. -/
def showNat (value : ℕ) : List Char := Nat.toDigits 10 value

/-- An integer in decimal. -/
def showInt (value : ℤ) : List Char :=
  if value < 0 then '-' :: showNat value.natAbs else showNat value.natAbs

/-- A printed number has only digits. -/
theorem showNat_digits {value : ℕ} {c : Char} (h : c ∈ showNat value) : c.isDigit :=
  Nat.isDigit_of_mem_toDigits (by omega) (by omega) h

/-- A printed number is not empty. -/
theorem showNat_ne_nil (value : ℕ) : showNat value ≠ [] := Nat.toDigits_ne_nil

/-- A printed number is read back. -/
theorem wholeNat_showNat (value : ℕ) : wholeNat (showNat value) = some value := by
  have hdigits : (showNat value).all Char.isDigit = true :=
    List.all_eq_true.mpr fun c hc => showNat_digits hc
  rw [wholeNat, if_pos ⟨showNat_ne_nil value, hdigits⟩, showNat, Nat.ofDigitChars_ten_toDigits]

/-- The characters of a printed integer are digits and the minus sign. -/
theorem showInt_chars {value : ℤ} {c : Char} (h : c ∈ showInt value) : c.isDigit ∨ c = '-' := by
  unfold showInt at h
  split at h
  · rcases List.mem_cons.mp h with rfl | hmem
    · exact Or.inr rfl
    · exact Or.inl (showNat_digits hmem)
  · exact Or.inl (showNat_digits h)

/-- A digit is neither white space nor a sign. -/
theorem isDigit_plain {c : Char} (h : c.isDigit) : isSpace c = false ∧ c ≠ '-' ∧ c ≠ '+' := by
  refine ⟨?_, ?_, ?_⟩
  · simp only [isSpace, decide_eq_false_iff_not, List.mem_cons, List.not_mem_nil, or_false]
    rintro (rfl | rfl | rfl | rfl | rfl | rfl) <;> exact absurd h (by decide)
  · rintro rfl
    exact absurd h (by decide)
  · rintro rfl
    exact absurd h (by decide)

/-- Digits at the front are no sign. -/
theorem splitSign_showNat (value : ℕ) : splitSign (showNat value) = (false, showNat value) := by
  cases hshow : showNat value with
  | nil => exact absurd hshow (showNat_ne_nil value)
  | cons c rest =>
    have hc : c.isDigit := showNat_digits (hshow ▸ List.mem_cons_self)
    obtain ⟨-, hminus, hplus⟩ := isDigit_plain hc
    unfold splitSign
    split
    · rename_i heq
      exact absurd (List.cons.inj heq).1 hminus
    · rename_i heq
      exact absurd (List.cons.inj heq).1 hplus
    · rfl

/-- A printed integer starts with no white space. -/
theorem dropWhile_showInt (value : ℤ) : (showInt value).dropWhile isSpace = showInt value := by
  cases hshow : showInt value with
  | nil => rfl
  | cons c rest =>
    refine List.dropWhile_cons_of_neg ?_
    rcases showInt_chars (hshow ▸ List.mem_cons_self : c ∈ showInt value) with hdigit | rfl
    · simp [(isDigit_plain hdigit).1]
    · decide

/-- A printed integer is read back. -/
theorem wholeInt_showInt (value : ℤ) : wholeInt (showInt value) = some value := by
  rw [wholeInt, dropWhile_showInt]
  by_cases hneg : value < 0
  · have habs : -(value.natAbs : ℤ) = value := by omega
    rw [showInt, if_pos hneg]
    simp only [splitSign, wholeNat_showNat, if_true]
    exact congrArg some habs
  · have habs : (value.natAbs : ℤ) = value := by omega
    rw [showInt, if_neg hneg, splitSign_showNat]
    simp only [wholeNat_showNat, Bool.false_eq_true, if_false]
    exact congrArg some habs

/-- An integer of 64 bits as text. -/
def showInt64 (value : Int64) : List Char := showInt value.toInt

/-- A whole text as an integer that fits 64 bits. -/
def wholeInt64 (text : List Char) : Option Int64 :=
  (wholeInt text).bind fun value =>
    if -2 ^ 63 ≤ value ∧ value < 2 ^ 63 then some (Int64.ofInt value) else none

/-- A printed 64-bit integer is read back. -/
theorem wholeInt64_showInt64 (value : Int64) : wholeInt64 (showInt64 value) = some value := by
  rw [wholeInt64, showInt64, wholeInt_showInt, Option.bind_some,
    if_pos ⟨value.le_toInt, value.toInt_lt⟩, Int64.ofInt_toInt]

/-- The number the digits at the front of a text make, whatever stands behind them. -/
def leadingNat (text : List Char) : Option ℕ := wholeNat (text.takeWhile Char.isDigit)

/-- An integer as one of 64 bits, if it fits. -/
def toInt64? (value : ℤ) : Option Int64 :=
  if -2 ^ 63 ≤ value ∧ value < 2 ^ 63 then some (Int64.ofInt value) else none

/-- What came from 64 bits fits them. -/
theorem toInt64?_toInt (value : Int64) : toInt64? value.toInt = some value := by
  rw [toInt64?, if_pos ⟨value.le_toInt, value.toInt_lt⟩, Int64.ofInt_toInt]

/-- White space, a sign and digits at the front of a text as an integer; what follows is not read. -/
def leadingInt (text : List Char) : Option ℤ :=
  let (negative, rest) := splitSign (text.dropWhile isSpace)
  (leadingNat rest).map fun value => if negative then -(value : ℤ) else value

/-- `std::stoll`: the integer at the front, if it fits 64 bits. -/
def stoll (text : List Char) : Option Int64 := (leadingInt text).bind toInt64?

/-- `std::stoi`: the integer at the front, if it fits 32 bits. -/
def stoi (text : List Char) : Option ℤ :=
  (leadingInt text).bind fun value => if -2 ^ 31 ≤ value ∧ value < 2 ^ 31 then some value else none

/-- `std::stoull`: the number at the front, if it fits 64 bits; a minus sign negates it modulo 2^64. -/
def stoull (text : List Char) : Option UInt64 :=
  let (negative, rest) := splitSign (text.dropWhile isSpace)
  (leadingNat rest).bind fun value =>
    if value < 2 ^ 64 then some (if negative then -UInt64.ofNat value else UInt64.ofNat value) else none

/-- Digits at the front are neither white space nor a sign. -/
theorem splitSign_of_digits {text : List Char} (h : text.all Char.isDigit = true) :
    splitSign (text.dropWhile isSpace) = (false, text) := by
  cases text with
  | nil => rfl
  | cons c rest =>
    have hc : c.isDigit = true := List.all_eq_true.mp h c List.mem_cons_self
    obtain ⟨hspace, hminus, hplus⟩ := isDigit_plain hc
    rw [List.dropWhile_cons_of_neg (by simp [hspace])]
    unfold splitSign
    split
    · rename_i heq
      exact absurd (List.cons.inj heq).1 hminus
    · rename_i heq
      exact absurd (List.cons.inj heq).1 hplus
    · rfl

/-- Of a text of digits the whole is read. -/
theorem wholeNat_of_stoull {text : List Char} {value : UInt64} (h : stoull text = some value)
    (hdigits : text.all Char.isDigit = true) : wholeNat text = some value.toNat := by
  have hall : text.takeWhile Char.isDigit = text :=
    List.takeWhile_eq_self_iff.mpr fun c hc => List.all_eq_true.mp hdigits c hc
  rw [stoull, splitSign_of_digits hdigits] at h
  simp only [leadingNat, hall] at h
  obtain ⟨number, hnumber, hfits⟩ := Option.bind_eq_some_iff.mp h
  split at hfits
  case isTrue hlt =>
    obtain rfl : UInt64.ofNat number = value := by simpa using hfits
    rw [hnumber, UInt64.toNat_ofNat_of_lt' hlt]
  case isFalse => cases hfits

/-- A text that is a number has only digits. -/
theorem digits_of_wholeNat {text : List Char} {value : ℕ} (h : wholeNat text = some value) :
    text.all Char.isDigit = true := by
  unfold wholeNat at h
  split at h
  case isTrue hdigits => exact hdigits.2
  case isFalse => cases h

/-- A printed number is read back from the front of a text. -/
theorem leadingNat_showNat (value : ℕ) : leadingNat (showNat value) = some value := by
  have hall : (showNat value).takeWhile Char.isDigit = showNat value :=
    List.takeWhile_eq_self_iff.mpr fun c hc => showNat_digits hc
  rw [leadingNat, hall, wholeNat_showNat]

/-- A printed integer is read back from the front of a text. -/
theorem leadingInt_showInt (value : ℤ) : leadingInt (showInt value) = some value := by
  rw [leadingInt, dropWhile_showInt]
  by_cases hneg : value < 0
  · have habs : -(value.natAbs : ℤ) = value := by omega
    rw [showInt, if_pos hneg]
    simp only [splitSign, leadingNat_showNat, if_true]
    exact congrArg some habs
  · have habs : (value.natAbs : ℤ) = value := by omega
    rw [showInt, if_neg hneg, splitSign_showNat]
    simp only [leadingNat_showNat, Bool.false_eq_true, if_false]
    exact congrArg some habs

/-- A printed 64-bit integer is read back by `stoll`. -/
theorem stoll_showInt64 (value : Int64) : stoll (showInt64 value) = some value := by
  rw [stoll, showInt64, leadingInt_showInt, Option.bind_some, toInt64?_toInt]

/-- A printed unsigned integer is read back by `stoull`. -/
theorem stoull_showNat (value : UInt64) : stoull (showNat value.toNat) = some value := by
  have hspace : (showNat value.toNat).dropWhile isSpace = showNat value.toNat := by
    cases hshow : showNat value.toNat with
    | nil => rfl
    | cons c rest =>
      have hdigit : c.isDigit := showNat_digits (hshow ▸ List.mem_cons_self)
      exact List.dropWhile_cons_of_neg (by simp [(isDigit_plain hdigit).1])
  rw [stoull, hspace, splitSign_showNat]
  simp only [leadingNat_showNat, Option.bind_some, Bool.false_eq_true, if_false]
  rw [if_pos value.toNat_lt, UInt64.ofNat_toNat]

end Coatheal.Library.Text
