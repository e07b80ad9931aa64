import Coatheal.Wiring.Specimens

/-!
# Two spellings of one notation

What the onboard reads the script reads too, and as the same specimens. The script reads more: digits and
blanks of any script, long numbers, and blanks after a last comma. A text without those is plain, and on
plain texts the two spellings are one.
-/

namespace Coatheal.Wiring

open Library
open Library.Text (Padded)

/-- A part whose digits and blanks are of ASCII, with at most four digits in a row. -/
structure PlainPart (part : List Char) : Prop where
  digits : ∀ c ∈ part, PyText.isDigit c = true → c.isDigit = true
  blanks : ∀ c ∈ part, PyText.isSpace c = true → Text.isSpace c = true
  short : ∀ row, row <:+: part → (∀ c ∈ row, c.isDigit = true) → row.length ≤ 4

/-- A text of that kind with nothing blank after its last comma. -/
structure Plain (text : List Char) : Prop extends PlainPart text where
  ending : ∀ front back, text = front ++ ',' :: back → (∀ c ∈ back, PyText.isSpace c = true) → back = []

namespace PlainPart

variable {part front back : List Char}

/-- What lies in a plain part is plain. -/
theorem of_infix (h : PlainPart part) {inner : List Char} (hinner : inner <:+: part) : PlainPart inner where
  digits c hc := h.digits c (hinner.subset hc)
  blanks c hc := h.blanks c (hinner.subset hc)
  short row hrow := h.short row (hrow.trans hinner)

/-- Plain parts with a separator between them are plain. -/
theorem append (hfront : PlainPart front) {separator : Char} (hdigit : PyText.isDigit separator = false)
    (hascii : separator.isDigit = false) (hblank : PyText.isSpace separator = false) (hback : PlainPart back) :
    PlainPart (front ++ separator :: back) where
  digits c hc h := by
    rcases List.mem_append.mp hc with hc | hc
    · exact hfront.digits c hc h
    rcases List.mem_cons.mp hc with rfl | hc
    · exact absurd (hdigit.symm.trans h) Bool.false_ne_true
    · exact hback.digits c hc h
  blanks c hc h := by
    rcases List.mem_append.mp hc with hc | hc
    · exact hfront.blanks c hc h
    rcases List.mem_cons.mp hc with rfl | hc
    · exact absurd (hblank.symm.trans h) Bool.false_ne_true
    · exact hback.blanks c hc h
  short row hrow hdigits := by
    -- a row of digits does not reach across the separator
    have hnot : separator ∉ row := fun hmem => absurd (hascii.symm.trans (hdigits _ hmem)) Bool.false_ne_true
    have hstart (start : List Char) (hstart : start <+: separator :: back) (hsub : start ⊆ row) : start = [] := by
      rcases List.prefix_cons_iff.mp hstart with hnil | ⟨rest, rfl, -⟩
      · exact hnil
      · exact absurd (hsub List.mem_cons_self) hnot
    rcases List.infix_append_iff.mp hrow with hin | hin | ⟨first, second, rfl, hfirst, hsecond⟩
    · exact hfront.short row hin hdigits
    · rcases List.infix_cons_iff.mp hin with hprefix | hin
      · rw [hstart row hprefix (List.Subset.refl row)]
        exact Nat.zero_le 4
      · exact hback.short row hin hdigits
    · rw [hstart second hsecond (List.subset_append_right first second), List.append_nil]
      exact hfront.short first hfirst.isInfix fun c hc => hdigits c (List.mem_append_left _ hc)

end PlainPart

/-- The onboard's blanks are white space. -/
theorem pySpace_of_isSpace {c : Char} (h : Text.isSpace c = true) : PyText.isSpace c = true := by
  have hmem := of_decide_eq_true h
  simp only [List.mem_cons, List.not_mem_nil, or_false] at hmem
  rcases hmem with rfl | rfl | rfl | rfl | rfl | rfl <;> decide

/-- A letter of the notation is neither blank nor a digit. -/
theorem letter_plain {c : Char} (h : c.toLower ∈ "chbm:".toList) :
    PyText.isDigit c = false ∧ PyText.isSpace c = false ∧ c.isDigit = false := by
  have hletters : ∀ c ∈ "chbm:".toList,
      PyText.isDigit c = false ∧ PyText.isSpace c = false ∧ c.isDigit = false :=
    Text.forall_mem_of_all (by decide)
  have hcapitals : ∀ c ∈ PyText.capitals,
      PyText.isDigit c = false ∧ PyText.isSpace c = false ∧ c.isDigit = false :=
    Text.forall_mem_of_all (by decide)
  rcases PyText.toLower_eq_or_mem c with hsame | hcapital
  · exact hletters c (hsame ▸ h)
  · exact hcapitals c hcapital

/-- A word of letters and at most four digits, with the onboard's blanks around it, is plain. -/
theorem plainPart_of_word {letters digits part : List Char} (h : Padded Text.isSpace (letters ++ digits) part)
    (hletters : ∀ c ∈ letters, c.toLower ∈ "chbm:".toList) (hdigits : ∀ c ∈ digits, c.isDigit = true)
    (hshort : digits.length ≤ 4) : PlainPart part := by
  obtain ⟨front, back, rfl, hfront, hback⟩ := h
  have hmem {c : Char} (hc : c ∈ front ++ (letters ++ digits) ++ back) :
      Text.isSpace c = true ∨ c ∈ letters ∨ c ∈ digits := by
    simp only [List.mem_append] at hc
    rcases hc with (hc | hc | hc) | hc
    · exact Or.inl (hfront c hc)
    · exact Or.inr (Or.inl hc)
    · exact Or.inr (Or.inr hc)
    · exact Or.inl (hback c hc)
  have hblank {c : Char} (hc : Text.isSpace c = true) : PyText.isDigit c = false ∧ c.isDigit = false := by
    have hmem := of_decide_eq_true hc
    simp only [List.mem_cons, List.not_mem_nil, or_false] at hmem
    rcases hmem with rfl | rfl | rfl | rfl | rfl | rfl <;> decide
  refine ⟨fun c hc h => ?_, fun c hc h => ?_, fun row hrow hrowDigits => ?_⟩
  · rcases hmem hc with hspace | hletter | hdigit
    · exact absurd ((hblank hspace).1.symm.trans h) Bool.false_ne_true
    · exact absurd ((letter_plain (hletters c hletter)).1.symm.trans h) Bool.false_ne_true
    · exact hdigits c hdigit
  · rcases hmem hc with hspace | hletter | hdigit
    · exact hspace
    · exact absurd ((letter_plain (hletters c hletter)).2.1.symm.trans h) Bool.false_ne_true
    · exact absurd ((PyText.isSpace_of_isDigit (hdigits c hdigit)).symm.trans h) Bool.false_ne_true
  · have hnone {edge : List Char} (hedge : ∀ c ∈ edge, c.isDigit = false) : edge.filter Char.isDigit = [] :=
      List.filter_eq_nil_iff.mpr fun c hc => by simp [hedge c hc]
    have hkept : (front ++ (letters ++ digits) ++ back).filter Char.isDigit = digits := by
      rw [List.filter_append, List.filter_append, List.filter_append,
        hnone fun c hc => (hblank (hfront c hc)).2, hnone fun c hc => (letter_plain (hletters c hc)).2.2,
        hnone fun c hc => (hblank (hback c hc)).2, List.filter_eq_self.mpr hdigits]
      simp
    have hrowKept : row.filter Char.isDigit = row := List.filter_eq_self.mpr hrowDigits
    have hsublist := hrow.sublist.filter Char.isDigit
    rw [hkept, hrowKept] at hsublist
    exact hsublist.length_le.trans hshort

/-- ASCII digits write the same number in both readings. -/
theorem digitsNat_of_isDigit {digits : List Char} (h : ∀ c ∈ digits, c.isDigit = true) :
    PyText.digitsNat digits = Nat.ofDigitChars 10 digits 0 := by
  have hfold (start : ℕ) : digits.foldl (fun value c => 10 * value + (PyText.decimalValue c).getD 0) start =
      Nat.ofDigitChars 10 digits start := by
    induction digits generalizing start with
    | nil => rfl
    | cons c digits ih =>
      rw [List.foldl_cons, PyText.decimalValue_of_isDigit (h c List.mem_cons_self), Option.getD_some,
        ih fun d hd => h d (List.mem_cons_of_mem c hd)]
      rfl
  exact hfold 0

/-- The script reads the onboard's numbers as the same ones. -/
theorem decimalNumber_of_parseDigits {digits : List Char} {value : ℕ} (h : parseDigits digits = some value) :
    decimalNumber digits = some value := by
  obtain ⟨hne, hshort, hdigits, hvalue⟩ := parseDigits_eq_some.mp h
  have hdecimal : ∀ c ∈ digits, (PyText.decimalValue c).isSome = true := fun c hc => by
    rw [PyText.decimalValue_of_isDigit (hdigits c hc)]
    rfl
  unfold decimalNumber
  rw [if_pos ⟨hne, List.all_eq_true.mpr hdecimal, hshort.trans (by decide)⟩, digitsNat_of_isDigit hdigits, hvalue]

/-- Of plain digits the onboard reads the script's number. -/
theorem parseDigits_of_decimalNumber {digits part : List Char} {value : ℕ} (h : decimalNumber digits = some value)
    (hplain : PlainPart part) (hpart : digits <:+: part) : parseDigits digits = some value := by
  unfold decimalNumber at h
  split at h
  case isTrue hnumber =>
    obtain ⟨hne, hdecimal, -⟩ := hnumber
    have hdigits : ∀ c ∈ digits, c.isDigit = true := fun c hc =>
      hplain.digits c (hpart.subset hc) (Bool.or_eq_true_iff.mpr (Or.inl (List.all_eq_true.mp hdecimal c hc)))
    refine parseDigits_eq_some.mpr ⟨hne, hplain.short digits hpart hdigits, hdigits, ?_⟩
    rw [← digitsNat_of_isDigit hdigits]
    exact Option.some.inj h
  case isFalse => cases h

/-- A word with the onboard's blanks around it has the script's blanks around it. -/
theorem padded_ground {word part : List Char} (h : Padded onboard.blank word part) : Padded ground.blank word part := by
  obtain ⟨front, back, hpart, hfront, hback⟩ := h
  exact ⟨front, back, hpart, fun c hc => pySpace_of_isSpace (hfront c hc),
    fun c hc => pySpace_of_isSpace (hback c hc)⟩

/-- In a plain part the script's blanks are the onboard's. -/
theorem padded_onboard {word part : List Char} (h : Padded ground.blank word part) (hplain : PlainPart part) :
    Padded onboard.blank word part := by
  obtain ⟨front, back, rfl, hfront, hback⟩ := h
  exact ⟨front, back, rfl, fun c hc => hplain.blanks c (by simp [hc]) (hfront c hc),
    fun c hc => hplain.blanks c (by simp [hc]) (hback c hc)⟩

/-- The word lies in what it is padded to. -/
theorem infix_of_padded {blank : Char → Bool} {letters digits part : List Char}
    (h : Padded blank (letters ++ digits) part) : digits <:+: part := by
  obtain ⟨front, back, rfl, -, -⟩ := h
  exact ⟨front ++ letters, back, by simp⟩

/-- A terminal is spelled for the onboard exactly when it is plain and spelled for the script. -/
theorem terminal_onboard {part : List Char} {channel : ℕ} :
    onboard.Terminal part channel ↔ ground.Terminal part channel ∧ PlainPart part := by
  constructor
  · rintro ⟨c, h, digits, hc, hh, hnumber, hpadded⟩
    refine ⟨⟨c, h, digits, hc, hh, decimalNumber_of_parseDigits hnumber, padded_ground hpadded⟩, ?_⟩
    obtain ⟨-, hshort, hdigits, -⟩ := parseDigits_eq_some.mp hnumber
    have hword : Padded Text.isSpace ([c, h] ++ digits) part := hpadded
    refine plainPart_of_word hword (fun d hd => ?_) hdigits hshort
    simp only [List.mem_cons, List.not_mem_nil, or_false] at hd
    rcases hd with rfl | rfl
    · rw [hc]
      decide
    · rw [hh]
      decide
  · rintro ⟨⟨c, h, digits, hc, hh, hnumber, hpadded⟩, hplain⟩
    have hword : Padded ground.blank ([c, h] ++ digits) part := hpadded
    exact ⟨c, h, digits, hc, hh, parseDigits_of_decimalNumber hnumber hplain (infix_of_padded hword),
      padded_onboard hpadded hplain⟩

/-- A line is spelled for the onboard exactly when it is plain and spelled for the script. -/
theorem line_onboard {part : List Char} {line : ℕ} :
    onboard.Line part line ↔ ground.Line part line ∧ PlainPart part := by
  constructor
  · rintro ⟨letters, digits, hletters, hnumber, hpadded⟩
    refine ⟨⟨letters, digits, hletters, decimalNumber_of_parseDigits hnumber, padded_ground hpadded⟩, ?_⟩
    obtain ⟨-, hshort, hdigits, -⟩ := parseDigits_eq_some.mp hnumber
    refine plainPart_of_word hpadded (fun d hd => ?_) hdigits hshort
    rcases hletters with rfl | hletters
    · exact absurd hd List.not_mem_nil
    · have hlower : d.toLower ∈ "bcm".toList := hletters ▸ List.mem_map_of_mem hd
      have hsubset : "bcm".toList ⊆ "chbm:".toList := by decide
      exact hsubset hlower
  · rintro ⟨⟨letters, digits, hletters, hnumber, hpadded⟩, hplain⟩
    exact ⟨letters, digits, hletters, parseDigits_of_decimalNumber hnumber hplain (infix_of_padded hpadded),
      padded_onboard hpadded hplain⟩

/-- A specimen is spelled for the onboard exactly when it is plain and spelled for the script. -/
theorem entry_onboard {item : List Char} {specimen : SpecimenConfig} :
    onboard.Entry item specimen ↔ ground.Entry item specimen ∧ PlainPart item := by
  constructor
  · intro h
    cases h with
    | unheated hchannel =>
      obtain ⟨hground, hplain⟩ := terminal_onboard.mp hchannel
      exact ⟨.unheated hground, hplain⟩
    | heated hchannel hline =>
      obtain ⟨hchannel, hfront⟩ := terminal_onboard.mp hchannel
      obtain ⟨hline, hback⟩ := line_onboard.mp hline
      exact ⟨.heated hchannel hline, hfront.append (by decide) (by decide) (by decide) hback⟩
  · rintro ⟨h, hplain⟩
    cases h with
    | unheated hchannel => exact .unheated (terminal_onboard.mpr ⟨hchannel, hplain⟩)
    | @heated front back _ _ hchannel hline =>
      have hback : back <:+: front ++ ':' :: back := ⟨front ++ [':'], [], by simp⟩
      exact .heated (terminal_onboard.mpr ⟨hchannel, hplain.of_infix List.infix_append_left⟩)
        (line_onboard.mpr ⟨hline, hplain.of_infix hback⟩)

/-- Specimens are spelled for the onboard exactly when all items are plain and spelled for the script. -/
theorem forall₂_entry_onboard {items : List (List Char)} {specimens : List SpecimenConfig} :
    List.Forall₂ onboard.Entry items specimens ↔
      List.Forall₂ ground.Entry items specimens ∧ ∀ item ∈ items, PlainPart item := by
  induction items generalizing specimens with
  | nil => simp
  | cons item items ih =>
    rw [List.forall₂_cons_left_iff, List.forall₂_cons_left_iff, List.forall_mem_cons]
    constructor
    · rintro ⟨specimen, rest, hitem, hrest, rfl⟩
      obtain ⟨hground, hplain⟩ := entry_onboard.mp hitem
      obtain ⟨hrest, hplains⟩ := ih.mp hrest
      exact ⟨⟨specimen, rest, hground, hrest, rfl⟩, hplain, hplains⟩
    · rintro ⟨⟨specimen, rest, hitem, hrest, rfl⟩, hplain, hplains⟩
      exact ⟨specimen, rest, entry_onboard.mpr ⟨hitem, hplain⟩, ih.mpr ⟨hrest, hplains⟩, rfl⟩

/-- A text of plain pieces is plain. -/
theorem plainPart_of_pieces {text : List Char} (h : ∀ piece ∈ text.splitOn ',', PlainPart piece) : PlainPart text := by
  have hpieces (pieces : List (List Char)) (h : ∀ piece ∈ pieces, PlainPart piece) :
      PlainPart ([','].intercalate pieces) := by
    induction pieces with
    | nil => exact ⟨by simp, by simp, fun row hrow _ => by simp [List.infix_nil.mp hrow]⟩
    | cons piece pieces ih =>
      have hrest := ih fun part hpart => h part (List.mem_cons_of_mem piece hpart)
      have hpiece := h piece List.mem_cons_self
      cases pieces with
      | nil =>
        rw [List.intercalate_singleton]
        exact hpiece
      | cons next pieces =>
        rw [List.intercalate_cons_cons, List.append_assoc]
        exact hpiece.append (by decide) (by decide) (by decide) hrest
  have htext := hpieces _ h
  rwa [List.intercalate_splitOn] at htext

/-- The pieces of a text lie in it. -/
theorem infix_of_mem_splitOn {text piece : List Char} (h : piece ∈ text.splitOn ',') : piece <:+: text := by
  have hpieces (pieces : List (List Char)) (h : piece ∈ pieces) : piece <:+: [','].intercalate pieces := by
    induction pieces with
    | nil => exact absurd h List.not_mem_nil
    | cons first pieces ih =>
      cases pieces with
      | nil =>
        rw [List.intercalate_singleton, List.mem_singleton.mp h]
      | cons next pieces =>
        rw [List.intercalate_cons_cons, List.append_assoc]
        rcases List.mem_cons.mp h with rfl | h
        · exact List.infix_append_left
        · exact List.infix_append_of_infix_right (List.infix_append_of_infix_right (ih h))
  have hpiece := hpieces _ h
  rwa [List.intercalate_splitOn] at hpiece

/-- What follows a comma and has none is the last piece. -/
theorem last_of_ending {text last front back : List Char} {items : List (List Char)}
    (hsplit : text.splitOn ',' = items ++ [last]) (htext : text = front ++ ',' :: back) (hback : ',' ∉ back) :
    back = last := by
  rw [htext, List.splitOn_append_cons_self, List.splitOn_eq_singleton hback] at hsplit
  exact (List.cons.inj (List.append_inj' hsplit rfl).2).1

/-- A last piece that is not the only one follows a comma. -/
theorem exists_ending {text last : List Char} {items : List (List Char)} (hsplit : text.splitOn ',' = items ++ [last])
    (hitems : items ≠ []) : ∃ front, text = front ++ ',' :: last := by
  have hpieces (items : List (List Char)) (hitems : items ≠ []) :
      ∃ front, [','].intercalate (items ++ [last]) = front ++ ',' :: last := by
    induction items with
    | nil => exact absurd rfl hitems
    | cons first items ih =>
      cases items with
      | nil => exact ⟨first, by simp [List.intercalate_cons_cons]⟩
      | cons next items =>
        obtain ⟨front, hfront⟩ := ih (List.cons_ne_nil next items)
        refine ⟨first ++ [','] ++ front, ?_⟩
        rw [List.cons_append, List.cons_append, List.intercalate_cons_cons, ← List.cons_append, hfront,
          List.append_assoc (first ++ [','])]
  obtain ⟨front, hfront⟩ := hpieces items hitems
  rw [← hsplit, List.intercalate_splitOn] at hfront
  exact ⟨front, hfront⟩

/-- A text of plain pieces, of which the last is blank only when it is empty, is plain. -/
theorem plain_of_pieces {text last : List Char} {items : List (List Char)}
    (hsplit : text.splitOn ',' = items ++ [last]) (hpieces : ∀ piece ∈ items ++ [last], PlainPart piece)
    (hlast : (∀ c ∈ last, PyText.isSpace c = true) → last = []) : Plain text where
  toPlainPart := plainPart_of_pieces (hsplit ▸ hpieces)
  ending front back htext hblank := by
    have hcomma : ',' ∉ back := fun hmem => absurd (hblank ',' hmem) (by decide)
    obtain rfl := last_of_ending hsplit htext hcomma
    exact hlast hblank

/-- Specimens are written for the onboard exactly when they are written for the script and the text is plain. -/
theorem written_onboard {text : List Char} {specimens : List SpecimenConfig} (hsome : specimens ≠ []) :
    onboard.Written text specimens ↔ ground.Written text specimens ∧ Plain text := by
  obtain ⟨items, last, hsplit⟩ := (List.eq_nil_or_concat' _).resolve_left (List.splitOn_ne_nil ',' text)
  have hplains (hplain : Plain text) : ∀ piece ∈ items ++ [last], PlainPart piece := fun piece hpiece =>
    hplain.toPlainPart.of_infix (infix_of_mem_splitOn (hsplit ▸ hpiece))
  rw [Spelling.written_iff hsplit, Spelling.written_iff hsplit]
  by_cases hempty : last = []
  · -- nothing follows the last comma, for either
    subst hempty
    change List.Forall₂ onboard.Entry items specimens ↔ List.Forall₂ ground.Entry items specimens ∧ Plain text
    rw [forall₂_entry_onboard]
    refine and_congr_right fun _ => ⟨fun hitems => ?_, fun hplain piece hpiece => ?_⟩
    · refine plain_of_pieces hsplit (fun piece hpiece => ?_) fun _ => rfl
      rcases List.mem_append.mp hpiece with hpiece | hpiece
      · exact hitems piece hpiece
      · rw [List.mem_singleton.mp hpiece]
        exact ⟨by simp, by simp, fun row hrow _ => by simp [List.infix_nil.mp hrow]⟩
    · exact hplains hplain piece (List.mem_append_left _ hpiece)
  have honboard : last.all onboard.trailing = false := by
    cases last with
    | nil => exact absurd rfl hempty
    | cons c last => rfl
  rw [honboard, if_neg Bool.false_ne_true, forall₂_entry_onboard]
  by_cases hblank : ∀ c ∈ last, PyText.isSpace c = true
  · -- blanks follow the last comma, which the onboard refuses
    have hground : last.all ground.trailing = true := List.all_eq_true.mpr hblank
    rw [if_pos hground]
    constructor
    · rintro ⟨hall, -⟩
      obtain ⟨specimen, hentry⟩ := Spelling.exists_of_forall₂ hall last (by simp)
      exact absurd hblank hentry.not_blank
    · rintro ⟨hitems, hplain⟩
      have hne : items ≠ [] := by
        rintro rfl
        exact hsome (List.forall₂_nil_left_iff.mp hitems)
      obtain ⟨front, htext⟩ := exists_ending hsplit hne
      exact absurd (hplain.ending front last htext hblank) hempty
  · have hground : ¬ last.all ground.trailing = true := mt List.all_eq_true.mp hblank
    rw [if_neg hground]
    refine and_congr_right fun _ => ⟨fun hpieces => ?_, hplains⟩
    exact plain_of_pieces hsplit hpieces fun h => absurd h hblank

end Coatheal.Wiring
