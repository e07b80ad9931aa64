import Coatheal.Library.PyText

/-!
# The lines of a text

`str.splitlines` of Python, which ends lines at more than newlines, and the text
that is made of lines. Lines without a line break in them are read back.
-/

namespace Coatheal.Library.Lines

open PyText

/-- A character that ends a line. -/
def isLineBreak (c : Char) : Bool :=
  decide (c.toNat ∈ [0x0A, 0x0B, 0x0C, 0x0D, 0x1C, 0x1D, 0x1E, 0x85, 0x2028, 0x2029])

/-- The lines of a text whose first characters were read, the last of them first. -/
def splitLinesFrom (read : List Char) : List Char → List (List Char)
  | [] => if read = [] then [] else [read.reverse]
  | '\r' :: '\n' :: rest => read.reverse :: splitLinesFrom [] rest
  | c :: rest => if isLineBreak c then read.reverse :: splitLinesFrom [] rest else splitLinesFrom (c :: read) rest

/-- `str.splitlines`. -/
def splitLines (text : List Char) : List (List Char) := splitLinesFrom [] text

/-- Lines with a newline behind each. -/
def unlines (lines : List (List Char)) : List Char := lines.flatMap fun line => line ++ ['\n']

/-- A line without line breaks. -/
def Whole (line : List Char) : Prop := ∀ c ∈ line, isLineBreak c = false

/-- A line break is white space. -/
theorem isSpace_of_isLineBreak {c : Char} (h : isLineBreak c = true) : isSpace c = true := by
  have hcode := of_decide_eq_true h
  simp only [List.mem_cons, List.not_mem_nil, or_false] at hcode
  simp only [isSpace, Bool.or_eq_true, decide_eq_true_iff, List.mem_cons, List.not_mem_nil, or_false]
  omega

/-- A line is read up to the newline behind it. -/
theorem splitLinesFrom_append {line : List Char} (h : Whole line) (read rest : List Char) :
    splitLinesFrom read (line ++ '\n' :: rest) = (read.reverse ++ line) :: splitLines rest := by
  induction line generalizing read with
  | nil =>
    rw [List.nil_append, splitLinesFrom, if_pos (by decide), List.append_nil]
    · rfl
    · simp
  | cons c line ih =>
    have hc : isLineBreak c = false := h c List.mem_cons_self
    have hplain : c ≠ '\r' := by
      rintro rfl
      exact absurd hc (by decide)
    rw [List.cons_append, splitLinesFrom, hc, if_neg Bool.false_ne_true, ih fun d hd => h d (List.mem_cons_of_mem _ hd),
      List.reverse_cons, List.append_assoc, List.singleton_append]
    exact fun _ hsame _ => hplain hsame

/-- Lines are read back from the text made of them. -/
theorem splitLines_unlines {lines : List (List Char)} (h : ∀ line ∈ lines, Whole line) :
    splitLines (unlines lines) = lines := by
  induction lines with
  | nil => rfl
  | cons line lines ih =>
    have htext : unlines (line :: lines) = line ++ '\n' :: unlines lines := by simp [unlines]
    rw [htext, splitLines, splitLinesFrom_append (h line List.mem_cons_self), ih fun other hother =>
      h other (List.mem_cons_of_mem _ hother)]
    rfl

/-- The lines of a text are without line breaks. -/
theorem whole_splitLines (text : List Char) : ∀ line ∈ splitLines text, Whole line := by
  have hfrom : ∀ (read text : List Char), Whole read → ∀ line ∈ splitLinesFrom read text, Whole line := by
    intro read text
    fun_induction splitLinesFrom read text with
    | case1 => exact fun _ line hline => by cases hline
    | case2 read hne =>
      intro hread line hline
      rw [List.mem_singleton.mp hline]
      exact fun c hc => hread c (List.mem_reverse.mp hc)
    | case3 read rest ih =>
      intro hread line hline
      rcases List.mem_cons.mp hline with rfl | hlater
      · exact fun c hc => hread c (List.mem_reverse.mp hc)
      · exact ih (by simp [Whole]) line hlater
    | case4 read c rest _ hbreak ih =>
      intro hread line hline
      rcases List.mem_cons.mp hline with rfl | hlater
      · exact fun d hd => hread d (List.mem_reverse.mp hd)
      · exact ih (by simp [Whole]) line hlater
    | case5 read c rest _ hplain ih =>
      exact fun hread => ih (List.forall_mem_cons.mpr ⟨Bool.eq_false_iff.mpr hplain, hread⟩)
  exact hfrom [] text (by simp [Whole])

/-- A separator stands after the first piece. -/
theorem intercalate_cons {separator : Char} (first second : List Char) (pieces : List (List Char)) :
    [separator].intercalate (first :: second :: pieces) =
      first ++ separator :: [separator].intercalate (second :: pieces) := by
  rw [List.intercalate_cons_cons, List.append_assoc, List.singleton_append]

/-- A separator stands before the last piece. -/
theorem intercalate_concat {separator : Char} {pieces : List (List Char)} (h : pieces ≠ []) (last : List Char) :
    [separator].intercalate (pieces ++ [last]) = [separator].intercalate pieces ++ separator :: last := by
  induction pieces with
  | nil => exact absurd rfl h
  | cons piece pieces ih =>
    cases pieces with
    | nil => rw [List.singleton_append, intercalate_cons, List.intercalate_singleton, List.intercalate_singleton]
    | cons next pieces =>
      rw [List.cons_append, List.cons_append, intercalate_cons, ← List.cons_append, ih (List.cons_ne_nil next pieces),
        intercalate_cons, List.append_assoc, List.cons_append]

/-- A character between separators is of a piece, or is the separator. -/
theorem mem_intercalate {separator c : Char} {pieces : List (List Char)} (h : c ∈ [separator].intercalate pieces) :
    c = separator ∨ ∃ piece ∈ pieces, c ∈ piece := by
  induction pieces with
  | nil => exact absurd h List.not_mem_nil
  | cons piece pieces ih =>
    cases pieces with
    | nil =>
      rw [List.intercalate_singleton] at h
      exact Or.inr ⟨piece, List.mem_singleton_self _, h⟩
    | cons next pieces =>
      rw [intercalate_cons] at h
      rcases List.mem_append.mp h with hpiece | hrest
      · exact Or.inr ⟨piece, List.mem_cons_self, hpiece⟩
      rcases List.mem_cons.mp hrest with hseparator | hrest
      · exact Or.inl hseparator
      · exact (ih hrest).imp_right fun ⟨other, hother, hc⟩ => ⟨other, List.mem_cons_of_mem piece hother, hc⟩

/-- Lines with newlines between them and one behind are lines with a newline behind each. -/
theorem intercalate_append {lines : List (List Char)} (h : lines ≠ []) :
    ['\n'].intercalate lines ++ ['\n'] = unlines lines := by
  induction lines with
  | nil => exact absurd rfl h
  | cons line lines ih =>
    cases lines with
    | nil => simp [unlines]
    | cons next lines =>
      rw [intercalate_cons, List.append_assoc, List.cons_append, ih (List.cons_ne_nil _ _)]
      simp [unlines]

/-- The text of lines in two parts. -/
theorem unlines_append (front back : List (List Char)) : unlines (front ++ back) = unlines front ++ unlines back :=
  List.flatMap_append

end Coatheal.Library.Lines
