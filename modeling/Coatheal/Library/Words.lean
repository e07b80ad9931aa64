import Coatheal.Library.Text

/-!
# Words between separators

A text is cut at the characters of a class, and the pieces that are not empty are
its words. A text spells some words when they stand in it in order with separators
between them, as many as one likes; what it spells are its words.
-/

namespace Coatheal.Library.Text

/-- The words of a text: its pieces between separators, except the empty ones. -/
def words (separator : Char → Bool) (text : List Char) : List (List Char) :=
  (text.splitOnP separator).filter (· ≠ [])

/-- A text with some words in order, each of them between separators or the ends of the text. -/
inductive Spells (separator : Char → Bool) : List Char → List (List Char) → Prop where
  | nil : Spells separator [] []
  | gap {c : Char} {text : List Char} {spelled : List (List Char)} : separator c = true →
      Spells separator text spelled → Spells separator (c :: text) spelled
  | word {first text : List Char} {spelled : List (List Char)} : first ≠ [] →
      (∀ c ∈ first, separator c = false) → (∀ c ∈ text.head?, separator c = true) →
      Spells separator text spelled → Spells separator (first ++ text) (first :: spelled)

variable {separator : Char → Bool}

/-- A word with a separator behind it. -/
theorem Spells.followed {first text : List Char} {c : Char} {spelled : List (List Char)} (hne : first ≠ [])
    (hfirst : first.all (fun c => !separator c) = true) (hc : separator c = true) (h : Spells separator text spelled) :
    Spells separator (first ++ c :: text) (first :: spelled) :=
  .word hne (by simpa using hfirst) (by simpa using hc) (.gap hc h)

/-- A word with nothing behind it. -/
theorem Spells.single {word : List Char} (hne : word ≠ []) (hword : word.all (fun c => !separator c) = true) :
    Spells separator word [word] := by
  simpa using Spells.word hne (by simpa using hword) (by simp : ∀ c ∈ [].head?, separator c = true) .nil

/-- A word: it is not empty, and no separator stands in it. -/
def IsWord (separator : Char → Bool) (word : List Char) : Prop :=
  word ≠ [] ∧ word.all (fun c => !separator c) = true

/-- Words with a space between two of them. -/
def unwords (words : List (List Char)) : List Char := [' '].intercalate words

/-- Words with a space between two of them spell these words. -/
theorem spells_unwords (hspace : separator ' ' = true) {words : List (List Char)}
    (h : ∀ word ∈ words, IsWord separator word) : Spells separator (unwords words) words := by
  induction words with
  | nil => exact .nil
  | cons first rest ih =>
    obtain ⟨hne, hfirst⟩ := h first List.mem_cons_self
    have hrest := ih fun word hword => h word (List.mem_cons_of_mem _ hword)
    cases rest with
    | nil => simpa [unwords, List.intercalate] using Spells.single hne hfirst
    | cons next rest =>
      have hjoin : unwords (first :: next :: rest) = first ++ ' ' :: unwords (next :: rest) := by
        simp [unwords, List.intercalate]
      rw [hjoin]
      exact .followed hne hfirst hspace hrest

/-- A separator in front adds no word. -/
theorem words_cons {c : Char} (h : separator c = true) (text : List Char) :
    words separator (c :: text) = words separator text := by
  rw [words, List.splitOnP_cons_eq_if_modifyHead, if_pos h, List.filter_cons_of_neg (by simp)]
  rfl

/-- A separator parts the words in front of it from those behind it. -/
theorem words_append_cons (front : List Char) {c : Char} (h : separator c = true) (back : List Char) :
    words separator (front ++ c :: back) = words separator front ++ words separator back := by
  rw [words, List.splitOnP_append_cons front back h, List.filter_append]
  rfl

/-- Characters that are no separators are one word. -/
theorem words_single {first : List Char} (hne : first ≠ []) (h : ∀ c ∈ first, separator c = false) :
    words separator first = [first] := by
  rw [words, List.splitOnP_eq_singleton h, List.filter_cons_of_pos (by simpa using hne), List.filter_nil]

/-- What a text spells are its words. -/
theorem Spells.words_eq {text : List Char} {spelled : List (List Char)} (h : Spells separator text spelled) :
    words separator text = spelled := by
  induction h with
  | nil => rfl
  | gap hc _ ih => rw [words_cons hc, ih]
  | @word first text spelled hne hfirst hnext _ ih =>
    cases text with
    | nil =>
      have hnone : spelled = [] := ih.symm
      rw [List.append_nil, words_single hne hfirst, hnone]
    | cons c rest =>
      have hc : separator c = true := hnext c rfl
      rw [words_append_cons first hc, words_single hne hfirst, ← words_cons hc, ih]
      rfl

/-- Separators in front add no word. -/
theorem words_append_left {front : List Char} (h : ∀ c ∈ front, separator c = true) (text : List Char) :
    words separator (front ++ text) = words separator text := by
  induction front with
  | nil => rfl
  | cons c front ih =>
    rw [List.cons_append, words_cons (h c List.mem_cons_self), ih fun c hc => h c (List.mem_cons_of_mem _ hc)]

/-- Separators at the end add no word. -/
theorem words_append_right {back : List Char} (h : ∀ c ∈ back, separator c = true) (text : List Char) :
    words separator (text ++ back) = words separator text := by
  cases back with
  | nil => rw [List.append_nil]
  | cons c back =>
    have hnone : words separator back = [] := by
      have hall := words_append_left (fun c hc => h c (List.mem_cons_of_mem _ hc)) []
      rwa [List.append_nil] at hall
    rw [words_append_cons text (h c List.mem_cons_self), hnone, List.append_nil]

/-- A text with some separators cut off at its ends has the same words. -/
theorem words_trim {blank : Char → Bool} (h : ∀ c, blank c = true → separator c = true) (text : List Char) :
    words separator (trim blank text) = words separator text := by
  obtain ⟨front, back, htext, hfront, hback⟩ := padded_trim blank text
  conv_rhs => rw [htext]
  rw [words_append_right (fun c hc => h c (hback c hc)), words_append_left fun c hc => h c (hfront c hc)]

/-- A change of separators into others keeps the words, where it changes nothing else. -/
theorem words_map {other : Char → Bool} {f : Char → Char} (hsame : ∀ c, other (f c) = separator c)
    (hkeep : ∀ c, separator c = false → f c = c) (text : List Char) :
    words other (text.map f) = words separator text := by
  have hpieces : ∀ text : List Char, (text.map f).splitOnP other = text.splitOnP separator := by
    intro text
    induction text with
    | nil => rfl
    | cons c text ih =>
      rw [List.map_cons, List.splitOnP_cons_eq_if_modifyHead, List.splitOnP_cons_eq_if_modifyHead, hsame, ih]
      split
      · rfl
      case isFalse hc => rw [hkeep c (Bool.eq_false_iff.mpr hc)]
  rw [words, hpieces]
  rfl

end Coatheal.Library.Text
