import Mathlib.Data.List.Basic
import Mathlib.Data.List.TakeWhile

/-!
# Streams in chunks

A stream comes in chunks, cut anywhere, none empty and none longer than a read
takes. What is made of it is independent of the cut when all ways to cut it give
the same. A stream is broken at its marks into pieces; the piece after the last
mark is not complete.
-/

namespace Coatheal.Library.Chunks

variable {α β : Type*}

/-- A way to cut a stream into chunks that are not empty and not longer than the limit. -/
structure IsSplit (limit : ℕ) (stream : List α) (chunks : List (List α)) : Prop where
  flatten_eq : chunks.flatten = stream
  ne_nil : ∀ chunk ∈ chunks, chunk ≠ []
  length_le : ∀ chunk ∈ chunks, chunk.length ≤ limit

/-- All ways to cut a stream give the same. -/
def Independent (limit : ℕ) (stream : List α) (result : List (List α) → β) : Prop :=
  ∀ chunks chunks', IsSplit limit stream chunks → IsSplit limit stream chunks' → result chunks = result chunks'

/-- What is known from the stream alone is independent of the cut. -/
theorem independent_of_eq {limit : ℕ} {stream : List α} {result : List (List α) → β} {value : β}
    (h : ∀ chunks, IsSplit limit stream chunks → result chunks = value) : Independent limit stream result :=
  fun chunks chunks' hsplit hsplit' => (h chunks hsplit).trans (h chunks' hsplit').symm

/-- The stream one element at a time. -/
def singles (stream : List α) : List (List α) := stream.map fun a => [a]

/-- One element at a time is all of the stream. -/
@[simp]
theorem flatten_singles (stream : List α) : (singles stream).flatten = stream := by
  induction stream with
  | nil => rfl
  | cons a rest ih =>
    change a :: (singles rest).flatten = a :: rest
    rw [ih]

/-- One element at a time is a way to cut a stream. -/
theorem isSplit_singles {limit : ℕ} (hlimit : 0 < limit) (stream : List α) : IsSplit limit stream (singles stream) where
  flatten_eq := flatten_singles stream
  ne_nil := by simp [singles]
  length_le := by
    intro chunk hchunk
    obtain ⟨a, _, rfl⟩ := List.mem_map.mp hchunk
    exact hlimit

/-- A part within the limit is a chunk. -/
theorem isSplit_one {limit : ℕ} {chunk : List α} (hne : chunk ≠ []) (hlength : chunk.length ≤ limit) :
    IsSplit limit chunk [chunk] where
  flatten_eq := by simp
  ne_nil := by simpa using hne
  length_le := by simpa using hlength

/-- Two streams that are cut are cut one after the other. -/
theorem IsSplit.append {limit : ℕ} {front back : List α} {chunks chunks' : List (List α)}
    (hfront : IsSplit limit front chunks) (hback : IsSplit limit back chunks') :
    IsSplit limit (front ++ back) (chunks ++ chunks') where
  flatten_eq := by rw [List.flatten_append, hfront.flatten_eq, hback.flatten_eq]
  ne_nil := fun chunk hchunk => (List.mem_append.mp hchunk).elim (hfront.ne_nil chunk) (hback.ne_nil chunk)
  length_le := fun chunk hchunk => (List.mem_append.mp hchunk).elim (hfront.length_le chunk) (hback.length_le chunk)

/-- What comes behind the first chunk is cut, too. -/
theorem IsSplit.tail {limit : ℕ} {stream chunk : List α} {rest : List (List α)}
    (h : IsSplit limit stream (chunk :: rest)) : IsSplit limit rest.flatten rest where
  flatten_eq := rfl
  ne_nil := fun later hlater => h.ne_nil later (List.mem_cons_of_mem _ hlater)
  length_le := fun later hlater => h.length_le later (List.mem_cons_of_mem _ hlater)

/-- The first chunk is not empty. -/
theorem IsSplit.length_pos {limit : ℕ} {stream chunk : List α} {rest : List (List α)}
    (h : IsSplit limit stream (chunk :: rest)) : 0 < chunk.length :=
  List.length_pos_iff.mpr (h.ne_nil chunk List.mem_cons_self)

variable [DecidableEq α]

/-- The parts before and after the first mark. -/
def breakAt (mark : α) : List α → Option (List α × List α)
  | [] => none
  | a :: rest => if a = mark then some ([], rest) else (breakAt mark rest).map fun parts => (a :: parts.1, parts.2)

/-- Without a mark there is nothing to break. -/
theorem breakAt_of_notMem {mark : α} {text : List α} (h : mark ∉ text) : breakAt mark text = none := by
  induction text with
  | nil => rfl
  | cons a rest ih =>
    obtain ⟨hfirst, hrest⟩ := not_or.mp (List.mem_cons.not.mp h)
    rw [breakAt, if_neg (Ne.symm hfirst), ih hrest, Option.map_none]

/-- A text is broken at the first mark. -/
theorem breakAt_append_cons {mark : α} {line : List α} (h : mark ∉ line) (rest : List α) :
    breakAt mark (line ++ mark :: rest) = some (line, rest) := by
  induction line with
  | nil => simp [breakAt]
  | cons a line ih =>
    obtain ⟨hfirst, hline⟩ := not_or.mp (List.mem_cons.not.mp h)
    rw [List.cons_append, breakAt, if_neg (Ne.symm hfirst), ih hline, Option.map_some]

omit [DecidableEq α] in
/-- Where there is a mark there is a last one. -/
theorem exists_last_of_mem {mark : α} {text : List α} (h : mark ∈ text) :
    ∃ front back, text = front ++ mark :: back ∧ mark ∉ back := by
  obtain ⟨line, rest, htext, hline⟩ := List.eq_append_cons_of_mem (List.mem_reverse.mpr h)
  refine ⟨rest.reverse, line.reverse, ?_, by simpa using hline⟩
  rw [← List.reverse_reverse text, htext]
  simp

/-- The part after the first mark is shorter. -/
theorem length_lt_of_breakAt {mark : α} {text line rest : List α} (h : breakAt mark text = some (line, rest)) :
    rest.length < text.length := by
  by_cases hmem : mark ∈ text
  · obtain ⟨line', rest', rfl, hline⟩ := List.eq_append_cons_of_mem hmem
    rw [breakAt_append_cons hline] at h
    cases h
    simp
    omega
  · rw [breakAt_of_notMem hmem] at h
    cases h

/-- The complete pieces of a text, and what is behind the last mark. -/
def pieces (mark : α) : List α → List (List α) × List α
  | [] => ([], [])
  | a :: rest =>
    match pieces mark rest with
    | ([], left) => if a = mark then ([[]], left) else ([], a :: left)
    | (line :: more, left) => if a = mark then ([] :: line :: more, left) else ((a :: line) :: more, left)

/-- Without a mark nothing is complete. -/
theorem pieces_of_notMem {mark : α} {text : List α} (h : mark ∉ text) : pieces mark text = ([], text) := by
  induction text with
  | nil => rfl
  | cons a rest ih =>
    obtain ⟨hfirst, hrest⟩ := not_or.mp (List.mem_cons.not.mp h)
    rw [pieces, ih hrest]
    exact if_neg (Ne.symm hfirst)

/-- The first piece is what stands before the first mark. -/
theorem pieces_append_cons {mark : α} {line : List α} (h : mark ∉ line) (rest : List α) :
    pieces mark (line ++ mark :: rest) = (line :: (pieces mark rest).1, (pieces mark rest).2) := by
  induction line with
  | nil =>
    rw [List.nil_append, pieces]
    split
    case h_1 left hrest => simp [hrest]
    case h_2 first more left hrest => simp [hrest]
  | cons a line ih =>
    obtain ⟨hfirst, hline⟩ := not_or.mp (List.mem_cons.not.mp h)
    rw [List.cons_append, pieces, ih hline]
    exact if_neg (Ne.symm hfirst)

/-- Text that comes later completes what was left. -/
theorem pieces_append (mark : α) (text later : List α) :
    pieces mark (text ++ later) =
      ((pieces mark text).1 ++ (pieces mark ((pieces mark text).2 ++ later)).1,
        (pieces mark ((pieces mark text).2 ++ later)).2) := by
  induction hlength : text.length using Nat.strong_induction_on generalizing text with
  | _ length ih =>
    by_cases hmem : mark ∈ text
    · obtain ⟨line, rest, rfl, hline⟩ := List.eq_append_cons_of_mem hmem
      have hrest := ih rest.length (by simp at hlength; omega) rest rfl
      rw [List.append_assoc, List.cons_append, pieces_append_cons hline, pieces_append_cons hline, hrest]
      rfl
    · rw [pieces_of_notMem hmem]
      rfl

/-- What is left holds no mark. -/
theorem mark_notMem_pieces (mark : α) (text : List α) : mark ∉ (pieces mark text).2 := by
  induction hlength : text.length using Nat.strong_induction_on generalizing text with
  | _ length ih =>
    by_cases hmem : mark ∈ text
    · obtain ⟨line, rest, rfl, hline⟩ := List.eq_append_cons_of_mem hmem
      rw [pieces_append_cons hline]
      exact ih rest.length (by simp at hlength; omega) rest rfl
    · rw [pieces_of_notMem hmem]
      exact hmem

/-- What is not the mark is in the pieces as often as in the text. -/
theorem countP_pieces {mark : α} {p : α → Bool} (h : p mark = false) (text : List α) :
    (pieces mark text).1.flatten.countP p + (pieces mark text).2.countP p = text.countP p := by
  induction hlength : text.length using Nat.strong_induction_on generalizing text with
  | _ length ih =>
    by_cases hmem : mark ∈ text
    · obtain ⟨line, rest, rfl, hline⟩ := List.eq_append_cons_of_mem hmem
      have hrest := ih rest.length (by simp at hlength; omega) rest rfl
      rw [pieces_append_cons hline, List.flatten_cons, List.countP_append, List.countP_append,
        List.countP_cons_of_neg (by simp [h]), ← hrest, Nat.add_assoc]
    · rw [pieces_of_notMem hmem, List.flatten_nil, List.countP_nil, Nat.zero_add]

/-- What is left is what is behind the last mark. -/
theorem pieces_left {mark : α} {back : List α} (h : mark ∉ back) (front : List α) :
    (pieces mark (front ++ mark :: back)).2 = back := by
  rw [pieces_append, pieces_append_cons (mark_notMem_pieces mark front), pieces_of_notMem h]

end Coatheal.Library.Chunks
