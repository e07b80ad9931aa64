import Mathlib.Data.List.Basic
import Mathlib.Tactic.SplitIfs

/-!
# Raw DEFLATE streams

The calls of zlib that a codec makes, by what its manual says of them: a call of
`inflate` fills the room it is given from what the stream still holds, reports
the end of the stream once everything is delivered, an error once the input is
not DEFLATE, and never succeeds without moving forward. Memory is never short.
Reading a stream in pieces and reading it at once give the same bytes.
-/

namespace Coatheal.Library

/-- How the contents of a stream end. -/
inductive Ending where
  | finished
  | corrupt
  | starved
deriving DecidableEq, Repr

/-- The return codes that callers tell apart. -/
inductive ZCode where
  | ok
  | streamEnd
  | bufError
  | dataError
deriving DecidableEq, Repr

/-- What a call of `inflate` leaves: its return code, the bytes it delivers and the stream after it. -/
structure Inflated (Stream : Type) where
  code : ZCode
  bytes : List UInt8
  stream : Stream

/-- The library: compression in one call, streams to inflate, the input a stream has not consumed, and
what it still holds together with the way that ends. -/
structure Zlib where
  deflate : List UInt8 → List UInt8 → Option (List UInt8)
  Stream : Type
  inflateInit : List UInt8 → List UInt8 → Stream
  inflate : Stream → ℕ → Inflated Stream
  availIn : Stream → ℕ
  holds : Stream → List UInt8
  ending : Stream → Ending
  holds_noInput : ∀ dictionary, holds (inflateInit dictionary []) = [] ∧
    ending (inflateInit dictionary []) = .starved
  bytes_eq : ∀ s room, (inflate s room).bytes = (holds s).take room
  availIn_le : ∀ s room, availIn (inflate s room).stream ≤ availIn s
  progress : ∀ s room, (inflate s room).code = .ok →
    (inflate s room).bytes ≠ [] ∨ availIn (inflate s room).stream < availIn s
  filled : ∀ s room, 0 < room → room < (holds s).length → (inflate s room).code = .ok ∧
    holds (inflate s room).stream = (holds s).drop room ∧ ending (inflate s room).stream = ending s
  finished : ∀ s room, 0 < room → (holds s).length ≤ room → ending s = .finished →
    (inflate s room).code = .streamEnd
  unfinished : ∀ s room, 0 < room → (holds s).length ≤ room → ending s ≠ .finished →
    (inflate s room).code = .ok ∧ holds (inflate s room).stream = [] ∧
        ending (inflate s room).stream = ending s ∨
      (inflate s room).code = (if ending s = .corrupt then .dataError else .bufError)

namespace Zlib

variable (z : Zlib)

/-- What is left to do for a stream gets less with every successful call. -/
theorem inflate_less {s : z.Stream} {room : ℕ} (hroom : 0 < room) (hok : (z.inflate s room).code = .ok) :
    (z.holds (z.inflate s room).stream).length + z.availIn (z.inflate s room).stream <
      (z.holds s).length + z.availIn s := by
  have hle := z.availIn_le s room
  by_cases hmore : room < (z.holds s).length
  · obtain ⟨-, hholds, -⟩ := z.filled s room hroom hmore
    rw [hholds, List.length_drop]
    omega
  · have hall := Nat.not_lt.mp hmore
    have hending : z.ending s ≠ .finished := fun hfinished => by
      rw [z.finished s room hroom hall hfinished] at hok
      exact absurd hok (by decide)
    rcases z.unfinished s room hroom hall hending with ⟨-, hholds, -⟩ | hcode
    · rw [hholds, List.length_nil]
      rcases z.progress s room hok with hbytes | hless
      · rw [z.bytes_eq, List.take_of_length_le hall] at hbytes
        have hpos := List.length_pos_iff.mpr hbytes
        omega
      · omega
    · rw [hcode] at hok
      split at hok
      · exact absurd hok (by decide)
      · exact absurd hok (by decide)

/-- Inflate in pieces of some size until the stream ends; `none` on any error. -/
def inflateAll (room : ℕ) (hroom : 0 < room) (s : z.Stream) : Option (List UInt8) :=
  let call := z.inflate s room
  if call.code = .streamEnd then some call.bytes
  else if _hok : call.code = .ok then (inflateAll room hroom call.stream).map (call.bytes ++ ·)
  else none
termination_by (z.holds s).length + z.availIn s
decreasing_by exact z.inflate_less hroom _hok

/-- A call ends the stream, goes on with the rest of it or fails. -/
theorem inflate_cases {s : z.Stream} {room : ℕ} (hroom : 0 < room) :
    ((z.inflate s room).code = .streamEnd ∧ z.ending s = .finished ∧ (z.inflate s room).bytes = z.holds s) ∨
      ((z.inflate s room).code = .ok ∧ z.ending (z.inflate s room).stream = z.ending s ∧
        z.holds s = (z.inflate s room).bytes ++ z.holds (z.inflate s room).stream) ∨
      ((z.inflate s room).code ≠ .streamEnd ∧ (z.inflate s room).code ≠ .ok ∧ z.ending s ≠ .finished) := by
  rw [z.bytes_eq]
  by_cases hmore : room < (z.holds s).length
  · obtain ⟨hok, hholds, hending⟩ := z.filled s room hroom hmore
    exact Or.inr (Or.inl ⟨hok, hending, by rw [hholds, List.take_append_drop]⟩)
  · have hall := Nat.not_lt.mp hmore
    rw [List.take_of_length_le hall]
    by_cases hfinished : z.ending s = .finished
    · exact Or.inl ⟨z.finished s room hroom hall hfinished, hfinished, rfl⟩
    · rcases z.unfinished s room hroom hall hfinished with ⟨hok, hholds, hending⟩ | hcode
      · exact Or.inr (Or.inl ⟨hok, hending, by rw [hholds, List.append_nil]⟩)
      · refine Or.inr (Or.inr ?_)
        rw [hcode]
        split
        · exact ⟨by decide, by decide, hfinished⟩
        · exact ⟨by decide, by decide, hfinished⟩

/-- Inflating in pieces gives what a finished stream holds, and fails on any other. -/
theorem inflateAll_eq (room : ℕ) (hroom : 0 < room) (s : z.Stream) :
    z.inflateAll room hroom s = if z.ending s = .finished then some (z.holds s) else none := by
  fun_induction inflateAll z room hroom s with
  | case1 s call hend =>
    rcases z.inflate_cases hroom with ⟨-, hfinished, hbytes⟩ | ⟨hok, -⟩ | ⟨hother, -⟩
    · rw [if_pos hfinished, hbytes]
    · exact absurd (hend.symm.trans hok) (by decide)
    · exact absurd hend hother
  | case2 s call hend hok ih =>
    rcases z.inflate_cases hroom with ⟨hother, -⟩ | ⟨-, hending, hholds⟩ | ⟨-, hother, -⟩
    · exact absurd hother hend
    · rw [ih, hending, hholds]
      split
      · rfl
      · rfl
    · exact absurd hok hother
  | case3 s call hend hok =>
    rcases z.inflate_cases hroom with ⟨hother, -⟩ | ⟨hother, -⟩ | ⟨-, -, hunfinished⟩
    · exact absurd hother hend
    · exact absurd hother hok
    · rw [if_neg hunfinished]

/-- What `decompress` of a decompressor returns with a bound on the length: the bytes, whether input
was left over for lack of room, and whether the end of the stream was reached. -/
structure Decompressed where
  data : List UInt8
  unconsumedTail : Bool
  eof : Bool
deriving DecidableEq, Repr

/-- `decompress` with a bound on the length; `none` on an error of the stream. -/
def decompress (maxLength : ℕ) (s : z.Stream) : Option Decompressed :=
  let call := z.inflate s maxLength
  match call.code with
  | .streamEnd => some ⟨call.bytes, false, true⟩
  | .dataError => none
  | _ => some ⟨call.bytes, decide (0 < z.availIn call.stream), false⟩

/-- The end of the stream is reached exactly when what it holds is finished and within the bound. -/
theorem decompress_eof {maxLength : ℕ} (hpos : 0 < maxLength) (s : z.Stream) :
    ((z.decompress maxLength s).bind fun d => if d.unconsumedTail = false ∧ d.eof = true then some d.data else none) =
      if z.ending s = .finished ∧ (z.holds s).length ≤ maxLength then some (z.holds s) else none := by
  unfold decompress
  dsimp only
  by_cases hmore : maxLength < (z.holds s).length
  · obtain ⟨hok, -⟩ := z.filled s maxLength hpos hmore
    rw [hok, if_neg fun h => absurd h.2 (Nat.not_le.mpr hmore)]
    simp
  · have hall := Nat.not_lt.mp hmore
    by_cases hfinished : z.ending s = .finished
    · rw [z.finished s maxLength hpos hall hfinished, if_pos ⟨hfinished, hall⟩, z.bytes_eq, List.take_of_length_le hall]
      rfl
    · rw [if_neg fun h => hfinished h.1]
      rcases z.unfinished s maxLength hpos hall hfinished with ⟨hok, -⟩ | hcode
      · rw [hok]
        simp
      · by_cases hcorrupt : z.ending s = .corrupt
        · rw [hcode, if_pos hcorrupt]
          rfl
        · rw [hcode, if_neg hcorrupt]
          simp

end Zlib

end Coatheal.Library
