import Coatheal.Library.Run
import Coatheal.Library.StableInsert
import Mathlib.Data.List.AList
import Mathlib.Data.List.Infix
import Mathlib.Order.Lattice

/-!
# Time series for the plots

Each series has two arrays that grow together, one for the times and one for
the values. A point that comes in late is put in its place by a search and a
shift of both arrays; a window is cut by two searches. The arrays hold the
points sorted by time, those of one time in the order they came in. Times are
taken from any linear order, so that infinite bounds are covered; what a fresh
array holds is arbitrary.
-/

namespace Coatheal.Ground

open Coatheal.Library

/-- The side of a search. -/
inductive Side where
  | left
  | right
deriving DecidableEq, Repr

/-- What the store uses of numpy: uninitialised arrays of a size, and the search for the place of a
value in a sorted array, in front of its equals or behind them. -/
structure Numpy (T V : Type) [LinearOrder T] where
  emptyTimes : ℕ → List T
  emptyValues : ℕ → List V
  searchsorted : Side → List T → T → ℕ
  length_emptyTimes : ∀ capacity, (emptyTimes capacity).length = capacity
  length_emptyValues : ∀ capacity, (emptyValues capacity).length = capacity
  searchsorted_left : ∀ (times : List T) (t : T), times.Pairwise (· ≤ ·) →
    (∀ time ∈ times.take (searchsorted .left times t), time < t) ∧
      ∀ time ∈ times.drop (searchsorted .left times t), t ≤ time
  searchsorted_right : ∀ (times : List T) (t : T), times.Pairwise (· ≤ ·) →
    (∀ time ∈ times.take (searchsorted .right times t), time ≤ t) ∧
      ∀ time ∈ times.drop (searchsorted .right times t), t < time

/-- In a sorted array the times behind those that a condition holds of in front do not meet it, where it
holds of every time below one it holds of. -/
theorem not_of_mem_dropWhile {T : Type} [LinearOrder T] {low : T → Bool}
    (hlow : ∀ first second, first ≤ second → low second = true → low first = true) {times : List T}
    (h : times.Pairwise (· ≤ ·)) {time : T} (htime : time ∈ times.dropWhile low) : low time = false := by
  induction times with
  | nil => exact absurd htime List.not_mem_nil
  | cons first rest ih =>
    obtain ⟨hfirst, hrest⟩ := List.pairwise_cons.mp h
    rw [List.dropWhile_cons] at htime
    split at htime
    · exact ih hrest htime
    case isFalse hnot =>
      rcases List.mem_cons.mp htime with rfl | hin
      · exact Bool.eq_false_iff.mpr hnot
      · exact Bool.eq_false_iff.mpr fun hholds => hnot (hlow first time (hfirst time hin) hholds)

/-- A search from the front. -/
def linearSearch {T : Type} [LinearOrder T] (side : Side) (times : List T) (t : T) : ℕ :=
  match side with
  | .left => (times.takeWhile fun time => decide (time < t)).length
  | .right => (times.takeWhile fun time => decide (time ≤ t)).length

/-- A list is cut at the end of the front in which a condition holds. -/
theorem drop_length_takeWhile {α : Type} (low : α → Bool) (values : List α) :
    values.drop (values.takeWhile low).length = values.dropWhile low := by
  have hwhole := List.takeWhile_append_dropWhile (p := low) (l := values)
  have hcut := List.prefix_append_drop (List.takeWhile_prefix low (l := values))
  exact (List.append_cancel_left (hwhole.trans hcut)).symm

/-- A search from the front finds the place in front of the equals. -/
theorem linearSearch_left {T : Type} [LinearOrder T] (times : List T) (t : T) (h : times.Pairwise (· ≤ ·)) :
    (∀ time ∈ times.take (linearSearch .left times t), time < t) ∧
      ∀ time ∈ times.drop (linearSearch .left times t), t ≤ time := by
  rw [linearSearch, ← List.prefix_iff_eq_take.mp (List.takeWhile_prefix _), drop_length_takeWhile]
  refine ⟨fun time htime => ?_, fun time htime => ?_⟩
  · have hholds := List.mem_takeWhile_imp htime
    exact of_decide_eq_true hholds
  have hnot := not_of_mem_dropWhile (fun first second hle hless => decide_eq_true
    (lt_of_le_of_lt hle (of_decide_eq_true hless))) h htime
  exact not_lt.mp (of_decide_eq_false hnot)

/-- A search from the front finds the place behind the equals. -/
theorem linearSearch_right {T : Type} [LinearOrder T] (times : List T) (t : T) (h : times.Pairwise (· ≤ ·)) :
    (∀ time ∈ times.take (linearSearch .right times t), time ≤ t) ∧
      ∀ time ∈ times.drop (linearSearch .right times t), t < time := by
  rw [linearSearch, ← List.prefix_iff_eq_take.mp (List.takeWhile_prefix _), drop_length_takeWhile]
  refine ⟨fun time htime => ?_, fun time htime => ?_⟩
  · have hholds := List.mem_takeWhile_imp htime
    exact of_decide_eq_true hholds
  have hnot := not_of_mem_dropWhile (fun first second hle hle' => decide_eq_true
    (hle.trans (of_decide_eq_true hle'))) h htime
  exact not_le.mp (of_decide_eq_false hnot)

/-- A search from the front, over arrays filled with one value, does what the store asks of numpy. -/
def Numpy.linear {T V : Type} [LinearOrder T] (time : T) (value : V) : Numpy T V where
  emptyTimes capacity := List.replicate capacity time
  emptyValues capacity := List.replicate capacity value
  searchsorted := linearSearch
  length_emptyTimes _ := List.length_replicate
  length_emptyValues _ := List.length_replicate
  searchsorted_left := linearSearch_left
  searchsorted_right := linearSearch_right

/-- A slice of an array, empty if it ends before it starts. -/
def slice {α : Type} (values : List α) (start stop : ℕ) : List α := (values.take stop).drop start

/-- An array with some values written over it from a place on. -/
def assign {α : Type} (values : List α) (start : ℕ) (written : List α) : List α :=
  values.take start ++ written ++ values.drop (start + written.length)

/-- One series: the two arrays and how many points they hold. -/
structure Series (T V : Type) where
  t : List T
  y : List V
  n : ℕ

/-- The series by name, the range of the times and the number of appends. -/
structure SeriesStore (T V : Type) where
  cap : ℕ
  series : AList fun _ : List Char => Series T V
  t0 : Option T
  tLast : Option T
  count : ℕ

variable {T V : Type} [LinearOrder T] (np : Numpy T V)

namespace Series

/-- An empty series. -/
def new (capacity : ℕ) : Series T V := ⟨np.emptyTimes capacity, np.emptyValues capacity, 0⟩

/-- Twice the room once the arrays are full. -/
def grow (s : Series T V) : Series T V :=
  if s.n = s.t.length then
    let newCap := max 64 (s.t.length * 2)
    { s with
      t := assign (np.emptyTimes newCap) 0 (slice s.t 0 s.n)
      y := assign (np.emptyValues newCap) 0 (slice s.y 0 s.n) }
  else s

/-- `append`. -/
def append (s : Series T V) (t : T) (y : V) : Series T V :=
  let s := s.grow np
  if s.n ≠ 0 ∧ (s.t[s.n - 1]?.any fun last => decide (t < last)) = true then
    let idx := np.searchsorted .right (slice s.t 0 s.n) t
    { t := (assign s.t (idx + 1) (slice s.t idx s.n)).set idx t
      y := (assign s.y (idx + 1) (slice s.y idx s.n)).set idx y
      n := s.n + 1 }
  else ⟨s.t.set s.n t, s.y.set s.n y, s.n + 1⟩

/-- The arrays hold some points in front, and have room for them. -/
structure Holds (s : Series T V) (points : List (T × V)) : Prop where
  size : s.n = points.length
  room : s.n ≤ s.t.length
  same : s.y.length = s.t.length
  times : s.t.take s.n = points.map Prod.fst
  values : s.y.take s.n = points.map Prod.snd

end Series

namespace SeriesStore

/-- An empty store. -/
def new (initialCapacity : ℤ) : SeriesStore T V := ⟨(max 16 initialCapacity).toNat, ∅, none, none, 0⟩

/-- The value of one name of an append, if it has one. -/
def put (t : T) (store : SeriesStore T V) (entry : List Char × Option V) : SeriesStore T V :=
  match entry.2 with
  | none => store
  | some value =>
    let series := (store.series.lookup entry.1).getD (Series.new np store.cap)
    { store with series := store.series.insert entry.1 (series.append np t value) }

/-- `append`. -/
def append (store : SeriesStore T V) (point : T × List (List Char × Option V)) : SeriesStore T V :=
  let store :=
    { store with
      t0 := if store.t0.all (fun first => decide (point.1 < first)) then some point.1 else store.t0
      tLast := if store.tLast.all (fun last => decide (last < point.1)) then some point.1 else store.tLast
      count := store.count + 1 }
  point.2.foldl (put np point.1) store

/-- `series`: the arrays of a name, as far as they hold points. -/
def seriesOf (store : SeriesStore T V) (name : List Char) : List T × List V :=
  match store.series.lookup name with
  | none => (np.emptyTimes 0, np.emptyValues 0)
  | some s => (slice s.t 0 s.n, slice s.y 0 s.n)

/-- `window`. -/
def window (store : SeriesStore T V) (name : List Char) (tMin tMax : Option T) : List T × List V :=
  let (t, y) := store.seriesOf np name
  if t.length = 0 then (t, y)
  else
    let lo := match tMin with
      | none => 0
      | some tMin => np.searchsorted .left t tMin
    let hi := match tMax with
      | none => t.length
      | some tMax => np.searchsorted .right t tMax
    (slice t lo hi, slice y lo hi)

end SeriesStore

/-- Writing over the front of an array leaves what is written in front. -/
theorem take_assign {α : Type} {values written : List α} {count : ℕ} (h : written.length = count) :
    (assign values 0 written).take count = written := by
  rw [assign, List.take_zero, List.nil_append, List.take_left' h]

/-- Writing within an array keeps its size. -/
theorem length_assign {α : Type} {values written : List α} {start : ℕ} (h : start + written.length ≤ values.length) :
    (assign values start written).length = values.length := by
  simp only [assign, List.length_append, List.length_take, List.length_drop]
  omega

/-- Shifting an array by one from a place on makes room for a value there. -/
theorem take_shift {α : Type} {values : List α} {idx count : ℕ} (hidx : idx ≤ count) (hroom : count < values.length)
    (value : α) : ((assign values (idx + 1) (slice values idx count)).set idx value).take (count + 1) =
      (values.take count).take idx ++ value :: (values.take count).drop idx := by
  have hslice : (slice values idx count).length = count - idx := by
    rw [slice, List.length_drop, List.length_take]
    omega
  have hlength : (assign values (idx + 1) (slice values idx count)).length = values.length :=
    length_assign (by omega)
  have hfront : (assign values (idx + 1) (slice values idx count)).take idx = values.take idx := by
    rw [assign, List.append_assoc, List.take_append_of_le_length (by rw [List.length_take]; omega), List.take_take]
    congr 1
    omega
  have hback : (assign values (idx + 1) (slice values idx count)).drop (idx + 1) =
      slice values idx count ++ values.drop (idx + 1 + (slice values idx count).length) := by
    rw [assign, List.append_assoc, List.drop_left' (by rw [List.length_take]; omega)]
  rw [List.set_eq_take_append_cons_drop, if_pos (by omega), hfront, hback, List.take_take, min_eq_left hidx]
  have hcount : count + 1 = (values.take idx).length + (1 + (slice values idx count).length) := by
    rw [List.length_take, hslice]
    omega
  rw [hcount, List.take_length_add_append, Nat.add_comm 1, List.take_succ_cons, List.take_left]
  rfl

/-- A value behind those that an array holds. -/
theorem take_set {α : Type} {values : List α} {count : ℕ} (hroom : count < values.length) (value : α) :
    (values.set count value).take (count + 1) = values.take count ++ [value] := by
  rw [List.set_eq_take_append_cons_drop, if_pos hroom]
  have hcount : count + 1 = (values.take count).length + 1 := by
    rw [List.length_take]
    omega
  conv_lhs => rw [hcount, List.take_length_add_append]
  rfl

namespace Series

variable {np} {s : Series T V} {points : List (T × V)}

/-- A series that grows holds the same points and has room for another one. -/
theorem grow_holds (h : s.Holds points) : (s.grow np).Holds points ∧ (s.grow np).n < (s.grow np).t.length := by
  unfold grow
  split
  case isTrue hfull =>
    have htimes : (slice s.t 0 s.n).length = s.n := by
      rw [slice, List.drop_zero, List.length_take]
      omega
    have hvalues : (slice s.y 0 s.n).length = s.n := by
      have hsame := h.same
      rw [slice, List.drop_zero, List.length_take]
      omega
    have hroomTimes : (assign (np.emptyTimes (max 64 (s.t.length * 2))) 0 (slice s.t 0 s.n)).length =
        max 64 (s.t.length * 2) := by
      rw [length_assign (by rw [np.length_emptyTimes]; omega), np.length_emptyTimes]
    have hroomValues : (assign (np.emptyValues (max 64 (s.t.length * 2))) 0 (slice s.y 0 s.n)).length =
        max 64 (s.t.length * 2) := by
      rw [length_assign (by rw [np.length_emptyValues]; omega), np.length_emptyValues]
    have hmore : s.n < max 64 (s.t.length * 2) := by omega
    dsimp only
    rw [← hroomTimes] at hmore
    refine ⟨⟨h.size, hmore.le, hroomValues.trans hroomTimes.symm, ?_, ?_⟩, hmore⟩
    · rw [take_assign htimes, slice, List.drop_zero, h.times]
    · rw [take_assign hvalues, slice, List.drop_zero, h.values]
  case isFalse hroom =>
    have hle := h.room
    exact ⟨h, by omega⟩

omit [LinearOrder T] in
/-- The last time in the array is that of the last point. -/
theorem Holds.lastTime (h : s.Holds points) (hn : s.n ≠ 0) : s.t[s.n - 1]? = points.getLast?.map Prod.fst := by
  have hfront : (s.t.take s.n)[s.n - 1]? = s.t[s.n - 1]? := List.getElem?_take_of_lt (by omega)
  rw [← hfront, h.times, List.getElem?_map, h.size, List.getLast?_eq_getElem?]

/-- Appending a point puts it in its place among the points. -/
theorem append_holds (h : s.Holds points) (hsorted : InOrder Prod.fst points) (t : T) (y : V) :
    (s.append np t y).Holds (insertStable Prod.fst points (t, y)) := by
  obtain ⟨hgrown, hroom⟩ : (s.grow np).Holds points ∧ (s.grow np).n < (s.grow np).t.length := grow_holds h
  have hlength : (insertStable Prod.fst points (t, y)).length = points.length + 1 :=
    (perm_insertStable points (t, y)).length_eq
  unfold append
  generalize s.grow np = grown at hgrown hroom ⊢
  have hvaluesRoom : grown.n < grown.y.length := by rwa [hgrown.same]
  dsimp only
  split
  case isTrue hlate =>
    -- the point goes between those of its time or earlier and the later ones
    have hordered : (slice grown.t 0 grown.n).Pairwise (· ≤ ·) := by
      rw [slice, List.drop_zero, hgrown.times, List.pairwise_map]
      exact hsorted
    obtain ⟨hbefore, hbehind⟩ := np.searchsorted_right _ t hordered
    generalize np.searchsorted .right (slice grown.t 0 grown.n) t = idx at hbefore hbehind ⊢
    rw [slice, List.drop_zero, hgrown.times] at hbefore hbehind
    have hidx : idx ≤ grown.n := by
      by_contra hbeyond
      rw [hgrown.lastTime hlate.1, Option.any_map, Option.any_eq_true] at hlate
      obtain ⟨hn, last, hlast, hless⟩ := hlate
      have hin : last.1 ∈ (points.map Prod.fst).take idx := by
        rw [List.take_of_length_le (by rw [List.length_map, ← hgrown.size]; omega)]
        exact List.mem_map_of_mem (List.mem_of_getLast? hlast)
      exact absurd (hbefore last.1 hin) (not_le.mpr (of_decide_eq_true hless))
    have hkeeps : ∀ {α : Type} (values : List α), grown.n < values.length →
        (assign values (idx + 1) (slice values idx grown.n)).length = values.length := by
      intro α values hmore
      refine length_assign ?_
      rw [slice, List.length_drop, List.length_take]
      omega
    have hpoints : insertStable Prod.fst points (t, y) = points.take idx ++ (t, y) :: points.drop idx := by
      conv_lhs => rw [← List.take_append_drop idx points]
      refine insertStable_of_split (fun other hother => ?_) fun other hother => ?_
      · exact hbefore other.1 (by rw [← List.map_take]; exact List.mem_map_of_mem hother)
      · exact hbehind other.1 (by rw [← List.map_drop]; exact List.mem_map_of_mem hother)
    refine ⟨?_, ?_, ?_, ?_, ?_⟩
    · rw [hlength, hgrown.size]
    · rw [List.length_set, hkeeps grown.t hroom]
      exact hroom
    · rw [List.length_set, List.length_set, hkeeps grown.t hroom, hkeeps grown.y hvaluesRoom, hgrown.same]
    · rw [take_shift hidx hroom, hgrown.times, hpoints, List.map_append, List.map_cons, List.map_take, List.map_drop]
    · rw [take_shift hidx hvaluesRoom, hgrown.values, hpoints, List.map_append, List.map_cons, List.map_take,
        List.map_drop]
  case isFalse honTime =>
    have hpoints : insertStable Prod.fst points (t, y) = points ++ [(t, y)] := by
      conv_lhs => rw [← List.append_nil points]
      refine insertStable_of_split (fun other hother => ?_) fun other hother => absurd hother List.not_mem_nil
      obtain ⟨earlier, last, rfl⟩ : ∃ earlier last, points = earlier ++ [last] :=
        (List.eq_nil_or_concat' points).resolve_left fun hnil => by
          rw [hnil] at hother
          exact List.not_mem_nil hother
      have hn : grown.n ≠ 0 := by
        rw [hgrown.size, List.length_append]
        exact Nat.succ_ne_zero _
      have hlast : last.1 ≤ t := by
        rw [hgrown.lastTime hn, List.getLast?_append] at honTime
        by_contra hlater
        exact honTime ⟨hn, decide_eq_true (not_le.mp hlater)⟩
      rcases List.mem_append.mp hother with hin | hin
      · exact ((List.pairwise_append.mp hsorted).2.2 other hin last List.mem_cons_self).trans hlast
      · rw [List.mem_singleton.mp hin]
        exact hlast
    refine ⟨?_, ?_, ?_, ?_, ?_⟩
    · rw [hlength, hgrown.size]
    · rw [List.length_set]
      exact hroom
    · rw [List.length_set, List.length_set, hgrown.same]
    · rw [take_set hroom, hgrown.times, hpoints, List.map_append, List.map_singleton]
    · rw [take_set hvaluesRoom, hgrown.values, hpoints, List.map_append, List.map_singleton]

end Series

namespace SeriesStore

variable {np} {store : SeriesStore T V}

/-- The points that an append has for a name. -/
def pointsOf (name : List Char) (point : T × List (List Char × Option V)) : List (T × V) :=
  point.2.filterMap fun entry => if entry.1 = name then entry.2.map fun value => (point.1, value) else none

/-- The points that came in for a name, in the order they came in. -/
def arrivals (appends : List (T × List (List Char × Option V))) (name : List Char) : List (T × V) :=
  appends.flatMap (pointsOf name)

/-- The points of a series. -/
def points (np : Numpy T V) (store : SeriesStore T V) (name : List Char) : List (T × V) :=
  (store.seriesOf np name).1.zip (store.seriesOf np name).2

/-- Whether a point lies in a closed interval, where no bound is no limit. -/
def inside (tMin tMax : Option T) (point : T × V) : Bool :=
  tMin.all (fun tMin => decide (tMin ≤ point.1)) && tMax.all fun tMax => decide (point.1 ≤ tMax)

/-- The two arrays of a series are aligned, its points are sorted by time, those of one time stand in the
order they came in, each point that came in stands there once, and a window holds exactly the points in the
closed interval, in order. -/
structure Law (np : Numpy T V) (store : SeriesStore T V) (arrivals : List Char → List (T × V)) : Prop where
  aligned : ∀ name, (store.seriesOf np name).1.length = (store.seriesOf np name).2.length
  sorted : ∀ name, (store.points np name).Pairwise fun first second => first.1 ≤ second.1
  asArrived : ∀ name time, (store.points np name).filter (fun point => decide (point.1 = time)) =
    (arrivals name).filter fun point => decide (point.1 = time)
  once : ∀ name, (store.points np name).Perm (arrivals name)
  window : ∀ name tMin tMax, store.window np name tMin tMax =
    (((store.points np name).filter (inside tMin tMax)).map Prod.fst,
      ((store.points np name).filter (inside tMin tMax)).map Prod.snd)

/-- Every series holds the points that came in for it, arranged by time. -/
def Tells (np : Numpy T V) (store : SeriesStore T V) (arrivals : List Char → List (T × V)) : Prop :=
  ∀ name, ((store.series.lookup name).getD (Series.new np store.cap)).Holds (arrange Prod.fst (arrivals name)) ∧
    (store.series.lookup name = none → arrivals name = [])

/-- A fresh series holds nothing. -/
theorem new_holds (np : Numpy T V) (capacity : ℕ) : (Series.new np capacity).Holds [] := by
  refine ⟨rfl, Nat.zero_le _, ?_, rfl, rfl⟩
  rw [Series.new, np.length_emptyTimes, np.length_emptyValues]

/-- Putting a value adds its point to what came in for its name. -/
theorem put_tells {came : List Char → List (T × V)} (h : Tells np store came) (t : T)
    (entry : List Char × Option V) :
    Tells np (put np t store entry) (fun name => came name ++ pointsOf name (t, [entry])) := by
  obtain ⟨own, value⟩ := entry
  cases value with
  | none =>
    have hnone : ∀ name, pointsOf name (t, [(own, (none : Option V))]) = [] := fun name => by
      simp [pointsOf]
    simpa [put, hnone] using h
  | some value =>
    intro name
    by_cases hname : own = name
    · subst hname
      have hpoint : pointsOf own (t, [(own, some value)]) = [(t, value)] := by simp [pointsOf]
      have harranged : InOrder Prod.fst (arrange Prod.fst (came own)) := (arrange_spec (came own)).1
      rw [put]
      dsimp only
      rw [hpoint, AList.lookup_insert]
      refine ⟨?_, fun hmissing => absurd hmissing (by simp)⟩
      rw [Option.getD_some, arrange, List.foldl_append]
      exact Series.append_holds (h own).1 harranged t value
    · have hnone : pointsOf name (t, [(own, some value)]) = [] := by simp [pointsOf, hname]
      rw [put]
      dsimp only
      rw [hnone, List.append_nil, AList.lookup_insert_ne (Ne.symm hname)]
      exact h name

/-- An append adds its points to what came in. -/
theorem append_tells {came : List Char → List (T × V)} (h : Tells np store came)
    (point : T × List (List Char × Option V)) :
    Tells np (store.append np point) (fun name => came name ++ pointsOf name point) := by
  obtain ⟨t, entries⟩ := point
  unfold append
  dsimp only
  generalize hstart : ({ store with
      t0 := if store.t0.all (fun first => decide (t < first)) then some t else store.t0
      tLast := if store.tLast.all (fun last => decide (last < t)) then some t else store.tLast
      count := store.count + 1 } : SeriesStore T V) = start
  have hsame : Tells np start came := by
    rw [← hstart]
    exact h
  clear hstart h
  induction entries generalizing start came with
  | nil =>
    have hnone : ∀ name, pointsOf name (t, ([] : List (List Char × Option V))) = [] := fun name => rfl
    simpa [hnone] using hsame
  | cons entry rest ih =>
    have hnext := ih _ (put_tells hsame t entry)
    have hsplit : ∀ name, pointsOf name (t, entry :: rest) = pointsOf name (t, [entry]) ++ pointsOf name (t, rest) := by
      intro name
      rw [pointsOf, pointsOf, pointsOf, ← List.filterMap_append, List.singleton_append]
    rw [List.foldl_cons]
    intro name
    have hname := hnext name
    dsimp only at hname
    rw [List.append_assoc, ← hsplit] at hname
    exact hname

/-- After any appends every series holds the points that came in for it. -/
theorem run_tells (np : Numpy T V) (initialCapacity : ℤ) (appends : List (T × List (List Char × Option V))) :
    Tells np (run (append np) (new initialCapacity) appends) (arrivals appends) := by
  have hall : ∀ (start : SeriesStore T V) (came : List Char → List (T × V)), Tells np start came →
      Tells np (run (append np) start appends) fun name => came name ++ arrivals appends name := by
    induction appends with
    | nil => simp [arrivals]
    | cons point rest ih =>
      intro start came h
      have hnext := ih _ _ (append_tells h point)
      intro name
      have hname := hnext name
      dsimp only at hname
      rw [List.append_assoc] at hname
      exact hname
  exact hall (new initialCapacity) (fun _ => []) fun name => ⟨new_holds np _, fun _ => rfl⟩

omit [LinearOrder T] in
/-- Cutting a list where a lower and an upper condition begin and end to hold keeps what meets both. -/
theorem slice_eq_filter {points : List (T × V)} {lower upper : T × V → Bool} {lo hi : ℕ}
    (hbelow : ∀ point ∈ points.take lo, lower point = false) (habove : ∀ point ∈ points.drop lo, lower point = true)
    (hwithin : ∀ point ∈ points.take hi, upper point = true) (hbeyond : ∀ point ∈ points.drop hi, upper point = false) :
    slice points lo hi = points.filter fun point => lower point && upper point := by
  have hupper : points.filter upper = points.take hi := by
    conv_lhs => rw [← List.take_append_drop hi points]
    rw [List.filter_append, List.filter_eq_self.mpr hwithin,
      List.filter_eq_nil_iff.mpr fun point hpoint => by simp [hbeyond point hpoint], List.append_nil]
  have hlower : (points.take hi).filter lower = (points.take hi).drop lo := by
    conv_lhs => rw [← List.take_append_drop lo (points.take hi)]
    have hnone : ∀ point ∈ (points.take hi).take lo, ¬ lower point = true := by
      intro point hpoint
      rw [List.take_take, min_comm, ← List.take_take] at hpoint
      simp [hbelow point (List.mem_of_mem_take hpoint)]
    have hall : ∀ point ∈ (points.take hi).drop lo, lower point = true := by
      intro point hpoint
      refine habove point ?_
      rw [List.drop_take] at hpoint
      exact List.mem_of_mem_take hpoint
    rw [List.filter_append, List.filter_eq_nil_iff.mpr hnone, List.filter_eq_self.mpr hall, List.nil_append]
  rw [slice, ← hlower, ← hupper, List.filter_filter]

/-- The place found for a lower bound is where the points begin to meet it. -/
theorem lower_spec {points : List (T × V)} (h : InOrder Prod.fst points) (tMin : T) :
    (∀ point ∈ points.take (np.searchsorted .left (points.map Prod.fst) tMin), decide (tMin ≤ point.1) = false) ∧
      ∀ point ∈ points.drop (np.searchsorted .left (points.map Prod.fst) tMin), decide (tMin ≤ point.1) = true := by
  have hordered : (points.map Prod.fst).Pairwise (· ≤ ·) := List.pairwise_map.mpr h
  obtain ⟨hbefore, hbehind⟩ := np.searchsorted_left (points.map Prod.fst) tMin hordered
  constructor
  · intro point hpoint
    have hless := hbefore point.1 (by rw [← List.map_take]; exact List.mem_map_of_mem hpoint)
    exact decide_eq_false (not_le.mpr hless)
  · intro point hpoint
    have hle := hbehind point.1 (by rw [← List.map_drop]; exact List.mem_map_of_mem hpoint)
    exact decide_eq_true hle

/-- The place found for an upper bound is where the points cease to meet it. -/
theorem upper_spec {points : List (T × V)} (h : InOrder Prod.fst points) (tMax : T) :
    (∀ point ∈ points.take (np.searchsorted .right (points.map Prod.fst) tMax), decide (point.1 ≤ tMax) = true) ∧
      ∀ point ∈ points.drop (np.searchsorted .right (points.map Prod.fst) tMax), decide (point.1 ≤ tMax) = false := by
  have hordered : (points.map Prod.fst).Pairwise (· ≤ ·) := List.pairwise_map.mpr h
  obtain ⟨hbefore, hbehind⟩ := np.searchsorted_right (points.map Prod.fst) tMax hordered
  constructor
  · intro point hpoint
    have hle := hbefore point.1 (by rw [← List.map_take]; exact List.mem_map_of_mem hpoint)
    exact decide_eq_true hle
  · intro point hpoint
    have hless := hbehind point.1 (by rw [← List.map_drop]; exact List.mem_map_of_mem hpoint)
    exact decide_eq_false (not_le.mpr hless)

/-- A slice of one field of the points is the field of the slice. -/
theorem slice_map {α β : Type} (field : α → β) (values : List α) (start stop : ℕ) :
    slice (values.map field) start stop = (slice values start stop).map field := by
  rw [slice, slice, ← List.map_take, ← List.map_drop]

/-- A window of a series that holds some points in order has the points inside the interval. -/
theorem window_of_series {name : List Char} {points : List (T × V)}
    (hseries : store.seriesOf np name = (points.map Prod.fst, points.map Prod.snd)) (h : InOrder Prod.fst points)
    (tMin tMax : Option T) : store.window np name tMin tMax =
      ((points.filter (inside tMin tMax)).map Prod.fst, (points.filter (inside tMin tMax)).map Prod.snd) := by
  unfold window
  rw [hseries]
  dsimp only
  split
  case isTrue hempty =>
    rw [List.length_map] at hempty
    rw [List.length_eq_zero_iff.mp hempty, List.filter_nil]
  case isFalse =>
    rw [slice_map, slice_map]
    suffices hslice : slice points _ _ = points.filter (inside tMin tMax) by rw [hslice]
    refine slice_eq_filter ?_ ?_ ?_ ?_
    · cases tMin with
      | none => simp
      | some tMin => exact (lower_spec h tMin).1
    · cases tMin with
      | none => simp
      | some tMin => exact (lower_spec h tMin).2
    · cases tMax with
      | none => simp
      | some tMax => exact (upper_spec h tMax).1
    · cases tMax with
      | none => simp
      | some tMax => exact (upper_spec h tMax).2

/-- A store that holds what came in shows it, arranged by time. -/
theorem Tells.series {came : List Char → List (T × V)} (h : Tells np store came) (name : List Char) :
    store.seriesOf np name =
      ((arrange Prod.fst (came name)).map Prod.fst, (arrange Prod.fst (came name)).map Prod.snd) := by
  obtain ⟨hholds, hmissing⟩ := h name
  unfold seriesOf
  cases hlookup : store.series.lookup name with
  | none =>
    rw [hmissing hlookup]
    have htimes : np.emptyTimes 0 = [] := List.length_eq_zero_iff.mp (np.length_emptyTimes 0)
    have hvalues : np.emptyValues 0 = [] := List.length_eq_zero_iff.mp (np.length_emptyValues 0)
    rw [htimes, hvalues]
    rfl
  | some s =>
    rw [hlookup, Option.getD_some] at hholds
    dsimp only
    rw [slice, slice, List.drop_zero, List.drop_zero, hholds.times, hholds.values]

/-- A store that holds what came in keeps the law. -/
theorem Tells.law {came : List Char → List (T × V)} (h : Tells np store came) : Law np store came := by
  have hpoints : ∀ name, store.points np name = arrange Prod.fst (came name) := by
    intro name
    rw [points, h.series name, List.zip_map']
    exact List.map_id' _
  refine ⟨fun name => ?_, fun name => ?_, fun name time => ?_, fun name => ?_, fun name tMin tMax => ?_⟩
  · rw [h.series name, List.length_map, List.length_map]
  · rw [hpoints]
    exact (arrange_spec (came name)).1
  · rw [hpoints]
    exact (arrange_spec (came name)).2.1 time
  · rw [hpoints]
    exact (arrange_spec (came name)).2.2
  · rw [hpoints]
    exact window_of_series (h.series name) (arrange_spec (came name)).1 tMin tMax

/-- After any appends, in any order of their times, the store keeps the law. -/
theorem law_of_appends (np : Numpy T V) (initialCapacity : ℤ) (appends : List (T × List (List Char × Option V))) :
    Law np (run (append np) (new initialCapacity) appends) (arrivals appends) :=
  (run_tells np initialCapacity appends).law

/-- A frame that comes in late stands in its place, and a window takes both its ends. -/
example : (run (append (Numpy.linear 0 0)) (new 16) [(3, [(['a'], some 30)]), (1, [(['a'], some 10)]),
    (3, [(['a'], some 31)]), (2, [(['a'], some 20)])]).window (Numpy.linear 0 0) ['a'] (some 2) (some 3) =
      ([2, 3, 3], [20, 30, 31]) := by decide +kernel

end SeriesStore

end Coatheal.Ground
