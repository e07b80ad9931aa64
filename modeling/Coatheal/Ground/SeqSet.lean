import Coatheal.Library.Checked
import Coatheal.Library.Json
import Coatheal.Library.Ranges
import Coatheal.Library.Run
import Mathlib.Data.List.GetD

/-!
# The sequence numbers of received frames

The ground station keeps the numbers of the frames it has received as disjoint
ranges, in two lists beside each other, and finds a number by bisection. One new
range may extend, bridge or swallow others. The ranges are those of the set of
all numbers that were given, also after they were written as JSON and read back
and when they were read from a cursor of the older form.
-/

namespace Coatheal.Ground

open Library Library.Ranges

/-- The loop of `bisect`: the place between two others up to which the numbers are of a kind. -/
def bisect (before : ℤ → Bool) (numbers : List ℤ) (low high : ℕ) : ℕ :=
  if low < high then
    let middle := (low + high) / 2
    if before (numbers.getD middle 0) then bisect before numbers (middle + 1) high
    else bisect before numbers low middle
  else low
termination_by high - low

/-- `bisect.bisect_left`. -/
def bisectLeft (numbers : List ℤ) (x : ℤ) : ℕ := bisect (· < x) numbers 0 numbers.length

/-- `bisect.bisect_right`. -/
def bisectRight (numbers : List ℤ) (x : ℤ) : ℕ := bisect (· ≤ x) numbers 0 numbers.length

/-- The first and the last numbers of the ranges. -/
structure SeqSet where
  lo : List ℤ
  hi : List ℤ
deriving DecidableEq

namespace SeqSet

/-- `ranges`. -/
def ranges (s : SeqSet) : List Range := s.lo.zip s.hi

/-- `__contains__`. -/
def contains (s : SeqSet) (seq : ℤ) : Bool :=
  match bisectRight s.lo seq with
  | 0 => false
  | i + 1 => decide (seq ≤ s.hi.getD i 0)

/-- `__len__`. -/
def len (s : SeqSet) : ℤ := ((s.lo.zip s.hi).map fun r => r.2 - r.1 + 1).sum

/-- The loop of `_add_range` over the ranges that begin within or right behind a new one. -/
def advance (lo : List ℤ) (hi : ℤ) (j : ℕ) : ℕ :=
  if j < lo.length then if lo.getD j 0 ≤ hi + 1 then advance lo hi (j + 1) else j else j
termination_by lo.length - j

/-- `_add_range`. -/
def addRange (s : SeqSet) (lo hi : ℤ) : SeqSet :=
  if hi < lo then s
  else
    let left := bisectLeft s.lo lo
    let i := if 0 < left ∧ lo - 1 ≤ s.hi.getD (left - 1) 0 then left - 1 else left
    let j := advance s.lo hi i
    let first := if i < j then min lo (s.lo.getD i 0) else lo
    let last := if i < j then max hi (s.hi.getD (j - 1) 0) else hi
    ⟨s.lo.take i ++ first :: s.lo.drop j, s.hi.take i ++ last :: s.hi.drop j⟩

/-- `SeqSet(ranges)`. -/
def ofRanges (given : List Range) : SeqSet := given.foldl (fun s r => s.addRange r.1 r.2) ⟨[], []⟩

/-- `add`: whether the number is new, and the set with it. -/
def add (s : SeqSet) (seq : ℤ) : Bool × SeqSet :=
  if s.contains seq then (false, s) else (true, s.addRange seq seq)

/-- `to_json`. -/
def toJson (s : SeqSet) : Json := .list ((s.lo.zip s.hi).map fun r => .list [.int r.1, .int r.2])

/-- The range of an item; an item that is none is left out. -/
def readItem (item : Json) : Except PyError (Option Range) :=
  let read : Except PyError Range := do
    let lo ← (← item.element 0).toInt
    let hi ← (← item.element 1).toInt
    return (lo, hi)
  match read with
  | .ok r => .ok (some r)
  | .error .typeError | .error .valueError | .error .indexError => .ok none
  | .error other => .error other

/-- The numbers up to a cursor of the older form. -/
def ofCursor (n : ℤ) : SeqSet := if 0 ≤ n then ofRanges [(0, n)] else ofRanges []

/-- `from_json`. -/
def fromJson : Json → Except PyError SeqSet
  | .bool _ => .ok (ofRanges [])
  | .int n => .ok (ofCursor n)
  | .float value => (Json.float value).toInt.map ofCursor
  | data => do
    let items ← data.elements
    let read ← items.mapM readItem
    return ofRanges (read.filterMap id)

/-- Two lists beside each other that hold the ranges. -/
def ofList (held : List Range) : SeqSet := ⟨held.map Prod.fst, held.map Prod.snd⟩

/-- The set holds the canonical ranges of some numbers. -/
def Holds (s : SeqSet) (given : Finset ℤ) : Prop := ∃ held, s = ofList held ∧ Canonical held ∧ covered held = given

/-- What a set of sequence numbers is: its ranges are those of the numbers that were given, and it tells of every
number whether it was given. -/
structure IsSetOf (s : SeqSet) (given : Finset ℤ) : Prop where
  lengths : s.lo.length = s.hi.length
  canonical : Canonical s.ranges
  contains_iff : ∀ n, s.contains n = true ↔ n ∈ given
  len_eq : s.len = given.card
  add_iff : ∀ n, (s.add n).1 = true ↔ n ∉ given
  restored : fromJson s.toJson = .ok s

end SeqSet

/-- Between two parts of which the first is of the kind and the second is not, the loop ends. -/
theorem bisect_eq {before : ℤ → Bool} {front back : List ℤ} (hfront : ∀ n ∈ front, before n = true)
    (hback : ∀ n ∈ back, before n = false) {low high : ℕ} (hlow : low ≤ front.length) (hhigh : front.length ≤ high)
    (hin : high ≤ (front ++ back).length) : bisect before (front ++ back) low high = front.length := by
  fun_induction bisect before (front ++ back) low high with
  | case1 low high hlt middle hbefore ih =>
    refine ih ?_ hhigh hin
    by_contra hbehind
    have hlength : middle < (front ++ back).length := by omega
    rw [List.getD_eq_getElem _ _ hlength, List.getElem_append_right (by omega),
      hback _ (List.getElem_mem _)] at hbefore
    cases hbefore
  | case2 low high hlt middle hbefore ih =>
    refine ih hlow ?_ (by omega)
    by_contra hwithin
    have hshort : middle < front.length := by omega
    rw [List.getD_append _ _ _ _ hshort, List.getD_eq_getElem _ _ hshort,
      hfront _ (List.getElem_mem _)] at hbefore
    exact hbefore rfl
  | case3 low high hge => omega

/-- The loop over the ranges that are touched ends behind them. -/
theorem advance_eq {front middle back : List ℤ} {hi : ℤ} (hmiddle : ∀ n ∈ middle, n ≤ hi + 1)
    (hback : ∀ n ∈ back, hi + 1 < n) :
    SeqSet.advance (front ++ (middle ++ back)) hi front.length = front.length + middle.length := by
  induction middle generalizing front with
  | nil =>
    rw [List.nil_append, SeqSet.advance]
    cases back with
    | nil => simp
    | cons n back =>
      have hn := hback n List.mem_cons_self
      rw [if_pos (by simp), List.getD_append_right _ _ _ _ le_rfl, Nat.sub_self, if_neg]
      · rfl
      · simpa using hn
  | cons n middle ih =>
    have hn := hmiddle n List.mem_cons_self
    have hshift : front ++ (n :: middle ++ back) = (front ++ [n]) ++ (middle ++ back) := by simp
    rw [SeqSet.advance, if_pos (by simp), List.getD_append_right _ _ _ _ le_rfl, Nat.sub_self, if_pos (by simpa using hn),
      hshift]
    have hnext := @ih (front ++ [n]) fun m hm => hmiddle m (List.mem_cons_of_mem _ hm)
    rw [List.length_append, List.length_singleton] at hnext
    rw [hnext, List.length_cons]
    omega

namespace SeqSet

variable {held front middle back : List Range} {lo hi : ℤ}

/-- The ranges of a set are those that it holds. -/
theorem ranges_ofList (held : List Range) : (ofList held).ranges = held := by
  rw [ranges, ofList, List.zip_map', List.map_id'']
  exact fun r => rfl

/-- Among canonical ranges are those that a new one does not touch on either side and those that it touches. -/
theorem exists_meeting (h : Canonical held) (lo hi : ℤ) :
    ∃ front middle back, held = front ++ (middle ++ back) ∧ Meeting lo hi front middle back := by
  induction held with
  | nil => exact ⟨[], [], [], rfl, by simp, by simp, by simp⟩
  | cons r rest ih =>
    obtain ⟨front, middle, back, rfl, hmeeting⟩ := ih h.tail
    have hr : r.1 ≤ r.2 := h.nonempty r List.mem_cons_self
    have hlater := (List.pairwise_cons.mp h.apart).1
    by_cases hbefore : r.2 + 1 < lo
    · exact ⟨r :: front, middle, back, rfl, List.forall_mem_cons.mpr ⟨hbefore, hmeeting.before⟩, hmeeting.touched,
        hmeeting.behind⟩
    · cases front with
      | cons s front =>
        have hs := hlater s List.mem_cons_self
        have hends := h.nonempty s (List.mem_cons_of_mem _ List.mem_cons_self)
        have htouches := hmeeting.before s List.mem_cons_self
        omega
      | nil =>
        by_cases htouched : r.1 ≤ hi + 1
        · exact ⟨[], r :: middle, back, rfl, by simp,
            List.forall_mem_cons.mpr ⟨⟨htouched, by omega⟩, hmeeting.touched⟩, hmeeting.behind⟩
        · cases middle with
          | cons s middle =>
            have hs := hlater s List.mem_cons_self
            have htouches := (hmeeting.touched s List.mem_cons_self).1
            omega
          | nil =>
            exact ⟨[], [], r :: back, rfl, by simp, by simp,
              List.forall_mem_cons.mpr ⟨by omega, hmeeting.behind⟩⟩

/-- Bisection finds the place behind the ranges before a number. -/
theorem bisect_starts {front back : List Range} {before : ℤ → Bool} (hfront : ∀ r ∈ front, before r.1 = true)
    (hback : ∀ r ∈ back, before r.1 = false) :
    bisect before ((front ++ back).map Prod.fst) 0 ((front ++ back).map Prod.fst).length = front.length := by
  have hfound := @bisect_eq before (front.map Prod.fst) (back.map Prod.fst)
    (fun n hn => by obtain ⟨r, hr, rfl⟩ := List.mem_map.mp hn; exact hfront r hr)
    (fun n hn => by obtain ⟨r, hr, rfl⟩ := List.mem_map.mp hn; exact hback r hr)
    0 ((front ++ back).map Prod.fst).length (Nat.zero_le _) (by simp) (by simp)
  rw [← List.map_append, List.length_map, List.length_map] at hfound
  rw [List.length_map]
  exact hfound

/-- The number at a place behind some others is the first one of the rest. -/
theorem getD_map_append {f : Range → ℤ} (front : List Range) (r : Range) (rest : List Range) :
    ((front ++ r :: rest).map f).getD front.length 0 = f r := by
  rw [List.map_append, List.getD_append_right _ _ _ _ (by simp), List.length_map, Nat.sub_self]
  rfl

/-- The first of the ranges that a new one touches. -/
theorem place_eq (h : Canonical (front ++ (middle ++ back))) (hmeeting : Meeting lo hi front middle back)
    (hle : lo ≤ hi) :
    (if 0 < bisectLeft ((front ++ (middle ++ back)).map Prod.fst) lo ∧
        lo - 1 ≤ ((front ++ (middle ++ back)).map Prod.snd).getD
          (bisectLeft ((front ++ (middle ++ back)).map Prod.fst) lo - 1) 0
      then bisectLeft ((front ++ (middle ++ back)).map Prod.fst) lo - 1
      else bisectLeft ((front ++ (middle ++ back)).map Prod.fst) lo) = front.length := by
  obtain ⟨hfront, hrest, hcross⟩ := canonical_append.mp h
  have hbefore : ∀ r ∈ front, decide (r.1 < lo) = true := fun r hr => by
    have hends := hfront.nonempty r hr
    have hgap := hmeeting.before r hr
    exact decide_eq_true (by omega)
  have hbehind : ∀ r ∈ back, decide (r.1 < lo) = false := fun r hr => by
    have hgap := hmeeting.behind r hr
    exact decide_eq_false (by omega)
  by_cases hreaches : ∃ r ∈ middle.head?, r.1 < lo
  · obtain ⟨r, hhead, hr⟩ := hreaches
    obtain ⟨rest, rfl⟩ : ∃ rest, middle = r :: rest := List.head?_eq_some_iff.mp hhead
    have hleft : bisectLeft ((front ++ (r :: rest ++ back)).map Prod.fst) lo = front.length + 1 := by
      have hsplit : front ++ (r :: rest ++ back) = (front ++ [r]) ++ (rest ++ back) := by simp
      rw [bisectLeft, hsplit, bisect_starts, List.length_append, List.length_singleton]
      · exact fun s hs => (List.mem_append.mp hs).elim (hbefore s) fun hsame => by
          rw [List.mem_singleton.mp hsame]
          exact decide_eq_true hr
      · intro s hs
        rcases List.mem_append.mp hs with hin | hin
        · have hlater := (List.pairwise_cons.mp hrest.apart).1 s (List.mem_append_left _ hin)
          have htouched := (hmeeting.touched r List.mem_cons_self).2
          exact decide_eq_false (by omega)
        · exact hbehind s hin
    have htouched := (hmeeting.touched r List.mem_cons_self).2
    rw [hleft, Nat.add_sub_cancel, List.cons_append, getD_map_append, if_pos ⟨Nat.succ_pos _, by omega⟩]
  · have hleft : bisectLeft ((front ++ (middle ++ back)).map Prod.fst) lo = front.length := by
      refine bisect_starts hbefore fun s hs => ?_
      rcases List.mem_append.mp hs with hin | hin
      · cases middle with
        | nil => cases hin
        | cons r rest =>
          have hr : ¬ r.1 < lo := fun hr => hreaches ⟨r, rfl, hr⟩
          rcases List.mem_cons.mp hin with rfl | hrest'
          · exact decide_eq_false hr
          · have hlater := (List.pairwise_cons.mp hrest.apart).1 s (List.mem_append_left _ hrest')
            have hends := hrest.nonempty r List.mem_cons_self
            exact decide_eq_false (by omega)
      · exact hbehind s hin
    rw [hleft]
    refine if_neg fun ⟨hpos, hreaching⟩ => ?_
    rcases List.eq_nil_or_concat' front with rfl | ⟨init, last, rfl⟩
    · exact absurd hpos (by simp)
    · have hgap := hmeeting.before last (by simp)
      rw [List.length_append, List.length_singleton, Nat.add_sub_cancel, List.append_assoc, List.singleton_append,
        getD_map_append] at hreaching
      omega

/-- A new range takes the place of the ranges it touches. -/
theorem addRange_eq (h : Canonical (front ++ (middle ++ back))) (hmeeting : Meeting lo hi front middle back)
    (hle : lo ≤ hi) :
    (ofList (front ++ (middle ++ back))).addRange lo hi =
      ofList (front ++ (mergedFirst lo middle, mergedLast hi middle) :: back) := by
  have hadvance : advance ((front ++ (middle ++ back)).map Prod.fst) hi front.length = front.length + middle.length := by
    have hmiddle : ∀ n ∈ middle.map Prod.fst, n ≤ hi + 1 := fun n hn => by
      obtain ⟨r, hr, rfl⟩ := List.mem_map.mp hn
      exact (hmeeting.touched r hr).1
    have hback : ∀ n ∈ back.map Prod.fst, hi + 1 < n := fun n hn => by
      obtain ⟨r, hr, rfl⟩ := List.mem_map.mp hn
      exact hmeeting.behind r hr
    have hloop := @advance_eq (front.map Prod.fst) _ _ hi hmiddle hback
    rw [List.length_map, List.length_map] at hloop
    rw [List.map_append, List.map_append, hloop]
  have hkept (f : Range → ℤ) (n : ℤ) :
      ((front ++ (middle ++ back)).map f).take front.length ++
          n :: ((front ++ (middle ++ back)).map f).drop (front.length + middle.length) =
        front.map f ++ n :: back.map f := by
    have htake : ((front ++ (middle ++ back)).map f).take front.length = front.map f := by
      rw [← List.map_take, List.take_left]
    have hdrop : ((front ++ (middle ++ back)).map f).drop (front.length + middle.length) = back.map f := by
      rw [← List.map_drop, ← List.append_assoc, ← List.length_append, List.drop_left]
    rw [htake, hdrop]
  have hfirst : (if front.length < front.length + middle.length then
      min lo (((front ++ (middle ++ back)).map Prod.fst).getD front.length 0) else lo) = mergedFirst lo middle := by
    cases middle with
    | nil => simp [mergedFirst]
    | cons r rest =>
      rw [if_pos (by simp), List.cons_append, getD_map_append]
      rfl
  have hlast : (if front.length < front.length + middle.length then
      max hi (((front ++ (middle ++ back)).map Prod.snd).getD (front.length + middle.length - 1) 0) else hi) =
        mergedLast hi middle := by
    rcases List.eq_nil_or_concat' middle with rfl | ⟨init, last, rfl⟩
    · simp [mergedLast]
    · have hplace : front.length + (init ++ [last]).length - 1 = (front ++ init).length := by simp
      have hsplit : front ++ (init ++ [last] ++ back) = (front ++ init) ++ last :: back := by simp
      rw [if_pos (by simp), hplace, hsplit, getD_map_append, mergedLast, List.getLast?_append]
      rfl
  have hlo : (ofList (front ++ (middle ++ back))).lo = (front ++ (middle ++ back)).map Prod.fst := rfl
  have hhi : (ofList (front ++ (middle ++ back))).hi = (front ++ (middle ++ back)).map Prod.snd := rfl
  rw [addRange, if_neg (not_lt.mpr hle)]
  dsimp only
  rw [hlo, hhi, place_eq h hmeeting hle, hadvance, hkept, hkept, hfirst, hlast, ofList, List.map_append,
    List.map_append, List.map_cons, List.map_cons]

/-- With a range the set holds its numbers as well. -/
theorem Holds.addRange {s : SeqSet} {given : Finset ℤ} (h : s.Holds given) (lo hi : ℤ) :
    (s.addRange lo hi).Holds (given ∪ Finset.Icc lo hi) := by
  obtain ⟨held, rfl, hcanonical, rfl⟩ := h
  rcases le_or_gt lo hi with hle | hempty
  · obtain ⟨front, middle, back, rfl, hmeeting⟩ := exists_meeting hcanonical lo hi
    exact ⟨_, addRange_eq hcanonical hmeeting hle, hmeeting.canonical hle hcanonical, hmeeting.covered_eq hcanonical⟩
  · rw [SeqSet.addRange, if_pos hempty, Finset.Icc_eq_empty (not_le.mpr hempty), Finset.union_empty]
    exact ⟨held, rfl, hcanonical, rfl⟩

/-- A set that is built of ranges holds their numbers. -/
theorem holds_ofRanges (given : List Range) : (ofRanges given).Holds (covered given) := by
  have hfold : ∀ (s : SeqSet) (numbers : Finset ℤ), s.Holds numbers →
      (given.foldl (fun s r => s.addRange r.1 r.2) s).Holds (numbers ∪ covered given) := by
    induction given with
    | nil => exact fun s numbers h => by rwa [covered, Finset.union_empty]
    | cons r rest ih =>
      intro s numbers h
      rw [covered, ← Finset.union_assoc]
      exact ih _ _ (h.addRange r.1 r.2)
  rw [← Finset.empty_union (covered given)]
  exact hfold _ _ ⟨[], rfl, canonical_nil, rfl⟩

/-- A number is found exactly when it is held. -/
theorem Holds.contains_iff {s : SeqSet} {given : Finset ℤ} (h : s.Holds given) (n : ℤ) :
    s.contains n = true ↔ n ∈ given := by
  obtain ⟨held, rfl, hcanonical, rfl⟩ := h
  obtain ⟨front, back, rfl, hfront, hback⟩ : ∃ front back, held = front ++ back ∧ (∀ r ∈ front, r.1 ≤ n) ∧
      ∀ r ∈ back, n < r.1 := by
    induction held with
    | nil => exact ⟨[], [], rfl, by simp, by simp⟩
    | cons r rest ih =>
      obtain ⟨front, back, rfl, hfront, hback⟩ := ih hcanonical.tail
      have hr : r.1 ≤ r.2 := hcanonical.nonempty r List.mem_cons_self
      by_cases hstarts : r.1 ≤ n
      · exact ⟨r :: front, back, rfl, List.forall_mem_cons.mpr ⟨hstarts, hfront⟩, hback⟩
      · cases front with
        | nil => exact ⟨[], r :: back, rfl, by simp, List.forall_mem_cons.mpr ⟨not_le.mp hstarts, hback⟩⟩
        | cons s front =>
          have hgap := (List.pairwise_cons.mp hcanonical.apart).1 s List.mem_cons_self
          have hs := hfront s List.mem_cons_self
          omega
  have hplace : bisectRight ((front ++ back).map Prod.fst) n = front.length :=
    bisect_starts (fun r hr => decide_eq_true (hfront r hr)) fun r hr => decide_eq_false (not_le.mpr (hback r hr))
  rw [contains, ofList, hplace, mem_covered]
  rcases List.eq_nil_or_concat' front with rfl | ⟨init, last, rfl⟩
  · refine ⟨fun hfalse => (Bool.false_ne_true hfalse).elim, fun ⟨r, hr, hstarts, _⟩ => ?_⟩
    exact absurd hstarts (not_le.mpr (hback r hr))
  · have hlength : (init ++ [last]).length = init.length + 1 := by simp
    rw [hlength, List.append_assoc, List.singleton_append]
    change decide (n ≤ ((init ++ last :: back).map Prod.snd).getD init.length 0) = true ↔ _
    rw [getD_map_append, decide_eq_true_iff]
    constructor
    · exact fun hends => ⟨last, by simp, hfront last (by simp), hends⟩
    · rintro ⟨r, hr, hstarts, hends⟩
      rcases List.mem_append.mp hr with hin | hin
      · have hcross := (canonical_append.mp (canonical_append.mp hcanonical).1).2.2
        have hgap := hcross r hin last (List.mem_singleton_self _)
        have hlast := hfront last (by simp)
        omega
      · rcases List.mem_cons.mp hin with rfl | hlater
        · exact hends
        · exact absurd hstarts (not_le.mpr (hback r hlater))

/-- The number of an add is in the set afterwards. -/
theorem Holds.add {s : SeqSet} {given : Finset ℤ} (h : s.Holds given) (n : ℤ) : (s.add n).2.Holds (insert n given) := by
  rw [SeqSet.add]
  split
  case isTrue hin =>
    rwa [Finset.insert_eq_of_mem ((h.contains_iff n).mp hin)]
  case isFalse =>
    rw [Finset.insert_eq, Finset.union_comm, ← Finset.Icc_self]
    exact h.addRange n n

/-- The ranges of a set are read back. -/
theorem fromJson_toJson (held : List Range) : fromJson (ofList held).toJson = .ok (ofRanges held) := by
  have hitems (held : List Range) : (held.map fun r => Json.list [.int r.1, .int r.2]).mapM readItem =
      .ok (held.map some) := by
    induction held with
    | nil => rfl
    | cons r rest ih =>
      rw [List.map_cons, List.mapM_cons, ih]
      rfl
  have hread : (held.map some).filterMap id = held := by
    rw [List.filterMap_map, Function.id_comp, List.filterMap_some]
  change (do
    let items ← (ofList held).toJson.elements
    let read ← items.mapM readItem
    return ofRanges (read.filterMap id)) = Except.ok (ofRanges held)
  rw [toJson, ← ranges, ranges_ofList]
  change (do
    let read ← (held.map fun r => Json.list [.int r.1, .int r.2]).mapM readItem
    return ofRanges (read.filterMap id)) = Except.ok (ofRanges held)
  rw [hitems]
  change Except.ok (ofRanges ((held.map some).filterMap id)) = _
  rw [hread]

/-- A set that holds the canonical ranges of some numbers is the set of these numbers. -/
theorem Holds.isSetOf {s : SeqSet} {given : Finset ℤ} (h : s.Holds given) : s.IsSetOf given := by
  have hcontains := h.contains_iff
  obtain ⟨held, rfl, hcanonical, rfl⟩ := h
  refine ⟨by simp [ofList], ?_, hcontains, ?_, fun n => ?_, ?_⟩
  · rwa [ranges_ofList]
  · rw [len, ← ranges, ranges_ofList, hcanonical.card_covered]
  · rw [SeqSet.add, ← hcontains]
    cases (ofList held).contains n with
    | true => simp
    | false => simp
  · obtain ⟨held', hsame, hcanonical', hcovered⟩ := holds_ofRanges held
    rw [fromJson_toJson, hsame, hcanonical'.unique hcanonical hcovered]

/-- What is read from JSON is built of some ranges. -/
theorem ofRanges_of_fromJson {data : Json} {s : SeqSet} (h : fromJson data = .ok s) : ∃ given, s = ofRanges given := by
  have hcursor (n : ℤ) : ∃ given, ofCursor n = ofRanges given := by
    rw [ofCursor]
    split
    · exact ⟨_, rfl⟩
    · exact ⟨_, rfl⟩
  have hitems {items : Except PyError (List Json)} (hitems : (do
      let items ← items
      let read ← items.mapM readItem
      return ofRanges (read.filterMap id)) = Except.ok s) : ∃ given, s = ofRanges given := by
    obtain ⟨items, _, hrest⟩ := Checked.bind_ok hitems
    obtain ⟨read, _, hdone⟩ := Checked.bind_ok hrest
    exact ⟨_, (Except.ok.inj hdone).symm⟩
  cases data with
  | bool value => exact ⟨[], (Except.ok.inj h).symm⟩
  | int n => exact Except.ok.inj h ▸ hcursor n
  | float value =>
    obtain ⟨n, _, hn⟩ := Checked.map_ok h
    exact hn ▸ hcursor n
  | null | str text | list items | dict entries => exact hitems h

/-- Whatever ranges a set is built of, or whatever cursor it is read from, and whatever numbers are added: it is the
set of all numbers given. What is read from JSON is such a set. -/
theorem isSetOf_given :
    (∀ (given : List Range) (calls : List ℤ),
      (run (fun s n => (s.add n).2) (ofRanges given) calls).IsSetOf (covered given ∪ calls.toFinset)) ∧
    (∀ (n : ℤ) (calls : List ℤ), ∃ s, fromJson (.int n) = .ok s ∧
      (run (fun s n => (s.add n).2) s calls).IsSetOf (Finset.Icc 0 n ∪ calls.toFinset)) ∧
    ∀ (data : Json) (s : SeqSet), fromJson data = .ok s → ∃ given, s = ofRanges given := by
  have hrun : ∀ (calls : List ℤ) (s : SeqSet) (given : Finset ℤ), s.Holds given →
      (run (fun s n => (s.add n).2) s calls).Holds (given ∪ calls.toFinset) := by
    intro calls
    induction calls with
    | nil => exact fun s given h => by simpa using h
    | cons n rest ih =>
      intro s given h
      have hnext := ih _ _ (h.add n)
      rwa [Finset.insert_union, ← Finset.union_insert, ← List.toFinset_cons] at hnext
  refine ⟨fun given calls => (hrun calls _ _ (holds_ofRanges given)).isSetOf, fun n calls => ?_, ?_⟩
  · refine ⟨ofCursor n, rfl, (hrun calls _ _ ?_).isSetOf⟩
    rw [ofCursor]
    split
    case isTrue => exact (by simpa [covered] using holds_ofRanges [(0, n)])
    case isFalse hnegative =>
      rw [Finset.Icc_eq_empty hnegative]
      exact holds_ofRanges []
  · exact fun data s h => ofRanges_of_fromJson h

end SeqSet

end Coatheal.Ground
