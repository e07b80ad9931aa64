import Mathlib

/-!
# Sets as disjoint ranges

A finite set of integers as a list of ranges in order, between any two of which
a number is missing. Such a list is the only one for its set, and the lengths of
its ranges add up to the size of the set. A range is put in by merging it with
the ranges that it touches.
-/

namespace Coatheal.Library.Ranges

/-- The first and the last number of a range. -/
abbrev Range := ℤ × ℤ

/-- The numbers of some ranges. -/
noncomputable def covered : List Range → Finset ℤ
  | [] => ∅
  | r :: rest => Finset.Icc r.1 r.2 ∪ covered rest

/-- Ranges that are not empty, in order, with a number missing between any two. -/
structure Canonical (ranges : List Range) : Prop where
  nonempty : ∀ r ∈ ranges, r.1 ≤ r.2
  apart : ranges.Pairwise fun a b => a.2 + 1 < b.1

variable {ranges : List Range} {r : Range} {n lo hi : ℤ}

/-- A number is covered by one of the ranges. -/
theorem mem_covered : n ∈ covered ranges ↔ ∃ r ∈ ranges, r.1 ≤ n ∧ n ≤ r.2 := by
  induction ranges with
  | nil => simp [covered]
  | cons r rest ih => simp [covered, ih]

/-- Ranges in two parts cover what the parts cover. -/
theorem covered_append (front back : List Range) : covered (front ++ back) = covered front ∪ covered back := by
  ext n
  simp [mem_covered, or_and_right, exists_or]

/-- No ranges are canonical. -/
theorem canonical_nil : Canonical [] := ⟨by simp, List.Pairwise.nil⟩

/-- The ranges behind the first one. -/
theorem Canonical.tail (h : Canonical (r :: ranges)) : Canonical ranges :=
  ⟨fun s hs => h.nonempty s (List.mem_cons_of_mem _ hs), (List.pairwise_cons.mp h.apart).2⟩

/-- The numbers behind the first range come after a missing one. -/
theorem Canonical.lt_of_mem (h : Canonical (r :: ranges)) (hn : n ∈ covered ranges) : r.2 + 1 < n := by
  obtain ⟨s, hs, hlow, _⟩ := mem_covered.mp hn
  exact lt_of_lt_of_le ((List.pairwise_cons.mp h.apart).1 s hs) hlow

/-- The lengths of the ranges add up to the size of the set. -/
theorem Canonical.card_covered (h : Canonical ranges) :
    ((covered ranges).card : ℤ) = (ranges.map fun r => r.2 - r.1 + 1).sum := by
  induction ranges with
  | nil => rfl
  | cons r rest ih =>
    have hfirst : r.1 ≤ r.2 := h.nonempty r List.mem_cons_self
    have hdisjoint : Disjoint (Finset.Icc r.1 r.2) (covered rest) := by
      refine Finset.disjoint_left.mpr fun n hn hrest => ?_
      have hlater := h.lt_of_mem hrest
      have hlast := (Finset.mem_Icc.mp hn).2
      omega
    rw [covered, Finset.card_union_of_disjoint hdisjoint, Nat.cast_add, ih h.tail, Int.card_Icc, List.map_cons,
      List.sum_cons]
    omega

/-- The first range begins at the least number and ends before the first missing one. -/
theorem Canonical.head_eq {s : Range} {others : List Range} (h : Canonical (r :: ranges))
    (h' : Canonical (s :: others)) (hcovered : covered (r :: ranges) = covered (s :: others)) : r.1 = s.1 ∧ r.2 = s.2 := by
  have hr : r.1 ≤ r.2 := h.nonempty r List.mem_cons_self
  have hs : s.1 ≤ s.2 := h'.nonempty s List.mem_cons_self
  have hmem : ∀ n, (r.1 ≤ n ∧ n ≤ r.2 ∨ n ∈ covered ranges) ↔ (s.1 ≤ n ∧ n ≤ s.2 ∨ n ∈ covered others) := by
    intro n
    simpa [covered] using Finset.ext_iff.mp hcovered n
  have hafter : ∀ n ∈ covered ranges, r.2 + 1 < n := fun n hn => h.lt_of_mem hn
  have hafter' : ∀ n ∈ covered others, s.2 + 1 < n := fun n hn => h'.lt_of_mem hn
  have hstart : r.1 = s.1 := by
    have hfirst := hmem r.1
    have hfirst' := hmem s.1
    have hlater := hafter s.1
    have hlater' := hafter' r.1
    grind
  have hend := hmem (r.2 + 1)
  have hend' := hmem (s.2 + 1)
  have hlater := hafter (r.2 + 1)
  have hlater' := hafter' (s.2 + 1)
  grind

/-- A set has one canonical list of ranges. -/
theorem Canonical.unique {others : List Range} (h : Canonical ranges) (h' : Canonical others)
    (hcovered : covered ranges = covered others) : ranges = others := by
  induction ranges generalizing others with
  | nil =>
    cases others with
    | nil => rfl
    | cons s others =>
      have hs : s.1 ∈ covered (s :: others) :=
        mem_covered.mpr ⟨s, List.mem_cons_self, le_rfl, h'.nonempty s List.mem_cons_self⟩
      exact absurd (hcovered ▸ hs) (Finset.notMem_empty _)
  | cons r ranges ih =>
    cases others with
    | nil =>
      have hr : r.1 ∈ covered (r :: ranges) :=
        mem_covered.mpr ⟨r, List.mem_cons_self, le_rfl, h.nonempty r List.mem_cons_self⟩
      exact absurd (hcovered ▸ hr) (Finset.notMem_empty _)
    | cons s others =>
      obtain ⟨hlow, hhigh⟩ := h.head_eq h' hcovered
      obtain rfl : r = s := Prod.ext hlow hhigh
      have hrest : covered ranges = covered others := by
        ext n
        have hn := Finset.ext_iff.mp hcovered n
        simp only [covered, Finset.mem_union, Finset.mem_Icc] at hn
        have hafter : n ∈ covered ranges → r.2 + 1 < n := fun hn => h.lt_of_mem hn
        have hafter' : n ∈ covered others → r.2 + 1 < n := fun hn => h'.lt_of_mem hn
        constructor
        · intro hmem
          have hlater := hafter hmem
          exact (hn.mp (Or.inr hmem)).resolve_left fun hin => by omega
        · intro hmem
          have hlater := hafter' hmem
          exact (hn.mpr (Or.inr hmem)).resolve_left fun hin => by omega
      rw [ih h.tail h'.tail hrest]

/-- The ranges before, at and behind a new range: those that it does not touch on either side, and those that it
touches. -/
structure Meeting (lo hi : ℤ) (front middle back : List Range) : Prop where
  before : ∀ r ∈ front, r.2 + 1 < lo
  touched : ∀ r ∈ middle, r.1 ≤ hi + 1 ∧ lo ≤ r.2 + 1
  behind : ∀ r ∈ back, hi + 1 < r.1

/-- The first number of what a range and those it touches come to. -/
def mergedFirst (lo : ℤ) (middle : List Range) : ℤ := (middle.head?.map fun r => min lo r.1).getD lo

/-- The last number of what a range and those it touches come to. -/
def mergedLast (hi : ℤ) (middle : List Range) : ℤ := (middle.getLast?.map fun r => max hi r.2).getD hi

/-- Ranges in two parts are canonical each, and those of one part come before those of the other. -/
theorem canonical_append {front back : List Range} :
    Canonical (front ++ back) ↔ Canonical front ∧ Canonical back ∧ ∀ r ∈ front, ∀ s ∈ back, r.2 + 1 < s.1 := by
  constructor
  · intro h
    obtain ⟨hfront, hback, hcross⟩ := List.pairwise_append.mp h.apart
    exact ⟨⟨fun r hr => h.nonempty r (List.mem_append_left _ hr), hfront⟩,
      ⟨fun r hr => h.nonempty r (List.mem_append_right _ hr), hback⟩, hcross⟩
  · rintro ⟨hfront, hback, hcross⟩
    exact ⟨fun r hr => (List.mem_append.mp hr).elim (hfront.nonempty r) (hback.nonempty r),
      List.pairwise_append.mpr ⟨hfront.apart, hback.apart, hcross⟩⟩

/-- The ranges that are touched start with the first number, or come behind it. -/
theorem mergedFirst_spec {middle : List Range} (h : Canonical middle) :
    mergedFirst lo middle ≤ lo ∧ (∀ r ∈ middle, mergedFirst lo middle ≤ r.1) ∧
      (mergedFirst lo middle = lo ∨ ∃ r ∈ middle, r.1 = mergedFirst lo middle) := by
  cases middle with
  | nil => simp [mergedFirst]
  | cons first rest =>
    have hvalue : mergedFirst lo (first :: rest) = min lo first.1 := rfl
    have hfirst : first.1 ≤ first.2 := h.nonempty first List.mem_cons_self
    rw [hvalue]
    refine ⟨min_le_left _ _, fun r hr => ?_, ?_⟩
    · rcases List.mem_cons.mp hr with rfl | hrest
      · exact min_le_right _ _
      · have hlater := (List.pairwise_cons.mp h.apart).1 r hrest
        exact (min_le_right _ _).trans (by omega)
    · rcases min_choice lo first.1 with hlo | hmin
      · exact Or.inl hlo
      · exact Or.inr ⟨first, List.mem_cons_self, hmin.symm⟩

/-- The ranges that are touched end with the last number, or before it. -/
theorem mergedLast_spec {middle : List Range} (h : Canonical middle) :
    hi ≤ mergedLast hi middle ∧ (∀ r ∈ middle, r.2 ≤ mergedLast hi middle) ∧
      (mergedLast hi middle = hi ∨ ∃ r ∈ middle, r.2 = mergedLast hi middle) := by
  rcases List.eq_nil_or_concat' middle with rfl | ⟨init, last, rfl⟩
  · simp [mergedLast]
  · obtain ⟨_, hlast, hcross⟩ := canonical_append.mp h
    have hvalue : mergedLast hi (init ++ [last]) = max hi last.2 := by simp [mergedLast]
    have hends : last.1 ≤ last.2 := hlast.nonempty last (List.mem_singleton_self _)
    rw [hvalue]
    refine ⟨le_max_left _ _, fun r hr => ?_, ?_⟩
    · rcases List.mem_append.mp hr with hinit | hsame
      · have hbefore := hcross r hinit last (List.mem_singleton_self _)
        exact le_trans (by omega) (le_max_right _ _)
      · rw [List.mem_singleton.mp hsame]
        exact le_max_right _ _
    · rcases max_choice hi last.2 with hhi | hmax
      · exact Or.inl hhi
      · exact Or.inr ⟨last, by simp, hmax.symm⟩

variable {front middle back : List Range}

/-- With the new range in the place of those it touches, the ranges are canonical. -/
theorem Meeting.canonical (h : Meeting lo hi front middle back) (hle : lo ≤ hi)
    (hall : Canonical (front ++ (middle ++ back))) :
    Canonical (front ++ (mergedFirst lo middle, mergedLast hi middle) :: back) := by
  obtain ⟨hfront, hrest, hcross⟩ := canonical_append.mp hall
  obtain ⟨hmiddle, hback, hapart⟩ := canonical_append.mp hrest
  obtain ⟨hfirst, _, hlow⟩ := @mergedFirst_spec lo _ hmiddle
  obtain ⟨hlast, _, hhigh⟩ := @mergedLast_spec hi _ hmiddle
  have hbehind : ∀ s ∈ back, mergedLast hi middle + 1 < s.1 := by
    intro s hs
    rcases hhigh with hsame | ⟨r, hr, hend⟩
    · exact hsame.symm ▸ h.behind s hs
    · exact hend ▸ hapart r hr s hs
  have hbefore : ∀ r ∈ front, r.2 + 1 < mergedFirst lo middle := by
    intro r hr
    rcases hlow with hsame | ⟨s, hs, hstart⟩
    · exact hsame.symm ▸ h.before r hr
    · exact hstart ▸ hcross r hr s (List.mem_append_left _ hs)
  refine canonical_append.mpr ⟨hfront, ⟨?_, List.pairwise_cons.mpr ⟨hbehind, hback.apart⟩⟩, ?_⟩
  · exact List.forall_mem_cons.mpr ⟨hfirst.trans (hle.trans hlast), hback.nonempty⟩
  · intro r hr s hs
    rcases List.mem_cons.mp hs with rfl | hlater
    · exact hbefore r hr
    · exact hcross r hr s (List.mem_append_right _ hlater)

/-- With the new range in the place of those it touches, its numbers are covered as well, and no others. -/
theorem Meeting.covered_eq (h : Meeting lo hi front middle back) (hall : Canonical (front ++ (middle ++ back))) :
    covered (front ++ (mergedFirst lo middle, mergedLast hi middle) :: back) =
      covered (front ++ (middle ++ back)) ∪ Finset.Icc lo hi := by
  have hmiddle := (canonical_append.mp (canonical_append.mp hall).2.1).1
  obtain ⟨hfirst, hstarts, hlow⟩ := @mergedFirst_spec lo _ hmiddle
  obtain ⟨hlast, hends, hhigh⟩ := @mergedLast_spec hi _ hmiddle
  have hmerged : Finset.Icc (mergedFirst lo middle) (mergedLast hi middle) = covered middle ∪ Finset.Icc lo hi := by
    ext n
    simp only [Finset.mem_Icc, Finset.mem_union, mem_covered]
    constructor
    · rintro ⟨hn, hn'⟩
      rcases lt_or_ge n lo with hbelow | habove
      · rcases hlow with hsame | ⟨r, hr, hstart⟩
        · omega
        · have htouched := (h.touched r hr).2
          exact Or.inl ⟨r, hr, by omega, by omega⟩
      · rcases le_or_gt n hi with hwithin | hbeyond
        · exact Or.inr ⟨habove, hwithin⟩
        · rcases hhigh with hsame | ⟨r, hr, hend⟩
          · omega
          · have htouched := (h.touched r hr).1
            exact Or.inl ⟨r, hr, by omega, by omega⟩
    · rintro (⟨r, hr, hn, hn'⟩ | ⟨hn, hn'⟩)
      · exact ⟨(hstarts r hr).trans hn, hn'.trans (hends r hr)⟩
      · exact ⟨hfirst.trans hn, hn'.trans hlast⟩
  rw [covered_append, covered, hmerged, covered_append, covered_append]
  ext n
  simp only [Finset.mem_union]
  tauto

end Coatheal.Library.Ranges
