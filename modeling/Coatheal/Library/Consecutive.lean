import Mathlib.Data.Set.Insert
import Mathlib.Order.Basic

/-!
# Runs of consecutive numbers

A set of numbers falls into its maximal runs of consecutive members. Every
member of a bounded set lies in exactly one run. Adding a number beyond all
others extends the last run or opens one; taking a number out splits its run.
-/

namespace Coatheal.Library

/-- A maximal run of consecutive members of a set, both ends included. -/
structure IsRun (members : Set ℕ) (start stop : ℕ) : Prop where
  le : start ≤ stop
  filled : ∀ number, start ≤ number → number ≤ stop → number ∈ members
  opens : ∀ number, number + 1 = start → number ∉ members
  closes : stop + 1 ∉ members

namespace IsRun

variable {members : Set ℕ} {start stop otherStart otherStop number : ℕ}

/-- The first number of a run is a member. -/
theorem start_mem (h : IsRun members start stop) : start ∈ members := h.filled start le_rfl h.le

/-- The last number of a run is a member. -/
theorem stop_mem (h : IsRun members start stop) : stop ∈ members := h.filled stop h.le le_rfl

/-- Whether two numbers bound a run depends on the numbers between them and next to them. -/
theorem congr {others : Set ℕ} (h : IsRun members start stop)
    (hsame : ∀ number, start ≤ number + 1 → number ≤ stop + 1 → (number ∈ members ↔ number ∈ others)) :
    IsRun others start stop where
  le := h.le
  filled number hfrom hto := (hsame number (by omega) (by omega)).mp (h.filled number hfrom hto)
  opens number hbefore hmem :=
    h.opens number hbefore ((hsame number (by omega) (by have := h.le; omega)).mpr hmem)
  closes hmem := h.closes ((hsame (stop + 1) (by have := h.le; omega) le_rfl).mpr hmem)

/-- Two runs with a number in common start at the same number. -/
theorem start_eq (h : IsRun members start stop) (hother : IsRun members otherStart otherStop)
    (hin : start ≤ number ∧ number ≤ stop) (hinOther : otherStart ≤ number ∧ number ≤ otherStop) :
    start = otherStart := by
  by_contra hne
  rcases Nat.lt_or_gt_of_ne hne with hless | hmore
  · have hbefore : otherStart - 1 + 1 = otherStart := by omega
    exact hother.opens (otherStart - 1) hbefore (h.filled (otherStart - 1) (by omega) (by omega))
  · have hbefore : start - 1 + 1 = start := by omega
    exact h.opens (start - 1) hbefore (hother.filled (start - 1) (by omega) (by omega))

/-- Two runs that start at the same number end at the same number. -/
theorem stop_eq (h : IsRun members start stop) (hother : IsRun members start otherStop) :
    stop = otherStop := by
  by_contra hne
  have hle := h.le
  have hleOther := hother.le
  rcases Nat.lt_or_gt_of_ne hne with hless | hmore
  · exact h.closes (hother.filled (stop + 1) (by omega) (by omega))
  · exact hother.closes (h.filled (otherStop + 1) (by omega) (by omega))

end IsRun

/-- The numbers up to a member go back to the start of its run. -/
theorem exists_run_start {members : Set ℕ} {number : ℕ} (h : number ∈ members) :
    ∃ start, start ≤ number ∧ (∀ other, start ≤ other → other ≤ number → other ∈ members) ∧
      ∀ other, other + 1 = start → other ∉ members := by
  induction number with
  | zero =>
    refine ⟨0, le_rfl, fun other hfrom hto => ?_, fun other hzero => by omega⟩
    have hsame : other = 0 := by omega
    rwa [hsame]
  | succ number ih =>
    by_cases hbefore : number ∈ members
    · obtain ⟨start, hle, hfilled, hopens⟩ := ih hbefore
      refine ⟨start, by omega, fun other hfrom hto => ?_, hopens⟩
      by_cases hlast : other = number + 1
      · rwa [hlast]
      · exact hfilled other hfrom (by omega)
    · refine ⟨number + 1, le_rfl, fun other hfrom hto => ?_, fun other hsame => ?_⟩
      · have hsame : other = number + 1 := by omega
        rwa [hsame]
      · have heq : other = number := by omega
        rwa [heq]

/-- The numbers from a member on go to the end of its run, when the members are bounded. -/
theorem exists_run_stop {members : Set ℕ} {number bound : ℕ}
    (hbound : ∀ other ∈ members, other < bound) (h : number ∈ members) :
    ∃ stop, number ≤ stop ∧ (∀ other, number ≤ other → other ≤ stop → other ∈ members) ∧
      stop + 1 ∉ members := by
  have hleft : ∀ left number, number + left = bound → number ∈ members →
      ∃ stop, number ≤ stop ∧ (∀ other, number ≤ other → other ≤ stop → other ∈ members) ∧
        stop + 1 ∉ members := by
    intro left
    induction left with
    | zero =>
      intro number hsum hmem
      have hless := hbound number hmem
      omega
    | succ left ih =>
      intro number hsum hmem
      by_cases hnext : number + 1 ∈ members
      · obtain ⟨stop, hle, hfilled, hcloses⟩ := ih (number + 1) (by omega) hnext
        refine ⟨stop, by omega, fun other hfrom hto => ?_, hcloses⟩
        by_cases hfirst : other = number
        · rwa [hfirst]
        · exact hfilled other (by omega) hto
      · refine ⟨number, le_rfl, fun other hfrom hto => ?_, hnext⟩
        have hsame : other = number := by omega
        rwa [hsame]
  have hless := hbound number h
  exact hleft (bound - number) number (by omega) h

/-- Every member of a bounded set lies in a run. -/
theorem exists_run {members : Set ℕ} {number bound : ℕ} (hbound : ∀ other ∈ members, other < bound)
    (h : number ∈ members) : ∃ start stop, IsRun members start stop ∧ start ≤ number ∧ number ≤ stop := by
  obtain ⟨start, hstart, hback, hopens⟩ := exists_run_start h
  obtain ⟨stop, hstop, hfront, hcloses⟩ := exists_run_stop hbound h
  refine ⟨start, stop, ⟨by omega, ?_, hopens, hcloses⟩, hstart, hstop⟩
  intro other hfrom hto
  by_cases hside : other ≤ number
  · exact hback other hfrom hside
  · exact hfront other (by omega) hto

/-- A number beyond all members is no matter to a run that does not reach it. -/
theorem mem_insert_iff_of_lt {members : Set ℕ} {number other : ℕ} (h : other < number) :
    other ∈ insert number members ↔ other ∈ members := by
  rw [Set.mem_insert_iff]
  exact or_iff_right (by omega)

/-- A number beyond all members extends the run that ends before it. -/
theorem isRun_insert_extend {members : Set ℕ} {first last start stop : ℕ}
    (hbound : ∀ other ∈ members, other < last + 1) (hrun : IsRun members first last) :
    IsRun (insert (last + 1) members) start stop ↔
      (start = first ∧ stop = last + 1) ∨ (start ≠ first ∧ IsRun members start stop) := by
  have hle := hrun.le
  have hwhole : IsRun (insert (last + 1) members) first (last + 1) := by
    refine ⟨by omega, fun other hfrom hto => ?_, fun other hbefore hmem => ?_, fun hmem => ?_⟩
    · by_cases hsame : other = last + 1
      · exact Or.inl hsame
      · exact Or.inr (hrun.filled other hfrom (by omega))
    · exact hrun.opens other hbefore ((mem_insert_iff_of_lt (by omega)).mp hmem)
    · rcases hmem with hsame | hmem
      · omega
      · have hless := hbound _ hmem
        omega
  constructor
  · intro h
    have hstop : stop ≤ last + 1 := by
      rcases h.stop_mem with hsame | hmem
      · omega
      · exact le_of_lt (hbound stop hmem)
    have hstopLe := h.le
    by_cases hends : stop = last + 1
    · subst hends
      exact Or.inl ⟨h.start_eq hwhole ⟨hstopLe, le_rfl⟩ ⟨by omega, le_rfl⟩, rfl⟩
    · have hshort : stop + 1 ≠ last + 1 := fun hnext => h.closes (Or.inl hnext)
      have hbelow : IsRun members start stop :=
        h.congr fun other _ hto => mem_insert_iff_of_lt (by omega)
      refine Or.inr ⟨fun hsame => ?_, hbelow⟩
      subst hsame
      have hlast : stop = last := hbelow.stop_eq hrun
      omega
  · rintro (⟨rfl, rfl⟩ | ⟨hne, h⟩)
    · exact hwhole
    · have hstop := hbound stop h.stop_mem
      have hstopLe := h.le
      have hshort : stop ≠ last := fun hsame =>
        hne (h.start_eq hrun ⟨hstopLe, le_rfl⟩ ⟨by omega, by omega⟩)
      exact h.congr fun other _ hto => (mem_insert_iff_of_lt (by omega)).symm

/-- A number beyond all members, with none right before it, is a run of its own. -/
theorem isRun_insert_alone {members : Set ℕ} {number start stop : ℕ}
    (hbound : ∀ other ∈ members, other < number) (hgap : ∀ last, last + 1 = number → last ∉ members) :
    IsRun (insert number members) start stop ↔
      (start = number ∧ stop = number) ∨ IsRun members start stop := by
  have halone : IsRun (insert number members) number number := by
    refine ⟨le_rfl, fun other hfrom hto => Or.inl (by omega), fun other hbefore hmem => ?_, fun hmem => ?_⟩
    · exact hgap other hbefore ((mem_insert_iff_of_lt (by omega)).mp hmem)
    · rcases hmem with hsame | hmem
      · omega
      · have hless := hbound _ hmem
        omega
  constructor
  · intro h
    have hstop : stop ≤ number := by
      rcases h.stop_mem with hsame | hmem
      · omega
      · exact le_of_lt (hbound stop hmem)
    have hstopLe := h.le
    by_cases hends : stop = number
    · subst hends
      exact Or.inl ⟨h.start_eq halone ⟨hstopLe, le_rfl⟩ ⟨le_rfl, le_rfl⟩, rfl⟩
    · have hshort : stop + 1 ≠ number := fun hnext => h.closes (Or.inl hnext)
      exact Or.inr (h.congr fun other _ hto => mem_insert_iff_of_lt (by omega))
  · rintro (⟨rfl, rfl⟩ | h)
    · exact halone
    · have hstop := hbound stop h.stop_mem
      have hshort : stop + 1 ≠ number := fun hnext => hgap stop hnext h.stop_mem
      exact h.congr fun other _ hto => (mem_insert_iff_of_lt (by omega)).symm

/-- A number that is taken out is no matter to a run away from it. -/
theorem mem_remove_iff_of_ne {members : Set ℕ} {number other : ℕ} (h : other ≠ number) :
    other ∈ members \ {number} ↔ other ∈ members := by
  rw [Set.mem_sdiff, Set.mem_singleton_iff]
  exact and_iff_left h

/-- Taking a number out of a run leaves the part before it, the part behind it and the other runs. -/
theorem isRun_remove {members : Set ℕ} {first last number start stop : ℕ} (hrun : IsRun members first last)
    (hfirst : first ≤ number) (hlast : number ≤ last) :
    IsRun (members \ {number}) start stop ↔
      (start = first ∧ stop + 1 = number) ∧ first < number ∨
      (start = number + 1 ∧ stop = last) ∧ number < last ∨
      start ≠ first ∧ IsRun members start stop := by
  have hgone : number ∉ members \ {number} := fun hmem => hmem.2 rfl
  have hfront : ∀ stop, first < number → stop + 1 = number → IsRun (members \ {number}) first stop := by
    intro stop hless hnext
    refine ⟨by omega, fun other hfrom hto => ?_, fun other hbefore hmem => ?_, ?_⟩
    · exact (mem_remove_iff_of_ne (by omega)).mpr (hrun.filled other hfrom (by omega))
    · exact hrun.opens other hbefore hmem.1
    · rw [hnext]
      exact hgone
  have hback : number < last → IsRun (members \ {number}) (number + 1) last := by
    intro hless
    refine ⟨by omega, fun other hfrom hto => ?_, fun other hbefore hmem => ?_, fun hmem => ?_⟩
    · exact (mem_remove_iff_of_ne (by omega)).mpr (hrun.filled other (by omega) hto)
    · exact hmem.2 (by rw [Set.mem_singleton_iff]; omega)
    · exact hrun.closes hmem.1
  constructor
  · intro h
    have hle := h.le
    have hout : ¬ (start ≤ number ∧ number ≤ stop) := fun hin => hgone (h.filled number hin.1 hin.2)
    by_cases hbefore : stop + 1 = number
    · have hstop := h.stop_mem.1
      have hless : first < number := by
        by_contra hsame
        exact hrun.opens stop (by omega) hstop
      have hstart : start = first :=
        h.start_eq (hfront stop hless hbefore) ⟨hle, le_rfl⟩ ⟨by omega, le_rfl⟩
      exact Or.inl ⟨⟨hstart, hbefore⟩, hless⟩
    by_cases hbehind : start = number + 1
    · have hstart := h.start_mem.1
      have hless : number < last := by
        by_contra hsame
        have hnext : last + 1 = start := by omega
        exact hrun.closes (by rwa [hnext])
      subst hbehind
      exact Or.inr (Or.inl ⟨⟨rfl, h.stop_eq (hback hless)⟩, hless⟩)
    · have haway : IsRun members start stop :=
        h.congr fun other _ _ => mem_remove_iff_of_ne (by omega)
      refine Or.inr (Or.inr ⟨fun hsame => ?_, haway⟩)
      subst hsame
      have hends : stop = last := haway.stop_eq hrun
      omega
  · rintro (⟨⟨rfl, hnext⟩, hless⟩ | ⟨⟨rfl, rfl⟩, hless⟩ | ⟨hne, h⟩)
    · exact hfront stop hless hnext
    · exact hback hless
    · have hle := h.le
      have hout : ¬ (start ≤ number ∧ number ≤ stop) := fun hin =>
        hne (h.start_eq hrun hin ⟨hfirst, hlast⟩)
      have hmem : number ∈ members := hrun.filled number hfirst hlast
      have hbehind : number + 1 ≠ start := fun hnext => h.opens number hnext hmem
      have hbefore : stop + 1 ≠ number := fun hnext => h.closes (by rwa [hnext])
      exact h.congr fun other _ _ => (mem_remove_iff_of_ne (by omega)).symm

end Coatheal.Library
