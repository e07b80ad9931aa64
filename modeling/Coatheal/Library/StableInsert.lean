import Mathlib.Data.List.Induction
import Mathlib.Data.List.TakeWhile
import Mathlib.Order.Lattice

/-!
# Stable insertion

Items that arrive in any order are put behind those with the same key or a
smaller one. The list stays sorted, and the items of one key stand in the order
they arrived in; the two say where every item is.
-/

namespace Coatheal.Library

variable {α K : Type*} [LinearOrder K] (key : α → K)

/-- Put an item behind those whose key is not greater. -/
def insertStable (items : List α) (item : α) : List α :=
  items.takeWhile (fun other => decide (key other ≤ key item)) ++
    item :: items.dropWhile (fun other => decide (key other ≤ key item))

/-- The items in the order of their keys, those of one key in the order they arrived in. -/
def arrange (arrivals : List α) : List α := arrivals.foldl (insertStable key) []

variable {key} {items : List α} {item : α}

/-- Keys in order. -/
def InOrder (key : α → K) (items : List α) : Prop := items.Pairwise fun first second => key first ≤ key second

/-- Behind an item that is inserted all keys are greater. -/
theorem lt_of_mem_dropWhile (h : InOrder key items) {other : α}
    (hother : other ∈ items.dropWhile fun other => decide (key other ≤ key item)) : key item < key other := by
  induction items with
  | nil => exact absurd hother List.not_mem_nil
  | cons first rest ih =>
    obtain ⟨hfirst, hrest⟩ := List.pairwise_cons.mp h
    rw [List.dropWhile_cons] at hother
    split at hother
    · exact ih hrest hother
    case isFalse hle =>
      have hless : key item < key first := not_le.mp fun hle' => hle (decide_eq_true hle')
      rcases List.mem_cons.mp hother with rfl | hin
      · exact hless
      · exact lt_of_lt_of_le hless (hfirst other hin)

/-- Where a sorted list is cut between the keys not greater and the greater ones, an item is inserted. -/
theorem insertStable_of_split {front back : List α} (hfront : ∀ other ∈ front, key other ≤ key item)
    (hback : ∀ other ∈ back, key item < key other) : insertStable key (front ++ back) item = front ++ item :: back := by
  have htake : (front ++ back).takeWhile (fun other => decide (key other ≤ key item)) = front := by
    rw [List.takeWhile_append_of_pos fun other hother => decide_eq_true (hfront other hother)]
    cases back with
    | nil => rw [List.takeWhile_nil, List.append_nil]
    | cons first rest =>
      rw [List.takeWhile_cons_of_neg, List.append_nil]
      rw [decide_eq_true_iff]
      exact not_le.mpr (hback first List.mem_cons_self)
  have hdrop : (front ++ back).dropWhile (fun other => decide (key other ≤ key item)) = back := by
    have hwhole := List.takeWhile_append_dropWhile
      (p := fun other => decide (key other ≤ key item)) (l := front ++ back)
    rw [htake] at hwhole
    exact List.append_cancel_left hwhole
  rw [insertStable, htake, hdrop]

/-- Insertion adds the item. -/
theorem perm_insertStable (items : List α) (item : α) : (insertStable key items item).Perm (item :: items) := by
  have hwhole := List.takeWhile_append_dropWhile (p := fun other => decide (key other ≤ key item)) (l := items)
  conv_rhs => rw [← hwhole]
  exact List.perm_middle

/-- Insertion keeps the keys in order. -/
theorem insertStable_inOrder (h : InOrder key items) : InOrder key (insertStable key items item) := by
  have hwhole := List.takeWhile_append_dropWhile (p := fun other => decide (key other ≤ key item)) (l := items)
  rw [InOrder, ← hwhole] at h
  obtain ⟨hfront, hback, hcross⟩ := List.pairwise_append.mp h
  rw [hwhole] at h
  have hitem : ∀ other ∈ items.takeWhile (fun other => decide (key other ≤ key item)), key other ≤ key item := by
    intro other hother
    have hle := List.mem_takeWhile_imp hother
    exact of_decide_eq_true hle
  refine List.pairwise_append.mpr ⟨hfront, List.pairwise_cons.mpr ⟨?_, hback⟩, ?_⟩
  · exact fun other hother => (lt_of_mem_dropWhile h hother).le
  · intro first hfirst second hsecond
    rcases List.mem_cons.mp hsecond with rfl | hin
    · exact hitem first hfirst
    · exact hcross first hfirst second hin

/-- Among the items of its key an item comes last, and the others stay where they are. -/
theorem filter_insertStable (h : InOrder key items) (wanted : K) :
    (insertStable key items item).filter (fun other => decide (key other = wanted)) =
      items.filter (fun other => decide (key other = wanted)) ++ if key item = wanted then [item] else [] := by
  have hwhole := List.takeWhile_append_dropWhile (p := fun other => decide (key other ≤ key item)) (l := items)
  unfold insertStable
  rw [List.filter_append, List.filter_cons]
  conv_rhs => rw [← hwhole, List.filter_append]
  by_cases hkey : key item = wanted
  · have hnone : (items.dropWhile fun other => decide (key other ≤ key item)).filter
        (fun other => decide (key other = wanted)) = [] := by
      refine List.filter_eq_nil_iff.mpr fun other hother heq => ?_
      have hless := lt_of_mem_dropWhile h hother
      rw [of_decide_eq_true heq, hkey] at hless
      exact lt_irrefl wanted hless
    rw [hnone, if_pos (decide_eq_true hkey), if_pos hkey, List.append_nil]
  · rw [if_neg (by simpa using hkey), if_neg hkey, List.append_nil]

/-- Arranged items are in order, those of one key as they arrived, each of them once. -/
theorem arrange_spec (arrivals : List α) : InOrder key (arrange key arrivals) ∧
    (∀ wanted, (arrange key arrivals).filter (fun item => decide (key item = wanted)) =
      arrivals.filter fun item => decide (key item = wanted)) ∧ (arrange key arrivals).Perm arrivals := by
  unfold arrange
  induction arrivals using List.reverseRecOn with
  | nil => exact ⟨List.Pairwise.nil, fun _ => rfl, List.Perm.refl _⟩
  | append_singleton earlier item ih =>
    obtain ⟨horder, hfilter, hperm⟩ := ih
    rw [List.foldl_append, List.foldl_cons, List.foldl_nil]
    refine ⟨insertStable_inOrder horder, fun wanted => ?_, ?_⟩
    · rw [filter_insertStable horder, hfilter, List.filter_append, List.filter_cons, List.filter_nil]
      simp only [decide_eq_true_eq]
    · exact (perm_insertStable _ item).trans ((hperm.cons item).trans (List.perm_append_singleton item earlier).symm)

end Coatheal.Library
