import Mathlib.Algebra.BigOperators.Group.List.Basic
import Mathlib.Algebra.Order.BigOperators.Group.List
import Mathlib.Algebra.Order.Field.Rat
import Mathlib.Data.Real.Basic

/-!
# Charges against a sliding window

A charge covers a number of bytes from the moment it is placed until it is
released. Its bytes may be emitted at any moment in between. The load of a
window position is what all charges could emit inside the half-open window that
starts there, and a law bounds that load at every position.
-/

namespace Coatheal.Library

variable {T : Type*} [AddCommGroup T] [LinearOrder T]

/-- Bytes that may be emitted from `placed` on, and no later than `release` once that is set. -/
structure Charge (T : Type*) where
  placed : T
  release : Option T
  size : ℕ

namespace Charge

/-- The charge as it stands before anybody has closed it. -/
def reopened (c : Charge T) : Charge T := { c with release := none }

/-- Some byte of the charge may fall into the window that starts at `t`. -/
def Reaches (window : T) (c : Charge T) (t : T) : Prop :=
  c.placed < t + window ∧ ∀ e ∈ c.release, t ≤ e

/-- The emission times of the bytes a charge covers: at most one for each byte, none of them
before the charge is placed or after it is released. -/
def Emits (c : Charge T) (times : List T) : Prop :=
  times.length ≤ c.size ∧ ∀ x ∈ times, c.placed ≤ x ∧ ∀ e ∈ c.release, x ≤ e

end Charge

open Classical in
/-- What a charge can put into the window that starts at `t`. -/
noncomputable def Charge.load (window : T) (c : Charge T) (t : T) : ℕ :=
  if c.Reaches window t then c.size else 0

/-- What all charges together can put into the window that starts at `t`. -/
noncomputable def load (window : T) (charges : List (Charge T)) (t : T) : ℕ :=
  (charges.map fun c => c.load window t).sum

/-- No window position carries more than `share`. -/
def WithinShare (window : T) (share : ℕ) (charges : List (Charge T)) : Prop :=
  ∀ t, load window charges t ≤ share

/-- How many of the emission times fall into the window that starts at `t`. -/
def countIn (window t : T) (times : List T) : ℕ :=
  times.countP fun x => decide (t ≤ x ∧ x < t + window)

/-- A charge reaches a window with at most its size. -/
theorem Charge.load_le_size (window : T) (c : Charge T) (t : T) : c.load window t ≤ c.size := by
  unfold Charge.load
  split
  · exact le_rfl
  · exact Nat.zero_le _

/-- A charge placed at the end of a window or later puts nothing into it. -/
theorem Charge.load_of_late {window : T} {c : Charge T} {t : T} (h : t + window ≤ c.placed) :
    c.load window t = 0 :=
  if_neg fun hr => absurd hr.1 (not_lt.mpr h)

/-- A charge released before a window starts puts nothing into it. -/
theorem Charge.load_of_released {window : T} {c : Charge T} {t e : T} (he : c.release = some e)
    (h : e < t) : c.load window t = 0 :=
  if_neg fun hr => absurd (hr.2 e he) (not_le.mpr h)

/-- Closing a charge can only take bytes out of a window. -/
theorem Charge.load_le_reopened (window : T) (c : Charge T) (t : T) :
    c.load window t ≤ c.reopened.load window t := by
  unfold Charge.load
  split
  case isTrue h =>
    have hr : c.reopened.Reaches window t := ⟨h.1, fun e he => by cases he⟩
    rw [if_pos hr]
    exact le_rfl
  case isFalse => exact Nat.zero_le _

/-- The load of one more charge. -/
@[simp]
theorem load_cons (window : T) (c : Charge T) (charges : List (Charge T)) (t : T) :
    load window (c :: charges) t = c.load window t + load window charges t := by
  simp [load]

/-- No charge, no load. -/
@[simp]
theorem load_nil (window t : T) : load window ([] : List (Charge T)) t = 0 := rfl

/-- The load of two lists of charges. -/
@[simp]
theorem load_append (window : T) (first second : List (Charge T)) (t : T) :
    load window (first ++ second) t = load window first t + load window second t := by
  simp [load]

/-- All charges together reach a window with at most their sizes. -/
theorem load_le_sum (window : T) (charges : List (Charge T)) (t : T) :
    load window charges t ≤ (charges.map Charge.size).sum := by
  induction charges with
  | nil => simp
  | cons c rest ih =>
    simp only [load_cons, List.map_cons, List.sum_cons]
    exact Nat.add_le_add (c.load_le_size window t) ih

/-- Charges that were all released before a window starts put nothing into it. -/
theorem load_of_released {window t : T} {charges : List (Charge T)}
    (h : ∀ c ∈ charges, ∃ e, c.release = some e ∧ e < t) : load window charges t = 0 := by
  induction charges with
  | nil => rfl
  | cons c rest ih =>
    obtain ⟨e, he, hlt⟩ := h c List.mem_cons_self
    rw [load_cons, Charge.load_of_released he hlt,
      ih fun d hd => h d (List.mem_cons_of_mem c hd)]

/-- The admission rule: a charge placed when everything still counting leaves room for it, and
everything retired was released at least one window ago, keeps every window within the share. -/
theorem WithinShare.charge [IsOrderedAddMonoid T] {window : T} {share : ℕ}
    {counting retired : List (Charge T)} {c : Charge T}
    (hlaw : WithinShare window share (counting ++ retired))
    (hretired : ∀ d ∈ retired, ∃ e, d.release = some e ∧ e + window ≤ c.placed)
    (hroom : (counting.map Charge.size).sum + c.size ≤ share) :
    WithinShare window share (c :: (counting ++ retired)) := by
  intro t
  rw [load_cons]
  rcases le_or_gt (t + window) c.placed with hlate | hlate
  · rw [Charge.load_of_late hlate, Nat.zero_add]
    exact hlaw t
  · -- every retired charge ended before this window, so only the counted ones are left
    have hgone : load window retired t = 0 := by
      refine load_of_released fun d hd => ?_
      obtain ⟨e, he, hle⟩ := hretired d hd
      exact ⟨e, he, lt_of_add_lt_add_right (lt_of_le_of_lt hle hlate)⟩
    have hcount := load_le_sum window counting t
    have hsize := c.load_le_size window t
    rw [load_append, hgone]
    omega

/-- Emission times inside a window are no more than the charge's load of that window. -/
theorem Charge.Emits.countIn_le {window : T} {c : Charge T} {times : List T} (h : c.Emits times)
    (t : T) : countIn window t times ≤ c.load window t := by
  obtain ⟨hlength, htimes⟩ := h
  unfold Charge.load
  split
  case isTrue => exact le_trans List.countP_le_length hlength
  case isFalse hout =>
    -- one emission inside the window would make the charge reach it
    rw [countIn, Nat.le_zero, List.countP_eq_zero]
    intro x hx hin
    obtain ⟨hlow, hhigh⟩ := of_decide_eq_true hin
    obtain ⟨hplaced, hrelease⟩ := htimes x hx
    exact hout ⟨lt_of_le_of_lt hplaced hhigh, fun e he => le_trans hlow (hrelease e he)⟩

/-- What a list of charges emits inside a window, each under its own emission times. -/
def emittedIn (window t : T) (emissions : List (Charge T × List T)) : ℕ :=
  (emissions.map fun pair => countIn window t pair.2).sum

/-- Charges within the share emit at most the share inside every window. -/
theorem emittedIn_le_share {window : T} {share : ℕ} {emissions : List (Charge T × List T)}
    (hlaw : WithinShare window share (emissions.map Prod.fst))
    (hemits : ∀ pair ∈ emissions, pair.1.Emits pair.2) (t : T) :
    emittedIn window t emissions ≤ share := by
  refine le_trans ?_ (hlaw t)
  rw [emittedIn, load, List.map_map]
  exact List.sum_le_sum fun pair hpair => (hemits pair hpair).countIn_le t

end Coatheal.Library
