import Mathlib.Data.List.Nodup

/-!
# Dictionaries

What a key of a dictionary has after another key was set or left out. The keys of
a dictionary differ, and a key that is set again keeps its place.
-/

namespace Coatheal.Library

universe u v

/-- A dictionary: its keys with their values, in the order of insertion. -/
abbrev Dictionary (κ : Type u) (α : Type v) := List (κ × α)

namespace Dictionary

variable {κ : Type u} {α : Type v} [DecidableEq κ] {dict : Dictionary κ α} {key other : κ} {value : α}

/-- Set a key, in its place if it is there. -/
def set (dict : Dictionary κ α) (key : κ) (value : α) : Dictionary κ α :=
  if dict.any fun entry => entry.1 = key then
    dict.map fun entry => if entry.1 = key then (key, value) else entry
  else dict ++ [(key, value)]

/-- The value of a key. -/
def get? (dict : Dictionary κ α) (key : κ) : Option α := (dict.find? fun entry => entry.1 = key).map Prod.snd

/-- The keys in their order. -/
def keys (dict : Dictionary κ α) : List κ := dict.map Prod.fst

/-- The dictionary has a key. -/
def has (dict : Dictionary κ α) (key : κ) : Bool := dict.any fun entry => entry.1 = key

/-- Take out a key. -/
def erase (dict : Dictionary κ α) (key : κ) : Dictionary κ α := dict.filter fun entry => entry.1 ≠ key

/-- The value of a key is that of the first entry if that has the key. -/
theorem get?_cons (entry : κ × α) (rest : Dictionary κ α) :
    get? (entry :: rest) key = if entry.1 = key then some entry.2 else rest.get? key := by
  rw [get?, get?, List.find?_cons]
  by_cases hkey : entry.1 = key
  · rw [decide_eq_true hkey, if_pos hkey]
    rfl
  · rw [decide_eq_false hkey, if_neg hkey]

/-- A dictionary has the keys that have a value. -/
theorem has_eq_true_iff : dict.has key = true ↔ ∃ value, dict.get? key = some value := by
  induction dict with
  | nil => simp [has, get?]
  | cons entry rest ih =>
    rw [get?_cons, has, List.any_cons, Bool.or_eq_true, decide_eq_true_iff, ← has, ih]
    by_cases hkey : entry.1 = key
    · simp [hkey]
    · simp [hkey]

/-- A key without a value is not there. -/
theorem has_eq_false_iff : dict.has key = false ↔ dict.get? key = none := by
  rw [← Bool.not_eq_true, has_eq_true_iff, ← Option.ne_none_iff_exists', not_not]

/-- A key is there when it is one of the keys. -/
theorem has_eq_true_iff_mem : dict.has key = true ↔ key ∈ dict.keys := by
  simp [has, keys]

/-- An entry behind another one is found when no entry in front has its key. -/
theorem get?_append (front back : Dictionary κ α) (key : κ) :
    get? (front ++ back) key = (front.get? key).or (back.get? key) := by
  induction front with
  | nil => rfl
  | cons entry rest ih =>
    rw [List.cons_append, get?_cons, get?_cons, ih]
    split
    · rfl
    · rfl

/-- With a key set, that key has the new value and the others have theirs. -/
theorem get?_set (dict : Dictionary κ α) (key other : κ) (value : α) :
    (dict.set key value).get? other = if key = other then some value else dict.get? other := by
  have hplace (dict : Dictionary κ α) : get? (dict.map fun entry => if entry.1 = key then (key, value) else entry) other =
      if key = other then (dict.get? key).map fun _ => value else dict.get? other := by
    induction dict with
    | nil => simp [get?]
    | cons entry rest ih =>
      rw [List.map_cons, get?_cons, ih, get?_cons, get?_cons]
      by_cases hentry : entry.1 = key
      · by_cases hother : key = other
        · simp [hentry, hother]
        · simp [hentry, hother]
      · by_cases hother : key = other
        · subst hother
          simp [hentry]
        · simp [hentry, hother]
  rw [set]
  split
  case isTrue hhas =>
    obtain ⟨old, hold⟩ := has_eq_true_iff.mp hhas
    rw [hplace, hold]
    rfl
  case isFalse hnew =>
    have hnone : dict.get? key = none := has_eq_false_iff.mp (Bool.eq_false_iff.mpr hnew)
    rw [get?_append, get?_cons]
    by_cases hother : key = other
    · subst hother
      simp [hnone]
    · simp [hother, get?]

/-- Of the entries that are kept by their keys the values are found. -/
theorem get?_filter (dict : Dictionary κ α) (keep : κ → Bool) (key : κ) :
    get? (dict.filter fun entry => keep entry.1) key = if keep key then dict.get? key else none := by
  induction dict with
  | nil => simp [get?]
  | cons entry rest ih =>
    rw [List.filter_cons, get?_cons]
    by_cases hentry : entry.1 = key
    · subst hentry
      cases hkeep : keep entry.1 with
      | true => simp [get?_cons]
      | false => simp [ih, hkeep]
    · cases hkeep : keep entry.1 with
      | true => simp [get?_cons, hentry, ih]
      | false => simp [ih, hentry]

/-- Without a key, that key has no value and the others have theirs. -/
theorem get?_erase (dict : Dictionary κ α) (key other : κ) :
    (dict.erase key).get? other = if key = other then none else dict.get? other := by
  have hfilter := get?_filter dict (fun name => decide (name ≠ key)) other
  rw [erase, hfilter]
  by_cases hother : key = other
  · simp [hother]
  · simp [hother, Ne.symm hother]

/-- A key that is set comes behind the others if it is new. -/
theorem keys_set (dict : Dictionary κ α) (key : κ) (value : α) :
    (dict.set key value).keys = if key ∈ dict.keys then dict.keys else dict.keys ++ [key] := by
  rw [set, ← has, keys]
  by_cases hhas : key ∈ dict.keys
  · rw [if_pos (has_eq_true_iff_mem.mpr hhas), if_pos hhas, keys, List.map_map]
    refine List.map_congr_left fun entry _ => ?_
    rw [Function.comp_apply]
    split
    case isTrue h => exact h.symm
    case isFalse => rfl
  · rw [if_neg (mt has_eq_true_iff_mem.mp hhas), if_neg hhas, List.map_append]
    rfl

/-- The keys stay different. -/
theorem nodup_keys_set (h : dict.keys.Nodup) : (dict.set key value).keys.Nodup := by
  rw [keys_set]
  split
  case isTrue => exact h
  case isFalse hnew =>
    refine List.nodup_append.mpr ⟨h, List.nodup_singleton key, fun held hheld name hname hsame => ?_⟩
    rw [List.mem_singleton.mp hname] at hsame
    exact hnew (hsame ▸ hheld)

/-- An entry of a dictionary with different keys is the value of its key. -/
theorem get?_eq_some_iff (h : dict.keys.Nodup) : dict.get? key = some value ↔ (key, value) ∈ dict := by
  induction dict with
  | nil => simp [get?]
  | cons entry rest ih =>
    rw [keys, List.map_cons, List.nodup_cons] at h
    rw [get?_cons, List.mem_cons]
    by_cases hkey : entry.1 = key
    · have hrest : (key, value) ∉ rest := fun hmem => h.1 (hkey ▸ List.mem_map_of_mem hmem)
      rw [if_pos hkey, ← hkey]
      constructor
      · intro hvalue
        exact Or.inl (Prod.ext rfl (Option.some.inj hvalue).symm)
      · intro hmem
        exact hmem.elim (fun hsame => by rw [← hsame]) fun hmem => absurd (hkey ▸ hmem) hrest
    · rw [if_neg hkey, ih h.2]
      exact ⟨Or.inr, fun hmem => hmem.resolve_left fun hsame => hkey (by rw [← hsame])⟩

/-- A value that is found is that of an entry. -/
theorem mem_of_get?_eq_some (h : dict.get? key = some value) : (key, value) ∈ dict := by
  obtain ⟨entry, hentry, rfl⟩ := Option.map_eq_some_iff.mp h
  have hkey : entry.1 = key := of_decide_eq_true (@List.find?_some (κ × α) (fun entry => decide (entry.1 = key)) _ _ hentry)
  exact hkey ▸ List.mem_of_find?_eq_some hentry

/-- An entry of a dictionary with a key set is one of before or that of the key. -/
theorem mem_set {entry : κ × α} (h : entry ∈ dict.set key value) : entry ∈ dict ∨ entry = (key, value) := by
  rw [set] at h
  split at h
  case isTrue =>
    obtain ⟨old, hold, rfl⟩ := List.mem_map.mp h
    split
    case isTrue => exact Or.inr rfl
    case isFalse => exact Or.inl hold
  case isFalse => exact (List.mem_append.mp h).imp id List.mem_singleton.mp

variable {ι : Type*} {named : ι → κ} {valued : ι → α} {items : List ι}

/-- An entry of a dictionary that is filled from items is one of before or of an item. -/
theorem mem_foldl_set (h : (key, value) ∈ items.foldl (fun dict item => dict.set (named item) (valued item)) dict) :
    (key, value) ∈ dict ∨ ∃ item ∈ items, named item = key ∧ valued item = value := by
  induction items generalizing dict with
  | nil => exact Or.inl h
  | cons item items ih =>
    rcases ih h with hset | ⟨other, hother, hnamed⟩
    · rcases mem_set hset with hold | hsame
      · exact Or.inl hold
      · obtain ⟨rfl, rfl⟩ := Prod.mk.inj hsame
        exact Or.inr ⟨item, List.mem_cons_self, rfl, rfl⟩
    · exact Or.inr ⟨other, List.mem_cons_of_mem _ hother, hnamed⟩

/-- The keys of a dictionary that is filled from items stay different. -/
theorem nodup_keys_foldl_set (h : dict.keys.Nodup) :
    (items.foldl (fun dict item => dict.set (named item) (valued item)) dict).keys.Nodup := by
  induction items generalizing dict with
  | nil => exact h
  | cons item items ih => exact ih (nodup_keys_set h)

/-- The keys of a dictionary that is filled from items are those of before and those of the items. -/
theorem mem_keys_foldl_set :
    key ∈ (items.foldl (fun dict item => dict.set (named item) (valued item)) dict).keys ↔
      key ∈ dict.keys ∨ ∃ item ∈ items, named item = key := by
  induction items generalizing dict with
  | nil => simp
  | cons item items ih =>
    have hkeys : key ∈ (dict.set (named item) (valued item)).keys ↔ key ∈ dict.keys ∨ named item = key := by
      rw [keys_set]
      split
      case isTrue hin => exact ⟨Or.inl, fun hcases => hcases.elim id fun hsame => hsame ▸ hin⟩
      case isFalse => rw [List.mem_append, List.mem_singleton, eq_comm]
    rw [List.foldl_cons, ih, hkeys, or_assoc, List.exists_mem_cons_iff]

/-- New keys that are set one after the other come in their order. -/
theorem foldl_set {entries : List (κ × α)} (h : (keys dict ++ keys entries).Nodup) :
    entries.foldl (fun dict entry => dict.set entry.1 entry.2) dict = dict ++ entries := by
  induction entries generalizing dict with
  | nil => exact (List.append_nil dict).symm
  | cons entry entries ih =>
    have hnew : (dict.any fun other => other.1 = entry.1) = false := by
      refine Bool.eq_false_iff.mpr fun hany => ?_
      have hmem : entry.1 ∈ keys dict := has_eq_true_iff_mem.mp hany
      exact (List.nodup_append.mp h).2.2 _ hmem _ List.mem_cons_self rfl
    have hset : set dict entry.1 entry.2 = dict ++ [entry] := by
      rw [set, hnew, if_neg Bool.false_ne_true]
    have hkeys : (keys (dict ++ [entry]) ++ keys entries).Nodup := by
      have hsame : keys (dict ++ [entry]) ++ keys entries = keys dict ++ keys (entry :: entries) := by
        simp [keys]
      rwa [hsame]
    rw [List.foldl_cons, hset, ih hkeys, List.append_assoc]
    rfl

end Dictionary

end Coatheal.Library
