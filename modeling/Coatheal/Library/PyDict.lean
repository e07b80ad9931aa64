import Coatheal.Library.Dictionary

/-!
# Dictionaries whose keys differ

A dictionary together with the fact that no key comes twice, which setting and
taking out keep. One that is built again from its entries is the same.
-/

namespace Coatheal.Library

universe u v

/-- A dictionary in which no key comes twice. -/
structure PyDict (κ : Type u) (α : Type v) where
  entries : Dictionary κ α
  distinct : (Dictionary.keys entries).Nodup

namespace PyDict

variable {κ : Type u} {α : Type v} {dict other : PyDict κ α}

/-- Dictionaries with the same entries are the same. -/
@[ext] theorem ext (h : dict.entries = other.entries) : dict = other := by
  cases dict
  cases other
  cases h
  rfl

/-- The dictionary without keys. -/
def empty : PyDict κ α := ⟨[], List.nodup_nil⟩

variable [DecidableEq κ] {key name : κ} {value : α}

/-- Set a key. -/
def set (dict : PyDict κ α) (key : κ) (value : α) : PyDict κ α :=
  ⟨Dictionary.set dict.entries key value, Dictionary.nodup_keys_set dict.distinct⟩

/-- Take out a key. -/
def erase (dict : PyDict κ α) (key : κ) : PyDict κ α :=
  ⟨Dictionary.erase dict.entries key, dict.distinct.sublist (List.filter_sublist.map Prod.fst)⟩

/-- The value of a key. -/
def get? (dict : PyDict κ α) (key : κ) : Option α := Dictionary.get? dict.entries key

/-- An empty dictionary has no values. -/
@[simp] theorem get?_empty (key : κ) : (empty : PyDict κ α).get? key = none := rfl

/-- With a key set, that key has the new value and the others have theirs. -/
theorem get?_set (dict : PyDict κ α) (key name : κ) (value : α) :
    (dict.set key value).get? name = if key = name then some value else dict.get? name :=
  Dictionary.get?_set dict.entries key name value

/-- Without a key, that key has no value and the others have theirs. -/
theorem get?_erase (dict : PyDict κ α) (key name : κ) :
    (dict.erase key).get? name = if key = name then none else dict.get? name :=
  Dictionary.get?_erase dict.entries key name

/-- An entry is the value of its key. -/
theorem get?_eq_some_iff : dict.get? key = some value ↔ (key, value) ∈ dict.entries :=
  Dictionary.get?_eq_some_iff dict.distinct

/-- Entries with other keys are put behind those that are there. -/
theorem foldl_set (dict : PyDict κ α) (entries : Dictionary κ α)
    (h : (Dictionary.keys (dict.entries ++ entries)).Nodup) :
    (entries.foldl (fun dict entry => dict.set entry.1 entry.2) dict).entries = dict.entries ++ entries := by
  induction entries generalizing dict with
  | nil => exact (List.append_nil _).symm
  | cons entry rest ih =>
    have hnew : ¬ (dict.entries.any fun held => held.1 = entry.1) = true := by
      intro hheld
      obtain ⟨held, hin, hsame⟩ := List.any_eq_true.mp hheld
      rw [Dictionary.keys, List.map_append, List.map_cons] at h
      exact (List.nodup_append.mp h).2.2 held.1 (List.mem_map_of_mem hin) entry.1 List.mem_cons_self
        (of_decide_eq_true hsame)
    have hset : (dict.set entry.1 entry.2).entries = dict.entries ++ [entry] := by
      change Dictionary.set dict.entries entry.1 entry.2 = _
      unfold Dictionary.set
      rw [if_neg hnew]
    rw [List.foldl_cons, ih _ (by rw [hset, List.append_assoc]; exact h), hset, List.append_assoc]
    rfl

end PyDict

end Coatheal.Library
