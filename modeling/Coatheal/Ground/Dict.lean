import Coatheal.Ground.Layout
import Coatheal.Library.Dictionary

/-!
# Dictionaries with texts as keys

What a key of a dictionary has after another key was set or left out. The keys of
a dictionary differ, and a key that is set again keeps its place.
-/

namespace Coatheal.Ground.Dict

open Library

variable {α : Type} {dict : Dict α} {key : List Char} {value : α}

/-- The keys in their order. -/
def keys (dict : Dict α) : List (List Char) := dict.map Prod.fst

/-- The dictionary has a key. -/
def has (dict : Dict α) (key : List Char) : Bool := dict.any fun entry => entry.1 = key

/-- Take out a key. -/
def erase (dict : Dict α) (key : List Char) : Dict α := dict.filter fun entry => entry.1 ≠ key

/-- A dictionary has the keys that have a value. -/
theorem has_eq_true_iff : dict.has key = true ↔ ∃ value, dict.get? key = some value := Dictionary.has_eq_true_iff

/-- A key is there when it is one of the keys. -/
theorem has_eq_true_iff_mem : dict.has key = true ↔ key ∈ dict.keys := Dictionary.has_eq_true_iff_mem

/-- With a key set, that key has the new value and the others have theirs. -/
theorem get?_set (dict : Dict α) (key other : List Char) (value : α) :
    (dict.set key value).get? other = if key = other then some value else dict.get? other :=
  Dictionary.get?_set dict key other value

/-- Of the entries that are kept by their keys the values are found. -/
theorem get?_filter (dict : Dict α) (keep : List Char → Bool) (key : List Char) :
    Dict.get? (dict.filter fun entry => keep entry.1) key = if keep key then dict.get? key else none :=
  Dictionary.get?_filter dict keep key

/-- Without a key, that key has no value and the others have theirs. -/
theorem get?_erase (dict : Dict α) (key other : List Char) :
    (dict.erase key).get? other = if key = other then none else dict.get? other :=
  Dictionary.get?_erase dict key other

/-- The keys stay different. -/
theorem nodup_keys_set (h : dict.keys.Nodup) : (dict.set key value).keys.Nodup := Dictionary.nodup_keys_set h

/-- An entry of a dictionary with different keys is the value of its key. -/
theorem get?_eq_some_iff (h : dict.keys.Nodup) : dict.get? key = some value ↔ (key, value) ∈ dict :=
  Dictionary.get?_eq_some_iff h

end Coatheal.Ground.Dict
