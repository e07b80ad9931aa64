import Mathlib.Data.List.Nodup
import Mathlib.Data.Prod.Lex
import Mathlib.Order.Basic

/-!
# Sorted maps

A finite map is the list of its entries in the order of their keys, each key
once. Iteration, the first and last entry and the last entry up to a key are
read off the list; looking up, inserting and erasing are described by the
entries the result has.
-/

namespace Coatheal.Library

/-- A map with its entries in the order of their keys. A set is a map to `Unit`. -/
structure SortedMap (K V : Type*) [LinearOrder K] where
  entries : List (K × V)
  sorted : entries.Pairwise fun first second => first.1 < second.1

namespace SortedMap

variable {K V : Type*} [LinearOrder K]

/-- Put an entry in its place, over an entry with the same key. -/
def insertEntry (key : K) (value : V) : List (K × V) → List (K × V)
  | [] => [(key, value)]
  | entry :: rest =>
    if key < entry.1 then (key, value) :: entry :: rest
    else if key = entry.1 then (key, value) :: rest
    else entry :: insertEntry key value rest

/-- An entry put into sorted entries replaces the one with its key and no other. -/
theorem mem_insertEntry {key : K} {value : V} {entries : List (K × V)} {entry : K × V}
    (h : entries.Pairwise fun first second => first.1 < second.1) :
    entry ∈ insertEntry key value entries ↔
      entry = (key, value) ∨ (entry.1 ≠ key ∧ entry ∈ entries) := by
  induction entries with
  | nil => simp [insertEntry]
  | cons head rest ih =>
    obtain ⟨hhead, hrest⟩ := List.pairwise_cons.mp h
    rw [insertEntry]
    by_cases hless : key < head.1
    · have hother : ∀ other ∈ head :: rest, other.1 ≠ key := by
        intro other hmem
        rcases List.mem_cons.mp hmem with rfl | hin
        · exact ne_of_gt hless
        · exact ne_of_gt (lt_trans hless (hhead other hin))
      rw [if_pos hless, List.mem_cons]
      exact or_congr_right ⟨fun hmem => ⟨hother entry hmem, hmem⟩, fun hmem => hmem.2⟩
    · rw [if_neg hless]
      by_cases heq : key = head.1
      · have hother : ∀ other ∈ rest, other.1 ≠ key := by
          intro other hin
          rw [heq]
          exact ne_of_gt (hhead other hin)
        rw [if_pos heq, List.mem_cons, List.mem_cons]
        refine or_congr_right ⟨fun hmem => ⟨hother entry hmem, Or.inr hmem⟩, ?_⟩
        rintro ⟨hne, rfl | hin⟩
        · exact absurd heq.symm hne
        · exact hin
      · rw [if_neg heq, List.mem_cons, List.mem_cons, ih hrest]
        constructor
        · rintro (rfl | rfl | ⟨hne, hin⟩)
          · exact Or.inr ⟨fun hsame => heq hsame.symm, Or.inl rfl⟩
          · exact Or.inl rfl
          · exact Or.inr ⟨hne, Or.inr hin⟩
        · rintro (rfl | ⟨hne, rfl | hin⟩)
          · exact Or.inr (Or.inl rfl)
          · exact Or.inl rfl
          · exact Or.inr (Or.inr ⟨hne, hin⟩)

/-- Entries stay sorted when one is put in its place. -/
theorem insertEntry_sorted (key : K) (value : V) {entries : List (K × V)}
    (h : entries.Pairwise fun first second => first.1 < second.1) :
    (insertEntry key value entries).Pairwise fun first second => first.1 < second.1 := by
  induction entries with
  | nil => exact List.pairwise_singleton _ _
  | cons head rest ih =>
    obtain ⟨hhead, hrest⟩ := List.pairwise_cons.mp h
    rw [insertEntry]
    by_cases hless : key < head.1
    · rw [if_pos hless]
      refine List.pairwise_cons.mpr ⟨?_, h⟩
      intro other hmem
      rcases List.mem_cons.mp hmem with rfl | hin
      · exact hless
      · exact lt_trans hless (hhead other hin)
    · rw [if_neg hless]
      by_cases heq : key = head.1
      · rw [if_pos heq]
        refine List.pairwise_cons.mpr ⟨?_, hrest⟩
        intro other hin
        rw [heq]
        exact hhead other hin
      · rw [if_neg heq]
        refine List.pairwise_cons.mpr ⟨?_, ih hrest⟩
        intro other hmem
        rcases (mem_insertEntry hrest).mp hmem with rfl | ⟨-, hin⟩
        · exact lt_of_le_of_ne (not_lt.mp hless) (fun hsame => heq hsame.symm)
        · exact hhead other hin

/-- The empty map. -/
def empty : SortedMap K V := ⟨[], List.Pairwise.nil⟩

/-- Membership of an entry, a key with its value. -/
instance : Membership (K × V) (SortedMap K V) := ⟨fun map entry => entry ∈ map.entries⟩

/-- The value of a key. -/
def find? (map : SortedMap K V) (key : K) : Option V :=
  (map.entries.find? fun entry => entry.1 = key).map Prod.snd

/-- Set the value of a key. -/
def insert (map : SortedMap K V) (key : K) (value : V) : SortedMap K V :=
  ⟨insertEntry key value map.entries, insertEntry_sorted key value map.sorted⟩

/-- Remove a key. -/
def erase (map : SortedMap K V) (key : K) : SortedMap K V :=
  ⟨map.entries.filter fun entry => entry.1 ≠ key, map.sorted.filter _⟩

/-- The entry with the smallest key. -/
def first? (map : SortedMap K V) : Option (K × V) := map.entries.head?

/-- The entry with the largest key. -/
def last? (map : SortedMap K V) : Option (K × V) := map.entries.getLast?

/-- The entry with the largest key that is not beyond a given one. -/
def floor? (map : SortedMap K V) (key : K) : Option (K × V) :=
  (map.entries.filter fun entry => entry.1 ≤ key).getLast?

/-- The number of entries. -/
def size (map : SortedMap K V) : ℕ := map.entries.length

/-- The values in the order of their keys. -/
def values (map : SortedMap K V) : List V := map.entries.map Prod.snd

variable {map : SortedMap K V} {key : K} {value : V} {entry : K × V}

/-- Membership in a map is membership in its entries. -/
theorem mem_iff : entry ∈ map ↔ entry ∈ map.entries := Iff.rfl

/-- The empty map has no entry. -/
@[simp]
theorem notMem_empty : entry ∉ (empty : SortedMap K V) := List.not_mem_nil

/-- Every key stands once. -/
theorem keys_nodup (map : SortedMap K V) : (map.entries.map Prod.fst).Nodup := by
  rw [List.nodup_iff_pairwise_ne, List.pairwise_map]
  exact map.sorted.imp fun hless => ne_of_lt hless

/-- Entries with one key are one entry. -/
theorem eq_of_key_eq {other : K × V} (h : entry ∈ map) (hother : other ∈ map)
    (hkey : entry.1 = other.1) : entry = other :=
  List.inj_on_of_nodup_map map.keys_nodup h hother hkey

/-- A key has one value. -/
theorem value_unique {other : V} (h : (key, value) ∈ map) (hother : (key, other) ∈ map) :
    value = other :=
  congrArg Prod.snd (eq_of_key_eq h hother rfl)

/-- Looking a key up finds its entry. -/
theorem find?_eq_some : map.find? key = some value ↔ (key, value) ∈ map := by
  unfold find?
  constructor
  · intro h
    obtain ⟨found, hfound, hvalue⟩ := Option.map_eq_some_iff.mp h
    have hkey : found.1 = key := by simpa using List.find?_some hfound
    have hmem : found ∈ map.entries := List.mem_of_find?_eq_some hfound
    rwa [← hkey, ← hvalue]
  · intro h
    cases hfound : map.entries.find? fun other => other.1 = key with
    | none =>
      have hnone := List.find?_eq_none.mp hfound (key, value) h
      exact absurd (decide_eq_true rfl) hnone
    | some found =>
      have hkey : found.1 = key := by simpa using List.find?_some hfound
      have hmem : found ∈ map := List.mem_of_find?_eq_some hfound
      have hsame : found = (key, value) := eq_of_key_eq hmem h hkey
      rw [hsame]
      rfl

/-- A key is not found when it has no entry. -/
theorem find?_eq_none : map.find? key = none ↔ ∀ value, (key, value) ∉ map := by
  rw [Option.eq_none_iff_forall_ne_some]
  exact forall_congr' fun value => not_congr find?_eq_some

/-- Setting a key replaces its entry and keeps the others. -/
theorem mem_insert : entry ∈ map.insert key value ↔
    entry = (key, value) ∨ (entry.1 ≠ key ∧ entry ∈ map) :=
  mem_insertEntry map.sorted

/-- Removing a key keeps the other entries. -/
theorem mem_erase : entry ∈ map.erase key ↔ entry.1 ≠ key ∧ entry ∈ map := by
  unfold erase
  rw [mem_iff, mem_iff, List.mem_filter, decide_eq_true_eq]
  exact and_comm

/-- The first entry has the smallest key. -/
theorem first?_eq_some (h : map.first? = some entry) : entry ∈ map ∧ ∀ other ∈ map, entry.1 ≤ other.1 := by
  obtain ⟨rest, hentries⟩ := List.head?_eq_some_iff.mp h
  have hsorted := map.sorted
  rw [hentries] at hsorted
  have hmem : ∀ other, other ∈ map ↔ other ∈ entry :: rest := by
    intro other
    rw [mem_iff, hentries]
  refine ⟨(hmem entry).mpr List.mem_cons_self, ?_⟩
  intro other hother
  rcases List.mem_cons.mp ((hmem other).mp hother) with rfl | hin
  · exact le_refl _
  · exact le_of_lt ((List.pairwise_cons.mp hsorted).1 other hin)

/-- Without a first entry there is none. -/
theorem first?_eq_none (h : map.first? = none) (entry : K × V) : entry ∉ map := by
  rw [mem_iff, List.head?_eq_none_iff.mp h]
  exact List.not_mem_nil

/-- The last of sorted entries has the largest key. -/
theorem le_getLast? {entries : List (K × V)} {last : K × V}
    (hsorted : entries.Pairwise fun first second => first.1 < second.1)
    (h : entries.getLast? = some last) : last ∈ entries ∧ ∀ other ∈ entries, other.1 ≤ last.1 := by
  obtain ⟨front, rfl⟩ := List.getLast?_eq_some_iff.mp h
  refine ⟨List.mem_append_right _ List.mem_cons_self, ?_⟩
  intro other hother
  rcases List.mem_append.mp hother with hin | hlast
  · exact le_of_lt ((List.pairwise_append.mp hsorted).2.2 other hin last List.mem_cons_self)
  · rw [List.mem_singleton.mp hlast]

/-- The last entry has the largest key. -/
theorem last?_eq_some (h : map.last? = some entry) : entry ∈ map ∧ ∀ other ∈ map, other.1 ≤ entry.1 :=
  le_getLast? map.sorted h

/-- Without a last entry there is none. -/
theorem last?_eq_none (h : map.last? = none) (entry : K × V) : entry ∉ map := by
  rw [mem_iff, List.getLast?_eq_none_iff.mp h]
  exact List.not_mem_nil

/-- The entry up to a key is the largest of those not beyond it. -/
theorem floor?_eq_some (h : map.floor? key = some entry) :
    entry ∈ map ∧ entry.1 ≤ key ∧ ∀ other ∈ map, other.1 ≤ key → other.1 ≤ entry.1 := by
  obtain ⟨hmem, hlargest⟩ := le_getLast? (map.sorted.filter _) h
  obtain ⟨hin, hle⟩ := List.mem_filter.mp hmem
  refine ⟨hin, by simpa using hle, ?_⟩
  intro other hother hbelow
  exact hlargest other (List.mem_filter.mpr ⟨hother, by simpa using hbelow⟩)

/-- Without an entry up to a key all are beyond it. -/
theorem floor?_eq_none (h : map.floor? key = none) (entry : K × V) (hentry : entry ∈ map) :
    key < entry.1 := by
  by_contra hle
  have hnil := List.getLast?_eq_none_iff.mp h
  have hin : entry ∈ map.entries.filter fun other => other.1 ≤ key :=
    List.mem_filter.mpr ⟨hentry, decide_eq_true (not_lt.mp hle)⟩
  rw [hnil] at hin
  exact List.not_mem_nil hin

/-- A key beyond all others goes to the end. -/
theorem entries_insert_last (h : ∀ other ∈ map, other.1 < key) :
    (map.insert key value).entries = map.entries ++ [(key, value)] := by
  have hgeneral : ∀ entries : List (K × V), (∀ other ∈ entries, other.1 < key) →
      insertEntry key value entries = entries ++ [(key, value)] := by
    intro entries hentries
    induction entries with
    | nil => rfl
    | cons head rest ih =>
      have hhead : head.1 < key := hentries head List.mem_cons_self
      rw [insertEntry, if_neg (not_lt.mpr (le_of_lt hhead)), if_neg (ne_of_gt hhead), List.cons_append,
        ih fun other hin => hentries other (List.mem_cons_of_mem _ hin)]
  exact hgeneral map.entries h

/-- Removing a key takes its entry out. -/
theorem perm_erase (h : (key, value) ∈ map) :
    map.entries.Perm ((key, value) :: (map.erase key).entries) := by
  classical
  have hnodup : map.entries.Nodup := map.keys_nodup.of_map _
  have herase : (map.erase key).entries = map.entries.erase (key, value) := by
    rw [hnodup.erase_eq_filter]
    unfold erase
    refine List.filter_congr fun other hother => ?_
    have hiff : other.1 ≠ key ↔ other ≠ (key, value) :=
      not_congr ⟨fun hkey => eq_of_key_eq hother h hkey, fun heq => congrArg Prod.fst heq⟩
    rw [Bool.eq_iff_iff, decide_eq_true_eq, bne_iff_ne]
    exact hiff
  rw [herase]
  exact List.perm_cons_erase h

/-- Removing a key leaves one entry less. -/
theorem size_erase (h : (key, value) ∈ map) : (map.erase key).size + 1 = map.size :=
  (perm_erase h).length_eq.symm

end SortedMap

end Coatheal.Library
