import Coatheal.Library.Dictionary
import Coatheal.Library.PyText
import Coatheal.Wiring.Layout

/-!
# Heaters and the terminals they warm

`resolve` of `associate_heaters.py`. Of the measured heaters those are associated
with a terminal that warmed one terminal clearly, share it with no other heater
and are not far slower than the rest. For each of the others there is a reason.
-/

namespace Coatheal.Wiring

open Library Library.Text

/-- How a heater's measurement ended. -/
inductive Verdict where
  | paired
  | noResponse
  | ambiguous
  | notDriven
deriving DecidableEq

/-- The measurement of a heater. A paired heater has warmed a terminal. -/
structure HeaterResult where
  heater : ℕ
  line : ℤ
  verdict : Verdict
  channel : Option ℤ
  riseC : ℚ
  runnerUp : Option (ℤ × ℚ)
  seconds : ℚ
  paired_channel : verdict = .paired → channel.isSome = true

/-- A number with a fixed number of decimals, and with a plus sign if asked for. -/
def fixedText (plus : Bool) (decimals : ℕ) (x : ℚ) : List Char :=
  let scaled := (roundHalfEven (|x| * 10 ^ decimals)).toNat
  (if x < 0 then ['-'] else if plus then ['+'] else []) ++
    if decimals = 0 then showNat scaled
    else showNat (scaled / 10 ^ decimals) ++ '.' :: PyText.padded decimals (scaled % 10 ^ decimals)

/-- The terminal of a result as text. -/
def terminalText (channel : Option ℤ) : List Char :=
  "ch".toList ++ match channel with
    | some channel => showInt channel
    | none => "None".toList

/-- Why a heater that is not paired is left out. -/
def verdictProblem (r : HeaterResult) : Option (List Char) :=
  match r.verdict with
  | .paired => none
  | .noResponse => some ("no terminal warmed in ".toList ++ fixedText false 0 r.seconds ++
      " s. The heater is not on BCM ".toList ++ showInt r.line ++
      ", not connected, or its specimen's PT100 is not on the card".toList)
  | .ambiguous =>
    let other := match r.runnerUp with
      | some (channel, rise) => "ch".toList ++ showInt channel ++ ' ' :: fixedText true 1 rise ++ " C".toList
      | none => "another terminal".toList
    some (terminalText r.channel ++ ' ' :: fixedText true 1 r.riseC ++ " C and ".toList ++ other ++
      " warmed together. A heater touching two specimens, or a PT100 off its specimen (the neighbours then lead)".toList)
  | .notDriven => some ("the onboard accepted HEATER_TEST but applied duty 0 ".toList ++
      "(heater energy budget latch? its feedback PT100 invalid?)".toList)

/-- The problems by heater. -/
abbrev Problems := Dictionary ℕ (List Char)

/-- The first loop of `resolve`. -/
def noteVerdict (problems : Problems) (r : HeaterResult) : Problems :=
  match verdictProblem r with
  | some problem => problems.set r.heater problem
  | none => problems

/-- `heaters_by_channel`. -/
def heatersByChannel (paired : List HeaterResult) : Dictionary (Option ℤ) (List ℕ) :=
  paired.foldl (fun dict r => dict.set r.channel ((dict.get? r.channel).getD [] ++ [r.heater])) []

/-- The loop of `resolve` over the terminals that were warmed: no two heaters may share one. -/
def noteShared (problems : Problems) (warmed : Option ℤ × List ℕ) : Problems :=
  if 1 < warmed.2.length then
    let names := " and ".toList.intercalate (warmed.2.map fun heater => 'H' :: showNat heater)
    warmed.2.foldl (fun problems heater => problems.set heater
      (names ++ " both warmed ".toList ++ terminalText warmed.1 ++ ": two heater outputs on one specimen".toList)) problems
  else problems

/-- `statistics.median`. -/
def median (values : List ℚ) : ℚ :=
  let sorted := values.mergeSort (· ≤ ·)
  if values.length % 2 = 1 then sorted.getD (values.length / 2) 0
  else (sorted.getD (values.length / 2 - 1) 0 + sorted.getD (values.length / 2) 0) / 2

/-- The last loop of `resolve`: a heater far slower than the rest is not trusted. -/
def noteSlow (typical : ℚ) (problems : Problems) (r : HeaterResult) : Problems :=
  if ¬ problems.has r.heater ∧ max (3 * typical) (typical + 10) < r.seconds then
    problems.set r.heater ("took ".toList ++ fixedText false 0 r.seconds ++ " s to warm ".toList ++
      terminalText r.channel ++ ", the others ".toList ++ fixedText false 0 typical ++
      " s. A PT100 off its own specimen reads the neighbouring specimen's heat like this".toList)
  else problems

/-- The paired ones among some results. -/
def pairedOf (results : List HeaterResult) : List HeaterResult := results.filter fun r => r.verdict = .paired

/-- The problems of some results. -/
def problemsOf (results : List HeaterResult) : Problems :=
  let paired := pairedOf results
  let problems := (heatersByChannel paired).foldl noteShared (results.foldl noteVerdict [])
  let times := (paired.filter fun r => !problems.has r.heater).map HeaterResult.seconds
  if 3 ≤ times.length then paired.foldl (noteSlow (median times)) problems else problems

/-- `resolve`: the terminal of each associated heater, and why the others are left out. -/
def resolve (results : List HeaterResult) : Dictionary ℕ (Option ℤ) × Problems :=
  let problems := problemsOf results
  (((pairedOf results).filter fun r => !problems.has r.heater).foldl (fun dict r => dict.set r.heater r.channel) [],
    problems)

/-- A loop whose steps keep a key keeps it. -/
theorem mem_keys_foldl {ι : Type} {step : Problems → ι → Problems} {key : ℕ}
    (hstep : ∀ problems item, key ∈ problems.keys → key ∈ (step problems item).keys) (items : List ι)
    {problems : Problems} (h : key ∈ problems.keys) : key ∈ (items.foldl step problems).keys := by
  induction items generalizing problems with
  | nil => exact h
  | cons item items ih => exact ih (hstep problems item h)

/-- A loop enters the key of an item if its step does and every step keeps it. -/
theorem mem_keys_foldl_of_mem {ι : Type} {step : Problems → ι → Problems} {key : ℕ} {items : List ι} {item : ι}
    (hstep : ∀ problems item, key ∈ problems.keys → key ∈ (step problems item).keys) (hitem : item ∈ items)
    (henters : ∀ problems, key ∈ (step problems item).keys) (problems : Problems) :
    key ∈ (items.foldl step problems).keys := by
  obtain ⟨front, back, rfl⟩ := List.append_of_mem hitem
  rw [List.foldl_append, List.foldl_cons]
  exact mem_keys_foldl hstep back (henters _)

/-- A set key is there, and the others stay. -/
theorem mem_keys_set {problems : Problems} {key heater : ℕ} {problem : List Char} :
    key ∈ (problems.set heater problem).keys ↔ key ∈ problems.keys ∨ key = heater := by
  rw [Dictionary.keys_set]
  split
  case isTrue hin => exact ⟨Or.inl, fun hcases => hcases.elim id fun hsame => hsame ▸ hin⟩
  case isFalse => rw [List.mem_append, List.mem_singleton]

/-- The first loop keeps the problems. -/
theorem noteVerdict_keeps {key : ℕ} (problems : Problems) (r : HeaterResult) (h : key ∈ problems.keys) :
    key ∈ (noteVerdict problems r).keys := by
  rw [noteVerdict]
  split
  · exact mem_keys_set.mpr (Or.inl h)
  · exact h

/-- The second loop keeps the problems. -/
theorem noteShared_keeps {key : ℕ} (problems : Problems) (warmed : Option ℤ × List ℕ) (h : key ∈ problems.keys) :
    key ∈ (noteShared problems warmed).keys := by
  rw [noteShared]
  split
  · exact Dictionary.mem_keys_foldl_set.mpr (Or.inl h)
  · exact h

/-- The last loop keeps the problems. -/
theorem noteSlow_keeps {key : ℕ} (typical : ℚ) (problems : Problems) (r : HeaterResult) (h : key ∈ problems.keys) :
    key ∈ (noteSlow typical problems r).keys := by
  rw [noteSlow]
  split
  · exact mem_keys_set.mpr (Or.inl h)
  · exact h

/-- What the first two loops find stays a problem. -/
theorem problemsOf_keeps {results : List HeaterResult} {key : ℕ}
    (h : key ∈ ((heatersByChannel (pairedOf results)).foldl noteShared (results.foldl noteVerdict [])).keys) :
    key ∈ (problemsOf results).keys := by
  rw [problemsOf]
  split
  · exact mem_keys_foldl (noteSlow_keeps _) _ h
  · exact h

/-- A heater that is not paired is a problem. -/
theorem mem_problemsOf_of_not_paired {results : List HeaterResult} {r : HeaterResult} (hr : r ∈ results)
    (h : r.verdict ≠ .paired) : r.heater ∈ (problemsOf results).keys := by
  refine problemsOf_keeps (mem_keys_foldl noteShared_keeps _ ?_)
  refine mem_keys_foldl_of_mem noteVerdict_keeps hr (fun problems => ?_) []
  obtain ⟨problem, hproblem⟩ : ∃ problem, verdictProblem r = some problem := by
    rw [verdictProblem]
    cases hverdict : r.verdict with
    | paired => exact absurd hverdict h
    | noResponse => exact ⟨_, rfl⟩
    | ambiguous => exact ⟨_, rfl⟩
    | notDriven => exact ⟨_, rfl⟩
  rw [noteVerdict, hproblem]
  exact mem_keys_set.mpr (Or.inr rfl)

/-- The heaters of a terminal are those that warmed it. -/
theorem getD_heatersByChannel (paired : List HeaterResult) (channel : Option ℤ) :
    ((heatersByChannel paired).get? channel).getD [] =
      (paired.filter fun r => r.channel = channel).map HeaterResult.heater := by
  have hfold : ∀ dict : Dictionary (Option ℤ) (List ℕ),
      ((paired.foldl (fun dict r => dict.set r.channel ((dict.get? r.channel).getD [] ++ [r.heater])) dict).get?
        channel).getD [] =
      (dict.get? channel).getD [] ++ (paired.filter fun r => r.channel = channel).map HeaterResult.heater := by
    induction paired with
    | nil => exact fun dict => (List.append_nil _).symm
    | cons r paired ih =>
      intro dict
      rw [List.foldl_cons, ih, Dictionary.get?_set]
      by_cases hchannel : r.channel = channel
      · rw [if_pos hchannel, List.filter_cons_of_pos (by simpa using hchannel), hchannel, List.map_cons]
        exact List.append_assoc _ _ _
      · rw [if_neg hchannel, List.filter_cons_of_neg (by simpa using hchannel)]
  exact hfold []

/-- Two paired heaters that warmed the same terminal are problems. -/
theorem mem_problemsOf_of_shared {results : List HeaterResult} {r other : HeaterResult} (hr : r ∈ pairedOf results)
    (hother : other ∈ pairedOf results) (hchannel : r.channel = other.channel) (hne : r.heater ≠ other.heater) :
    r.heater ∈ (problemsOf results).keys := by
  have hheaters := getD_heatersByChannel (pairedOf results) r.channel
  have hin : r.heater ∈ ((pairedOf results).filter fun s => s.channel = r.channel).map HeaterResult.heater :=
    List.mem_map_of_mem (List.mem_filter.mpr ⟨hr, decide_eq_true rfl⟩)
  have hin' : other.heater ∈ ((pairedOf results).filter fun s => s.channel = r.channel).map HeaterResult.heater :=
    List.mem_map_of_mem (List.mem_filter.mpr ⟨hother, decide_eq_true hchannel.symm⟩)
  rw [← hheaters] at hin hin'
  cases hfound : (heatersByChannel (pairedOf results)).get? r.channel with
  | none =>
    rw [hfound] at hin
    cases hin
  | some heaters =>
    rw [hfound, Option.getD_some] at hin hin'
    have hshared : 1 < heaters.length := by
      match heaters, hin, hin' with
      | [heater], hin, hin' =>
        exact absurd ((List.mem_singleton.mp hin).trans (List.mem_singleton.mp hin').symm) hne
      | _ :: _ :: _, _, _ => simp
    refine problemsOf_keeps (mem_keys_foldl_of_mem noteShared_keeps (Dictionary.mem_of_get?_eq_some hfound)
      (fun problems => ?_) _)
    rw [noteShared, if_pos hshared]
    exact Dictionary.mem_keys_foldl_set.mpr (Or.inr ⟨r.heater, hin, rfl⟩)

/-- What `resolve` returns: an injective association of paired heaters with the terminals they warmed; every other
heater is a problem. -/
structure Resolved (results : List HeaterResult) (association : Dictionary ℕ (Option ℤ)) (problems : Problems) :
    Prop where
  heaters : association.keys.Nodup
  injective : (association.map Prod.snd).Nodup
  paired : ∀ entry ∈ association, (∀ r ∈ results, r.heater = entry.1 → r.verdict = .paired) ∧
    ∃ r ∈ results, r.heater = entry.1 ∧ r.channel = entry.2 ∧ r.channel.isSome
  covered : ∀ r ∈ results, r.heater ∈ association.keys ∨ r.heater ∈ problems.keys

/-- The association is injective, has paired heaters only and leaves no heater without a reason out. -/
theorem resolved_resolve (results : List HeaterResult) : Resolved results (resolve results).1 (resolve results).2 := by
  have hentry {entry : ℕ × Option ℤ} (h : entry ∈ (resolve results).1) : ∃ r ∈ pairedOf results,
      r.heater ∉ (problemsOf results).keys ∧ r.heater = entry.1 ∧ r.channel = entry.2 := by
    rcases Dictionary.mem_foldl_set h with hold | ⟨r, hr, hheater, hchannel⟩
    · cases hold
    · obtain ⟨hpaired, hclear⟩ := List.mem_filter.mp hr
      refine ⟨r, hpaired, fun hin => ?_, hheater, hchannel⟩
      rw [Dictionary.has_eq_true_iff_mem.mpr hin] at hclear
      cases hclear
  have hkeys : (resolve results).1.keys.Nodup := Dictionary.nodup_keys_foldl_set List.nodup_nil
  refine ⟨hkeys, ?_, fun entry h => ?_, fun r hr => ?_⟩
  · refine List.Nodup.map_on (fun entry h other h' hsame => ?_) (List.Nodup.of_map Prod.fst hkeys)
    obtain ⟨r, hr, hclear, hheater, hchannel⟩ := hentry h
    obtain ⟨r', hr', _, hheater', hchannel'⟩ := hentry h'
    have hsameHeater : r.heater = r'.heater := by
      by_contra hne
      exact hclear (mem_problemsOf_of_shared hr hr' (by rw [hchannel, hchannel', hsame]) hne)
    exact Prod.ext (by rw [← hheater, ← hheater', hsameHeater]) hsame
  · obtain ⟨r, hr, hclear, hheater, hchannel⟩ := hentry h
    obtain ⟨hin, hpaired⟩ := List.mem_filter.mp hr
    refine ⟨fun other hother hsame => ?_, r, hin, hheater, hchannel, r.paired_channel (of_decide_eq_true hpaired)⟩
    by_contra hnot
    exact hclear (hheater.trans hsame.symm ▸ mem_problemsOf_of_not_paired hother hnot)
  · by_cases hpaired : r.verdict = .paired
    · by_cases hproblem : r.heater ∈ (problemsOf results).keys
      · exact Or.inr hproblem
      · refine Or.inl (Dictionary.mem_keys_foldl_set.mpr (Or.inr ⟨r, List.mem_filter.mpr ⟨?_, ?_⟩, rfl⟩))
        · exact List.mem_filter.mpr ⟨hr, decide_eq_true hpaired⟩
        · rw [Bool.eq_false_iff.mpr (mt Dictionary.has_eq_true_iff_mem.mp hproblem)]
          rfl
    · exact Or.inr (mem_problemsOf_of_not_paired hr hpaired)

end Coatheal.Wiring
