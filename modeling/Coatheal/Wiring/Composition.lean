import Coatheal.Wiring.Association
import Coatheal.Wiring.Placement
import Mathlib.Data.List.ReduceOption

/-!
# The layout of measured heaters

`compose_layout` of `associate_heaters.py`: an associated heater's specimen is on
the terminal that it warmed, every other one keeps its terminal unless that was
taken, and the terminals left over are given out in the order of the layout. There
are always enough of them, and no two specimens are on one terminal.
-/

namespace Coatheal.Wiring

open Library

/-- `CARD_TERMINALS`. -/
def cardTerminals : List ℤ := (List.range 8).map fun n => (n : ℤ) + 1

/-- The first loop of `compose_layout`: the terminal of each associated heater's sample. A heater that the layout does
not have is an `IndexError`. -/
def assignWarmed (layout : Layout) (channels : List (Option ℤ)) (entry : ℕ × Option ℤ) : Option (List (Option ℤ)) :=
  (layout.heaterSamples[entry.1]?).map fun sample => channels.set sample entry.2

/-- The second loop: a specimen keeps its terminal if that is not taken. -/
def keepTerminals : List (Option ℤ) → List Specimen → List (Option ℤ) → List (Option ℤ) × List (Option ℤ)
  | taken, specimen :: specimens, channel :: channels =>
    if channel = none ∧ some specimen.channel ∉ taken then
      let rest := keepTerminals (some specimen.channel :: taken) specimens channels
      (some specimen.channel :: rest.1, rest.2)
    else
      let rest := keepTerminals taken specimens channels
      (channel :: rest.1, rest.2)
  | taken, _, _ => ([], taken)

/-- The spare terminals go to the specimens without one. None left is an `IndexError`. -/
def fillSpare : List (Option ℤ) → List ℤ → Option (List ℤ)
  | [], _ => some []
  | some channel :: channels, spare => (fillSpare channels spare).map (channel :: ·)
  | none :: _, [] => none
  | none :: channels, terminal :: spare => (fillSpare channels spare).map (terminal :: ·)

/-- The specimens of the groups with other terminals. -/
def regroup : List (List Specimen) → List ℤ → List (List Specimen)
  | [], _ => []
  | group :: groups, channels =>
    (group.zip (channels.take group.length)).map (fun placed => { placed.1 with channel := placed.2 }) ::
      regroup groups (channels.drop group.length)

/-- `compose_layout`. -/
def composeLayout (association : Dictionary ℕ (Option ℤ)) (layout : Layout) : Option Layout := do
  let warmed ← association.foldlM (assignWarmed layout) (List.replicate layout.specimens.length none)
  let (channels, taken) := keepTerminals (association.map Prod.snd) layout.specimens warmed
  let spare := (layout.channels ++ cardTerminals).eraseDups.filter fun terminal => some terminal ∉ taken
  let placed ← fillSpare channels spare
  return ⟨regroup layout.motors placed⟩

section Slots

variable {channels : List (Option ℤ)} {specimens : List Specimen} {taken : List (Option ℤ)}

/-- A specimen without a terminal keeps its own, which is not taken. -/
def keeps (taken : List (Option ℤ)) (slot : Specimen × Option ℤ) : Bool :=
  decide (slot.2 = none ∧ some slot.1.channel ∉ taken)

/-- What the second loop leaves for a specimen. -/
def keepTerminal (taken : List (Option ℤ)) (specimen : Specimen) (channel : Option ℤ) : Option ℤ :=
  if keeps taken (specimen, channel) then some specimen.channel else channel

/-- The second loop, with specimens on different terminals: each keeps its own unless that was taken before, and no
other terminals are taken. -/
theorem keepTerminals_eq {before : List (Option ℤ)} (hlength : channels.length = specimens.length)
    (hnodup : (specimens.map Specimen.channel).Nodup)
    (hbefore : ∀ specimen ∈ specimens, some specimen.channel ∈ taken ↔ some specimen.channel ∈ before) :
    (keepTerminals taken specimens channels).1 = List.zipWith (keepTerminal before) specimens channels ∧
      ∀ terminal, terminal ∈ (keepTerminals taken specimens channels).2 ↔ terminal ∈ taken ∨
        ∃ slot ∈ specimens.zip channels, keeps before slot = true ∧ terminal = some slot.1.channel := by
  induction specimens generalizing channels taken with
  | nil => exact ⟨by simp [keepTerminals], fun terminal => by simp [keepTerminals]⟩
  | cons specimen specimens ih =>
    cases channels with
    | nil => cases hlength
    | cons channel channels =>
      rw [List.map_cons, List.nodup_cons] at hnodup
      have hfirst := hbefore specimen List.mem_cons_self
      have hlengths : channels.length = specimens.length := Nat.succ.inj hlength
      have hsame : keeps before (specimen, channel) = true ↔ channel = none ∧ some specimen.channel ∉ taken := by
        rw [keeps, decide_eq_true_iff, hfirst]
      rw [keepTerminals, List.zipWith_cons_cons, List.zip_cons_cons, keepTerminal]
      by_cases hkept : keeps before (specimen, channel) = true
      · have hlater : ∀ other ∈ specimens, some other.channel ∈ some specimen.channel :: taken ↔
            some other.channel ∈ before := by
          intro other hother
          have hne : other.channel ≠ specimen.channel := fun hsame =>
            hnodup.1 (hsame ▸ List.mem_map_of_mem hother)
          rw [List.mem_cons, ← hbefore other (List.mem_cons_of_mem _ hother)]
          exact or_iff_right fun hsame => hne (Option.some.inj hsame)
        obtain ⟨hkeep, htaken⟩ := ih hlengths hnodup.2 hlater
        rw [if_pos (hsame.mp hkept), if_pos hkept]
        refine ⟨congrArg (some specimen.channel :: ·) hkeep, fun terminal => ?_⟩
        rw [htaken, List.mem_cons, List.exists_mem_cons_iff, or_assoc]
        constructor
        · rintro (hown | hin | hothers)
          · exact Or.inr (Or.inl ⟨hkept, hown⟩)
          · exact Or.inl hin
          · exact Or.inr (Or.inr hothers)
        · rintro (hin | ⟨_, hown⟩ | hothers)
          · exact Or.inr (Or.inl hin)
          · exact Or.inl hown
          · exact Or.inr (Or.inr hothers)
      · obtain ⟨hkeep, htaken⟩ := ih hlengths hnodup.2 fun other hother =>
          hbefore other (List.mem_cons_of_mem _ hother)
        rw [if_neg (mt hsame.mpr hkept), if_neg hkept]
        refine ⟨congrArg (channel :: ·) hkeep, fun terminal => ?_⟩
        rw [htaken, List.exists_mem_cons_iff]
        exact or_congr_right (or_iff_right fun hfound => hkept hfound.1).symm

/-- The terminals after the second loop are those of before and those that were kept. -/
theorem reduceOption_keep (hlength : channels.length = specimens.length) :
    (List.zipWith (keepTerminal taken) specimens channels).reduceOption.Perm (channels.reduceOption ++
      ((specimens.zip channels).filter (keeps taken)).map fun slot => slot.1.channel) := by
  induction specimens generalizing channels with
  | nil =>
    rw [List.length_eq_zero_iff.mp hlength]
    exact List.Perm.refl _
  | cons specimen specimens ih =>
    cases channels with
    | nil => cases hlength
    | cons channel channels =>
      have hrest := @ih channels (Nat.succ.inj hlength)
      rw [List.zipWith_cons_cons, List.zip_cons_cons, keepTerminal]
      by_cases hkept : keeps taken (specimen, channel) = true
      · obtain rfl : channel = none := (of_decide_eq_true hkept).1
        rw [if_pos hkept, List.filter_cons_of_pos hkept, List.reduceOption_cons_of_some, List.reduceOption_cons_of_none,
          List.map_cons]
        exact (hrest.cons _).trans List.perm_middle.symm
      · rw [if_neg hkept, List.filter_cons_of_neg hkept]
        cases channel with
        | none => exact hrest
        | some channel => exact hrest.cons _

/-- With enough spare terminals every specimen gets one: those that have one keep it, and the first spare ones are
given out. -/
theorem fillSpare_eq {spare : List ℤ} (h : channels.countP Option.isNone ≤ spare.length) :
    ∃ placed, fillSpare channels spare = some placed ∧ placed.length = channels.length ∧
      placed.Perm (channels.reduceOption ++ spare.take (channels.countP Option.isNone)) ∧
      ∀ (place : ℕ) (channel : ℤ), channels[place]? = some (some channel) → placed[place]? = some channel := by
  induction channels generalizing spare with
  | nil => exact ⟨[], rfl, rfl, by simp, fun place channel hplace => by cases hplace⟩
  | cons first channels ih =>
    cases first with
    | some terminal =>
      obtain ⟨placed, hfill, hlength, hperm, hkept⟩ := ih h
      refine ⟨terminal :: placed, by rw [fillSpare, hfill]; rfl, congrArg (· + 1) hlength, hperm.cons terminal, ?_⟩
      intro place channel hplace
      cases place with
      | zero => exact Option.some.inj hplace
      | succ place => exact hkept place channel hplace
    | none =>
      have hcount : (none :: channels).countP Option.isNone = channels.countP Option.isNone + 1 :=
        List.countP_cons_of_pos rfl
      rw [hcount] at h ⊢
      cases spare with
      | nil => cases h
      | cons terminal spare =>
        obtain ⟨placed, hfill, hlength, hperm, hkept⟩ := ih (Nat.le_of_succ_le_succ h)
        refine ⟨terminal :: placed, by rw [fillSpare, hfill]; rfl, congrArg (· + 1) hlength, ?_, ?_⟩
        · rw [List.reduceOption_cons_of_none, List.take_succ_cons]
          exact (hperm.cons terminal).trans List.perm_middle.symm
        · intro place channel hplace
          cases place with
          | zero => cases hplace
          | succ place => exact hkept place channel hplace

/-- A slot that is filled adds its terminal. -/
theorem reduceOption_set {place : ℕ} {terminal : ℤ} (h : channels[place]? = some none) :
    (channels.set place (some terminal)).reduceOption.Perm (terminal :: channels.reduceOption) := by
  induction channels generalizing place with
  | nil => cases h
  | cons channel channels ih =>
    cases place with
    | zero =>
      obtain rfl : channel = none := Option.some.inj h
      exact List.Perm.refl _
    | succ place =>
      rw [List.set_cons_succ]
      cases channel with
      | none => exact ih h
      | some other => exact ((ih h).cons other).trans (List.Perm.swap terminal other _)

/-- The first loop, for different heaters of the layout: the samples of the heaters get their terminals, and the others
stay. -/
theorem assignWarmed_eq {layout : Layout} {association : Dictionary ℕ (Option ℤ)} (hkeys : association.keys.Nodup)
    (hsome : ∀ entry ∈ association, entry.2.isSome = true) (hsamples : layout.heaterSamples.Nodup)
    (hfree : ∀ entry ∈ association, ∃ sample, layout.heaterSamples[entry.1]? = some sample ∧
      channels[sample]? = some none) :
    ∃ warmed, association.foldlM (assignWarmed layout) channels = some warmed ∧ warmed.length = channels.length ∧
      warmed.reduceOption.Perm (channels.reduceOption ++ (association.map Prod.snd).reduceOption) ∧
      (∀ entry ∈ association, ∀ sample, layout.heaterSamples[entry.1]? = some sample → warmed[sample]? = some entry.2) ∧
      ∀ sample, (∀ entry ∈ association, layout.heaterSamples[entry.1]? ≠ some sample) →
        warmed[sample]? = channels[sample]? := by
  induction association generalizing channels with
  | nil => exact ⟨channels, rfl, rfl, by simp, by simp, fun sample _ => rfl⟩
  | cons entry association ih =>
    rw [Dictionary.keys, List.map_cons, List.nodup_cons] at hkeys
    obtain ⟨sample, hsample, hslot⟩ := hfree entry List.mem_cons_self
    obtain ⟨terminal, hterminal⟩ := Option.isSome_iff_exists.mp (hsome entry List.mem_cons_self)
    have hlt : sample < channels.length := by
      by_contra hge
      rw [List.getElem?_eq_none (not_lt.mp hge)] at hslot
      cases hslot
    have hother {other : ℕ × Option ℤ} (hin : other ∈ association) : layout.heaterSamples[other.1]? ≠ some sample := by
      intro hsame
      refine hkeys.1 (?_ : entry.1 ∈ _)
      have hheater : other.1 = entry.1 := (List.getElem?_inj (List.getElem?_eq_some_iff.mp hsame).1 hsamples).mp
        (hsame.trans hsample.symm)
      exact hheater ▸ List.mem_map_of_mem hin
    obtain ⟨warmed, hfold, hlength, hperm, hset, hstay⟩ := @ih (channels.set sample entry.2) hkeys.2
      (fun other hin => hsome other (List.mem_cons_of_mem _ hin)) fun other hin => by
        obtain ⟨place, hplace, hfree'⟩ := hfree other (List.mem_cons_of_mem _ hin)
        have hne : sample ≠ place := fun hsame => hother hin (hsame ▸ hplace)
        exact ⟨place, hplace, by rw [List.getElem?_set_ne hne, hfree']⟩
    have hstep : assignWarmed layout channels entry = some (channels.set sample entry.2) := by
      rw [assignWarmed, hsample]
      rfl
    refine ⟨warmed, ?_, ?_, ?_, fun other hin place hplace => ?_, fun place hplace => ?_⟩
    · rw [List.foldlM_cons, hstep]
      exact hfold
    · rw [hlength, List.length_set]
    · refine hperm.trans ?_
      rw [hterminal, List.map_cons, hterminal, List.reduceOption_cons_of_some]
      exact ((reduceOption_set hslot).append_right _).trans List.perm_middle.symm
    · rcases List.mem_cons.mp hin with rfl | hin
      · obtain rfl : sample = place := Option.some.inj (hsample.symm.trans hplace)
        rw [hstay sample fun other hin => hother hin, List.getElem?_set_self hlt]
      · exact hset other hin place hplace
    · have hne : sample ≠ place := fun hsame => hplace entry List.mem_cons_self (hsame ▸ hsample)
      rw [hstay place fun other hin => hplace other (List.mem_cons_of_mem _ hin), List.getElem?_set_ne hne]

end Slots

/-- Given-out terminals are those of the new layout, whose groups have the lengths and lines of before. -/
theorem regroup_eq {motors : List (List Specimen)} {placed : List ℤ} (h : placed.length = motors.flatten.length) :
    (regroup motors placed).flatten.map Specimen.channel = placed ∧
      (regroup motors placed).map (List.map Specimen.line) = motors.map (List.map Specimen.line) := by
  induction motors generalizing placed with
  | nil =>
    rw [List.length_eq_zero_iff.mp h]
    exact ⟨rfl, rfl⟩
  | cons group motors ih =>
    rw [List.flatten_cons, List.length_append] at h
    obtain ⟨hchannels, hlines⟩ := @ih (placed.drop group.length) (by rw [List.length_drop]; omega)
    have htake : (placed.take group.length).length = group.length := by rw [List.length_take]; omega
    constructor
    · rw [regroup, List.flatten_cons, List.map_append, hchannels, List.map_map]
      conv_rhs => rw [← List.take_append_drop group.length placed]
      congr 1
      exact List.map_snd_zip htake.le
    · rw [regroup, List.map_cons, hlines, List.map_map, List.map_cons]
      congr 1
      have hfst : (group.zip (placed.take group.length)).map Prod.fst = group := List.map_fst_zip htake.ge
      conv_rhs => rw [← hfst, List.map_map]
      rfl

/-- A list without repetitions names nothing twice. -/
theorem nodup_eraseDups (values : List ℤ) : values.eraseDups.Nodup := by
  induction hlength : values.length using Nat.strong_induction_on generalizing values with
  | _ n ih =>
    cases values with
    | nil => exact List.nodup_nil
    | cons value values =>
      rw [List.eraseDups_cons, List.nodup_cons]
      refine ⟨fun hin => ?_, ih _ ?_ _ rfl⟩
      · have hkept := (List.mem_filter.mp (List.mem_eraseDups.mp hin)).2
        simp at hkept
      · rw [← hlength]
        exact Nat.lt_succ_of_le (List.length_filter_le _ _)

section Spare

variable {specimens : List Specimen} {warmed taken : List (Option ℤ)}

/-- A specimen is left without a terminal when its heater warmed none and its own was taken. -/
theorem countP_keep : (List.zipWith (keepTerminal taken) specimens warmed).countP Option.isNone =
    (specimens.zip warmed).countP fun slot => slot.2.isNone && decide (some slot.1.channel ∈ taken) := by
  rw [← List.map_uncurry_zip_eq_zipWith, List.countP_map]
  refine List.countP_congr fun slot _ => ?_
  rw [Function.comp_apply, Function.uncurry_apply_pair, keepTerminal, keeps]
  obtain ⟨specimen, channel⟩ := slot
  cases channel with
  | some channel => simp
  | none => by_cases hin : some specimen.channel ∈ taken <;> simp [hin]

/-- The slots have the specimens' own terminals. -/
theorem map_channel_zip (hlength : warmed.length = specimens.length) :
    (specimens.zip warmed).map (fun slot => slot.1.channel) = specimens.map Specimen.channel := by
  conv_rhs => rw [← List.map_fst_zip hlength.ge, List.map_map]
  rfl

/-- The specimens of taken terminals that warmed none are not more than those of free terminals that warmed one. -/
theorem countP_taken_le (hlength : warmed.length = specimens.length) (hnodup : (specimens.map Specimen.channel).Nodup)
    (htaken : ∀ terminal ∈ taken, terminal.isSome = true) (hwarmed : warmed.reduceOption.Perm taken.reduceOption) :
    ((specimens.zip warmed).countP fun slot => slot.2.isNone && decide (some slot.1.channel ∈ taken)) ≤
      (specimens.zip warmed).countP fun slot => !slot.2.isNone && !decide (some slot.1.channel ∈ taken) := by
  have hfst := map_channel_zip hlength
  have hown : ((specimens.zip warmed).countP fun slot => decide (some slot.1.channel ∈ taken)) ≤ taken.length := by
    rw [List.countP_eq_length_filter, ← List.length_map fun slot => some slot.1.channel]
    refine (List.Nodup.subperm ?_ fun terminal hin => ?_).length_le
    · have hall : ((specimens.zip warmed).map fun slot => some slot.1.channel).Nodup := by
        have hsome := hnodup.map (Option.some_injective ℤ)
        rwa [← hfst, List.map_map] at hsome
      exact (List.filter_sublist.map _).nodup hall
    · obtain ⟨slot, hslot, rfl⟩ := List.mem_map.mp hin
      exact of_decide_eq_true (List.mem_filter.mp hslot).2
  have hsome : ((specimens.zip warmed).countP fun slot => !slot.2.isNone) = taken.length := by
    have hcount : ((specimens.zip warmed).map Prod.snd).countP (fun channel => !channel.isNone) =
        taken.length := by
      rw [List.map_snd_zip hlength.le]
      have hreduced (channels : List (Option ℤ)) : channels.countP (fun channel => !channel.isNone) =
          channels.reduceOption.length := by
        induction channels with
        | nil => rfl
        | cons channel channels ih => cases channel with
          | none => simpa using ih
          | some channel => simpa using ih
      rw [hreduced, hwarmed.length_eq, ← hreduced, List.countP_eq_length]
      intro terminal hin
      rw [Option.not_isNone]
      exact htaken terminal hin
    rwa [List.countP_map] at hcount
  have hsplitOwn := List.countP_eq_countP_filter_add (specimens.zip warmed)
    (fun slot => decide (some slot.1.channel ∈ taken)) fun slot => slot.2.isNone
  have hsplitSome := List.countP_eq_countP_filter_add (specimens.zip warmed)
    (fun slot => !slot.2.isNone) fun slot => decide (some slot.1.channel ∈ taken)
  rw [List.countP_filter, List.countP_filter] at hsplitOwn hsplitSome
  have hcomm (p q : Specimen × Option ℤ → Bool) : ((specimens.zip warmed).countP fun slot => p slot && q slot) =
      (specimens.zip warmed).countP fun slot => q slot && p slot :=
    List.countP_congr fun slot _ => by rw [Bool.and_comm]
  rw [hcomm] at hsplitOwn
  have hmiddle := hcomm (fun slot => decide (some slot.1.channel ∈ taken)) fun slot => !slot.2.isNone
  omega

end Spare

/-- A layout composed of an association: the same groups, order and lines, no terminal twice, the associated specimens
on the terminals their heaters warmed, and the others where they were unless that terminal was taken. -/
structure Composed (association : Dictionary ℕ (Option ℤ)) (layout new : Layout) : Prop where
  lines_eq : new.motors.map (List.map Specimen.line) = layout.motors.map (List.map Specimen.line)
  terminals : new.channels.Nodup
  warmed : ∀ entry ∈ association, ∃ sample terminal, layout.heaterSamples[entry.1]? = some sample ∧
    entry.2 = some terminal ∧ new.channels[sample]? = some terminal
  kept : ∀ (sample : ℕ) (terminal : ℤ), layout.channels[sample]? = some terminal →
    (∀ entry ∈ association, layout.heaterSamples[entry.1]? ≠ some sample) →
    some terminal ∉ association.map Prod.snd → new.channels[sample]? = some terminal

/-- Each heater has its own sample. -/
theorem Layout.nodup_heaterSamples (layout : Layout) : layout.heaterSamples.Nodup := by
  have hplaces : (layout.specimens.zipIdx.map Prod.snd).Nodup := by
    rw [List.zipIdx_map_snd]
    exact List.nodup_range'
  exact (List.filter_sublist.map Prod.snd).nodup hplaces

/-- A heater of the layout has a sample of it. -/
theorem Layout.exists_heaterSample {layout : Layout} {heater : ℕ} (h : heater < layout.heaterLines.length) :
    ∃ sample < layout.specimens.length, layout.heaterSamples[heater]? = some sample := by
  have hcount : ∀ (specimens : List Specimen) (start : ℕ),
      ((specimens.zipIdx start).filter fun numbered => numbered.1.line.isSome).length =
        (specimens.filterMap Specimen.line).length := by
    intro specimens
    induction specimens with
    | nil => exact fun start => rfl
    | cons specimen specimens ih =>
      intro start
      rw [List.zipIdx_cons]
      cases hline : specimen.line with
      | none => rw [List.filter_cons_of_neg (by simp [hline]), List.filterMap_cons_none hline, ih]
      | some line =>
        rw [List.filter_cons_of_pos (by simp [hline]), List.filterMap_cons_some hline, List.length_cons, ih,
          List.length_cons]
  have hlength : layout.heaterSamples.length = layout.heaterLines.length := by
    rw [heaterSamples, List.length_map, hcount, heaterLines]
  have hlt : heater < layout.heaterSamples.length := hlength ▸ h
  refine ⟨layout.heaterSamples[heater], ?_, List.getElem?_eq_getElem hlt⟩
  have hin : layout.heaterSamples[heater] ∈ layout.specimens.zipIdx.map Prod.snd :=
    (List.filter_sublist.map Prod.snd).subset (List.getElem_mem hlt)
  rw [List.zipIdx_map_snd, List.mem_range'_1] at hin
  omega

/-- An injective association of heaters of the layout with terminals can always be written. -/
theorem composed_composeLayout {association : Dictionary ℕ (Option ℤ)} {layout : Layout}
    (hchannels : layout.channels.Nodup) (hkeys : association.keys.Nodup) (hvalues : (association.map Prod.snd).Nodup)
    (hsome : ∀ entry ∈ association, entry.2.isSome = true)
    (hheaters : ∀ entry ∈ association, entry.1 < layout.heaterLines.length) :
    ∃ new, composeLayout association layout = some new ∧ Composed association layout new := by
  have hsome' : ∀ terminal ∈ association.map Prod.snd, terminal.isSome = true := fun terminal hin => by
    obtain ⟨entry, hentry, rfl⟩ := List.mem_map.mp hin
    exact hsome entry hentry
  have hreduced : (association.map Prod.snd).reduceOption.Nodup := by
    refine List.Nodup.filterMap (fun a b c hc hc' => ?_) hvalues
    exact (Option.mem_def.mp hc).trans (Option.mem_def.mp hc').symm
  obtain ⟨warmed, hfold, hlength, hperm, hset, hstay⟩ := @assignWarmed_eq (List.replicate layout.specimens.length none)
    layout association hkeys hsome layout.nodup_heaterSamples fun entry hentry => by
      obtain ⟨sample, hlt, hsample⟩ := Layout.exists_heaterSample (hheaters entry hentry)
      exact ⟨sample, hsample, List.getElem?_replicate_of_lt hlt⟩
  rw [List.length_replicate] at hlength
  rw [List.reduceOption_replicate_none, List.nil_append] at hperm
  obtain ⟨hkeep, htaken⟩ := @keepTerminals_eq warmed layout.specimens (association.map Prod.snd)
    (association.map Prod.snd) hlength hchannels fun specimen _ => Iff.rfl
  generalize hV : association.map Prod.snd = values at *
  generalize hloop : keepTerminals values layout.specimens warmed = loop at hkeep htaken
  have hslots := map_channel_zip hlength
  have hsame {slot other : Specimen × Option ℤ} (hslot : slot ∈ layout.specimens.zip warmed)
      (hother : other ∈ layout.specimens.zip warmed) (h : slot.1.channel = other.1.channel) : slot = other := by
    refine List.inj_on_of_nodup_map (f := fun slot : Specimen × Option ℤ => slot.1.channel) ?_ hslot hother h
    rw [hslots]
    exact hchannels
  have hspare : (List.zipWith (keepTerminal values) layout.specimens warmed).countP Option.isNone ≤
      ((layout.channels ++ cardTerminals).eraseDups.filter fun terminal => some terminal ∉ loop.2).length := by
    rw [countP_keep]
    refine (countP_taken_le hlength hchannels hsome' hperm).trans ?_
    rw [List.countP_eq_length_filter, ← List.length_map fun slot => slot.1.channel]
    refine (List.Nodup.subperm ?_ fun terminal hin => ?_).length_le
    · exact (List.filter_sublist.map _).nodup (hslots ▸ hchannels)
    · obtain ⟨slot, hslot, rfl⟩ := List.mem_map.mp hin
      obtain ⟨hin', hfree⟩ := List.mem_filter.mp hslot
      rw [Bool.and_eq_true, Bool.not_eq_true', Bool.not_eq_true', decide_eq_false_iff_not] at hfree
      have hown : slot.1.channel ∈ layout.channels := by
        rw [Layout.channels, ← hslots]
        exact List.mem_map_of_mem hin'
      refine List.mem_filter.mpr ⟨List.mem_eraseDups.mpr (List.mem_append_left _ hown), decide_eq_true fun hloopIn => ?_⟩
      rcases (htaken _).mp hloopIn with hvalue | ⟨other, hother, hkept, hsameOwn⟩
      · exact hfree.2 hvalue
      · obtain rfl := hsame hin' hother (Option.some.inj hsameOwn)
        rw [(of_decide_eq_true hkept).1] at hfree
        cases hfree.1
  obtain ⟨placed, hfill, hplaced, hshuffle, hkept⟩ := fillSpare_eq hspare
  have hfull : placed.length = layout.motors.flatten.length := by
    rw [hplaced, List.length_zipWith, hlength, Nat.min_self]
    rfl
  obtain ⟨hnew, hlines⟩ := regroup_eq hfull
  refine ⟨⟨regroup layout.motors placed⟩, ?_, hlines, ?_, fun entry hentry => ?_, fun sample terminal hown hnone hfree => ?_⟩
  · rw [composeLayout, hfold, Option.bind_eq_bind, Option.bind_some, hV, hloop]
    change (fillSpare loop.1 _).bind _ = _
    rw [hkeep, hfill]
    rfl
  · change ((regroup layout.motors placed).flatten.map Specimen.channel).Nodup
    have hparts := @reduceOption_keep _ _ values hlength
    have hcases {terminal : ℤ} (hin : terminal ∈ (List.zipWith (keepTerminal values) layout.specimens warmed).reduceOption) :
        some terminal ∈ values ∨ ∃ slot ∈ layout.specimens.zip warmed, keeps values slot = true ∧
          some terminal = some slot.1.channel := by
      rcases List.mem_append.mp (hparts.mem_iff.mp hin) with hwarm | hown
      · exact Or.inl (List.reduceOption_mem_iff.mp (hperm.mem_iff.mp hwarm))
      · obtain ⟨slot, hslot, rfl⟩ := List.mem_map.mp hown
        exact Or.inr ⟨slot, (List.mem_filter.mp hslot).1, (List.mem_filter.mp hslot).2, rfl⟩
    rw [hnew, hshuffle.nodup_iff, List.nodup_append]
    refine ⟨?_, ?_, fun terminal hin other hspared hequal => ?_⟩
    · rw [hparts.nodup_iff, List.nodup_append]
      refine ⟨hperm.nodup_iff.mpr hreduced, (List.filter_sublist.map _).nodup (hslots ▸ hchannels), ?_⟩
      intro terminal hwarm other hown hequal
      obtain ⟨slot, hslot, rfl⟩ := List.mem_map.mp hown
      have hvalue : some slot.1.channel ∈ values := hequal ▸ List.reduceOption_mem_iff.mp (hperm.mem_iff.mp hwarm)
      exact (of_decide_eq_true (List.mem_filter.mp hslot).2).2 hvalue
    · exact (List.take_sublist _ _).nodup ((nodup_eraseDups _).filter _)
    · have hfree := of_decide_eq_true (List.mem_filter.mp (List.mem_of_mem_take hspared)).2
      exact hfree ((htaken _).mpr (hequal ▸ hcases hin))
  · obtain ⟨sample, hlt, hsample⟩ := Layout.exists_heaterSample (hheaters entry hentry)
    obtain ⟨terminal, hterminal⟩ := Option.isSome_iff_exists.mp (hsome entry hentry)
    refine ⟨sample, terminal, hsample, hterminal, ?_⟩
    change ((regroup layout.motors placed).flatten.map Specimen.channel)[sample]? = _
    rw [hnew]
    refine hkept sample terminal ?_
    rw [List.getElem?_zipWith, hset entry hentry sample hsample, hterminal, List.getElem?_eq_getElem hlt]
    rfl
  · change ((regroup layout.motors placed).flatten.map Specimen.channel)[sample]? = _
    rw [hnew]
    refine hkept sample terminal ?_
    obtain ⟨specimen, hspecimen, rfl⟩ : ∃ specimen, layout.specimens[sample]? = some specimen ∧
        specimen.channel = terminal := by
      rwa [Layout.channels, List.getElem?_map, Option.map_eq_some_iff] at hown
    have hlt : sample < layout.specimens.length := (List.getElem?_eq_some_iff.mp hspecimen).1
    have hkeeps : keeps values (specimen, none) = true := decide_eq_true ⟨rfl, hV ▸ hfree⟩
    rw [List.getElem?_zipWith, hspecimen, hstay sample hnone, List.getElem?_replicate_of_lt hlt]
    change some (keepTerminal values specimen none) = _
    rw [keepTerminal, if_pos hkeeps]

/-- Measured heaters of a layout are written as they were measured: the association is injective and of paired heaters,
the others have their reasons, and the layout composed of it differs in the terminals only, of which none is given
twice. -/
theorem composed_resolve (results : List HeaterResult) (layout : Layout) (hchannels : layout.channels.Nodup)
    (hheaters : ∀ r ∈ results, r.heater < layout.heaterLines.length) :
    Resolved results (resolve results).1 (resolve results).2 ∧
      ∃ new, composeLayout (resolve results).1 layout = some new ∧ Composed (resolve results).1 layout new := by
  have hresolved := resolved_resolve results
  refine ⟨hresolved, composed_composeLayout hchannels hresolved.heaters hresolved.injective (fun entry hentry => ?_)
    fun entry hentry => ?_⟩
  · obtain ⟨r, _, _, hchannel, hsome⟩ := (hresolved.paired entry hentry).2
    exact hchannel ▸ hsome
  · obtain ⟨r, hr, hheater, _⟩ := (hresolved.paired entry hentry).2
    exact hheater ▸ hheaters r hr

/-- A heater that warmed the terminal of the unheated specimen beside its own. -/
def swappedPair : HeaterResult where
  heater := 0
  line := 19
  verdict := .paired
  channel := some 2
  riseC := 5 / 2
  runnerUp := none
  seconds := 4
  paired_channel := fun _ => rfl

/-- The two specimens of an example change their terminals. -/
theorem composed_resolve_swappedPair :
    Resolved [swappedPair] (resolve [swappedPair]).1 (resolve [swappedPair]).2 ∧
      ∃ new, composeLayout (resolve [swappedPair]).1 ⟨[[⟨1, some 19⟩, ⟨2, none⟩]]⟩ = some new ∧
        Composed (resolve [swappedPair]).1 ⟨[[⟨1, some 19⟩, ⟨2, none⟩]]⟩ new :=
  composed_resolve [swappedPair] ⟨[[⟨1, some 19⟩, ⟨2, none⟩]]⟩ (by decide) fun r hr => by
    rw [List.mem_singleton.mp hr]
    decide

end Coatheal.Wiring
