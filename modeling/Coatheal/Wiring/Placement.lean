import Coatheal.Wiring.Layout
import Mathlib.Data.List.Nodup

/-!
# Specimens moved between motors

`place_specimens` of `associate_heaters.py`: specimens are moved to other motors
by their samples, and each motor lists its heated specimens before the others,
with the specimen on its click in front. No specimen is lost. A click that is
given for a motor but not in its group leaves no specimen in front, also not the
one that was there before.
-/

namespace Coatheal.Wiring

/-- The numbers of the members of groups, in order from a first number. -/
def groupsFrom {α : Type} (start : ℕ) : List (List α) → List (List ℕ)
  | [] => []
  | group :: groups => List.range' start group.length :: groupsFrom (start + group.length) groups

namespace Layout

variable (layout : Layout)

/-- `sample_count`. -/
def sampleCount : ℕ := layout.specimens.length

/-- `motor_of`. -/
def motorOf (sample : ℕ) : Option ℕ := layout.motorSamples.findIdx? fun samples => samples.contains sample

/-- The sample has a heater. -/
def heated (sample : ℕ) : Bool := (layout.specimens[sample]?).any fun specimen => specimen.line.isSome

/-- The specimens of some samples. -/
def specimensOf (samples : List ℕ) : List Specimen := samples.filterMap fun sample => layout.specimens[sample]?

/-- The motor of a sample: the one it is moved to, or the one it has. -/
def placed (motors : ℕ → Option ℕ) (sample : ℕ) : Option ℕ := (motors sample).or (layout.motorOf sample)

/-- The samples of a motor in their order. -/
def movedTo (motors : ℕ → Option ℕ) (motor : ℕ) : List ℕ :=
  (List.range layout.sampleCount).filter fun sample => layout.placed motors sample = some motor

/-- The loop of `place_specimens` for a motor that has some samples: the heated ones come first, and before them the
click's if it is one of them. -/
def placeMotor (motors clicks : ℕ → Option ℕ) (motor : ℕ) (present : List ℕ) : List ℕ :=
  let samples := (layout.movedTo motors motor).mergeSort fun a b => layout.heated a || !layout.heated b
  match (clicks motor).or present.head? with
  | some first => if first ∈ samples then first :: samples.erase first else samples
  | none => samples

/-- `place_specimens`. -/
def placeSpecimens (motors clicks : ℕ → Option ℕ) : Layout :=
  ⟨layout.motorSamples.zipIdx.map fun group =>
    layout.specimensOf (layout.placeMotor motors clicks group.2 group.1)⟩

/-- The sample in front of a motor's others: the given click if it is in the group, and without a given one the former
first sample while it stays. -/
def firstOf (motors clicks : ℕ → Option ℕ) (motor : ℕ) : Option ℕ :=
  ((clicks motor).or ((layout.motorSamples[motor]?).bind List.head?)).filter fun first =>
    decide (first ∈ layout.movedTo motors motor)

/-- How a motor should list its samples: the first, the other heated ones and the other unheated ones. -/
def listing (motors clicks : ℕ → Option ℕ) (motor : ℕ) : List ℕ :=
  let others := (layout.movedTo motors motor).filter fun sample => layout.firstOf motors clicks motor ≠ some sample
  (layout.firstOf motors clicks motor).toList ++ others.filter layout.heated ++
    others.filter fun sample => !layout.heated sample

end Layout

/-- What a layout with moved specimens is: each motor lists its samples, and each specimen is there once. -/
structure Moved (layout : Layout) (motors clicks : ℕ → Option ℕ) (new : Layout) : Prop where
  length_eq : new.motors.length = layout.motors.length
  group_eq : ∀ motor < layout.motors.length,
    new.motors[motor]? = some (layout.specimensOf (layout.listing motors clicks motor))
  kept : new.specimens.Perm layout.specimens

/-- A list in which what has a property comes first is cut where it ends. -/
theorem eq_filter_append {α : Type} {l : List α} {early : α → Bool}
    (h : l.Pairwise fun a b => (early a || !early b) = true) : l = l.filter early ++ l.filter fun a => !early a := by
  induction l with
  | nil => rfl
  | cons a l ih =>
    obtain ⟨hlater, hrest⟩ := List.pairwise_cons.mp h
    have hsplit := ih hrest
    cases ha : early a with
    | true =>
      rw [List.filter_cons_of_pos ha, List.filter_cons_of_neg (by simp [ha]), List.cons_append]
      exact congrArg (a :: ·) hsplit
    | false =>
      have hnone : l.filter early = [] := by
        refine List.filter_eq_nil_iff.mpr fun b hb hearly => ?_
        have hab := hlater b hb
        rw [ha, hearly] at hab
        cases hab
      rw [hnone, List.nil_append] at hsplit
      rw [List.filter_cons_of_neg (by simp [ha]), hnone, List.filter_cons_of_pos (by simp [ha]), List.nil_append]
      exact congrArg (a :: ·) hsplit

/-- A stable sort by a property lists what has it before what has it not. -/
theorem mergeSort_eq_filter {α : Type} (l : List α) (early : α → Bool) :
    (l.mergeSort fun a b => early a || !early b) = l.filter early ++ l.filter fun a => !early a := by
  have htrans : ∀ a b c : α, (early a || !early b) = true → (early b || !early c) = true → (early a || !early c) = true := by
    intro a b c hab hbc
    cases ha : early a with
    | true => rfl
    | false =>
      rw [ha] at hab
      cases hb : early b with
      | true => rw [hb] at hab; cases hab
      | false => rwa [hb] at hbc
  have htotal : ∀ a b : α, ((early a || !early b) || (early b || !early a)) = true := by
    intro a b
    cases early a with
    | true => rfl
    | false => cases early b with
      | true => rfl
      | false => rfl
  have hperm := List.mergeSort_perm l fun a b => early a || !early b
  have hkept (keep : α → Bool) (hpairwise : (l.filter keep).Pairwise fun a b => (early a || !early b) = true) :
      (l.mergeSort fun a b => early a || !early b).filter keep = l.filter keep := by
    have hsub := (List.sublist_mergeSort htrans htotal hpairwise List.filter_sublist).filter keep
    rw [List.filter_filter] at hsub
    simp only [Bool.and_self] at hsub
    exact (hsub.eq_of_length (hperm.filter keep).length_eq.symm).symm
  have hearly : (l.filter early).Pairwise fun a b => (early a || !early b) = true :=
    List.pairwise_of_forall_mem_list fun a ha b hb => by rw [(List.mem_filter.mp ha).2, Bool.true_or]
  have hlate : (l.filter fun a => !early a).Pairwise fun a b => (early a || !early b) = true :=
    List.pairwise_of_forall_mem_list fun a ha b hb => by rw [(List.mem_filter.mp hb).2, Bool.or_true]
  rw [eq_filter_append (List.pairwise_mergeSort htrans htotal l), hkept early hearly, hkept (fun a => !early a) hlate]

/-- The samples of the groups go on in order. -/
theorem groupsFrom_flatten {α : Type} (start : ℕ) (groups : List (List α)) :
    (groupsFrom start groups).flatten = List.range' start groups.flatten.length := by
  induction groups generalizing start with
  | nil => rfl
  | cons group groups ih =>
    rw [groupsFrom, List.flatten_cons, ih, List.flatten_cons, List.length_append, List.range'_append_1]

/-- Each group has its samples. -/
theorem length_groupsFrom {α : Type} (start : ℕ) (groups : List (List α)) :
    (groupsFrom start groups).length = groups.length := by
  induction groups generalizing start with
  | nil => rfl
  | cons group groups ih => rw [groupsFrom, List.length_cons, ih, List.length_cons]

namespace Layout

variable {layout : Layout} {motors clicks : ℕ → Option ℕ}

/-- The samples of the motors go on in order. -/
theorem motorSamples_eq (layout : Layout) : layout.motorSamples = groupsFrom 0 layout.motors := by
  have hfold : ∀ (groups : List (List Specimen)) (before : List (List ℕ)) (start : ℕ),
      (groups.foldl (fun (groups : List (List ℕ) × ℕ) group =>
        (groups.1 ++ [List.range' groups.2 group.length], groups.2 + group.length)) (before, start)).1 =
        before ++ groupsFrom start groups := by
    intro groups
    induction groups with
    | nil => exact fun before start => (List.append_nil before).symm
    | cons group groups ih =>
      intro before start
      rw [List.foldl_cons, ih, groupsFrom, List.append_assoc, List.singleton_append]
  rw [motorSamples, hfold, List.nil_append]

/-- Every sample has a motor. -/
theorem exists_motorOf {sample : ℕ} (h : sample < layout.sampleCount) :
    ∃ motor < layout.motors.length, layout.motorOf sample = some motor := by
  have hin : sample ∈ layout.motorSamples.flatten := by
    rw [motorSamples_eq, groupsFrom_flatten, List.mem_range'_1]
    exact ⟨Nat.zero_le _, by rwa [Nat.zero_add]⟩
  obtain ⟨samples, hsamples, hmem⟩ := List.mem_flatten.mp hin
  have hsome : (layout.motorOf sample).isSome = true := by
    rw [motorOf, List.findIdx?_isSome, List.any_eq_true]
    exact ⟨samples, hsamples, List.contains_iff_mem.mpr hmem⟩
  obtain ⟨motor, hmotor⟩ := Option.isSome_iff_exists.mp hsome
  refine ⟨motor, ?_, hmotor⟩
  have hlt := (List.findIdx?_eq_some_iff_findIdx_eq.mp hmotor).1
  rwa [motorSamples_eq, length_groupsFrom] at hlt

/-- A sample is of a motor once. -/
theorem nodup_movedTo (motors : ℕ → Option ℕ) (motor : ℕ) : (layout.movedTo motors motor).Nodup :=
  List.nodup_range.filter _

/-- The code lists a motor's samples as it should. -/
theorem placeMotor_eq {motor : ℕ} {present : List ℕ} (h : layout.motorSamples[motor]? = some present) :
    layout.placeMotor motors clicks motor present = layout.listing motors clicks motor := by
  have hsplit : ((layout.movedTo motors motor).filter layout.heated ++
      (layout.movedTo motors motor).filter fun sample => !layout.heated sample).Perm (layout.movedTo motors motor) :=
    List.filter_append_perm _ _
  have hnodup := hsplit.nodup_iff.mpr (nodup_movedTo motors motor)
  rw [placeMotor, listing, firstOf, h, mergeSort_eq_filter, Option.bind_some]
  cases (clicks motor).or present.head? with
  | none => simp
  | some first =>
    change (if first ∈ _ then _ else _) = _
    by_cases hin : first ∈ layout.movedTo motors motor
    · have hfirst : (some first).filter (fun first => decide (first ∈ layout.movedTo motors motor)) = some first :=
        Option.filter_some_pos (decide_eq_true hin)
      have hother (sample : ℕ) : decide (some first ≠ some sample) = (sample != first) := by
        by_cases hsame : sample = first
        · simp [hsame]
        · simp [hsame, Ne.symm hsame]
      rw [if_pos (hsplit.mem_iff.mpr hin), hfirst, hnodup.erase_eq_filter, List.filter_append, List.filter_comm,
        List.filter_comm _ fun sample => !layout.heated sample]
      simp only [hother]
      rfl
    · have hnone : (some first).filter (fun first => decide (first ∈ layout.movedTo motors motor)) = none :=
        Option.filter_some_neg (by simpa using hin)
      rw [if_neg (mt hsplit.mem_iff.mp hin), hnone]
      simp

/-- The listing of a motor is a rearrangement of its samples. -/
theorem listing_perm (motor : ℕ) : (layout.listing motors clicks motor).Perm (layout.movedTo motors motor) := by
  rw [listing]
  cases hfirst : layout.firstOf motors clicks motor with
  | none =>
    have hall : (layout.movedTo motors motor).filter (fun sample => none ≠ some sample) = layout.movedTo motors motor :=
      List.filter_eq_self.mpr fun sample _ => by simp
    rw [hall, Option.toList_none, List.nil_append]
    exact List.filter_append_perm _ _
  | some first =>
    have hin : first ∈ layout.movedTo motors motor := by
      rw [firstOf, Option.filter_eq_some_iff] at hfirst
      exact of_decide_eq_true hfirst.2
    have hothers : (layout.movedTo motors motor).filter (fun sample => some first ≠ some sample) =
        (layout.movedTo motors motor).erase first := by
      rw [(nodup_movedTo motors motor).erase_eq_filter]
      refine List.filter_congr fun sample _ => ?_
      by_cases hsame : sample = first
      · simp [hsame]
      · simp [hsame, Ne.symm hsame]
    rw [hothers, Option.toList_some, List.append_assoc, List.singleton_append]
    exact ((List.filter_append_perm _ _).cons first).trans (List.perm_cons_erase hin).symm

/-- All samples in order have the specimens in order. -/
theorem specimensOf_range (layout : Layout) : layout.specimensOf (List.range layout.sampleCount) = layout.specimens := by
  have hall : ∀ specimens : List Specimen,
      (List.range specimens.length).filterMap (fun sample => specimens[sample]?) = specimens := by
    intro specimens
    induction specimens using List.reverseRecOn with
    | nil => rfl
    | append_singleton specimens specimen ih =>
      have hfront : (List.range specimens.length).filterMap (fun sample => (specimens ++ [specimen])[sample]?) =
          specimens :=
        (List.filterMap_congr fun sample hsample => List.getElem?_append_left (List.mem_range.mp hsample)).trans ih
      rw [List.length_append, List.length_singleton, List.range_succ, List.filterMap_append, hfront]
      simp
  exact hall layout.specimens

/-- The motors share out all samples. -/
theorem movedTo_perm (hmotors : ∀ sample motor, motors sample = some motor → motor < layout.motors.length) :
    ((List.range layout.motors.length).flatMap (layout.movedTo motors)).Perm (List.range layout.sampleCount) := by
  refine (List.perm_ext_iff_of_nodup ?_ List.nodup_range).mpr fun sample => ?_
  · refine List.nodup_flatMap.mpr ⟨fun motor _ => nodup_movedTo motors motor, ?_⟩
    refine List.nodup_range.imp fun {motor other} hne sample hin hin' => hne ?_
    have hplaced := of_decide_eq_true (List.mem_filter.mp hin).2
    rw [of_decide_eq_true (List.mem_filter.mp hin').2] at hplaced
    exact (Option.some.inj hplaced).symm
  · rw [List.mem_flatMap]
    constructor
    · rintro ⟨motor, _, hin⟩
      exact (List.mem_filter.mp hin).1
    · intro hsample
      obtain ⟨motor, hlt, hmotor⟩ : ∃ motor < layout.motors.length, layout.placed motors sample = some motor := by
        rw [placed]
        cases hmoved : motors sample with
        | some motor => exact ⟨motor, hmotors sample motor hmoved, rfl⟩
        | none => exact exists_motorOf (List.mem_range.mp hsample)
      exact ⟨motor, List.mem_range.mpr hlt, List.mem_filter.mpr ⟨hsample, decide_eq_true hmotor⟩⟩

/-- The groups of the new layout are the listings of the motors. -/
theorem motors_placeSpecimens :
    (layout.placeSpecimens motors clicks).motors = (List.range layout.motors.length).map fun motor =>
      layout.specimensOf (layout.listing motors clicks motor) := by
  have hlength : layout.motorSamples.length = layout.motors.length := by rw [motorSamples_eq, length_groupsFrom]
  refine List.ext_getElem? fun motor => ?_
  rw [placeSpecimens, List.getElem?_map, List.getElem?_zipIdx, List.getElem?_map]
  by_cases hmotor : motor < layout.motors.length
  · obtain ⟨present, hpresent⟩ : ∃ present, layout.motorSamples[motor]? = some present :=
      ⟨_, List.getElem?_eq_getElem (hlength ▸ hmotor)⟩
    rw [hpresent, List.getElem?_range hmotor]
    simp only [Option.map_some, Nat.zero_add, placeMotor_eq hpresent]
  · rw [List.getElem?_eq_none (by omega), List.getElem?_eq_none (by simpa using hmotor)]
    rfl

/-- Moving specimens to motors that exist keeps them all: each is once in the new layout, in the group of the motor it
was moved to or had, and each motor lists the specimen of its given click if that is in the group, or without a given
one its former first specimen while it stays, then the other heated specimens and then the unheated ones, each in
their former order. -/
theorem moved_placeSpecimens (layout : Layout) (motors clicks : ℕ → Option ℕ)
    (hmotors : ∀ sample motor, motors sample = some motor → motor < layout.motors.length) :
    Moved layout motors clicks (layout.placeSpecimens motors clicks) := by
  have hgroups := @motors_placeSpecimens layout motors clicks
  refine ⟨?_, fun motor hmotor => ?_, ?_⟩
  · rw [hgroups, List.length_map, List.length_range]
  · rw [hgroups, List.getElem?_map, List.getElem?_range hmotor]
    rfl
  · have hflat : (layout.placeSpecimens motors clicks).specimens =
        layout.specimensOf ((List.range layout.motors.length).flatMap (layout.listing motors clicks)) := by
      rw [specimens, hgroups, specimensOf, List.flatMap, List.filterMap_flatten, List.map_map]
      rfl
    rw [hflat, ← specimensOf_range layout]
    refine List.Perm.filterMap _ (List.Perm.trans ?_ (movedTo_perm hmotors))
    exact List.Perm.flatMap_left _ fun motor _ => listing_perm motor

/-- Moving keeps the specimens of an example: both specimens of the only motor, with the heated one in front. -/
theorem moved_placeSpecimens_pair :
    Moved ⟨[[⟨1, none⟩, ⟨2, some 19⟩]]⟩ (fun _ => some 0) (fun _ => some 1)
      ((⟨[[⟨1, none⟩, ⟨2, some 19⟩]]⟩ : Layout).placeSpecimens (fun _ => some 0) fun _ => some 1) :=
  moved_placeSpecimens ⟨[[⟨1, none⟩, ⟨2, some 19⟩]]⟩ (fun _ => some 0) (fun _ => some 1)
    fun _ motor hmotor => by
      rw [← Option.some.inj hmotor]
      decide

/-- The sample in front of a motor's others when the former first one also stands in for a given click that is not in
the group. -/
def firstOrFormer (layout : Layout) (motors clicks : ℕ → Option ℕ) (motor : ℕ) : Option ℕ :=
  ((clicks motor).filter fun first => decide (first ∈ layout.movedTo motors motor)).or
    (((layout.motorSamples[motor]?).bind List.head?).filter fun first => decide (first ∈ layout.movedTo motors motor))

/-- With a click of the other group given for motor 0, its former first specimen, an unheated one, does not stay in
front although it stays in the group. -/
theorem not_firstOrFormer_foreignClick : ¬ ∀ (layout : Layout) (motors clicks : ℕ → Option ℕ) (motor first : ℕ),
    layoutErrors layout layout.sampleCount layout.heaterLines.length = [] →
    (∀ sample motor, motors sample = some motor → motor < layout.motors.length) →
    layout.firstOrFormer motors clicks motor = some first →
    ((layout.placeSpecimens motors clicks).motors[motor]?).bind List.head? = layout.specimens[first]? := by
  intro h
  have hbad := h ⟨[[⟨1, none⟩, ⟨2, some 19⟩], [⟨3, some 13⟩]]⟩ (fun _ => none)
    (fun motor => if motor = 0 then some 2 else none) 0 0 (by decide +kernel) (fun sample motor hmotor => nomatch hmotor)
    (by decide +kernel)
  rw [motors_placeSpecimens] at hbad
  exact absurd hbad (by decide +kernel)

end Layout

end Coatheal.Wiring
