import Coatheal.Ground.Dict
import Coatheal.Ground.OnboardState
import Coatheal.Library.Run

/-!
# Acknowledged alarms

`AlarmModel`: which alarms are shown, which of them are acknowledged and which
are new, over updates and acknowledgements in any order. An acknowledgement
counts for the severity at which it was given, and as long as every update finds
the alarm active at that severity.
-/

namespace Coatheal.Ground

open Library

/-- The acknowledged severities, the alarms of the last update and the keys that it raised. -/
structure AlarmModel where
  acked : Dict Severity
  previous : Dict Alarm
  newKeys : List (List Char)

/-- A call of the model. -/
inductive AlarmCall where
  | update (state : OnboardState)
  | acknowledge (key : List Char)
  | acknowledgeAll

namespace AlarmModel

/-- `AlarmModel()`. -/
def new : AlarmModel := ⟨[], [], []⟩

/-- What the loop of `update` has so far: the acknowledged severities, `current` and the new keys. -/
structure Evaluating where
  acked : Dict Severity
  current : Dict Alarm
  newKeys : List (List Char)

/-- The loop of `update` for one alarm. -/
def evaluateAlarm (previous : Dict Alarm) (e : Evaluating) (alarm : Alarm) : Evaluating where
  acked := if e.acked.get? alarm.key ≠ some alarm.severity ∧ e.acked.has alarm.key then e.acked.erase alarm.key
    else e.acked
  current := e.current.set alarm.key { alarm with acked := decide (e.acked.get? alarm.key = some alarm.severity) }
  newKeys := if (previous.get? alarm.key).map Alarm.severity ≠ some alarm.severity then e.newKeys ++ [alarm.key]
    else e.newKeys

/-- `update` with the raw alarms. -/
def updateWith (m : AlarmModel) (raw : List Alarm) : AlarmModel :=
  let e := raw.foldl (evaluateAlarm m.previous) ⟨m.acked, [], []⟩
  ⟨e.acked.filter fun entry => e.current.has entry.1, e.current, e.newKeys⟩

/-- `update`. When the alarms cannot be evaluated, nothing changes. -/
def update (m : AlarmModel) (state : OnboardState) : AlarmModel :=
  match evaluate state with
  | .ok raw => m.updateWith raw
  | .error _ => m

/-- `acknowledge`. -/
def acknowledge (m : AlarmModel) (key : List Char) : AlarmModel :=
  match m.previous.get? key with
  | none => m
  | some alarm =>
    { m with acked := m.acked.set key alarm.severity, previous := m.previous.set key { alarm with acked := true } }

/-- `acknowledge_all`. -/
def acknowledgeAll (m : AlarmModel) : AlarmModel := m.previous.keys.foldl acknowledge m

/-- `active`. -/
def active (m : AlarmModel) : List Alarm := m.previous.map Prod.snd

/-- One call. -/
def step (m : AlarmModel) : AlarmCall → AlarmModel
  | .update state => m.update state
  | .acknowledge key => m.acknowledge key
  | .acknowledgeAll => m.acknowledgeAll

end AlarmModel

/-- What an alarm says, apart from its acknowledgement. -/
def Alarm.plain (alarm : Alarm) : List Char × List Char × Severity := (alarm.key, alarm.text, alarm.severity)

/-- A condition is active at a severity. -/
def ActiveAt (raw : List Alarm) (key : List Char) (severity : Severity) : Prop :=
  ∃ alarm ∈ raw, alarm.key = key ∧ alarm.severity = severity

/-- Whether an alarm is among others at the same severity can be decided. -/
instance (raw : List Alarm) (key : List Char) (severity : Severity) : Decidable (ActiveAt raw key severity) :=
  inferInstanceAs (Decidable (∃ alarm ∈ raw, alarm.key = key ∧ alarm.severity = severity))

/-- The alarms that an update finds. -/
def AlarmCall.raised : AlarmCall → Option (List Alarm)
  | .update state => (evaluate state).toOption
  | .acknowledge _ => none
  | .acknowledgeAll => none

/-- A call acknowledges an alarm. -/
def AlarmCall.Acknowledges (key : List Char) : AlarmCall → Prop
  | .update _ => False
  | .acknowledge given => given = key
  | .acknowledgeAll => True

/-- What the updates of a history found; the newest call and the newest update come first. -/
def updates (history : List AlarmCall) : List (List Alarm) := history.filterMap AlarmCall.raised

/-- The alarms of the last update. -/
def latest (history : List AlarmCall) : List Alarm := (updates history).headD []

/-- The alarms of the update before the last one. -/
def beforeLatest (history : List AlarmCall) : List Alarm := (updates history).tail.headD []

/-- An alarm was acknowledged at a severity at which it was active then and in every update since. -/
def AckedSince (history : List AlarmCall) (key : List Char) (severity : Severity) : Prop :=
  ∃ later call earlier, history = later ++ call :: earlier ∧ call.Acknowledges key ∧
    ActiveAt (latest earlier) key severity ∧ ∀ raw ∈ updates later, ActiveAt raw key severity

/-- What the strip shows after a history: the alarms of the last update, of which those are acknowledged that were
so since, and as new those that the update before did not find at the same severity. -/
structure AlarmModel.Shows (m : AlarmModel) (history : List AlarmCall) : Prop where
  active_eq : m.active.map Alarm.plain = (latest history).map Alarm.plain
  acked_iff : ∀ alarm ∈ m.active, alarm.acked = true ↔ AckedSince history alarm.key alarm.severity
  newKeys_eq : m.newKeys =
    keysOf ((latest history).filter fun alarm => ¬ ActiveAt (beforeLatest history) alarm.key alarm.severity)

/-- Being active depends on what the alarms say only. -/
theorem activeAt_congr {raw others : List Alarm} (h : raw.map Alarm.plain = others.map Alarm.plain) {key : List Char}
    {severity : Severity} : ActiveAt raw key severity ↔ ActiveAt others key severity := by
  have hplain (alarms : List Alarm) : ActiveAt alarms key severity ↔
      ∃ said ∈ alarms.map Alarm.plain, said.1 = key ∧ said.2.2 = severity := by
    constructor
    · rintro ⟨alarm, hmem, hkey, hseverity⟩
      exact ⟨alarm.plain, List.mem_map_of_mem hmem, hkey, hseverity⟩
    · rintro ⟨said, hsaid, hkey, hseverity⟩
      obtain ⟨alarm, hmem, rfl⟩ := List.mem_map.mp hsaid
      exact ⟨alarm, hmem, hkey, hseverity⟩
  rw [hplain, hplain, h]

/-- An acknowledgement is the newest call, or it is older and the newest call finds the alarm still active. -/
theorem ackedSince_cons {call : AlarmCall} {history : List AlarmCall} {key : List Char} {severity : Severity} :
    AckedSince (call :: history) key severity ↔ call.Acknowledges key ∧ ActiveAt (latest history) key severity ∨
      AckedSince history key severity ∧ ∀ raw ∈ call.raised, ActiveAt raw key severity := by
  constructor
  · rintro ⟨later, acknowledging, earlier, hsplit, hacks, hactive, hsince⟩
    cases later with
    | nil =>
      obtain ⟨rfl, rfl⟩ := List.cons.inj hsplit
      exact Or.inl ⟨hacks, hactive⟩
    | cons newest later =>
      obtain ⟨rfl, rfl⟩ := List.cons.inj hsplit
      refine Or.inr ⟨⟨later, acknowledging, earlier, rfl, hacks, hactive, fun raw hraw => hsince raw ?_⟩,
        fun raw hraw => hsince raw ?_⟩
      · obtain ⟨other, hother, hfound⟩ := List.mem_filterMap.mp hraw
        exact List.mem_filterMap.mpr ⟨other, List.mem_cons_of_mem _ hother, hfound⟩
      · exact List.mem_filterMap.mpr ⟨_, List.mem_cons_self, hraw⟩
  · rintro (⟨hacks, hactive⟩ | ⟨⟨later, acknowledging, earlier, rfl, hacks, hactive, hsince⟩, hnow⟩)
    · exact ⟨[], call, history, rfl, hacks, hactive, by simp [updates]⟩
    · refine ⟨call :: later, acknowledging, earlier, rfl, hacks, hactive, fun raw hraw => ?_⟩
      obtain ⟨other, hother, hfound⟩ := List.mem_filterMap.mp hraw
      rcases List.mem_cons.mp hother with rfl | hlater
      · exact hnow raw hfound
      · exact hsince raw (List.mem_filterMap.mpr ⟨other, hlater, hfound⟩)

/-- The updates of a longer history. -/
theorem updates_cons (call : AlarmCall) (history : List AlarmCall) :
    updates (call :: history) = call.raised.toList ++ updates history := by
  rw [updates, List.filterMap_cons]
  cases call.raised with
  | none => rfl
  | some raw => rfl

/-- What was acknowledged since is active in the last update. -/
theorem AckedSince.activeAt {history : List AlarmCall} {key : List Char} {severity : Severity}
    (h : AckedSince history key severity) : ActiveAt (latest history) key severity := by
  induction history with
  | nil =>
    obtain ⟨later, call, earlier, hsplit, _⟩ := h
    cases later with
    | nil => cases hsplit
    | cons newest later => cases hsplit
  | cons call history ih =>
    rw [latest, updates_cons]
    cases hraised : call.raised with
    | some raw =>
      rcases ackedSince_cons.mp h with ⟨hacks, _⟩ | ⟨_, hnow⟩
      · cases call with
        | update state => exact hacks.elim
        | acknowledge given => cases hraised
        | acknowledgeAll => cases hraised
      · exact hnow raw hraised
    | none =>
      rcases ackedSince_cons.mp h with ⟨_, hactive⟩ | ⟨hsince, _⟩
      · exact hactive
      · exact ih hsince

namespace AlarmModel

/-- The three records fit: the shown alarms go by their keys, what is acknowledged is shown at that severity, and
an alarm is shown acknowledged when it is. -/
structure Consistent (m : AlarmModel) : Prop where
  nodup : m.previous.keys.Nodup
  named : ∀ entry ∈ m.previous, entry.2.key = entry.1
  held : ∀ key severity, m.acked.get? key = some severity → ActiveAt m.active key severity
  flags : ∀ alarm ∈ m.active, alarm.acked = true ↔ m.acked.get? alarm.key = some alarm.severity

/-- A shown alarm is the value of its key. -/
theorem Consistent.get?_eq_some_iff {m : AlarmModel} (h : m.Consistent) {key : List Char} {alarm : Alarm} :
    m.previous.get? key = some alarm ↔ alarm ∈ m.active ∧ alarm.key = key := by
  rw [Dict.get?_eq_some_iff h.nodup]
  constructor
  · exact fun hmem => ⟨List.mem_map_of_mem hmem, h.named _ hmem⟩
  · rintro ⟨hshown, rfl⟩
    obtain ⟨entry, hentry, rfl⟩ := List.mem_map.mp hshown
    rwa [h.named entry hentry]

/-- The first alarms are none. -/
theorem consistent_new : Consistent new :=
  ⟨List.nodup_nil, by simp [new], fun key severity h => (nomatch h), by simp [new, active]⟩

/-- The loop of an update over alarms with different keys: each is shown, acknowledged if it was so at its severity,
and is new if the last update did not show it at this severity. -/
theorem foldl_evaluateAlarm {previous : Dict Alarm} {raw : List Alarm} (hnodup : (keysOf raw).Nodup) (e : Evaluating)
    (hnew : ∀ alarm ∈ raw, alarm.key ∉ e.current.keys) :
    (raw.foldl (evaluateAlarm previous) e).current = e.current ++ raw.map (fun alarm =>
        (alarm.key, { alarm with acked := decide (e.acked.get? alarm.key = some alarm.severity) })) ∧
      (raw.foldl (evaluateAlarm previous) e).newKeys = e.newKeys ++ keysOf (raw.filter fun alarm =>
        (previous.get? alarm.key).map Alarm.severity ≠ some alarm.severity) ∧
      ∀ key severity, (raw.foldl (evaluateAlarm previous) e).acked.get? key = some severity ↔
        e.acked.get? key = some severity ∧ ∀ alarm ∈ raw, alarm.key = key → alarm.severity = severity := by
  induction raw generalizing e with
  | nil => exact ⟨by simp, by simp [keysOf], by simp⟩
  | cons alarm raw ih =>
    rw [keysOf, List.map_cons, List.nodup_cons] at hnodup
    have hfirst : alarm.key ∉ e.current.keys := hnew alarm List.mem_cons_self
    have hset (value : Alarm) : e.current.set alarm.key value = e.current ++ [(alarm.key, value)] := by
      rw [Dict.set, ← Dict.has, if_neg (mt Dict.has_eq_true_iff_mem.mp hfirst)]
    have hacked (key : List Char) (severity : Severity) :
        (evaluateAlarm previous e alarm).acked.get? key = some severity ↔
          e.acked.get? key = some severity ∧ (alarm.key = key → alarm.severity = severity) := by
      dsimp only [evaluateAlarm]
      split
      case isTrue hother =>
        rw [Dict.get?_erase]
        by_cases hkey : alarm.key = key
        · subst hkey
          simp only [if_true, true_imp_iff]
          exact ⟨fun h => absurd h (Option.some_ne_none severity).symm, fun h => absurd (h.2 ▸ h.1) hother.1⟩
        · simp [hkey]
      case isFalse hsame =>
        refine ⟨fun hheld => ⟨hheld, ?_⟩, And.left⟩
        rintro rfl
        have hhas : e.acked.has alarm.key = true := Dict.has_eq_true_iff.mpr ⟨severity, hheld⟩
        by_contra hsev
        exact hsame ⟨fun h => hsev (Option.some.inj (h.symm.trans hheld)), hhas⟩
    have hothers (other : Alarm) (hother : other ∈ raw) : other.key ≠ alarm.key := fun hkey =>
      hnodup.1 (hkey ▸ List.mem_map_of_mem hother)
    obtain ⟨hcurrent, hnewKeys, hrest⟩ := ih hnodup.2 (evaluateAlarm previous e alarm) fun other hother => by
      change other.key ∉ (e.current.set alarm.key _).keys
      rw [hset, Dict.keys, List.map_append, List.mem_append, not_or]
      exact ⟨hnew other (List.mem_cons_of_mem _ hother), by simpa using hothers other hother⟩
    have hkept (other : Alarm) (hother : other ∈ raw) :
        ((evaluateAlarm previous e alarm).acked.get? other.key = some other.severity) ↔
          e.acked.get? other.key = some other.severity := by
      rw [hacked]
      exact and_iff_left fun hkey => absurd hkey.symm (hothers other hother)
    rw [List.foldl_cons]
    refine ⟨?_, ?_, fun key severity => ?_⟩
    · rw [hcurrent]
      change e.current.set alarm.key _ ++ _ = _
      rw [hset, List.append_assoc, List.singleton_append, List.map_cons]
      congr 2
      exact List.map_congr_left fun other hother => by simp only [hkept other hother]
    · rw [hnewKeys, List.filter_cons]
      change (if _ then e.newKeys ++ [alarm.key] else e.newKeys) ++ _ = _
      split
      case isTrue hraised => rw [if_pos (by simpa using hraised), List.append_assoc]; rfl
      case isFalse hraised => rw [if_neg (by simpa using hraised)]
    · rw [hrest, hacked, List.forall_mem_cons, and_assoc]

/-- What an update does, in a model whose records fit: the alarms are shown, those stay acknowledged that are active
at the acknowledged severity, and those are new that were not shown at theirs. -/
theorem Consistent.updateWith {m : AlarmModel} {raw : List Alarm} (h : m.Consistent) (hnodup : (keysOf raw).Nodup) :
    (m.updateWith raw).Consistent ∧ (m.updateWith raw).active.map Alarm.plain = raw.map Alarm.plain ∧
      (∀ key severity, (m.updateWith raw).acked.get? key = some severity ↔
        m.acked.get? key = some severity ∧ ActiveAt raw key severity) ∧
      (m.updateWith raw).newKeys = keysOf (raw.filter fun alarm => ¬ ActiveAt m.active alarm.key alarm.severity) := by
  obtain ⟨hcurrent, hnewKeys, hacked⟩ := @foldl_evaluateAlarm m.previous raw hnodup ⟨m.acked, [], []⟩ (by simp [Dict.keys])
  rw [List.nil_append] at hcurrent hnewKeys
  have hkeys : (m.updateWith raw).previous.keys = keysOf raw := by
    change Dict.keys (Evaluating.current _) = _
    rw [hcurrent, Dict.keys, List.map_map]
    rfl
  have hactive : (m.updateWith raw).active = raw.map fun alarm =>
      { alarm with acked := decide (m.acked.get? alarm.key = some alarm.severity) } := by
    change List.map Prod.snd (Evaluating.current _) = _
    rw [hcurrent, List.map_map]
    rfl
  have hunique {alarm other : Alarm} (halarm : alarm ∈ raw) (hother : other ∈ raw) (hkey : alarm.key = other.key) :
      alarm = other := List.inj_on_of_nodup_map hnodup halarm hother hkey
  have hkept (key : List Char) (severity : Severity) : (m.updateWith raw).acked.get? key = some severity ↔
      m.acked.get? key = some severity ∧ ActiveAt raw key severity := by
    change Dict.get? (List.filter _ (Evaluating.acked _)) key = _ ↔ _
    rw [Dict.get?_filter _ (fun name => Dict.has (Evaluating.current _) name)]
    change (if (m.updateWith raw).previous.has key = true then _ else _) = _ ↔ _
    by_cases hshown : key ∈ keysOf raw
    · rw [if_pos (Dict.has_eq_true_iff_mem.mpr (hkeys ▸ hshown)), hacked]
      obtain ⟨alarm, halarm, hkey⟩ := List.mem_map.mp hshown
      refine and_congr_right fun _ => ⟨fun hsame => ⟨alarm, halarm, hkey, hsame alarm halarm hkey⟩, ?_⟩
      rintro ⟨active, hmem, hactiveKey, hseverity⟩ other hother hotherKey
      rw [hunique hother hmem (hotherKey.trans hactiveKey.symm), hseverity]
    · rw [if_neg (mt Dict.has_eq_true_iff_mem.mp (hkeys ▸ hshown))]
      refine ⟨fun hnone => (nomatch hnone), ?_⟩
      rintro ⟨_, active, hmem, hactiveKey, _⟩
      exact absurd (List.mem_map.mpr ⟨active, hmem, hactiveKey⟩) hshown
  refine ⟨⟨hkeys ▸ hnodup, ?_, fun key severity hheld => ?_, ?_⟩, ?_, hkept, ?_⟩
  · change ∀ entry ∈ Evaluating.current _, _
    rw [hcurrent]
    intro entry hentry
    obtain ⟨alarm, _, rfl⟩ := List.mem_map.mp hentry
    rfl
  · obtain ⟨alarm, halarm, hkey, hseverity⟩ := ((hkept key severity).mp hheld).2
    rw [hactive]
    exact ⟨_, List.mem_map_of_mem halarm, hkey, hseverity⟩
  · intro alarm halarm
    rw [hactive] at halarm
    obtain ⟨found, hfound, rfl⟩ := List.mem_map.mp halarm
    rw [decide_eq_true_iff, hkept]
    exact ⟨fun hheld => ⟨hheld, found, hfound, rfl, rfl⟩, And.left⟩
  · rw [hactive, List.map_map]
    rfl
  · change Evaluating.newKeys _ = _
    rw [hnewKeys]
    congr 1
    refine List.filter_congr fun alarm _ => ?_
    rw [decide_eq_decide, not_iff_not, Option.map_eq_some_iff]
    constructor
    · rintro ⟨shown, hshown, hseverity⟩
      obtain ⟨hmem, hkey⟩ := h.get?_eq_some_iff.mp hshown
      exact ⟨shown, hmem, hkey, hseverity⟩
    · rintro ⟨shown, hmem, hkey, hseverity⟩
      exact ⟨shown, h.get?_eq_some_iff.mpr ⟨hmem, hkey⟩, hseverity⟩

/-- What an acknowledgement does: the alarm of the key, if it is shown, is acknowledged at its severity. -/
theorem Consistent.acknowledge {m : AlarmModel} (h : m.Consistent) (given : List Char) :
    (m.acknowledge given).Consistent ∧ (m.acknowledge given).active.map Alarm.plain = m.active.map Alarm.plain ∧
      (∀ key severity, (m.acknowledge given).acked.get? key = some severity ↔
        given = key ∧ ActiveAt m.active key severity ∨ m.acked.get? key = some severity) ∧
      (m.acknowledge given).newKeys = m.newKeys := by
  rw [AlarmModel.acknowledge]
  split
  case h_1 hnone =>
    refine ⟨h, rfl, fun key severity => ⟨Or.inr, fun hcases => hcases.elim ?_ id⟩, rfl⟩
    rintro ⟨rfl, alarm, hmem, hkey, _⟩
    rw [h.get?_eq_some_iff.mpr ⟨hmem, hkey⟩] at hnone
    cases hnone
  case h_2 alarm hsome =>
    obtain ⟨hmem, rfl⟩ := h.get?_eq_some_iff.mp hsome
    have hhas : m.previous.has alarm.key = true := Dict.has_eq_true_iff.mpr ⟨alarm, hsome⟩
    have hset : m.previous.set alarm.key { alarm with acked := true } = m.previous.map fun entry =>
        if entry.1 = alarm.key then (alarm.key, { alarm with acked := true }) else entry := by
      rw [Dict.set, ← Dict.has, if_pos hhas]
    have hunique (entry : List Char × Alarm) (hentry : entry ∈ m.previous) (hkey : entry.1 = alarm.key) :
        entry.2 = alarm := by
      have hfound := (Dict.get?_eq_some_iff h.nodup).mpr hentry
      rw [hkey, hsome] at hfound
      exact (Option.some.inj hfound).symm
    have hacked (key : List Char) (severity : Severity) : (m.acked.set alarm.key alarm.severity).get? key = some severity ↔
        alarm.key = key ∧ ActiveAt m.active key severity ∨ m.acked.get? key = some severity := by
      rw [Dict.get?_set]
      split
      case isTrue hkey =>
        subst hkey
        constructor
        · exact fun hsev => Or.inl ⟨rfl, alarm, hmem, rfl, Option.some.inj hsev⟩
        · intro hcases
          obtain ⟨other, hother, hkey, hsev⟩ := hcases.elim And.right (h.held _ _)
          have hsame := h.get?_eq_some_iff.mpr ⟨hother, hkey⟩
          rw [hsome] at hsame
          rw [Option.some.inj hsame, hsev]
      case isFalse hkey => exact ⟨Or.inr, fun hcases => hcases.resolve_left fun hgiven => hkey hgiven.1⟩
    have hplain : (List.map Prod.snd (m.previous.set alarm.key { alarm with acked := true })).map Alarm.plain =
        m.active.map Alarm.plain := by
      rw [hset, active, List.map_map, List.map_map, List.map_map]
      refine List.map_congr_left fun entry hentry => ?_
      rw [Function.comp_apply, Function.comp_apply, Function.comp_apply]
      split
      case isTrue hkey => rw [hunique entry hentry hkey]; rfl
      case isFalse => rfl
    have hactive (entry : List Char × Alarm) (hentry : entry ∈ m.previous.set alarm.key { alarm with acked := true }) :
        entry.1 = alarm.key ∧ entry.2 = { alarm with acked := true } ∨ entry ∈ m.previous ∧ entry.1 ≠ alarm.key := by
      rw [hset] at hentry
      obtain ⟨old, hold, rfl⟩ := List.mem_map.mp hentry
      split
      case isTrue => exact Or.inl ⟨rfl, rfl⟩
      case isFalse hkey => exact Or.inr ⟨hold, hkey⟩
    refine ⟨⟨Dict.nodup_keys_set h.nodup, fun entry hentry => ?_, fun key severity hheld => ?_, fun shown hshown => ?_⟩,
      hplain, hacked, rfl⟩
    · rcases hactive entry hentry with ⟨hkey, hvalue⟩ | ⟨hold, _⟩
      · rw [hvalue, hkey]
      · exact h.named entry hold
    · have hbefore : ActiveAt m.active key severity :=
        ((hacked key severity).mp hheld).elim And.right (h.held key severity)
      exact (activeAt_congr hplain).mpr hbefore
    · obtain ⟨entry, hentry, rfl⟩ := List.mem_map.mp hshown
      change _ ↔ (m.acked.set alarm.key alarm.severity).get? _ = _
      rw [Dict.get?_set]
      rcases hactive entry hentry with ⟨_, hvalue⟩ | ⟨hold, hkey⟩
      · rw [hvalue, if_pos rfl]
        exact ⟨fun _ => rfl, fun _ => rfl⟩
      · rw [if_neg fun hsame => hkey (by rw [hsame, h.named entry hold])]
        exact h.flags entry.2 (List.mem_map_of_mem hold)

/-- The alarms of some keys that are shown are acknowledged. -/
theorem Consistent.foldl_acknowledge {m : AlarmModel} (h : m.Consistent) (given : List (List Char)) :
    (given.foldl AlarmModel.acknowledge m).Consistent ∧
      (given.foldl AlarmModel.acknowledge m).active.map Alarm.plain = m.active.map Alarm.plain ∧
      (∀ key severity, (given.foldl AlarmModel.acknowledge m).acked.get? key = some severity ↔
        key ∈ given ∧ ActiveAt m.active key severity ∨ m.acked.get? key = some severity) ∧
      (given.foldl AlarmModel.acknowledge m).newKeys = m.newKeys := by
  induction given generalizing m with
  | nil => exact ⟨h, rfl, by simp, rfl⟩
  | cons first given ih =>
    obtain ⟨hnext, hplain, hacked, hnewKeys⟩ := h.acknowledge first
    obtain ⟨hlast, hplain', hacked', hnewKeys'⟩ := ih hnext
    refine ⟨hlast, hplain'.trans hplain, fun key severity => ?_, hnewKeys'.trans hnewKeys⟩
    rw [List.foldl_cons, hacked', hacked, activeAt_congr hplain, List.mem_cons]
    constructor
    · rintro (⟨hkey, hactive⟩ | ⟨hkey, hactive⟩ | hheld)
      · exact Or.inl ⟨Or.inr hkey, hactive⟩
      · exact Or.inl ⟨Or.inl hkey.symm, hactive⟩
      · exact Or.inr hheld
    · rintro (⟨hkey | hkey, hactive⟩ | hheld)
      · exact Or.inr (Or.inl ⟨hkey.symm, hactive⟩)
      · exact Or.inl ⟨hkey, hactive⟩
      · exact Or.inr (Or.inr hheld)

/-- What the records hold of a history. -/
structure Follows (m : AlarmModel) (history : List AlarmCall) : Prop where
  consistent : m.Consistent
  active_eq : m.active.map Alarm.plain = (latest history).map Alarm.plain
  acked_iff : ∀ key severity, m.acked.get? key = some severity ↔ AckedSince history key severity
  newKeys_eq : m.newKeys =
    keysOf ((latest history).filter fun alarm => ¬ ActiveAt (beforeLatest history) alarm.key alarm.severity)

/-- An acknowledgement of keys keeps what the records hold. -/
theorem Follows.acknowledged {m : AlarmModel} {history : List AlarmCall} (h : m.Follows history) {call : AlarmCall}
    {given : List (List Char)} (hnone : call.raised = none)
    (hacks : ∀ alarm ∈ m.active, call.Acknowledges alarm.key ↔ alarm.key ∈ given) :
    (given.foldl AlarmModel.acknowledge m).Follows (call :: history) := by
  obtain ⟨hconsistent, hplain, hacked, hnewKeys⟩ := h.consistent.foldl_acknowledge given
  have hupdates : updates (call :: history) = updates history := by
    rw [updates_cons, hnone]
    rfl
  have hlatest : latest (call :: history) = latest history := by rw [latest, hupdates, ← latest]
  have hbefore : beforeLatest (call :: history) = beforeLatest history := by
    rw [beforeLatest, hupdates, ← beforeLatest]
  refine ⟨hconsistent, by rw [hplain, h.active_eq, hlatest], fun key severity => ?_, ?_⟩
  · rw [hacked, h.acked_iff, ackedSince_cons, hnone, ← activeAt_congr h.active_eq]
    refine or_congr (and_congr_left fun hactive => ?_) (by simp)
    obtain ⟨alarm, hmem, rfl, _⟩ := hactive
    exact (hacks alarm hmem).symm
  · rw [hnewKeys, h.newKeys_eq, hlatest, hbefore]

/-- Every call keeps what the records hold. -/
theorem Follows.step {m : AlarmModel} {history : List AlarmCall} (h : m.Follows history) (call : AlarmCall) :
    (m.step call).Follows (call :: history) := by
  cases call with
  | acknowledge key =>
    refine @Follows.acknowledged m history h (.acknowledge key) [key] rfl fun alarm _ => ?_
    rw [List.mem_singleton]
    exact eq_comm
  | acknowledgeAll =>
    refine h.acknowledged rfl fun alarm hmem => iff_of_true trivial ?_
    obtain ⟨entry, hentry, rfl⟩ := List.mem_map.mp hmem
    exact h.consistent.named entry hentry ▸ List.mem_map_of_mem hentry
  | update state =>
    rw [AlarmModel.step, AlarmModel.update]
    cases hraw : evaluate state with
    | error err =>
      have hraised : (AlarmCall.update state).raised = none := by rw [AlarmCall.raised, hraw]; rfl
      exact @Follows.acknowledged m history h (.update state) [] hraised fun alarm _ => by simp [AlarmCall.Acknowledges]
    | ok raw =>
      have hraised : (AlarmCall.update state).raised = some raw := by rw [AlarmCall.raised, hraw]; rfl
      obtain ⟨hconsistent, hplain, hacked, hnewKeys⟩ := h.consistent.updateWith (nodup_evaluate hraw)
      have hupdates : updates (.update state :: history) = raw :: updates history := by
        rw [updates_cons, hraised]
        rfl
      have hlatest : latest (.update state :: history) = raw := by rw [latest, hupdates]; rfl
      have hbefore : beforeLatest (.update state :: history) = latest history := by
        rw [beforeLatest, hupdates]
        rfl
      refine ⟨hconsistent, by rw [hplain, hlatest], fun key severity => ?_, ?_⟩
      · rw [hacked, h.acked_iff, ackedSince_cons, hraised]
        simp [AlarmCall.Acknowledges]
      · rw [hnewKeys, hlatest, hbefore]
        congr 1
        exact List.filter_congr fun alarm _ => decide_eq_decide.mpr (not_congr (activeAt_congr h.active_eq))

/-- After any updates and acknowledgements the strip shows what they tell: an alarm is acknowledged exactly when it was
so at its present severity since the updates find it active at that severity, and new are the alarms that the update
before did not find so. -/
theorem shows_run (calls : List AlarmCall) : (run step new calls).Shows calls.reverse := by
  have hrun : ∀ (calls history : List AlarmCall) (m : AlarmModel), m.Follows history →
      (run step m calls).Follows (calls.reverse ++ history) := by
    intro calls
    induction calls with
    | nil => exact fun history m h => h
    | cons call rest ih =>
      intro history m h
      rw [List.reverse_cons, List.append_assoc]
      exact ih _ _ (h.step call)
  have hnew : new.Follows [] := by
    refine ⟨consistent_new, rfl, fun key severity => ⟨fun h => (nomatch h), fun h => ?_⟩, rfl⟩
    obtain ⟨alarm, hmem, _⟩ := h.activeAt
    cases hmem
  have hfollows := hrun calls [] new hnew
  rw [List.append_nil] at hfollows
  refine ⟨hfollows.active_eq, fun alarm halarm => ?_, hfollows.newKeys_eq⟩
  rw [hfollows.consistent.flags alarm halarm, hfollows.acked_iff]

end AlarmModel

end Coatheal.Ground
