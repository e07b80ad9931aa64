import Coatheal.Library.Checked
import Coatheal.Library.Json
import Coatheal.Library.PyDict

/-!
# Thermal presets

`ThermalPreset` of `thermal_presets.py`: six targets and the gains of all channels
and of single ones, how a preset is written as JSON and how it is read. What is
written is read back. The order of names in a file is left out, as every reader
looks names up.
-/

namespace Coatheal.Ground.ThermalPresets

open Library
open Library.PyText (Double doubleOf)
open Library.Text (showInt showNat)

/-- `HEATER_COUNT`. -/
def heaterCount : ℕ := 6

/-- The gains of a controller. -/
structure Gains where
  kp : Double
  ki : Double
  kd : Double
deriving DecidableEq

/-- `DEFAULT_GAINS`. -/
def defaultGains : Gains := ⟨⟨false, doubleOf (20 / 100)⟩, ⟨false, doubleOf (2 / 100)⟩, ⟨false, doubleOf (3 / 100)⟩⟩

/-- `ThermalPreset`, with its six targets. -/
structure ThermalPreset where
  name : List Char
  targetsC : List (Option Double)
  pidAll : Gains
  pidChannels : PyDict ℤ Gains
  note : List Char
  createdUtc : List Char
  lastAppliedUtc : Json
  six : targetsC.length = heaterCount

/-- The exceptions that a look into a file may raise. -/
inductive Fault where
  | attributeError
  | raised (error : PyError)
deriving DecidableEq

/-- Where an exception of two kinds is caught, there is another value. -/
def exceptTypeOrValue {α : Type} (result : Except PyError α) (other : α) : Except PyError α :=
  match result with
  | .error .typeError => .ok other
  | .error .valueError => .ok other
  | _ => result

/-- Three floats as gains. -/
def readThree (kp ki kd : Json) : Except PyError Gains := do
  let p ← kp.toFloat
  let i ← ki.toFloat
  let d ← kd.toFloat
  return ⟨p, i, d⟩

/-- `_gains`. -/
def readGains : Json → Except PyError Gains
  | .dict entries =>
    let get (key : String) (default : Double) : Json := (Dictionary.get? entries key.toList).getD (.float default)
    exceptTypeOrValue (readThree (get "kp" defaultGains.kp) (get "ki" defaultGains.ki) (get "kd" defaultGains.kd))
      defaultGains
  | .list [kp, ki, kd] => exceptTypeOrValue (readThree kp ki kd) defaultGains
  | _ => .ok defaultGains

/-- A target of a file. -/
def readTarget : Json → Except PyError (Option Double)
  | .null => .ok none
  | value => exceptTypeOrValue (value.toFloat.map some) none

/-- The loop over the gains of single channels. -/
def readChannels (channels : PyDict ℤ Gains) : Dictionary (List Char) Json → Except PyError (PyDict ℤ Gains)
  | [] => .ok channels
  | (key, gains) :: rest =>
    match PyText.int key with
    | none => readChannels channels rest
    | some channel =>
      match readGains gains with
      | .error .typeError => readChannels channels rest
      | .error .valueError => readChannels channels rest
      | .error error => .error error
      | .ok gains => readChannels (channels.set channel gains) rest

/-- `(value or {}).items()`. -/
def itemsOrNone (value : Json) : Except Fault (Dictionary (List Char) Json) :=
  if value.isTrue then
    match value with
    | .dict entries => .ok entries
    | _ => .error .attributeError
  else .ok []

/-- Six targets: the first six, and none behind them if there are fewer. -/
def sixTargets (targets : List (Option Double)) : List (Option Double) := List.takeD heaterCount targets none

/-- There are six. -/
theorem length_sixTargets (targets : List (Option Double)) : (sixTargets targets).length = heaterCount :=
  List.takeD_length _ _ _

/-- `ThermalPreset.from_json`, where `text` is `str` of what is not a text already. -/
def ThermalPreset.fromJson (text : Json → List Char) (name : List Char) (data : Dictionary (List Char) Json) :
    Except Fault ThermalPreset := do
  let get (key : String) (default : Json) : Json := (Dictionary.get? data key.toList).getD default
  let str : Json → List Char
    | .str already => already
    | other => text other
  let targetsRaw ← ((get "targets_c" (.list [])).toList).mapError .raised
  let targets ← ((targetsRaw.take heaterCount).mapM readTarget).mapError .raised
  let all := get "pid_all" .null
  let pidAll ← (readGains (if all.isTrue then all else get "pid" .null)).mapError .raised
  let items ← itemsOrNone (get "pid_channels" .null)
  let channels ← (readChannels .empty items).mapError .raised
  return {
    name := name
    targetsC := sixTargets targets
    pidAll := pidAll
    pidChannels := channels
    note := str (get "note" (.str []))
    createdUtc := str (get "created_utc" (.str []))
    lastAppliedUtc := get "last_applied_utc" .null
    six := length_sixTargets targets }

/-- Gains as JSON. -/
def Gains.toJson (gains : Gains) : Json :=
  .dict [("kp".toList, .float gains.kp), ("ki".toList, .float gains.ki), ("kd".toList, .float gains.kd)]

/-- A target as JSON. -/
def targetJson : Option Double → Json
  | none => .null
  | some target => .float target

/-- `str` of an integer, which may not have too many digits. -/
def strInt (value : ℤ) : Except PyError (List Char) :=
  if PyText.maxStrDigits < (showNat value.natAbs).length then .error .valueError else .ok (showInt value)

/-- The gains of single channels as JSON. -/
def channelsJson (channels : Dictionary ℤ Gains) : Except PyError (Dictionary (List Char) Json) :=
  channels.mapM fun channel => do
    let key ← strInt channel.1
    return (key, channel.2.toJson)

/-- `ThermalPreset.to_json`. -/
def ThermalPreset.toJson (preset : ThermalPreset) : Except PyError (Dictionary (List Char) Json) := do
  let channels ← channelsJson preset.pidChannels.entries
  return [("targets_c".toList, .list (preset.targetsC.map targetJson)), ("pid_all".toList, preset.pidAll.toJson),
    ("pid_channels".toList, .dict channels), ("note".toList, .str preset.note),
    ("created_utc".toList, .str preset.createdUtc), ("last_applied_utc".toList, preset.lastAppliedUtc)]

/-- Gains are read back. -/
theorem readGains_toJson (gains : Gains) : readGains gains.toJson = .ok gains := by
  rfl

/-- Targets are read back. -/
theorem mapM_readTarget (targets : List (Option Double)) : (targets.map targetJson).mapM readTarget = .ok targets := by
  induction targets with
  | nil => rfl
  | cons target rest ih =>
    have htarget : readTarget (targetJson target) = .ok target := by cases target <;> rfl
    rw [List.map_cons, List.mapM_cons, htarget, ih]
    rfl

/-- Six targets are all of them. -/
theorem sixTargets_eq_self {targets : List (Option Double)} (h : targets.length = heaterCount) :
    sixTargets targets = targets := by
  rw [sixTargets, ← h, List.takeD_eq_take _ (le_refl _), List.take_length]

/-- The channels that are written are read back. -/
theorem readChannels_channelsJson {channels : Dictionary ℤ Gains} {items : Dictionary (List Char) Json}
    (h : channelsJson channels = .ok items) (dict : PyDict ℤ Gains) :
    readChannels dict items = .ok (channels.foldl (fun dict entry => dict.set entry.1 entry.2) dict) := by
  induction channels generalizing items dict with
  | nil =>
    obtain rfl := Except.ok.inj h
    rfl
  | cons channel rest ih =>
    rw [channelsJson, List.mapM_cons] at h
    obtain ⟨item, hitem, h⟩ := Checked.bind_ok h
    obtain ⟨others, hothers, h⟩ := Checked.bind_ok h
    obtain rfl := Except.ok.inj h
    obtain ⟨key, hkey, hitem⟩ := Checked.bind_ok hitem
    obtain rfl := Except.ok.inj hitem
    have hint : PyText.int key = some channel.1 := by
      rw [strInt] at hkey
      split at hkey
      case isTrue => cases hkey
      case isFalse hshort =>
        obtain rfl := Except.ok.inj hkey
        exact PyText.int_showInt (not_lt.mp hshort)
    rw [readChannels, hint]
    dsimp only
    rw [readGains_toJson]
    exact ih hothers _

/-- The items of a dict are its entries. -/
theorem itemsOrNone_dict (entries : Dictionary (List Char) Json) : itemsOrNone (.dict entries) = .ok entries := by
  cases entries with
  | nil => rfl
  | cons entry rest => rfl

/-- A preset that is written is read back, under the name that it is read with. -/
theorem ThermalPreset.fromJson_toJson {preset : ThermalPreset} {data : Dictionary (List Char) Json}
    (h : preset.toJson = .ok data) (text : Json → List Char) (name : List Char) :
    fromJson text name data = .ok { preset with name := name } := by
  obtain ⟨items, hitems, h⟩ := Checked.bind_ok h
  obtain rfl := Except.ok.inj h
  have hchannels : readChannels .empty items = .ok preset.pidChannels := by
    rw [readChannels_channelsJson hitems]
    refine congrArg Except.ok (PyDict.ext ?_)
    exact PyDict.foldl_set .empty preset.pidChannels.entries preset.pidChannels.distinct
  have htake : (preset.targetsC.map targetJson).take heaterCount = preset.targetsC.map targetJson :=
    List.take_of_length_le (by rw [List.length_map, preset.six])
  have htargets : (((preset.targetsC.map targetJson).take heaterCount).mapM readTarget).mapError Fault.raised =
      .ok preset.targetsC := by
    rw [htake, mapM_readTarget]
    rfl
  have hpid : (readGains preset.pidAll.toJson).mapError Fault.raised = .ok preset.pidAll := by
    rw [readGains_toJson]
    rfl
  change (do
    let targets ← (((preset.targetsC.map targetJson).take heaterCount).mapM readTarget).mapError Fault.raised
    let pidAll ← (readGains preset.pidAll.toJson).mapError Fault.raised
    let items ← itemsOrNone (.dict items)
    let channels ← (readChannels .empty items).mapError Fault.raised
    return (⟨name, sixTargets targets, pidAll, channels, preset.note, preset.createdUtc, preset.lastAppliedUtc,
      length_sixTargets targets⟩ : ThermalPreset)) = _
  rw [htargets, hpid, itemsOrNone_dict]
  simp only [bind, Except.bind, hchannels, Except.mapError, pure, Except.pure, sixTargets_eq_self preset.six]

end Coatheal.Ground.ThermalPresets
