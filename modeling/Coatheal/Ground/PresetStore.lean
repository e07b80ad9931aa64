import Coatheal.Ground.ThermalPresets

/-!
# The file of the presets

`PresetStore` of `thermal_presets.py`: presets that are held in memory, read from a
file and written to it as a whole. A process that saves without having read the
file writes only what it holds itself, so that the presets of the file are lost; as
long as no process does that, every saved preset stays in the file.
-/

namespace Coatheal.Ground.PresetStore

open Library ThermalPresets

/-- Names are compared as texts. -/
local instance lawfulBEqText : LawfulBEq (List Char) := List.instLawfulBEq

/-- What stands in a file: JSON, or a text that is none. -/
inductive Content where
  | json (value : Json)
  | garbage

/-- The file of the presets, its backup, and the file of the profiles of version 1. -/
structure Disk where
  presets : Option Content
  backup : Option Content
  legacy : Option Content

/-- The presets by their names. -/
abbrev Presets := PyDict (List Char) ThermalPreset

/-- The file that `load_error` is about. -/
inductive Unreadable where
  | presets
  | legacy

/-- `PresetStore`. -/
structure Store where
  presets : Presets
  loadError : Option Unreadable
  migratedFrom : Bool

/-- A store that was not loaded. -/
def Store.new : Store := ⟨.empty, none, false⟩

/-- How the writing of a save ends: the new file is put in the place of the old one, or it fails before that, with the backup
as it was left. -/
inductive SaveEnd where
  | replaced
  | failed (backup : Option Content)

/-- The payload of a save. -/
def payload (presets : Presets) (now : List Char) : Except PyError Json := do
  let entries ← presets.entries.mapM fun entry => do
    let data ← entry.2.toJson
    return (entry.1, Json.dict data)
  return .dict [("version".toList, .int 2), ("saved_utc".toList, .str now), ("presets".toList, .dict entries)]

/-- `save`: the files, and that the new file is in its place. -/
def save (disk : Disk) (presets : Presets) (now : List Char) (ends : SaveEnd) : Disk × Bool :=
  match payload presets now, ends with
  | .ok value, .replaced =>
    (⟨some (.json value), if disk.presets.isSome then disk.presets else disk.backup, disk.legacy⟩, true)
  | .ok _, .failed backup => ({ disk with backup := backup }, false)
  | .error _, _ => (disk, false)

/-- The loop over the presets of a file: those that are read, and that it ends without an exception. -/
def addPresets (text : Json → List Char) (adjust : ThermalPreset → ThermalPreset) :
    Presets → Dictionary (List Char) Json → Presets × Bool
  | presets, [] => (presets, true)
  | presets, (name, .dict data) :: rest =>
    match ThermalPreset.fromJson text name data with
    | .error _ => (presets, false)
    | .ok preset => addPresets text adjust (presets.set name (adjust preset)) rest
  | presets, _ :: rest => addPresets text adjust presets rest

/-- `(payload.get("presets") or {}).items()`. -/
def presetItems : Json → Except Fault (Dictionary (List Char) Json)
  | .dict entries => itemsOrNone ((Dictionary.get? entries "presets".toList).getD .null)
  | _ => .error .attributeError

/-- What a load leaves: the files, the store, whether the file of the presets was read or there is none, and whether the new
file of a migration is in its place. -/
structure Loaded where
  disk : Disk
  store : Store
  read : Bool
  saved : Bool

/-- The profiles of version 1: those under a name of their own, or the whole dict. -/
def legacyProfiles : Json → Json
  | .dict entries => (Dictionary.get? entries "profiles".toList).getD (.dict entries)
  | _ => .dict []

/-- `_migrate_legacy`. -/
def migrateLegacy (text : Json → List Char) (disk : Disk) (content : Content) (readable : Bool) (now : List Char)
    (ends : SaveEnd) : Loaded :=
  match readable, content with
  | true, .json value =>
    match itemsOrNone (legacyProfiles value) with
    | .error _ => ⟨disk, .new, true, false⟩
    | .ok items =>
      let adjust (preset : ThermalPreset) : ThermalPreset :=
        { preset with
          note := if preset.note = [] then "migrated from thermal_profiles.json (v1)".toList else preset.note
          createdUtc := if preset.createdUtc = [] then now else preset.createdUtc }
      let loop := addPresets text adjust .empty items
      if !loop.2 then ⟨disk, { Store.new with presets := loop.1 }, true, false⟩
      else
        let store : Store := { Store.new with presets := loop.1, migratedFrom := true }
        if loop.1.entries.isEmpty then ⟨disk, store, true, false⟩
        else
          let result := save disk loop.1 now ends
          ⟨result.1, store, true, result.2⟩
  | _, _ => ⟨disk, { Store.new with loadError := some .legacy }, true, false⟩

/-- `load`, where the two files can be read or not. -/
def load (text : Json → List Char) (disk : Disk) (readable legacyReadable : Bool) (now : List Char) (ends : SaveEnd) :
    Loaded :=
  match disk.presets, disk.legacy with
  | some content, _ =>
    match readable, content with
    | true, .json value =>
      match presetItems value with
      | .error _ => ⟨disk, .new, false, false⟩
      | .ok items =>
        let loop := addPresets text id .empty items
        ⟨disk, { Store.new with presets := loop.1 }, loop.2, false⟩
    | _, _ => ⟨disk, { Store.new with loadError := some .presets }, false, false⟩
  | none, some content => migrateLegacy text disk content legacyReadable now ends
  | none, none => ⟨disk, .new, true, false⟩

/-- The targets and the gains of a preset. -/
structure Settings where
  targetsC : List (Option PyText.Double)
  pidAll : Gains
  pidChannels : PyDict ℤ Gains

/-- What a preset sets. -/
def settingsOf (preset : ThermalPreset) : Settings := ⟨preset.targetsC, preset.pidAll, preset.pidChannels⟩

/-- A preset that was saved and neither deleted nor replaced since: the names that it may have, which are more than one only
after a rename, and what it sets. -/
structure Promise where
  names : List (List Char)
  settings : Settings

/-- The presets that a save has written. -/
def promisesOf (presets : Presets) : List Promise := presets.entries.map fun entry => ⟨[entry.1], settingsOf entry.2⟩

/-- A preset goes by a new name as well. -/
def Promise.renamed (promise : Promise) (old new : List Char) : Promise :=
  if old ∈ promise.names then { promise with names := new :: promise.names } else promise

/-- The files and the store of the process that runs. Besides, whether the last load of this process has read the file of the
presets, or found none, and the presets that must not be lost. -/
structure World where
  disk : Disk
  store : Store
  read : Bool
  promises : List Promise

/-- What may happen. -/
inductive Operation where
  | restart
  | load (readable legacyReadable : Bool) (now : List Char) (ends : SaveEnd)
  | put (preset : ThermalPreset) (now : List Char) (ends : SaveEnd)
  | delete (name now : List Char) (ends : SaveEnd)
  | rename (old new now : List Char) (ends : SaveEnd)
  | markApplied (name : List Char) (tsUtc : Option (List Char)) (now : List Char) (ends : SaveEnd)

/-- The presets are changed and saved. -/
def World.saving (world : World) (presets : Presets) (promises : List Promise) (now : List Char) (ends : SaveEnd) : World :=
  let result := save world.disk presets now ends
  { disk := result.1
    store := { world.store with presets := presets }
    read := world.read
    promises := if result.2 then promises ++ promisesOf presets else promises }

/-- The promises without those of a name. -/
def without (promises : List Promise) (name : List Char) : List Promise :=
  promises.filter fun promise => name ∉ promise.names

/-- `put`. -/
def World.put (world : World) (preset : ThermalPreset) (now : List Char) (ends : SaveEnd) : World :=
  let dated := if preset.createdUtc = [] then { preset with createdUtc := now } else preset
  world.saving (world.store.presets.set dated.name dated) (without world.promises dated.name) now ends

/-- `delete`. -/
def World.delete (world : World) (name now : List Char) (ends : SaveEnd) : World :=
  match world.store.presets.get? name with
  | none => world
  | some _ => world.saving (world.store.presets.erase name) (without world.promises name) now ends

/-- `rename`. -/
def World.rename (world : World) (old new now : List Char) (ends : SaveEnd) : World :=
  match world.store.presets.get? old, world.store.presets.get? new with
  | some preset, none =>
    if new = [] then world
    else world.saving ((world.store.presets.erase old).set new { preset with name := new })
      (world.promises.map fun promise => promise.renamed old new) now ends
  | _, _ => world

/-- `mark_applied`. -/
def World.markApplied (world : World) (name : List Char) (tsUtc : Option (List Char)) (now : List Char)
    (ends : SaveEnd) : World :=
  match world.store.presets.get? name with
  | none => world
  | some preset =>
    let stamp := if (tsUtc.getD []) = [] then now else tsUtc.getD []
    world.saving (world.store.presets.set name { preset with lastAppliedUtc := .str stamp }) world.promises now ends

/-- One thing happens. -/
def step (text : Json → List Char) (world : World) : Operation → World
  | .restart => { world with store := .new, read := false }
  | .load readable legacyReadable now ends =>
    let loaded := load text world.disk readable legacyReadable now ends
    { disk := loaded.disk
      store := loaded.store
      read := loaded.read
      promises := if loaded.saved then world.promises ++ promisesOf loaded.store.presets else world.promises }
  | .put preset now ends => world.put preset now ends
  | .delete name now ends => world.delete name now ends
  | .rename old new now ends => world.rename old new now ends
  | .markApplied name tsUtc now ends => world.markApplied name tsUtc now ends

/-- The first process, with files of any kind. -/
def start (disk : Disk) : World := ⟨disk, .new, false, []⟩

/-- Several things happen. -/
def run (text : Json → List Char) (world : World) (operations : List Operation) : World :=
  operations.foldl (step text) world

/-- The operation reaches `save`. -/
def reachesSave (store : Store) : Operation → Bool
  | .restart => false
  | .load _ _ _ _ => false
  | .put _ _ _ => true
  | .delete name _ _ => (store.presets.get? name).isSome
  | .rename old new _ _ => (store.presets.get? old).isSome && (store.presets.get? new).isNone && decide (new ≠ [])
  | .markApplied name _ _ _ => (store.presets.get? name).isSome

/-- Whatever saves is done by a process whose last load has read the file of the presets, or found none. -/
def SavesWhatWasRead (text : Json → List Char) (world : World) : List Operation → Prop
  | [] => True
  | operation :: rest =>
    (reachesSave world.store operation = true → world.read = true) ∧ SavesWhatWasRead text (step text world operation) rest

/-- No preset is lost: the next load that can read the file gives every preset that was saved and neither deleted nor replaced
since, with its targets and gains. -/
def NothingLost (text : Json → List Char) (world : World) : Prop :=
  ∀ legacyReadable now ends, ∀ promise ∈ world.promises, ∃ name ∈ promise.names,
    ((load text world.disk true legacyReadable now ends).store.presets.get? name).map settingsOf = some promise.settings

section Files

variable {text : Json → List Char} {disk : Disk} {presets : Presets} {promises : List Promise} {promise : Promise}
  {name : List Char}

/-- Some presets have what was promised. -/
def Holds (presets : Presets) (promises : List Promise) : Prop :=
  ∀ promise ∈ promises, ∃ name ∈ promise.names, (presets.get? name).map settingsOf = some promise.settings

/-- The presets that stand in the file, as far as they can be read. -/
def filePresets (text : Json → List Char) (disk : Disk) : Presets :=
  match disk.presets with
  | some (.json value) =>
    match presetItems value with
    | .error _ => .empty
    | .ok items => (addPresets text id .empty items).1
  | _ => .empty

/-- A load that can read the file gives what stands in it, if there is a file. -/
theorem load_presets (h : disk.presets.isSome = true) (legacyReadable : Bool) (now : List Char) (ends : SaveEnd) :
    (load text disk true legacyReadable now ends).store.presets = filePresets text disk := by
  obtain ⟨content, hcontent⟩ := Option.isSome_iff_exists.mp h
  rw [load, filePresets, hcontent]
  cases content with
  | garbage => rfl
  | json value =>
    dsimp only
    cases presetItems value with
    | error fault => rfl
    | ok items => rfl

/-- Where the file has what was promised, nothing is lost. -/
theorem nothingLost_of_holds {world : World} (h : Holds (filePresets text world.disk) world.promises) :
    NothingLost text world := by
  intro legacyReadable now ends promise hpromise
  obtain ⟨name, hname, hsettings⟩ := h promise hpromise
  refine ⟨name, hname, ?_⟩
  have hfile : world.disk.presets.isSome = true := by
    rw [filePresets] at hsettings
    cases hpresets : world.disk.presets with
    | none =>
      rw [hpresets] at hsettings
      cases hsettings
    | some content => rfl
  rw [load_presets hfile]
  exact hsettings

/-- The presets of a payload are read back under their names. -/
theorem addPresets_payload {entries : Dictionary (List Char) ThermalPreset} {items : Dictionary (List Char) Json}
    (h : (entries.mapM fun entry => do
      let data ← entry.2.toJson
      return (entry.1, Json.dict data)) = .ok items) (presets : Presets) :
    addPresets text id presets items =
      ((entries.map fun entry => (entry.1, { entry.2 with name := entry.1 })).foldl
        (fun presets entry => presets.set entry.1 entry.2) presets, true) := by
  induction entries generalizing items presets with
  | nil =>
    obtain rfl := Except.ok.inj h
    rfl
  | cons entry rest ih =>
    rw [List.mapM_cons] at h
    obtain ⟨item, hitem, h⟩ := Checked.bind_ok h
    obtain ⟨others, hothers, h⟩ := Checked.bind_ok h
    obtain rfl := Except.ok.inj h
    obtain ⟨data, hdata, hitem⟩ := Checked.bind_ok hitem
    obtain rfl := Except.ok.inj hitem
    rw [addPresets, ThermalPreset.fromJson_toJson hdata]
    exact ih hothers _

/-- What is written is what the file has. -/
theorem filePresets_save {now : List Char} {ends : SaveEnd} (h : (save disk presets now ends).2 = true) (name : List Char) :
    ((filePresets text (save disk presets now ends).1).get? name).map settingsOf =
      (presets.get? name).map settingsOf := by
  unfold save at h ⊢
  cases hpayload : payload presets now with
  | error fault =>
    rw [hpayload] at h
    cases h
  | ok value =>
    rw [hpayload] at h
    cases ends with
    | failed backup => cases h
    | replaced =>
      obtain ⟨items, hitems, hvalue⟩ := Checked.bind_ok hpayload
      obtain rfl := Except.ok.inj hvalue
      have hitemsOf : presetItems (.dict [("version".toList, .int 2), ("saved_utc".toList, .str now),
          ("presets".toList, .dict items)]) = .ok items := itemsOrNone_dict items
      have hread := @addPresets_payload text _ _ hitems .empty
      have hentries := PyDict.foldl_set .empty (presets.entries.map fun entry => (entry.1, { entry.2 with name := entry.1 }))
        (by
          rw [Dictionary.keys, PyDict.empty, List.nil_append, List.map_map]
          exact presets.distinct)
      change ((match presetItems (.dict [("version".toList, .int 2), ("saved_utc".toList, .str now),
          ("presets".toList, .dict items)]) with
        | .error _ => PyDict.empty
        | .ok items => (addPresets text id .empty items).1).get? name).map settingsOf = _
      rw [hitemsOf]
      dsimp only
      rw [hread, PyDict.get?, hentries, PyDict.get?]
      change (Dictionary.get? (presets.entries.map fun entry => (entry.1, { entry.2 with name := entry.1 })) name).map
        settingsOf = _
      induction presets.entries with
      | nil => rfl
      | cons entry rest ih =>
        rw [List.map_cons, Dictionary.get?_cons, Dictionary.get?_cons]
        by_cases hname : entry.1 = name
        · rw [if_pos hname, if_pos hname]
          rfl
        · rw [if_neg hname, if_neg hname]
          exact ih

/-- A save that fails leaves the file as it is. -/
theorem filePresets_save_failed {now : List Char} {ends : SaveEnd} (h : (save disk presets now ends).2 = false) :
    filePresets text (save disk presets now ends).1 = filePresets text disk := by
  unfold save at h ⊢
  split at h
  · cases h
  · rfl
  · rfl

/-- Nothing was promised. -/
theorem holds_nil (presets : Presets) : Holds presets [] := by
  intro promise hpromise
  cases hpromise

/-- Presets have what they themselves promise. -/
theorem holds_promisesOf (presets : Presets) : Holds presets (promisesOf presets) := by
  intro promise hpromise
  obtain ⟨entry, hentry, rfl⟩ := List.mem_map.mp hpromise
  refine ⟨entry.1, List.mem_singleton_self _, ?_⟩
  rw [PyDict.get?_eq_some_iff.mpr hentry]
  rfl

/-- What has two lists of promises has both together. -/
theorem Holds.append {others : List Promise} (h : Holds presets promises) (hothers : Holds presets others) :
    Holds presets (promises ++ others) := fun promise hpromise =>
  (List.mem_append.mp hpromise).elim (h promise) (hothers promise)

/-- Presets with the same settings have the same promises. -/
theorem Holds.congr {others : Presets} (h : Holds presets promises)
    (hsame : ∀ name, (others.get? name).map settingsOf = (presets.get? name).map settingsOf) : Holds others promises :=
  fun promise hpromise => by
    obtain ⟨name, hname, hsettings⟩ := h promise hpromise
    exact ⟨name, hname, (hsame name).trans hsettings⟩

end Files

section Runs

variable {text : Json → List Char} {world : World} {operation : Operation}

/-- What the runs keep: the file has what was promised, and so has the store if it was read from the file. -/
structure Safe (text : Json → List Char) (world : World) : Prop where
  file : Holds (filePresets text world.disk) world.promises
  store : world.read = true → Holds world.store.presets world.promises

/-- A save that succeeds promises what it saved. -/
theorem saving_promises (world : World) (presets : Presets) (promises : List Promise) (now : List Char)
    (ends : SaveEnd) : (world.saving presets promises now ends).promises =
      if (save world.disk presets now ends).2 then promises ++ promisesOf presets else promises := rfl

/-- So does a load that saves. -/
theorem load_promises (readable legacyReadable : Bool) (now : List Char) (ends : SaveEnd) :
    (step text world (.load readable legacyReadable now ends)).promises =
      if (load text world.disk readable legacyReadable now ends).saved then
        world.promises ++ promisesOf (load text world.disk readable legacyReadable now ends).store.presets
      else world.promises := rfl

/-- A save of presets that have what was promised is safe. -/
theorem safe_saving {presets : Presets} {promises : List Promise} (hstore : Holds presets promises)
    (hfile : Holds (filePresets text world.disk) promises) (now : List Char) (ends : SaveEnd) :
    Safe text (world.saving presets promises now ends) := by
  cases hsaved : (save world.disk presets now ends).2 with
  | false =>
    have hpromises : (world.saving presets promises now ends).promises = promises := by
      rw [saving_promises, hsaved]
      rfl
    refine ⟨?_, fun _ => ?_⟩
    · rw [hpromises]
      change Holds (filePresets text (save world.disk presets now ends).1) promises
      rw [filePresets_save_failed hsaved]
      exact hfile
    · rw [hpromises]
      exact hstore
  | true =>
    have hpromises : (world.saving presets promises now ends).promises = promises ++ promisesOf presets := by
      rw [saving_promises, hsaved]
      rfl
    have hboth := hstore.append (holds_promisesOf presets)
    refine ⟨?_, fun _ => ?_⟩
    · rw [hpromises]
      exact hboth.congr fun name => filePresets_save hsaved name
    · rw [hpromises]
      exact hboth

/-- With a preset set, the promises of other names are held. -/
theorem Holds.set {presets : Presets} {promises : List Promise} (h : Holds presets promises) (name : List Char)
    (preset : ThermalPreset) : Holds (presets.set name preset) (without promises name) := by
  intro promise hpromise
  obtain ⟨hin, hother⟩ := List.mem_filter.mp hpromise
  obtain ⟨held, hheld, hsettings⟩ := h promise hin
  have hne : name ≠ held := fun hsame => of_decide_eq_true hother (by rw [hsame]; exact hheld)
  refine ⟨held, hheld, ?_⟩
  rw [PyDict.get?_set, if_neg hne]
  exact hsettings

/-- With a preset taken out, the promises of other names are held. -/
theorem Holds.erase {presets : Presets} {promises : List Promise} (h : Holds presets promises) (name : List Char) :
    Holds (presets.erase name) (without promises name) := by
  intro promise hpromise
  obtain ⟨hin, hother⟩ := List.mem_filter.mp hpromise
  obtain ⟨held, hheld, hsettings⟩ := h promise hin
  have hne : name ≠ held := fun hsame => of_decide_eq_true hother (by rw [hsame]; exact hheld)
  refine ⟨held, hheld, ?_⟩
  rw [PyDict.get?_erase, if_neg hne]
  exact hsettings

/-- Fewer promises are held as well. -/
theorem Holds.without {presets : Presets} {promises : List Promise} (h : Holds presets promises) (name : List Char) :
    Holds presets (without promises name) := fun promise hpromise => h promise (List.mem_filter.mp hpromise).1

/-- With another stamp, a preset sets what it did. -/
theorem Holds.restamp {presets : Presets} {promises : List Promise} (h : Holds presets promises) {name : List Char}
    {preset stamped : ThermalPreset} (hpreset : presets.get? name = some preset)
    (hsame : settingsOf stamped = settingsOf preset) : Holds (presets.set name stamped) promises := by
  refine h.congr fun other => ?_
  rw [PyDict.get?_set]
  by_cases hother : name = other
  · rw [if_pos hother, ← hother, hpreset, Option.map_some, Option.map_some, hsame]
  · rw [if_neg hother]

/-- A new name changes nothing of what is promised. -/
theorem Promise.renamed_settings (promise : Promise) (old new : List Char) :
    (promise.renamed old new).settings = promise.settings := by
  rw [Promise.renamed]
  split
  · rfl
  · rfl

/-- Promises that may be held under a new name as well are held. -/
theorem Holds.renamed {presets : Presets} {promises : List Promise} (h : Holds presets promises) (old new : List Char) :
    Holds presets (promises.map fun promise => promise.renamed old new) := by
  intro promise hpromise
  obtain ⟨before, hin, rfl⟩ := List.mem_map.mp hpromise
  obtain ⟨held, hheld, hsettings⟩ := h before hin
  rw [Promise.renamed]
  split
  · exact ⟨held, List.mem_cons_of_mem _ hheld, hsettings⟩
  · exact ⟨held, hheld, hsettings⟩

/-- With a preset under a new name, the promises are held under the new name. -/
theorem Holds.rename {presets : Presets} {promises : List Promise} (h : Holds presets promises) {old new : List Char}
    {preset renamed : ThermalPreset} (hold : presets.get? old = some preset) (hnew : presets.get? new = none)
    (hsame : settingsOf renamed = settingsOf preset) :
    Holds ((presets.erase old).set new renamed) (promises.map fun promise => promise.renamed old new) := by
  intro promise hpromise
  obtain ⟨before, hin, rfl⟩ := List.mem_map.mp hpromise
  obtain ⟨held, hheld, hsettings⟩ := h before hin
  by_cases hmoved : held = old
  · subst hmoved
    rw [Promise.renamed, if_pos hheld]
    refine ⟨new, List.mem_cons_self, ?_⟩
    rw [PyDict.get?_set, if_pos rfl, Option.map_some, hsame, ← Option.map_some, ← hold]
    exact hsettings
  · have hother : new ≠ held := fun hsame => by
      rw [← hsame, hnew] at hsettings
      cases hsettings
    have hget : ((presets.erase old).set new renamed).get? held = presets.get? held := by
      rw [PyDict.get?_set, if_neg hother, PyDict.get?_erase, if_neg (Ne.symm hmoved)]
    refine ⟨held, ?_, by rw [hget, hsettings, Promise.renamed_settings]⟩
    rw [Promise.renamed]
    split
    · exact List.mem_cons_of_mem _ hheld
    · exact hheld

/-- A migration that saves has saved what it holds. -/
theorem migrateLegacy_saved {disk : Disk} {content : Content} {readable : Bool} {now : List Char} {ends : SaveEnd}
    (h : (migrateLegacy text disk content readable now ends).saved = true) :
    (save disk (migrateLegacy text disk content readable now ends).store.presets now ends).2 = true ∧
      (migrateLegacy text disk content readable now ends).disk =
        (save disk (migrateLegacy text disk content readable now ends).store.presets now ends).1 := by
  unfold migrateLegacy at h ⊢
  split at h
  case h_2 => cases h
  case h_1 value =>
    split at h
    case h_1 => cases h
    case h_2 items hitems =>
      dsimp only at h
      split at h
      case isTrue => cases h
      case isFalse hends =>
        split at h
        case isTrue => cases h
        case isFalse hsome =>
          rw [if_neg hends, if_neg hsome]
          exact ⟨h, rfl⟩

/-- A load is safe. -/
theorem safe_load (h : Safe text world) (readable legacyReadable : Bool) (now : List Char) (ends : SaveEnd) :
    Safe text (step text world (.load readable legacyReadable now ends)) := by
  cases hfile : world.disk.presets with
  | some content =>
    have hkept : (load text world.disk readable legacyReadable now ends).disk = world.disk ∧
        (load text world.disk readable legacyReadable now ends).saved = false ∧
        ((load text world.disk readable legacyReadable now ends).read = true →
          (load text world.disk readable legacyReadable now ends).store.presets = filePresets text world.disk) := by
      unfold load filePresets
      rw [hfile]
      dsimp only
      split
      case h_2 => exact ⟨rfl, rfl, fun hread => by cases hread⟩
      case h_1 value =>
        dsimp only
        cases presetItems value with
        | error fault => exact ⟨rfl, rfl, fun hread => by cases hread⟩
        | ok items => exact ⟨rfl, rfl, fun _ => rfl⟩
    obtain ⟨hdisk, hsaved, hread⟩ := hkept
    have hpromises : (step text world (.load readable legacyReadable now ends)).promises = world.promises := by
      rw [load_promises, hsaved]
      rfl
    refine ⟨?_, fun hdone => ?_⟩
    · rw [hpromises]
      change Holds (filePresets text (load text world.disk readable legacyReadable now ends).disk) _
      rw [hdisk]
      exact h.file
    · rw [hpromises]
      change Holds (load text world.disk readable legacyReadable now ends).store.presets _
      rw [hread hdone]
      exact h.file
  | none =>
    -- without a file nothing can have been promised
    have hnone : world.promises = [] := by
      refine List.eq_nil_iff_forall_not_mem.mpr fun promise hpromise => ?_
      obtain ⟨name, _, hsettings⟩ := h.file promise hpromise
      rw [filePresets, hfile] at hsettings
      cases hsettings
    have hload : (load text world.disk readable legacyReadable now ends).saved = true →
        (save world.disk (load text world.disk readable legacyReadable now ends).store.presets now ends).2 = true ∧
        (load text world.disk readable legacyReadable now ends).disk =
          (save world.disk (load text world.disk readable legacyReadable now ends).store.presets now ends).1 := by
      intro hsaved
      unfold load at hsaved ⊢
      rw [hfile] at hsaved ⊢
      cases hlegacy : world.disk.legacy with
      | none =>
        rw [hlegacy] at hsaved
        cases hsaved
      | some content =>
        rw [hlegacy] at hsaved
        exact migrateLegacy_saved hsaved
    cases hsaved : (load text world.disk readable legacyReadable now ends).saved with
    | false =>
      have hpromises : (step text world (.load readable legacyReadable now ends)).promises = [] := by
        rw [load_promises, hsaved, hnone]
        rfl
      refine ⟨?_, fun _ => ?_⟩
      · rw [hpromises]
        exact holds_nil _
      · rw [hpromises]
        exact holds_nil _
    | true =>
      obtain ⟨hdone, hdisk⟩ := hload hsaved
      have hpromises : (step text world (.load readable legacyReadable now ends)).promises =
          promisesOf (load text world.disk readable legacyReadable now ends).store.presets := by
        rw [load_promises, hsaved, hnone]
        rfl
      refine ⟨?_, fun _ => ?_⟩
      · rw [hpromises]
        change Holds (filePresets text (load text world.disk readable legacyReadable now ends).disk) _
        rw [hdisk]
        exact (holds_promisesOf _).congr fun name => filePresets_save hdone name
      · rw [hpromises]
        exact holds_promisesOf _

/-- A stamp changes nothing of what a preset sets. -/
theorem settingsOf_stamped (preset : ThermalPreset) (stamp : Json) :
    settingsOf { preset with lastAppliedUtc := stamp } = settingsOf preset := rfl

/-- What saves what was read is safe, and so is what does not save. -/
theorem safe_step (h : Safe text world) (hread : reachesSave world.store operation = true → world.read = true) :
    Safe text (step text world operation) := by
  cases operation with
  | restart => exact ⟨h.file, fun hfalse => by cases hfalse⟩
  | load readable legacyReadable now ends => exact safe_load h readable legacyReadable now ends
  | put preset now ends => exact safe_saving ((h.store (hread rfl)).set _ _) (h.file.without _) now ends
  | delete name now ends =>
    rw [step, World.delete]
    cases hpreset : world.store.presets.get? name with
    | none => exact h
    | some preset =>
      have hheld := h.store (hread (by rw [reachesSave, hpreset]; rfl))
      exact safe_saving (hheld.erase name) (h.file.without name) now ends
  | rename old new now ends =>
    rw [step, World.rename]
    split
    case h_2 => exact h
    case h_1 preset hold hnew =>
      split
      case isTrue => exact h
      case isFalse hname =>
        have hheld := h.store (hread (by rw [reachesSave, hold, hnew, decide_eq_true hname]; rfl))
        have hmoved := hheld.rename hold hnew (show settingsOf { preset with name := new } = settingsOf preset from rfl)
        exact safe_saving hmoved (h.file.renamed old new) now ends
  | markApplied name tsUtc now ends =>
    rw [step, World.markApplied]
    cases hpreset : world.store.presets.get? name with
    | none => exact h
    | some preset =>
      have hheld := h.store (hread (by rw [reachesSave, hpreset]; rfl))
      exact safe_saving (hheld.restamp hpreset (settingsOf_stamped preset _)) h.file now ends

/-- Runs that save what was read are safe. -/
theorem safe_run {operations : List Operation} (h : Safe text world)
    (hread : SavesWhatWasRead text world operations) : Safe text (run text world operations) := by
  induction operations generalizing world with
  | nil => exact h
  | cons operation rest ih => exact ih (safe_step h hread.1) hread.2

/-- Whatever the files are at first, in every run in which each save is done by a process whose last load has read the file of
the presets, or found none, nothing is lost. -/
theorem nothingLost_run (text : Json → List Char) (disk : Disk) (operations : List Operation)
    (h : SavesWhatWasRead text (start disk) operations) : NothingLost text (run text (start disk) operations) := by
  have hstart : Safe text (start disk) := ⟨holds_nil _, fun _ => holds_nil _⟩
  exact nothingLost_of_holds (safe_run hstart h).file

end Runs

/-- A preset without targets. -/
def plainPreset (name : List Char) : ThermalPreset where
  name := name
  targetsC := List.replicate heaterCount none
  pidAll := ⟨⟨false, .finite 1⟩, ⟨false, .finite 0⟩, ⟨false, .finite 0⟩⟩
  pidChannels := .empty
  note := []
  createdUtc := "2026-08-28T00:00:00Z".toList
  lastAppliedUtc := .null
  six := List.length_replicate

/-- A preset is saved, and another one after a restart that could not read the file. -/
def unreadRun : List Operation :=
  [.load true true [] .replaced, .put (plainPreset "a".toList) [] .replaced, .restart, .load false true [] .replaced,
    .put (plainPreset "b".toList) [] .replaced]

/-- A preset is saved after a load that found no file, and nothing is lost. -/
theorem nothingLost_run_firstPreset :
    NothingLost (fun _ => []) (run (fun _ => []) (start ⟨none, none, none⟩)
      [.load true true [] .replaced, .put (plainPreset "a".toList) [] .replaced]) :=
  nothingLost_run (fun _ => []) ⟨none, none, none⟩ _ ⟨fun hno => (Bool.false_ne_true hno).elim, fun _ => rfl, trivial⟩

/-- Not in every run nothing is lost: a save after a load that failed leaves only the new preset in the file. -/
theorem not_nothingLost_unreadRun : ¬ ∀ (text : Json → List Char) (disk : Disk) (operations : List Operation),
    NothingLost text (run text (start disk) operations) := by
  intro hall
  have hpromise : ⟨["a".toList], settingsOf (plainPreset "a".toList)⟩ ∈
      (run (fun _ => []) (start ⟨none, none, none⟩) unreadRun).promises := List.mem_cons_self
  obtain ⟨name, hname, hsettings⟩ := hall (fun _ => []) ⟨none, none, none⟩ unreadRun true [] .replaced _ hpromise
  obtain rfl := List.mem_singleton.mp hname
  have hlost : ((load (fun _ => []) (run (fun _ => []) (start ⟨none, none, none⟩) unreadRun).disk true true []
      .replaced).store.presets.get? "a".toList).isNone = true := by
    decide +kernel
  rw [Option.isNone_iff_eq_none.mp hlost] at hsettings
  cases hsettings

end Coatheal.Ground.PresetStore
