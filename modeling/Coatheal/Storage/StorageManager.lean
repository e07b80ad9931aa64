import Coatheal.Library.Chunks
import Coatheal.Library.DurableFile
import Coatheal.Library.Utf8

/-!
# The two telemetry logs

`storage_manager.cpp`: every telemetry line is appended to a log on the SD card and
to one on the USB stick. Each of the two may fail by itself, with nothing written or
with a part. In safe mode a line is synced before the call returns. What a mirror
reports as synced is read back at any later time, whatever failures and power cuts
come in between.
-/

namespace Coatheal.Storage

open Library Library.Chunks

/-- The newline. -/
def newline : UInt8 := 10

/-- The `header` of a log. -/
def header : List UInt8 := Utf8.encode "# COATHEAL telemetry log\n".toList

/-- How appending a line ends: the file is not opened, only so many bytes get into it, or all do, and a sync would succeed or
not. -/
inductive WriteFate where
  | unopened
  | torn (count : ℕ)
  | written (syncs : Bool)

/-- A log, and whether it is reported as working. -/
structure Mirror where
  file : DurableFile UInt8
  ok : Bool

namespace Mirror

/-- What is appended for a line. -/
def payload (line : List UInt8) (writeHeader : Bool) : List UInt8 :=
  (if writeHeader then header else []) ++ (line ++ [newline])

/-- `AppendLine`. -/
def appendLine (m : Mirror) (line : List UInt8) (writeHeader sync : Bool) : WriteFate → Mirror
  | .unopened => { m with ok := false }
  | .torn count => ⟨m.file.append ((payload line writeHeader).take count), false⟩
  | .written syncs =>
    if !sync then ⟨m.file.append (payload line writeHeader), true⟩
    else if syncs then ⟨(m.file.append (payload line writeHeader)).sync, true⟩
    else ⟨m.file.append (payload line writeHeader), false⟩

/-- The `sync_path` of `FlushAndSync`, when the file is opened and synced and when it is not. -/
def syncPath (m : Mirror) (syncs : Bool) : Mirror :=
  if syncs then { m with file := m.file.sync } else { m with ok := false }

/-- The `probe` of `ActiveCheck`, when the file is opened and synced and when it is not. -/
def probe (m : Mirror) (syncs : Bool) : Mirror :=
  ⟨if syncs then m.file.sync else m.file, syncs⟩

/-- The process starts anew after a power cut. -/
def powerCut (m : Mirror) (behind : List UInt8) : Mirror := ⟨m.file.powerCut behind, true⟩

end Mirror

/-- `StorageManager`. -/
structure StorageManager where
  primary : Mirror
  secondary : Mirror
  wroteHeader : Bool
  safeMode : Bool

/-- One of the two logs. -/
inductive Side where
  | primary
  | secondary
deriving DecidableEq

/-- The calls of the storage manager, with what the two files do, and power cuts, with what each file has behind its durable
part. -/
inductive StorageStep where
  | writeLine (line : List UInt8) (primary secondary : WriteFate)
  | flushAndSync (primary secondary : Bool)
  | activeCheck (primary secondary : Bool)
  | setSafeMode (enabled : Bool)
  | powerCut (primary secondary : List UInt8)

namespace StorageManager

/-- `WriteLine`. -/
def writeLine (s : StorageManager) (line : List UInt8) (primary secondary : WriteFate) : StorageManager :=
  let first := s.primary.appendLine line (!s.wroteHeader) s.safeMode primary
  let second := s.secondary.appendLine line (!s.wroteHeader) s.safeMode secondary
  { s with primary := first, secondary := second, wroteHeader := first.ok || second.ok || s.wroteHeader }

/-- A step. -/
def step (s : StorageManager) : StorageStep → StorageManager
  | .writeLine line primary secondary => s.writeLine line primary secondary
  | .flushAndSync primary secondary =>
    { s with primary := s.primary.syncPath primary, secondary := s.secondary.syncPath secondary }
  | .activeCheck primary secondary =>
    { s with primary := s.primary.probe primary, secondary := s.secondary.probe secondary }
  | .setSafeMode enabled => { s with safeMode := enabled }
  | .powerCut primary secondary =>
    ⟨s.primary.powerCut primary, s.secondary.powerCut secondary, false, false⟩

/-- Some steps. -/
def run (s : StorageManager) (steps : List StorageStep) : StorageManager := steps.foldl step s

/-- The log of a side. -/
def mirror (s : StorageManager) : Side → Mirror
  | .primary => s.primary
  | .secondary => s.secondary

/-- A step that means to sync. -/
def syncing (s : StorageManager) : StorageStep → Bool
  | .writeLine _ _ _ => s.safeMode
  | .flushAndSync _ _ | .activeCheck _ _ => true
  | _ => false

end StorageManager

namespace Mirror

/-- Appending a line keeps what is durable. -/
theorem continues_appendLine (m : Mirror) (line : List UInt8) (writeHeader sync : Bool) (fate : WriteFate) :
    m.file.Continues (m.appendLine line writeHeader sync fate).file := by
  have happend (text : List UInt8) : m.file.Continues (m.file.append text) :=
    DurableFile.continues_of_settled_eq (by simp)
  cases fate with
  | unopened => exact .refl _
  | torn count => exact happend _
  | written syncs =>
    rw [appendLine]
    split
    · exact happend _
    · split
      · exact (happend _).trans (DurableFile.continues_sync _)
      · exact happend _

/-- A line that was to be synced and is reported as written is in the file, and all of the file is durable. -/
theorem appendLine_ok {m : Mirror} {line : List UInt8} {writeHeader : Bool} {fate : WriteFate}
    (h : (m.appendLine line writeHeader true fate).ok = true) :
    (m.appendLine line writeHeader true fate).file = (m.file.append (payload line writeHeader)).sync := by
  cases fate with
  | unopened => cases h
  | torn count => cases h
  | written syncs =>
    cases syncs with
    | false => cases h
    | true => rfl

/-- A sync keeps what is durable. -/
theorem continues_syncPath (m : Mirror) (syncs : Bool) : m.file.Continues (m.syncPath syncs).file := by
  cases syncs with
  | false => exact .refl _
  | true => exact DurableFile.continues_sync _

/-- A probe keeps what is durable. -/
theorem continues_probe (m : Mirror) (syncs : Bool) : m.file.Continues (m.probe syncs).file := by
  cases syncs with
  | false => exact .refl _
  | true => exact DurableFile.continues_sync _

end Mirror

namespace StorageManager

variable {s : StorageManager}

/-- No step loses anything that is durable. -/
theorem continues_step (s : StorageManager) (step : StorageStep) (side : Side) :
    (s.mirror side).file.Continues ((s.step step).mirror side).file := by
  cases step with
  | writeLine line primary secondary =>
    cases side with
    | primary => exact s.primary.continues_appendLine line _ _ primary
    | secondary => exact s.secondary.continues_appendLine line _ _ secondary
  | flushAndSync primary secondary =>
    cases side with
    | primary => exact s.primary.continues_syncPath primary
    | secondary => exact s.secondary.continues_syncPath secondary
  | activeCheck primary secondary =>
    cases side with
    | primary => exact s.primary.continues_probe primary
    | secondary => exact s.secondary.continues_probe secondary
  | setSafeMode enabled => cases side <;> exact .refl _
  | powerCut primary secondary =>
    cases side with
    | primary => exact DurableFile.continues_of_settled_eq (DurableFile.settled_powerCut _ primary)
    | secondary => exact DurableFile.continues_of_settled_eq (DurableFile.settled_powerCut _ secondary)

/-- No run loses anything that is durable. -/
theorem continues_run (s : StorageManager) (steps : List StorageStep) (side : Side) :
    (s.mirror side).file.Continues ((s.run steps).mirror side).file := by
  induction steps generalizing s with
  | nil => exact .refl _
  | cons step steps ih => exact (s.continues_step step side).trans (ih (s.step step))

/-- After a step that meant to sync, a log that is reported as working is durable. -/
theorem synced_step {step : StorageStep} {side : Side} (hsyncing : s.syncing step = true)
    (hok : ((s.step step).mirror side).ok = true) : ∃ f, ((s.step step).mirror side).file = DurableFile.sync f := by
  cases step with
  | writeLine line primary secondary =>
    have hsafe : s.safeMode = true := hsyncing
    change ∃ f, ((s.writeLine line primary secondary).mirror side).file = DurableFile.sync f
    change ((s.writeLine line primary secondary).mirror side).ok = true at hok
    unfold writeLine at hok ⊢
    rw [hsafe] at hok ⊢
    cases side with
    | primary => exact ⟨_, Mirror.appendLine_ok hok⟩
    | secondary => exact ⟨_, Mirror.appendLine_ok hok⟩
  | flushAndSync primary secondary =>
    cases side with
    | primary =>
      cases primary with
      | false => cases hok
      | true => exact ⟨_, rfl⟩
    | secondary =>
      cases secondary with
      | false => cases hok
      | true => exact ⟨_, rfl⟩
  | activeCheck primary secondary =>
    cases side with
    | primary =>
      cases primary with
      | false => cases hok
      | true => exact ⟨_, rfl⟩
    | secondary =>
      cases secondary with
      | false => cases hok
      | true => exact ⟨_, rfl⟩
  | setSafeMode enabled => cases hsyncing
  | powerCut primary secondary => cases hsyncing

/-- The complete lines of a log. -/
def lines (m : Mirror) : List (List UInt8) := (pieces newline m.file.content).1

/-- What stands behind the last newline of a log. -/
def leftOver (m : Mirror) : List UInt8 := (pieces newline m.file.content).2

/-- The lines of the beginning of a file are the first lines of the file. -/
theorem pieces_prefix {front whole : List UInt8} (h : front <+: whole) :
    (pieces newline front).1 <+: (pieces newline whole).1 := by
  obtain ⟨rest, rfl⟩ := h
  rw [pieces_append]
  exact List.prefix_append _ _

/-- A line that was written is the last line of the log, behind what was left over unless the header came in between. -/
theorem lines_written {m : Mirror} {line : List UInt8} (hline : newline ∉ line) {writeHeader : Bool} {file : DurableFile UInt8}
    (hcontent : file.content = m.file.content ++ Mirror.payload line writeHeader) :
    (pieces newline file.content).1.getLast? = some ((if writeHeader then [] else leftOver m) ++ line) := by
  have hleft : newline ∉ (if writeHeader then [] else leftOver m) ++ line := by
    intro hmem
    rcases List.mem_append.mp hmem with hmem | hmem
    · cases writeHeader with
      | true => cases hmem
      | false => exact mark_notMem_pieces newline _ hmem
    · exact hline hmem
  have hlast : pieces newline (((if writeHeader then [] else leftOver m) ++ line) ++ [newline]) =
      ([(if writeHeader then [] else leftOver m) ++ line], []) := by
    rw [pieces_append_cons hleft]
    rfl
  rw [hcontent, Mirror.payload]
  cases writeHeader with
  | false =>
    rw [pieces_append]
    change ((pieces newline m.file.content).1 ++ (pieces newline (leftOver m ++ (line ++ [newline]))).1).getLast? = _
    rw [← List.append_assoc]
    have hplain : pieces newline (leftOver m ++ line ++ [newline]) = ([leftOver m ++ line], []) := hlast
    rw [hplain, List.getLast?_concat]
    rfl
  | true =>
    obtain ⟨title, htitle⟩ : ∃ title, header = title ++ [newline] := ⟨header.dropLast, by decide⟩
    have hempty : (pieces newline (m.file.content ++ header)).2 = [] := by
      have hend : m.file.content ++ header = (m.file.content ++ title) ++ newline :: [] := by
        rw [htitle, List.append_assoc]
      rw [hend]
      exact pieces_left List.not_mem_nil _
    have hplain : pieces newline (line ++ [newline]) = ([line], []) := hlast
    rw [if_pos rfl, ← List.append_assoc, pieces_append, hempty, List.nil_append, hplain, List.getLast?_concat]
    rfl

/-- After a step that meant to sync, all lines of a log that is reported as working are read back from it at any later time, as its
first lines: whatever then fails, and whatever power cuts leave behind them. The last of them is the line that the step wrote. -/
theorem lines_survive {step : StorageStep} {side : Side} (hsyncing : s.syncing step = true)
    (hok : ((s.step step).mirror side).ok = true) (steps : List StorageStep) :
    lines ((s.step step).mirror side) <+: lines (((s.step step).run steps).mirror side) ∧
      ∀ line primary secondary, step = .writeLine line primary secondary → newline ∉ line →
        (lines ((s.step step).mirror side)).getLast? =
          some ((if !s.wroteHeader then [] else leftOver (s.mirror side)) ++ line) := by
  constructor
  · obtain ⟨f, hsync⟩ := synced_step hsyncing hok
    have hlater := (s.step step).continues_run steps side
    rw [hsync] at hlater
    have hcontent : ((s.step step).mirror side).file.content = f.content := by rw [hsync]; rfl
    refine pieces_prefix ?_
    rw [hcontent]
    exact hlater.content_prefix
  · rintro line primary secondary rfl hline
    have hsafe : s.safeMode = true := hsyncing
    refine @lines_written (s.mirror side) line hline (!s.wroteHeader) _ ?_
    change ((s.writeLine line primary secondary).mirror side).ok = true at hok
    change ((s.writeLine line primary secondary).mirror side).file.content = _
    unfold writeLine at hok ⊢
    rw [hsafe] at hok ⊢
    cases side with
    | primary => exact congrArg DurableFile.content (Mirror.appendLine_ok hok)
    | secondary => exact congrArg DurableFile.content (Mirror.appendLine_ok hok)

/-- Two empty logs in safe mode. -/
def emptyLogs : StorageManager := ⟨⟨⟨[], 0, le_rfl⟩, true⟩, ⟨⟨[], 0, le_rfl⟩, true⟩, false, true⟩

/-- A line that only the second log takes, and a power cut that leaves a byte behind it. -/
theorem lines_survive_secondary :
    lines ((emptyLogs.step (.writeLine [65] .unopened (.written true))).mirror .secondary) <+:
      lines (((emptyLogs.step (.writeLine [65] .unopened (.written true))).run [.powerCut [] [66]]).mirror .secondary) ∧
    (lines ((emptyLogs.step (.writeLine [65] .unopened (.written true))).mirror .secondary)).getLast? = some [65] := by
  have hsurvive := @lines_survive emptyLogs (.writeLine [65] .unopened (.written true)) .secondary rfl rfl
    [.powerCut [] [66]]
  exact ⟨hsurvive.1, hsurvive.2 [65] .unopened (.written true) rfl (by decide)⟩

end StorageManager

end Coatheal.Storage
