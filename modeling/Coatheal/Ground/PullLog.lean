import Coatheal.Ground.Receiver
import Coatheal.Library.Run

/-!
# The log of the pulls

The two receivers over a sequence of lines from the onboard, whatever connections
they came on. The server keeps the keys of the pulls it has written and writes
the row of a new one before it answers. The GUI answers first, and writes a row
for every pull that it could answer.
-/

namespace Coatheal.Ground

open Library

/-- A session and a pull number: what the onboard calls one event. -/
abbrev PullKey := List Char × ℤ

/-- `dup_key`. -/
def PullEvent.dupKey (event : PullEvent) : PullKey := (event.sessionId, event.pullId)

/-- A line that is delivered, and whether its ACK can be sent before the connection is gone. -/
structure PullDelivery where
  line : List Char
  sent : Bool
deriving DecidableEq, Repr

/-- What a receiver keeps of the pulls: the keys it has seen, the pulls in the rows of `pulls.csv`, and the keys of
the ACKs that went out. -/
structure PullLog where
  seenPullIds : List PullKey
  rows : List PullEvent
  acknowledged : List PullKey
deriving DecidableEq

/-- A receiver starts with an empty log. -/
def PullLog.empty : PullLog := ⟨[], [], []⟩

/-- `on_pull`: a row for a pull. -/
def PullLog.onPull (log : PullLog) (event : PullEvent) : PullLog := { log with rows := log.rows ++ [event] }

/-- The ACK of a pull, if it can be sent. -/
def PullLog.sendAnswer (log : PullLog) (event : PullEvent) (sent : Bool) : PullLog :=
  if sent then { log with acknowledged := log.acknowledged ++ [event.dupKey] } else log

/-- The row of a pull that was not seen before. -/
def PullLog.onNewPull (log : PullLog) (event : PullEvent) : PullLog :=
  if event.dupKey ∈ log.seenPullIds then log
  else PullLog.onPull { log with seenPullIds := log.seenPullIds ++ [event.dupKey] } event

/-- The pull in a line, if it is one that can be read. -/
def Receiver.pullOf (receiver : Receiver) (inflate : List Char → Option (List Char)) (line : List Char) :
    Option PullEvent :=
  match (frameText inflate line).map receiver.read with
  | some (.pull event) => some event
  | _ => none

/-- A receiver takes a pull. The GUI leaves the connection when the ACK cannot be sent; the server has written by
then. -/
def Receiver.takePull (receiver : Receiver) (log : PullLog) (event : PullEvent) (sent : Bool) : PullLog :=
  match receiver with
  | .gui => if sent then (log.sendAnswer event sent).onPull event else log
  | .server => (log.onNewPull event).sendAnswer event sent

/-- A receiver takes a line. -/
def Receiver.take (receiver : Receiver) (inflate : List Char → Option (List Char)) (log : PullLog)
    (delivery : PullDelivery) : PullLog :=
  match receiver.pullOf inflate delivery.line with
  | some event => receiver.takePull log event delivery.sent
  | none => log

/-- The log after a sequence of deliveries. -/
def Receiver.pullLog (receiver : Receiver) (inflate : List Char → Option (List Char))
    (deliveries : List PullDelivery) : PullLog :=
  run (receiver.take inflate) .empty deliveries

/-- Every pull that was acknowledged has exactly one row. -/
def PullLog.ExactlyOnce (log : PullLog) : Prop :=
  ∀ key ∈ log.acknowledged, (log.rows.map PullEvent.dupKey).count key = 1

/-- The pulls whose ACK could be sent, as often as it was. -/
def Receiver.answeredPulls (receiver : Receiver) (inflate : List Char → Option (List Char))
    (deliveries : List PullDelivery) : List PullKey :=
  (deliveries.filter (·.sent)).filterMap fun delivery => (receiver.pullOf inflate delivery.line).map PullEvent.dupKey

/-- What the server's log satisfies: its rows are the keys seen, each once, and it acknowledged no other. -/
structure PullLog.Deduplicated (log : PullLog) : Prop where
  rows_eq : log.rows.map PullEvent.dupKey = log.seenPullIds
  nodup : log.seenPullIds.Nodup
  acknowledged_seen : ∀ key ∈ log.acknowledged, key ∈ log.seenPullIds

/-- The server's log starts deduplicated. -/
theorem PullLog.deduplicated_empty : PullLog.empty.Deduplicated :=
  ⟨rfl, List.nodup_nil, fun _ hkey => absurd hkey List.not_mem_nil⟩

/-- After its row a pull is among the ones seen, and the log is as deduplicated as before. -/
theorem PullLog.Deduplicated.onNewPull {log : PullLog} (h : log.Deduplicated) (event : PullEvent) :
    (log.onNewPull event).Deduplicated ∧ event.dupKey ∈ (log.onNewPull event).seenPullIds := by
  unfold PullLog.onNewPull
  split
  case isTrue hseen => exact ⟨h, hseen⟩
  case isFalse hnew =>
    refine ⟨⟨?_, ?_, fun key hkey => ?_⟩, ?_⟩
    · simp [PullLog.onPull, h.rows_eq]
    · exact List.nodup_append.mpr ⟨h.nodup, List.nodup_singleton _, fun key hkey other hother heq =>
        hnew (List.mem_singleton.mp hother ▸ heq ▸ hkey)⟩
    · exact List.mem_append_left _ (h.acknowledged_seen key hkey)
    · exact List.mem_append_right _ (List.mem_singleton_self _)

/-- The server may acknowledge a pull that it has seen. -/
theorem PullLog.Deduplicated.sendAnswer {log : PullLog} (h : log.Deduplicated) {event : PullEvent}
    (hseen : event.dupKey ∈ log.seenPullIds) (sent : Bool) : (log.sendAnswer event sent).Deduplicated := by
  cases sent with
  | false => exact h
  | true =>
    refine ⟨h.rows_eq, h.nodup, fun key hkey => ?_⟩
    rcases List.mem_append.mp hkey with hold | hnew
    · exact h.acknowledged_seen key hold
    · exact List.mem_singleton.mp hnew ▸ hseen

/-- Every line leaves the server's log deduplicated. -/
theorem PullLog.Deduplicated.take {log : PullLog} (h : log.Deduplicated)
    (inflate : List Char → Option (List Char)) (delivery : PullDelivery) :
    (Receiver.server.take inflate log delivery).Deduplicated := by
  unfold Receiver.take
  split
  case h_1 event _ =>
    obtain ⟨hlog, hseen⟩ := h.onNewPull event
    exact hlog.sendAnswer hseen delivery.sent
  case h_2 => exact h

/-- A deduplicated log has one row for each pull that was acknowledged. -/
theorem PullLog.Deduplicated.exactlyOnce {log : PullLog} (h : log.Deduplicated) : log.ExactlyOnce := by
  intro key hkey
  rw [h.rows_eq]
  exact List.count_eq_one_of_mem h.nodup (h.acknowledged_seen key hkey)

/-- The server's log is deduplicated after every sequence of deliveries. -/
theorem Receiver.server_deduplicated (inflate : List Char → Option (List Char)) (deliveries : List PullDelivery) :
    (Receiver.server.pullLog inflate deliveries).Deduplicated :=
  (holds_of_step (fun _ delivery h => h.take inflate delivery) (fun _ h => h) PullLog.deduplicated_empty
    deliveries).last

/-- The GUI adds a pull to its rows and to its ACKs at once, when the ACK could be sent. -/
theorem Receiver.gui_take (inflate : List Char → Option (List Char)) (log : PullLog) (delivery : PullDelivery) :
    ((Receiver.gui.take inflate log delivery).rows.map PullEvent.dupKey =
        log.rows.map PullEvent.dupKey ++ Receiver.gui.answeredPulls inflate [delivery]) ∧
      (Receiver.gui.take inflate log delivery).acknowledged =
        log.acknowledged ++ Receiver.gui.answeredPulls inflate [delivery] := by
  unfold Receiver.take answeredPulls
  cases hsent : delivery.sent <;> cases hpull : Receiver.gui.pullOf inflate delivery.line <;>
    simp [hsent, hpull, takePull, PullLog.sendAnswer, PullLog.onPull]

/-- The rows of the GUI and its ACKs are the pulls that it answered, as often as it did. -/
theorem Receiver.gui_pullLog (inflate : List Char → Option (List Char)) (deliveries : List PullDelivery) :
    ((Receiver.gui.pullLog inflate deliveries).rows.map PullEvent.dupKey =
        Receiver.gui.answeredPulls inflate deliveries) ∧
      (Receiver.gui.pullLog inflate deliveries).acknowledged = Receiver.gui.answeredPulls inflate deliveries := by
  have hfrom (log : PullLog) :
      ((run (Receiver.gui.take inflate) log deliveries).rows.map PullEvent.dupKey =
          log.rows.map PullEvent.dupKey ++ Receiver.gui.answeredPulls inflate deliveries) ∧
        (run (Receiver.gui.take inflate) log deliveries).acknowledged =
          log.acknowledged ++ Receiver.gui.answeredPulls inflate deliveries := by
    induction deliveries generalizing log with
    | nil => exact ⟨(List.append_nil _).symm, (List.append_nil _).symm⟩
    | cons delivery rest ih =>
      obtain ⟨hrows, hacknowledged⟩ := Receiver.gui_take inflate log delivery
      obtain ⟨hrest, hmore⟩ := ih (Receiver.gui.take inflate log delivery)
      have hsplit : Receiver.gui.answeredPulls inflate (delivery :: rest) =
          Receiver.gui.answeredPulls inflate [delivery] ++ Receiver.gui.answeredPulls inflate rest := by
        rw [answeredPulls, answeredPulls, answeredPulls, ← List.filterMap_append, ← List.filter_append,
          List.singleton_append]
      rw [run_cons, hrest, hmore, hrows, hacknowledged, hsplit, List.append_assoc, List.append_assoc]
      exact ⟨rfl, rfl⟩
  exact hfrom .empty

/-- After every sequence of deliveries, each pull that was acknowledged has exactly one row, exactly when the
receiver is the server, or no pull was answered twice. -/
theorem Receiver.exactlyOnce_iff (receiver : Receiver) (inflate : List Char → Option (List Char))
    (deliveries : List PullDelivery) :
    (receiver.pullLog inflate deliveries).ExactlyOnce ↔
      receiver = .server ∨ (receiver.answeredPulls inflate deliveries).Nodup := by
  cases receiver with
  | server => exact iff_of_true (server_deduplicated inflate deliveries).exactlyOnce (Or.inl rfl)
  | gui =>
    obtain ⟨hrows, hacknowledged⟩ := gui_pullLog inflate deliveries
    rw [PullLog.ExactlyOnce, hrows, hacknowledged, or_iff_right (by decide), List.nodup_iff_count_eq_one]

/-- The GUI writes a second row for a pull that comes again because its ACK was lost. -/
theorem Receiver.gui_not_exactlyOnce :
    ¬∀ (receiver : Receiver) (inflate : List Char → Option (List Char)) (deliveries : List PullDelivery),
      (receiver.pullLog inflate deliveries).ExactlyOnce := by
  intro hall
  have hrow := hall .gui (fun _ => none)
    [⟨"EVT,PULL,pi-17-5,3,0,2026-03-01T10:00:00Z,-120,4.0,-,8".toList, true⟩,
      ⟨"EVT,PULL,pi-17-5,3,0,2026-03-01T10:00:00Z,-120,4.0,-,8".toList, true⟩] ("pi-17-5".toList, 3)
  revert hrow
  decide +kernel

end Coatheal.Ground
