import Mathlib.Algebra.BigOperators.Group.List.Basic
import Mathlib.Algebra.Order.Field.Rat
import Mathlib.Data.Rat.Floor
import Mathlib.Data.List.Nodup

/-!
# The onboard link budget

`LinkBudget` keeps one share of the link: a ledger of charges that are summed
over a sliding window, the priorities of the callers that wait, and a model of
the kernel's egress shaper. Clock readings are nanoseconds, tokens of the shaper
are exact rationals. Every public call holds the mutex from start to end, except
that a waiting hold gives it up between two admission attempts.
-/

namespace Coatheal.Link

/-- The largest value of a 32-bit unsigned counter. -/
def uint32Max : ℕ := 4294967295

/-- Senders by urgency, the most urgent first. -/
inductive LinkPriority where
  | commandReply
  | live
  | discovery
  | replay
deriving DecidableEq, Repr

/-- The integer the waiter list holds for a priority. -/
def LinkPriority.toInt : LinkPriority → ℤ
  | .commandReply => 0
  | .live => 1
  | .discovery => 2
  | .replay => 3

/-- One charge of the ledger. It is open while `stop` is absent, which the clock's largest value
stands for in the source. -/
structure Entry where
  id : ℕ
  stop : Option ℤ
  bytes : ℕ
deriving DecidableEq, Repr

namespace Entry

/-- A closed charge leaves the ledger one window after its end. -/
def expired (window now : ℤ) (entry : Entry) : Bool :=
  match entry.stop with
  | none => false
  | some stop => decide (stop + window ≤ now)

/-- Set the end of a charge. -/
def closeAt (stop : Option ℤ) (entry : Entry) : Entry := { entry with stop := stop }

/-- Take at most `bytes` out of a charge. -/
def shrink (bytes : ℕ) (entry : Entry) : Entry :=
  { entry with bytes := entry.bytes - min bytes entry.bytes }

/-- Closing keeps the id. -/
theorem closeAt_id (stop : Option ℤ) (entry : Entry) : (entry.closeAt stop).id = entry.id := rfl

/-- Shrinking keeps the id. -/
theorem shrink_id (bytes : ℕ) (entry : Entry) : (entry.shrink bytes).id = entry.id := rfl

end Entry

/-- Change the first entry that carries the id, if there is one. -/
def updateFirst (id : ℕ) (change : Entry → Entry) : List Entry → List Entry
  | [] => []
  | entry :: rest => if entry.id = id then change entry :: rest else entry :: updateFirst id change rest

/-- A change that keeps ids keeps the ids of the list. -/
theorem updateFirst_ids (id : ℕ) {change : Entry → Entry} (hid : ∀ entry, (change entry).id = entry.id)
    (entries : List Entry) : (updateFirst id change entries).map Entry.id = entries.map Entry.id := by
  induction entries with
  | nil => rfl
  | cons entry rest ih =>
    unfold updateFirst
    split
    · simp [hid]
    · simp [ih]

/-- The charges of the ledger with the next free id: ids are handed out once and never reused. -/
structure Ledger where
  entries : List Entry
  nextId : ℕ
  ids_lt : ∀ entry ∈ entries, entry.id < nextId
  ids_nodup : (entries.map Entry.id).Nodup

namespace Ledger

/-- The ledger of a new budget. Id 0 is the ticket of a caller that holds nothing. -/
def empty : Ledger := ⟨[], 1, by simp, by simp⟩

/-- Drop every charge that has stopped counting. -/
def prune (ledger : Ledger) (window now : ℤ) : Ledger where
  entries := ledger.entries.filter fun entry => !entry.expired window now
  nextId := ledger.nextId
  ids_lt entry h := ledger.ids_lt entry (List.mem_of_mem_filter h)
  ids_nodup := ledger.ids_nodup.sublist (List.filter_sublist.map Entry.id)

/-- Append a charge under the next id. -/
def push (ledger : Ledger) (stop : Option ℤ) (bytes : ℕ) : Ledger where
  entries := ledger.entries ++ [⟨ledger.nextId, stop, bytes⟩]
  nextId := ledger.nextId + 1
  ids_lt entry h := by
    rcases List.mem_append.mp h with hold | hnew
    · exact Nat.lt_succ_of_lt (ledger.ids_lt entry hold)
    · rw [List.mem_singleton.mp hnew]
      exact Nat.lt_succ_self _
  ids_nodup := by
    have hfresh : ledger.nextId ∉ ledger.entries.map Entry.id := by
      intro h
      obtain ⟨entry, hentry, hid⟩ := List.mem_map.mp h
      exact absurd (ledger.ids_lt entry hentry) (by omega)
    simpa [List.nodup_append, ledger.ids_nodup] using fun entry hentry hid =>
      hfresh (List.mem_map.mpr ⟨entry, hentry, hid⟩)

/-- Change the charge of a ticket in place. -/
def update (ledger : Ledger) (ticket : ℕ) (change : Entry → Entry)
    (hid : ∀ entry, (change entry).id = entry.id) : Ledger where
  entries := updateFirst ticket change ledger.entries
  nextId := ledger.nextId
  ids_lt entry h := by
    have hmem : entry.id ∈ ledger.entries.map Entry.id := by
      rw [← updateFirst_ids ticket hid]
      exact List.mem_map_of_mem h
    obtain ⟨before, hbefore, heq⟩ := List.mem_map.mp hmem
    exact heq ▸ ledger.ids_lt before hbefore
  ids_nodup := by
    rw [updateFirst_ids ticket hid]
    exact ledger.ids_nodup

/-- A charge changed in place leaves every id where it was. -/
theorem update_ids (ledger : Ledger) (ticket : ℕ) (change : Entry → Entry)
    (hid : ∀ entry, (change entry).id = entry.id) :
    (ledger.update ticket change hid).entries.map Entry.id = ledger.entries.map Entry.id :=
  updateFirst_ids ticket hid ledger.entries

/-- The id of an entry is still there after a change in place. -/
theorem mem_update_ids {ledger : Ledger} {entry : Entry} (h : entry ∈ ledger.entries) (ticket : ℕ)
    (change : Entry → Entry) (hid : ∀ entry, (change entry).id = entry.id) :
    entry.id ∈ (ledger.update ticket change hid).entries.map Entry.id := by
  rw [update_ids]
  exact List.mem_map_of_mem h

/-- The ids of a ledger are still there after one more charge. -/
theorem mem_push_ids {ledger : Ledger} {id : ℕ} (h : id ∈ ledger.entries.map Entry.id)
    (stop : Option ℤ) (bytes : ℕ) : id ∈ (ledger.push stop bytes).entries.map Entry.id := by
  rw [push, List.map_append]
  exact List.mem_append_left _ h

/-- The charge a ticket stands for, while it is in the ledger. -/
def find? (ledger : Ledger) (ticket : ℕ) : Option Entry :=
  ledger.entries.find? fun entry => entry.id = ticket

/-- The bytes of every charge in the ledger. -/
def total (ledger : Ledger) : ℕ := (ledger.entries.map Entry.bytes).sum

end Ledger

/-- The model of the kernel's token bucket on the egress port. Without one the burst is zero. -/
structure Egress where
  burst : ℚ
  rate : ℚ
  tokens : ℚ
  stamp : ℤ
deriving DecidableEq, Repr

namespace Egress

/-- No shaper is modelled. -/
def off : Egress := ⟨0, 0, 0, 0⟩

/-- Nanoseconds of the clock as seconds. -/
def seconds (duration : ℤ) : ℚ := (duration : ℚ) / 1000000000

/-- `RefillEgressLocked`: add the tokens of the time since the last refill, up to the burst. -/
def refill (egress : Egress) (now : ℤ) : Egress :=
  if now > egress.stamp then
    { egress with
      tokens := min egress.burst (egress.tokens + egress.rate * seconds (now - egress.stamp))
      stamp := now }
  else egress

/-- The part of `DebitEgress` under the lock: the debt is bounded by one bucket. -/
def debit (egress : Egress) (now : ℤ) (bytes : ℕ) : Egress :=
  if egress.burst ≤ 0 then egress
  else
    let refilled := egress.refill now
    { refilled with tokens := max (refilled.tokens - bytes) (-refilled.burst) }

/-- The part of `RefundEgress` under the lock. -/
def refund (egress : Egress) (now : ℤ) (bytes : ℕ) : Egress :=
  if egress.burst ≤ 0 then egress
  else
    let refilled := egress.refill now
    { refilled with tokens := min refilled.burst (refilled.tokens + bytes) }

/-- The egress part of an admission: a charge larger than the bucket goes when the bucket is full
and leaves it in debt. The bucket is refilled also when the charge is refused. -/
def take (egress : Egress) (now : ℤ) (txBytes : ℕ) : Bool × Egress :=
  if egress.burst > 0 ∧ txBytes > 0 then
    let refilled := egress.refill now
    if refilled.tokens < min (txBytes : ℚ) refilled.burst then (false, refilled)
    else (true, { refilled with tokens := refilled.tokens - txBytes })
  else (true, egress)

end Egress

/-- One share of the link budget. -/
structure LinkBudget where
  share : ℕ
  window : ℤ
  ledger : Ledger
  waiting : List LinkPriority
  egress : Egress
  share_le : share ≤ uint32Max

namespace LinkBudget

/-- A new budget: nothing charged, nobody waiting, no shaper modelled. -/
def new (share : ℕ) (window : ℤ) (share_le : share ≤ uint32Max) : LinkBudget :=
  ⟨share, window, .empty, [], .off, share_le⟩

/-- Prune the ledger and sum what is left; the sum saturates at the counter's width. -/
def inWindowLocked (budget : LinkBudget) (now : ℤ) : ℕ × LinkBudget :=
  let pruned := budget.ledger.prune budget.window now
  (min pruned.total uint32Max, { budget with ledger := pruned })

/-- Some caller of a more urgent priority is waiting. -/
def moreUrgentWaitingLocked (budget : LinkBudget) (priority : LinkPriority) : Bool :=
  budget.waiting.any fun waiter => waiter.toInt < priority.toInt

/-- Admit a charge if it fits: the result is the id of its entry, or nothing when refused. -/
def admitLocked (budget : LinkBudget) (bytes : ℕ) (priority : LinkPriority) (now : ℤ) (isOpen : Bool)
    (txBytes : ℕ) : Option ℕ × LinkBudget :=
  if bytes > budget.share then (none, budget)
  else if budget.moreUrgentWaitingLocked priority then (none, budget)
  else
    let (sum, counted) := budget.inWindowLocked now
    if sum + bytes > budget.share then (none, counted)
    else
      match counted.egress.take now txBytes with
      | (false, egress) => (none, { counted with egress := egress })
      | (true, egress) =>
        (some counted.ledger.nextId,
          { counted with
            egress := egress
            ledger := counted.ledger.push (if isOpen then none else some now) bytes })

/-- Charge bytes for one window from now. -/
def tryCharge (budget : LinkBudget) (now : ℤ) (bytes : ℕ) (priority : LinkPriority) (txBytes : ℕ) :
    Option ℕ × LinkBudget :=
  budget.admitLocked bytes priority now false txBytes

/-- Hold bytes until they are released, plus one window. -/
def tryHold (budget : LinkBudget) (now : ℤ) (bytes : ℕ) (priority : LinkPriority) (txBytes : ℕ) :
    Option ℕ × LinkBudget :=
  budget.admitLocked bytes priority now true txBytes

/-- What one pass of the waiting loop ends in. -/
inductive WaitOutcome where
  | admitted (ticket : ℕ)
  | refused
  | waiting
deriving DecidableEq, Repr

/-- One pass of `WaitHold`'s loop, from waking up to the next wait or the return. -/
def waitHoldPass (budget : LinkBudget) (now : ℤ) (bytes : ℕ) (priority : LinkPriority) (deadline : ℤ)
    (txBytes : ℕ) : WaitOutcome × LinkBudget :=
  let alone := { budget with waiting := budget.waiting.erase priority }
  match alone.admitLocked bytes priority now true txBytes with
  | (some ticket, admitted) => (.admitted ticket, admitted)
  | (none, refused) =>
    if now ≥ deadline then (.refused, refused)
    else (.waiting, { refused with waiting := refused.waiting ++ [priority] })

/-- `WaitHold` up to its first wait: a request larger than the share never waits. -/
def waitHold (budget : LinkBudget) (now : ℤ) (bytes : ℕ) (priority : LinkPriority) (deadline : ℤ)
    (txBytes : ℕ) : WaitOutcome × LinkBudget :=
  if bytes > budget.share then (.refused, budget)
  else
    let queued := { budget with waiting := budget.waiting ++ [priority] }
    queued.waitHoldPass now bytes priority deadline txBytes

/-- Close a hold at `stop`. -/
def releaseAt (budget : LinkBudget) (ticket : ℕ) (stop : Option ℤ) : LinkBudget :=
  { budget with ledger := budget.ledger.update ticket (Entry.closeAt stop) (Entry.closeAt_id stop) }

/-- Close a hold now. -/
def release (budget : LinkBudget) (now : ℤ) (ticket : ℕ) : LinkBudget :=
  budget.releaseAt ticket (some now)

/-- Close part of a hold at `stop` under an id of its own and leave the rest as it is. -/
def releasePart (budget : LinkBudget) (ticket : ℕ) (bytes : ℕ) (stop : Option ℤ) : LinkBudget :=
  match budget.ledger.find? ticket with
  | none => budget
  | some entry =>
    let part := min bytes entry.bytes
    let rest := budget.ledger.update ticket (Entry.shrink bytes) (Entry.shrink_id bytes)
    { budget with ledger := rest.push stop part }

/-- Take bytes that never reached the wire out of a charge. -/
def refund (budget : LinkBudget) (ticket : ℕ) (bytes : ℕ) : LinkBudget :=
  { budget with ledger := budget.ledger.update ticket (Entry.shrink bytes) (Entry.shrink_id bytes) }

/-- The bytes counting now. -/
def inWindow (budget : LinkBudget) (now : ℤ) : ℕ × LinkBudget :=
  budget.inWindowLocked now

/-- Model a kernel token bucket from now on; it starts full. -/
def setEgressShaper (budget : LinkBudget) (now : ℤ) (burstBytes rateBytesPerS : ℕ) : LinkBudget :=
  { budget with egress := ⟨burstBytes, rateBytesPerS, burstBytes, now⟩ }

/-- Take bytes no charge waited for out of the modelled bucket. -/
def debitEgress (budget : LinkBudget) (now : ℤ) (bytes : ℕ) : LinkBudget :=
  { budget with egress := budget.egress.debit now bytes }

/-- Give back the bytes of a charge that were never sent. -/
def refundEgress (budget : LinkBudget) (now : ℤ) (bytes : ℕ) : LinkBudget :=
  { budget with egress := budget.egress.refund now bytes }

/-- The whole tokens in the modelled bucket now. -/
def egressTokens (budget : LinkBudget) (now : ℤ) : ℤ × LinkBudget :=
  if budget.egress.burst ≤ 0 then (0, budget)
  else
    let refilled := budget.egress.refill now
    (⌊refilled.tokens⌋, { budget with egress := refilled })

end LinkBudget

end Coatheal.Link
