import Coatheal.Library.Run
import Coatheal.Library.SlidingWindow
import Coatheal.Link.Budget
import Mathlib.Data.Real.Basic
import Mathlib.Tactic.NormNum

/-!
# The history of a link budget

The ledger forgets: entries are pruned, split and shrunk in place. The history
beside it remembers when each id was placed and which entries were dropped, so
that the bytes a run put on the wire can be compared with the share. The budget
inside a history is the source's own; the rest is bookkeeping about it.
-/

namespace Coatheal.Link

open Coatheal.Library

/-- A call of the budget by any of its callers. A caller inside `WaitHold` shows up once for each
pass of its loop; `Release` reads the clock before it takes the lock, so that reading is not
ordered with the others. -/
inductive Call where
  | tryCharge (now : ℤ) (bytes : ℕ) (priority : LinkPriority) (txBytes : ℕ)
  | tryHold (now : ℤ) (bytes : ℕ) (priority : LinkPriority) (txBytes : ℕ)
  | waitHold (now : ℤ) (bytes : ℕ) (priority : LinkPriority) (deadline : ℤ) (txBytes : ℕ)
  | waitHoldPass (now : ℤ) (bytes : ℕ) (priority : LinkPriority) (deadline : ℤ) (txBytes : ℕ)
  | release (stop : ℤ) (ticket : ℕ)
  | releaseAt (ticket : ℕ) (stop : Option ℤ)
  | releasePart (ticket bytes : ℕ) (stop : Option ℤ)
  | refund (ticket bytes : ℕ)
  | inWindow (now : ℤ)
  | setEgressShaper (now : ℤ) (burstBytes rateBytesPerS : ℕ)
  | debitEgress (now : ℤ) (bytes : ℕ)
  | refundEgress (now : ℤ) (bytes : ℕ)
  | egressTokens (now : ℤ)
deriving DecidableEq, Repr

namespace Call

/-- What a call leaves of the budget. -/
def apply (budget : LinkBudget) : Call → LinkBudget
  | .tryCharge now bytes priority txBytes => (budget.tryCharge now bytes priority txBytes).2
  | .tryHold now bytes priority txBytes => (budget.tryHold now bytes priority txBytes).2
  | .waitHold now bytes priority deadline txBytes =>
    (budget.waitHold now bytes priority deadline txBytes).2
  | .waitHoldPass now bytes priority deadline txBytes =>
    (budget.waitHoldPass now bytes priority deadline txBytes).2
  | .release stop ticket => budget.release stop ticket
  | .releaseAt ticket stop => budget.releaseAt ticket stop
  | .releasePart ticket bytes stop => budget.releasePart ticket bytes stop
  | .refund ticket bytes => budget.refund ticket bytes
  | .inWindow now => (budget.inWindow now).2
  | .setEgressShaper now burstBytes rateBytesPerS => budget.setEgressShaper now burstBytes rateBytesPerS
  | .debitEgress now bytes => budget.debitEgress now bytes
  | .refundEgress now bytes => budget.refundEgress now bytes
  | .egressTokens now => (budget.egressTokens now).2

/-- The clock reading a call takes under the lock. -/
def reading : Call → Option ℤ
  | .tryCharge now _ _ _ | .tryHold now _ _ _ | .waitHold now _ _ _ _ | .waitHoldPass now _ _ _ _
  | .inWindow now | .setEgressShaper now _ _ | .debitEgress now _ | .refundEgress now _
  | .egressTokens now => some now
  | .release _ _ | .releaseAt _ _ | .releasePart _ _ _ | .refund _ _ => none

/-- The ticket whose charge a call splits. -/
def parent : Call → Option ℕ
  | .releasePart ticket _ _ => some ticket
  | _ => none

end Call

/-- Everything one call can do to the ledger. -/
inductive LedgerChange (share : ℕ) (window : ℤ) (call : Call) (ledger : Ledger) : Ledger → Prop where
  | keep : LedgerChange share window call ledger ledger
  | prune (now : ℤ) (hreading : call.reading = some now) :
      LedgerChange share window call ledger (ledger.prune window now)
  | charge (now : ℤ) (stop : Option ℤ) (bytes : ℕ) (hreading : call.reading = some now)
      (hparent : call.parent = none)
      (hfits : min (ledger.prune window now).total uint32Max + bytes ≤ share) :
      LedgerChange share window call ledger ((ledger.prune window now).push stop bytes)
  | close (ticket : ℕ) (stop : Option ℤ) :
      LedgerChange share window call ledger
        (ledger.update ticket (Entry.closeAt stop) (Entry.closeAt_id stop))
  | shrink (ticket bytes : ℕ) :
      LedgerChange share window call ledger
        (ledger.update ticket (Entry.shrink bytes) (Entry.shrink_id bytes))
  | split (ticket bytes : ℕ) (stop : Option ℤ) (entry : Entry) (hparent : call.parent = some ticket)
      (hfind : ledger.find? ticket = some entry) :
      LedgerChange share window call ledger
        ((ledger.update ticket (Entry.shrink bytes) (Entry.shrink_id bytes)).push stop
          (min bytes entry.bytes))

/-- An admission keeps the share and the window, and prunes the ledger, or prunes it and adds a
charge that fits, or does nothing. -/
theorem admitLocked_change {budget : LinkBudget} {bytes : ℕ} {priority : LinkPriority} {now : ℤ}
    {isOpen : Bool} {txBytes : ℕ} {call : Call} (hreading : call.reading = some now)
    (hparent : call.parent = none) :
    let result := (budget.admitLocked bytes priority now isOpen txBytes).2
    result.share = budget.share ∧ result.window = budget.window ∧
      LedgerChange budget.share budget.window call budget.ledger result.ledger := by
  unfold LinkBudget.admitLocked LinkBudget.inWindowLocked
  dsimp only
  split
  · exact ⟨rfl, rfl, .keep⟩
  split
  · exact ⟨rfl, rfl, .keep⟩
  split
  · exact ⟨rfl, rfl, .prune now hreading⟩
  case isFalse hfits =>
    split
    · exact ⟨rfl, rfl, .prune now hreading⟩
    · exact ⟨rfl, rfl, .charge now _ bytes hreading hparent (not_lt.mp hfits)⟩

/-- One pass of a waiting hold changes the ledger as an admission does. -/
theorem waitHoldPass_change {budget : LinkBudget} {bytes : ℕ} {priority : LinkPriority}
    {now deadline : ℤ} {txBytes : ℕ} {call : Call} (hreading : call.reading = some now)
    (hparent : call.parent = none) :
    let result := (budget.waitHoldPass now bytes priority deadline txBytes).2
    result.share = budget.share ∧ result.window = budget.window ∧
      LedgerChange budget.share budget.window call budget.ledger result.ledger := by
  have h := @admitLocked_change { budget with waiting := budget.waiting.erase priority } bytes
    priority now true txBytes call hreading hparent
  unfold LinkBudget.waitHoldPass
  dsimp only at h ⊢
  split
  case h_1 ticket admitted heq => simpa only [heq] using h
  case h_2 refused heq =>
    rw [heq] at h
    split
    · exact h
    · exact h

/-- Every call keeps the share and the window and changes the ledger in one of the listed ways. -/
theorem apply_change (budget : LinkBudget) (call : Call) :
    (call.apply budget).share = budget.share ∧ (call.apply budget).window = budget.window ∧
      LedgerChange budget.share budget.window call budget.ledger (call.apply budget).ledger := by
  cases call with
  | tryCharge now bytes priority txBytes => exact admitLocked_change rfl rfl
  | tryHold now bytes priority txBytes => exact admitLocked_change rfl rfl
  | waitHoldPass now bytes priority deadline txBytes => exact waitHoldPass_change rfl rfl
  | waitHold now bytes priority deadline txBytes =>
    simp only [Call.apply, LinkBudget.waitHold]
    split
    · exact ⟨rfl, rfl, .keep⟩
    · exact @waitHoldPass_change { budget with waiting := budget.waiting ++ [priority] } bytes
        priority now deadline txBytes _ rfl rfl
  | release stop ticket => exact ⟨rfl, rfl, .close ticket (some stop)⟩
  | releaseAt ticket stop => exact ⟨rfl, rfl, .close ticket stop⟩
  | releasePart ticket bytes stop =>
    simp only [Call.apply, LinkBudget.releasePart]
    split
    · exact ⟨rfl, rfl, .keep⟩
    case h_2 entry hfind => exact ⟨rfl, rfl, .split ticket bytes stop entry rfl hfind⟩
  | refund ticket bytes => exact ⟨rfl, rfl, .shrink ticket bytes⟩
  | inWindow now => exact ⟨rfl, rfl, .prune now rfl⟩
  | setEgressShaper now burstBytes rateBytesPerS => exact ⟨rfl, rfl, .keep⟩
  | debitEgress now bytes => exact ⟨rfl, rfl, .keep⟩
  | refundEgress now bytes => exact ⟨rfl, rfl, .keep⟩
  | egressTokens now =>
    simp only [Call.apply, LinkBudget.egressTokens]
    split
    · exact ⟨rfl, rfl, .keep⟩
    · exact ⟨rfl, rfl, .keep⟩

end Coatheal.Link
