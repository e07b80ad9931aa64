import Coatheal.Link.History

/-!
# Who goes first at the link budget

A caller that waits for room is blocked between two passes of its loop. The
callers that are blocked are kept beside the budget with what they ask for, and
so is every admission with the priorities of those that were blocked at that
moment. Each call and each pass holds the mutex, so steps of different callers
come one after the other, in any order.
-/

namespace Coatheal.Link

open Coatheal.Library

/-- A caller blocked in `WaitHold`. -/
structure Caller where
  bytes : ℕ
  priority : LinkPriority
  deadline : ℤ
  txBytes : ℕ
deriving DecidableEq, Repr

/-- A request was admitted while callers of these priorities were blocked. -/
structure Admission where
  request : LinkPriority
  blocked : List LinkPriority
deriving DecidableEq, Repr

/-- The budget with the callers blocked in it and the admissions so far, the newest first. -/
structure Counter where
  budget : LinkBudget
  blocked : List Caller
  admissions : List Admission

/-- A step: a call of the budget, or a blocked caller wakes up, because room may have become free, or its slice
or its deadline is over. -/
inductive CounterEvent where
  | call (call : Call)
  | wake (index : ℕ) (now : ℤ)
deriving DecidableEq, Repr

namespace Counter

/-- A new budget. -/
def new (share : ℕ) (window : ℤ) (share_le : share ≤ uint32Max) : Counter := ⟨.new share window share_le, [], []⟩

variable (c : Counter)

/-- The priorities of the blocked callers. -/
def priorities : List LinkPriority := c.blocked.map Caller.priority

/-- Whether a request without waiting was admitted. -/
def settle (priority : LinkPriority) (result : Option ℕ × LinkBudget) : Counter where
  budget := result.2
  blocked := c.blocked
  admissions := if result.1.isSome then ⟨priority, c.priorities⟩ :: c.admissions else c.admissions

/-- What a pass of a caller ends in: it is admitted, gives up, or is blocked among the others. -/
def settleWait (caller : Caller) (others : List Caller) (waiting : List Caller)
    (result : LinkBudget.WaitOutcome × LinkBudget) : Counter :=
  match result.1 with
  | .admitted _ => ⟨result.2, others, ⟨caller.priority, others.map Caller.priority⟩ :: c.admissions⟩
  | .refused => ⟨result.2, others, c.admissions⟩
  | .waiting => ⟨result.2, waiting, c.admissions⟩

/-- One step. A pass of the loop is made by a caller that is blocked, and by no other. -/
def step : CounterEvent → Counter
  | .call (.tryCharge now bytes priority txBytes) => c.settle priority (c.budget.tryCharge now bytes priority txBytes)
  | .call (.tryHold now bytes priority txBytes) => c.settle priority (c.budget.tryHold now bytes priority txBytes)
  | .call (.waitHold now bytes priority deadline txBytes) =>
    c.settleWait ⟨bytes, priority, deadline, txBytes⟩ c.blocked (c.blocked ++ [⟨bytes, priority, deadline, txBytes⟩])
      (c.budget.waitHold now bytes priority deadline txBytes)
  | .call (.waitHoldPass _ _ _ _ _) => c
  | .call call => { c with budget := call.apply c.budget }
  | .wake index now =>
    match c.blocked[index]? with
    | none => c
    | some caller =>
      c.settleWait caller (c.blocked.eraseIdx index) c.blocked
        (c.budget.waitHoldPass now caller.bytes caller.priority caller.deadline caller.txBytes)

/-- Nobody was admitted while a caller of a more urgent priority was blocked. -/
def UrgentFirst : Prop := ∀ a ∈ c.admissions, ∀ priority ∈ a.blocked, ¬priority.toInt < a.request.toInt

/-- The record of the waiting callers is the priorities of the blocked ones, in some order. -/
def RecordExact : Prop := c.budget.waiting.Perm c.priorities

end Counter

namespace LinkBudget

variable {budget : LinkBudget}

/-- An admission leaves the record of the waiting callers. -/
theorem admitLocked_waiting (bytes : ℕ) (priority : LinkPriority) (now : ℤ) (isOpen : Bool) (txBytes : ℕ) :
    (budget.admitLocked bytes priority now isOpen txBytes).2.waiting = budget.waiting := by
  unfold admitLocked inWindowLocked
  dsimp only
  split
  · rfl
  split
  · rfl
  split
  · rfl
  split <;> rfl

/-- A request is admitted only if no caller on the record is more urgent. -/
theorem admitLocked_urgent {bytes : ℕ} {priority : LinkPriority} {now : ℤ} {isOpen : Bool} {txBytes ticket : ℕ}
    (h : (budget.admitLocked bytes priority now isOpen txBytes).1 = some ticket) :
    ∀ waiter ∈ budget.waiting, ¬waiter.toInt < priority.toInt := by
  unfold admitLocked at h
  split at h
  · cases h
  split at h
  · cases h
  case isFalse hnone =>
    intro waiter hwaiter hurgent
    exact hnone (List.any_eq_true.mpr ⟨waiter, hwaiter, decide_eq_true hurgent⟩)

/-- The record after a pass: without the caller, or with it at the end while it waits on. -/
theorem waitHoldPass_waiting (now : ℤ) (bytes : ℕ) (priority : LinkPriority) (deadline : ℤ) (txBytes : ℕ) :
    ((budget.waitHoldPass now bytes priority deadline txBytes).1 = .waiting →
      (budget.waitHoldPass now bytes priority deadline txBytes).2.waiting =
        budget.waiting.erase priority ++ [priority]) ∧
    ((budget.waitHoldPass now bytes priority deadline txBytes).1 ≠ .waiting →
      (budget.waitHoldPass now bytes priority deadline txBytes).2.waiting = budget.waiting.erase priority) := by
  have hkept := @admitLocked_waiting { budget with waiting := budget.waiting.erase priority }
    bytes priority now true txBytes
  unfold waitHoldPass
  dsimp only at hkept ⊢
  split
  case h_1 ticket admitted heq =>
    rw [heq] at hkept
    exact ⟨fun hwaits => (by cases hwaits), fun _ => hkept⟩
  case h_2 refused heq =>
    rw [heq] at hkept
    split
    · exact ⟨fun hwaits => (by cases hwaits), fun _ => hkept⟩
    · exact ⟨fun _ => congrArg (· ++ [priority]) hkept, fun hnot => absurd rfl hnot⟩

/-- A pass admits its caller only if no other on the record is more urgent. -/
theorem waitHoldPass_urgent {now : ℤ} {bytes : ℕ} {priority : LinkPriority} {deadline : ℤ} {txBytes ticket : ℕ}
    (h : (budget.waitHoldPass now bytes priority deadline txBytes).1 = .admitted ticket) :
    ∀ waiter ∈ budget.waiting.erase priority, ¬waiter.toInt < priority.toInt := by
  unfold waitHoldPass at h
  dsimp only at h
  split at h
  case h_1 other admitted heq =>
    exact @admitLocked_urgent { budget with waiting := budget.waiting.erase priority } _ _ _ _ _ _
      (congrArg Prod.fst heq)
  case h_2 refused heq => split at h <;> cases h

end LinkBudget

namespace Counter

variable {c : Counter}

/-- What holds along every run. -/
structure Inv (c : Counter) : Prop where
  urgentFirst : c.UrgentFirst
  recordExact : c.RecordExact

/-- A request that does not wait keeps the record, and is admitted only before no more urgent caller. -/
theorem Inv.settle (h : c.Inv) {priority : LinkPriority} {result : Option ℕ × LinkBudget}
    (hwaiting : result.2.waiting = c.budget.waiting)
    (hurgent : ∀ ticket, result.1 = some ticket → ∀ waiter ∈ c.budget.waiting, ¬waiter.toInt < priority.toInt) :
    (c.settle priority result).Inv := by
  refine ⟨fun a ha => ?_, ?_⟩
  · unfold Counter.settle at ha
    dsimp only at ha
    split at ha
    case isTrue hadmitted =>
      obtain ⟨ticket, hticket⟩ := Option.isSome_iff_exists.mp hadmitted
      rcases List.mem_cons.mp ha with rfl | hold
      · exact fun waiter hwaiter => hurgent ticket hticket waiter (h.recordExact.mem_iff.mpr hwaiter)
      · exact h.urgentFirst a hold
    case isFalse => exact h.urgentFirst a ha
  · exact (List.Perm.of_eq hwaiting).trans h.recordExact

/-- A pass keeps the record, and admits its caller only before no more urgent one. -/
theorem Inv.settleWait (h : c.Inv) {caller : Caller} {others waiting : List Caller}
    {result : LinkBudget.WaitOutcome × LinkBudget} {record : List LinkPriority}
    (hothers : record.Perm (others.map Caller.priority)) (hwaiting : waiting.Perm (others ++ [caller]))
    (hrecord : (result.1 = .waiting → result.2.waiting = record ++ [caller.priority]) ∧
      (result.1 ≠ .waiting → result.2.waiting = record))
    (hurgent : ∀ ticket, result.1 = .admitted ticket → ∀ waiter ∈ record, ¬waiter.toInt < caller.priority.toInt) :
    (c.settleWait caller others waiting result).Inv := by
  unfold Counter.settleWait
  split
  case h_1 ticket hresult =>
    refine ⟨fun a ha => ?_, ?_⟩
    · rcases List.mem_cons.mp ha with rfl | hold
      · exact fun waiter hwaiter => hurgent ticket hresult waiter (hothers.mem_iff.mpr hwaiter)
      · exact h.urgentFirst a hold
    · exact (List.Perm.of_eq (hrecord.2 (by simp [hresult]))).trans hothers
  case h_2 hresult =>
    exact ⟨h.urgentFirst, (List.Perm.of_eq (hrecord.2 (by simp [hresult]))).trans hothers⟩
  case h_3 hresult =>
    have hall : (record ++ [caller.priority]).Perm (waiting.map Caller.priority) := by
      refine (hothers.append_right _).trans ?_
      simpa using (hwaiting.map Caller.priority).symm
    exact ⟨h.urgentFirst, (List.Perm.of_eq (hrecord.1 hresult)).trans hall⟩

/-- A call that admits nobody leaves the record. -/
theorem apply_waiting (budget : LinkBudget) (call : Call) (hadmits : ∀ now bytes priority txBytes,
    call ≠ .tryCharge now bytes priority txBytes ∧ call ≠ .tryHold now bytes priority txBytes)
    (hwaits : ∀ now bytes priority deadline txBytes, call ≠ .waitHold now bytes priority deadline txBytes ∧
      call ≠ .waitHoldPass now bytes priority deadline txBytes) : (call.apply budget).waiting = budget.waiting := by
  cases call with
  | tryCharge now bytes priority txBytes => exact absurd rfl (hadmits now bytes priority txBytes).1
  | tryHold now bytes priority txBytes => exact absurd rfl (hadmits now bytes priority txBytes).2
  | waitHold now bytes priority deadline txBytes => exact absurd rfl (hwaits now bytes priority deadline txBytes).1
  | waitHoldPass now bytes priority deadline txBytes =>
    exact absurd rfl (hwaits now bytes priority deadline txBytes).2
  | releasePart ticket bytes stop =>
    simp only [Call.apply, LinkBudget.releasePart]
    split <;> rfl
  | egressTokens now =>
    simp only [Call.apply, LinkBudget.egressTokens]
    split <;> rfl
  | _ => rfl

/-- A caller that comes to wait. -/
theorem Inv.waitHold (h : c.Inv) (now : ℤ) (bytes : ℕ) (priority : LinkPriority) (deadline : ℤ) (txBytes : ℕ) :
    (c.step (.call (.waitHold now bytes priority deadline txBytes))).Inv := by
  simp only [step, LinkBudget.waitHold]
  split
  case isTrue => exact ⟨h.urgentFirst, h.recordExact⟩
  case isFalse =>
    -- the caller puts itself on the record and its first pass takes it off again
    have herased : ((c.budget.waiting ++ [priority]).erase priority).Perm c.priorities := by
      refine List.Perm.trans ?_ h.recordExact
      refine (List.cons_perm_iff_perm_erase.mp ?_).2.symm
      exact (List.perm_append_singleton priority c.budget.waiting).symm
    exact h.settleWait herased (.refl _) (LinkBudget.waitHoldPass_waiting _ _ _ _ _)
      fun ticket hticket => LinkBudget.waitHoldPass_urgent hticket

/-- A blocked caller that wakes up. -/
theorem Inv.wake (h : c.Inv) (index : ℕ) (now : ℤ) : (c.step (.wake index now)).Inv := by
  simp only [step]
  split
  case h_1 => exact h
  case h_2 caller hcaller =>
    obtain ⟨hlt, rfl⟩ := List.getElem?_eq_some_iff.mp hcaller
    have hfirst : (c.blocked[index] :: c.blocked.eraseIdx index).Perm c.blocked := List.getElem_cons_eraseIdx_perm hlt
    have hsplit : c.blocked.Perm (c.blocked.eraseIdx index ++ [c.blocked[index]]) :=
      hfirst.symm.trans (List.perm_append_singleton _ _).symm
    have herased : (c.budget.waiting.erase c.blocked[index].priority).Perm
        ((c.blocked.eraseIdx index).map Caller.priority) :=
      (List.cons_perm_iff_perm_erase.mp ((hfirst.map Caller.priority).trans h.recordExact.symm)).2.symm
    exact h.settleWait herased hsplit (LinkBudget.waitHoldPass_waiting _ _ _ _ _)
      fun ticket hticket => LinkBudget.waitHoldPass_urgent hticket

/-- Every step keeps the order and the record. -/
theorem Inv.step (h : c.Inv) (event : CounterEvent) : (c.step event).Inv := by
  cases event with
  | wake index now => exact h.wake index now
  | call call =>
    cases call with
    | tryCharge now bytes priority txBytes =>
      exact h.settle (LinkBudget.admitLocked_waiting _ _ _ _ _) fun ticket hticket => LinkBudget.admitLocked_urgent hticket
    | tryHold now bytes priority txBytes =>
      exact h.settle (LinkBudget.admitLocked_waiting _ _ _ _ _) fun ticket hticket => LinkBudget.admitLocked_urgent hticket
    | waitHold now bytes priority deadline txBytes => exact h.waitHold now bytes priority deadline txBytes
    | waitHoldPass => exact h
    | _ =>
      refine ⟨h.urgentFirst, (List.Perm.of_eq ?_).trans h.recordExact⟩
      exact apply_waiting _ _ (by simp) (by simp)

/-- In every state of every run nobody has been admitted before a more urgent caller that was blocked, and the record is
exactly the blocked callers' priorities. -/
theorem holds_inv (share : ℕ) (window : ℤ) (share_le : share ≤ uint32Max) (events : List CounterEvent) :
    Holds Counter.step Inv (new share window share_le) events :=
  holds_of_step (fun c event h => h.step event) (fun _ h => h)
    ⟨by simp [UrgentFirst, new], by simp [RecordExact, new, priorities, LinkBudget.new]⟩ events

end Counter

end Coatheal.Link
