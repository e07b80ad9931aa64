import Coatheal.Link.Urgency

/-!
# The ground station's link budget

The ledger of the ground station is the onboard one in other terms: charges with
their release times, the holds that wait for room, and a model of the kernel's
shaper. A hold waits behind those of higher priority and behind the earlier ones
of its own. Times and tokens are exact numbers. What a waiting call asks for is
kept beside the ledger, and so is every admission.
-/

namespace Coatheal.Ground

open Coatheal.Library

/-- Senders of the ground station, the most urgent first. -/
inductive Priority where
  | critical
  | command
  | poll
  | discovery
deriving DecidableEq, Repr

/-- The number of a priority: lower is more urgent. -/
def Priority.toInt : Priority → ℤ
  | .critical => 0
  | .command => 1
  | .poll => 2
  | .discovery => 3

/-- One entry of the ledger, an object of its own. It is open while it has no release time. -/
structure Charge where
  id : ℕ
  nbytes : ℤ
  priority : Priority
  placedAt : ℚ
  releasedAt : Option ℚ
deriving DecidableEq, Repr

/-- A hold that waits; its order is its own. -/
structure Waiter where
  priority : Priority
  order : ℕ
deriving DecidableEq, Repr

/-- The ledger of the ground station. -/
structure LinkBudget where
  shareBytes : ℤ
  windowS : ℚ
  charges : List Charge
  nextCharge : ℕ
  waiters : List Waiter
  orders : ℕ
  egressBurst : ℚ
  egressRate : ℚ
  egressReserve : ℚ
  egressTokens : ℚ
  egressStamp : ℚ
deriving DecidableEq, Repr

namespace LinkBudget

/-- A new ledger. -/
def new (shareBytes : ℤ) (windowS now : ℚ) : LinkBudget := ⟨shareBytes, windowS, [], 0, [], 0, 0, 0, 0, 0, now⟩

variable (b : LinkBudget)

/-- `_counting`: drop the charges that have aged out and sum the rest. -/
def counting (now : ℚ) : ℤ × LinkBudget :=
  let charges := b.charges.filter fun c => c.releasedAt.all fun released => decide (now < released + b.windowS)
  ((charges.map Charge.nbytes).sum, { b with charges := charges })

/-- `_refill`. -/
def refill (now : ℚ) : LinkBudget :=
  if now > b.egressStamp then
    { b with
      egressTokens := min b.egressBurst (b.egressTokens + b.egressRate * (now - b.egressStamp))
      egressStamp := now }
  else b

/-- `_egress_need`: the tokens a charge needs, with the reserve below critical priority. -/
def egressNeed (priority : Priority) (txBytes : ℤ) : ℚ :=
  if b.egressBurst ≤ 0 ∨ txBytes ≤ 0 then 0
  else min ((txBytes : ℚ) + if priority = .critical then 0 else b.egressReserve) b.egressBurst

/-- Another waiting hold goes before a request: it is more urgent, or it came earlier at the same priority. A request
that does not wait has no order. -/
def goesBefore (priority : Priority) (order : Option ℕ) (other : Waiter) : Bool :=
  decide (order ≠ some other.order) &&
    (decide (other.priority.toInt < priority.toInt) ||
      order.any fun own => decide (other.priority = priority ∧ other.order < own))

/-- The bucket is refilled when a charge needs tokens. -/
def refillFor (need now : ℚ) : LinkBudget := if need > 0 then b.refill now else b

/-- `_fits`. -/
def fits (nbytes : ℤ) (priority : Priority) (now : ℚ) (order : Option ℕ) (txBytes : ℤ) : Bool × LinkBudget :=
  if nbytes > b.shareBytes then (false, b)
  else
    let (sum, counted) := b.counting now
    if sum + nbytes > b.shareBytes then (false, counted)
    else
      let need := counted.egressNeed priority txBytes
      let filled := counted.refillFor need now
      if need > 0 ∧ filled.egressTokens < need then (false, filled)
      else (!filled.waiters.any (goesBefore priority order), filled)

/-- `_place`. -/
def place (nbytes : ℤ) (priority : Priority) (now : ℚ) (released : Bool) (txBytes : ℤ) : LinkBudget :=
  let placed := { b with
    charges := b.charges ++ [⟨b.nextCharge, nbytes, priority, now, if released then some now else none⟩]
    nextCharge := b.nextCharge + 1 }
  if b.egressBurst > 0 ∧ txBytes > 0 then
    let filled := placed.refill now
    { filled with egressTokens := filled.egressTokens - txBytes }
  else placed

/-- `release` of a charge: an open one is closed, no earlier than now. -/
def release (now : ℚ) (charge : ℕ) (delayS : ℚ) : LinkBudget :=
  { b with charges := b.charges.map fun c =>
      if c.id = charge ∧ c.releasedAt = none then { c with releasedAt := some (now + max 0 delayS) } else c }

/-- `set_egress_shaper`. -/
def setEgressShaper (now : ℚ) (burstBytes : ℤ) (rateBytesPerS : ℚ) (reserveBytes : ℤ) : LinkBudget :=
  { b with
    egressBurst := burstBytes, egressRate := rateBytesPerS, egressReserve := reserveBytes
    egressTokens := burstBytes, egressStamp := now }

/-- `debit_egress`. -/
def debitEgress (now : ℚ) (nbytes : ℤ) : LinkBudget :=
  if b.egressBurst ≤ 0 then b
  else
    let filled := b.refill now
    { filled with egressTokens := max (filled.egressTokens - nbytes) (-filled.egressBurst) }

/-- `refund_egress`. -/
def refundEgress (now : ℚ) (nbytes : ℤ) : LinkBudget :=
  if b.egressBurst ≤ 0 then b
  else
    let filled := b.refill now
    { filled with egressTokens := min filled.egressBurst (filled.egressTokens + nbytes) }

end LinkBudget

/-- A call of `hold` that waits, with what it asks for. -/
structure HoldCall where
  waiter : Waiter
  nbytes : ℤ
  deadline : ℚ
  txBytes : ℤ
deriving DecidableEq, Repr

/-- A request was admitted, with the order of a hold, while these holds were waiting. -/
structure LedgerAdmission where
  priority : Priority
  order : Option ℕ
  waiting : List Waiter
deriving DecidableEq, Repr

/-- The ledger with the calls that wait in it and the admissions so far, the newest first. -/
structure LedgerDesk where
  budget : LinkBudget
  waiting : List HoldCall
  admissions : List LedgerAdmission
deriving DecidableEq, Repr

/-- A step: a call, or a waiting hold wakes up, for room, its deadline or its cancellation. -/
inductive LedgerEvent where
  | tryCharge (now : ℚ) (nbytes : ℤ) (priority : Priority) (txBytes : ℤ)
  | hold (now : ℚ) (nbytes : ℤ) (priority : Priority) (timeoutS : ℚ) (cancelled : Bool) (txBytes : ℤ)
  | wake (index : ℕ) (now : ℚ) (cancelled : Bool)
  | release (now : ℚ) (charge : ℕ) (delayS : ℚ)
  | inWindow (now : ℚ)
  | egressTokens (now : ℚ)
  | setEgressShaper (now : ℚ) (burstBytes : ℤ) (rateBytesPerS : ℚ) (reserveBytes : ℤ)
  | debitEgress (now : ℚ) (nbytes : ℤ)
  | refundEgress (now : ℚ) (nbytes : ℤ)
deriving DecidableEq

namespace LedgerDesk

/-- A new ledger. -/
def new (shareBytes : ℤ) (windowS now : ℚ) : LedgerDesk := ⟨.new shareBytes windowS now, [], []⟩

variable (d : LedgerDesk)

/-- The holds that wait. -/
def waiters : List Waiter := d.waiting.map HoldCall.waiter

/-- A request is admitted and placed. -/
def admitted (budget : LinkBudget) (nbytes : ℤ) (priority : Priority) (order : Option ℕ) (now : ℚ) (released : Bool)
    (txBytes : ℤ) : LedgerDesk :=
  { d with
    budget := budget.place nbytes priority now released txBytes
    admissions := ⟨priority, order, d.waiters⟩ :: d.admissions }

/-- `try_charge`. -/
def tryCharge (now : ℚ) (nbytes : ℤ) (priority : Priority) (txBytes : ℤ) : LedgerDesk :=
  match d.budget.fits nbytes priority now none txBytes with
  | (true, fitting) => d.admitted fitting nbytes priority none now true txBytes
  | (false, refused) => { d with budget := refused }

/-- `hold`, up to its return or its first wait. -/
def hold (now : ℚ) (nbytes : ℤ) (priority : Priority) (timeoutS : ℚ) (cancelled : Bool) (txBytes : ℤ) : LedgerDesk :=
  if nbytes > d.budget.shareBytes then d
  else
    let waiter : Waiter := ⟨priority, d.budget.orders⟩
    match { d.budget with orders := d.budget.orders + 1 }.fits nbytes priority now (some waiter.order) txBytes with
    | (true, fitting) => d.admitted fitting nbytes priority (some waiter.order) now false txBytes
    | (false, refused) =>
      if timeoutS ≤ 0 ∨ cancelled then { d with budget := refused }
      else
        { d with
          budget := { refused with waiters := refused.waiters ++ [waiter] }
          waiting := d.waiting ++ [⟨waiter, nbytes, now + timeoutS, txBytes⟩] }

/-- A hold that waits leaves: its own entry, and no other, is taken off the list. -/
def leave (call : HoldCall) (index : ℕ) : LedgerDesk :=
  { d with
    budget := { d.budget with waiters := d.budget.waiters.filter fun other => other.order ≠ call.waiter.order }
    waiting := d.waiting.eraseIdx index }

/-- A hold that waits wakes up. -/
def wake (index : ℕ) (now : ℚ) (cancelled : Bool) : LedgerDesk :=
  match d.waiting[index]? with
  | none => d
  | some call =>
    if cancelled then d.leave call index
    else
      match d.budget.fits call.nbytes call.waiter.priority now (some call.waiter.order) call.txBytes with
      | (true, fitting) =>
        ({ d with budget := fitting }.leave call index).admitted
          ({ d with budget := fitting }.leave call index).budget call.nbytes call.waiter.priority
          (some call.waiter.order) now false call.txBytes
      | (false, refused) =>
        if now ≥ call.deadline then { d with budget := refused }.leave call index else { d with budget := refused }

/-- One step. -/
def step : LedgerEvent → LedgerDesk
  | .tryCharge now nbytes priority txBytes => d.tryCharge now nbytes priority txBytes
  | .hold now nbytes priority timeoutS cancelled txBytes => d.hold now nbytes priority timeoutS cancelled txBytes
  | .wake index now cancelled => d.wake index now cancelled
  | .release now charge delayS => { d with budget := d.budget.release now charge delayS }
  | .inWindow now => { d with budget := (d.budget.counting now).2 }
  | .egressTokens now => { d with budget := d.budget.refill now }
  | .setEgressShaper now burstBytes rateBytesPerS reserveBytes =>
    { d with budget := d.budget.setEgressShaper now burstBytes rateBytesPerS reserveBytes }
  | .debitEgress now nbytes => { d with budget := d.budget.debitEgress now nbytes }
  | .refundEgress now nbytes => { d with budget := d.budget.refundEgress now nbytes }

/-- Nobody was admitted while a hold of a more urgent priority was waiting. -/
def UrgentFirst : Prop := ∀ a ∈ d.admissions, ∀ w ∈ a.waiting, ¬w.priority.toInt < a.priority.toInt

/-- The list of the ledger is exactly the holds that wait. -/
def RecordExact : Prop := d.budget.waiters = d.waiters

/-- No hold was served before an earlier one of its priority: none that was still waiting, and none that was served
later. -/
def InArrivalOrder : Prop :=
  (∀ a ∈ d.admissions, ∀ own ∈ a.order, ∀ w ∈ a.waiting, w.priority = a.priority → own < w.order) ∧
    d.admissions.Pairwise fun later earlier => later.priority = earlier.priority →
      ∀ own ∈ later.order, ∀ other ∈ earlier.order, other < own

end LedgerDesk

namespace LinkBudget

variable {b : LinkBudget}

/-- Refilling the bucket leaves the waiting holds. -/
theorem refill_waiters (now : ℚ) : (b.refill now).waiters = b.waiters ∧ (b.refill now).orders = b.orders := by
  unfold refill
  split <;> exact ⟨rfl, rfl⟩

/-- Refilling the bucket for a charge leaves the waiting holds. -/
theorem refillFor_waiters (need now : ℚ) :
    (b.refillFor need now).waiters = b.waiters ∧ (b.refillFor need now).orders = b.orders := by
  unfold refillFor
  split
  · exact refill_waiters now
  · exact ⟨rfl, rfl⟩

/-- Checking whether a request fits leaves the waiting holds. -/
theorem fits_waiters (nbytes : ℤ) (priority : Priority) (now : ℚ) (order : Option ℕ) (txBytes : ℤ) :
    (b.fits nbytes priority now order txBytes).2.waiters = b.waiters ∧
      (b.fits nbytes priority now order txBytes).2.orders = b.orders := by
  unfold fits counting
  dsimp only
  split
  · exact ⟨rfl, rfl⟩
  split
  · exact ⟨rfl, rfl⟩
  split <;> exact refillFor_waiters _ now

/-- A request that fits goes before every hold that waits. -/
theorem fits_true {nbytes : ℤ} {priority : Priority} {now : ℚ} {order : Option ℕ} {txBytes : ℤ}
    (h : (b.fits nbytes priority now order txBytes).1 = true) :
    ∀ w ∈ b.waiters, goesBefore priority order w = false := by
  unfold fits counting at h
  dsimp only at h
  split at h
  · cases h
  split at h
  · cases h
  split at h
  · cases h
  · rw [(refillFor_waiters _ now).1] at h
    simpa using h

/-- A charge that is placed leaves the waiting holds. -/
theorem place_waiters (nbytes : ℤ) (priority : Priority) (now : ℚ) (released : Bool) (txBytes : ℤ) :
    (b.place nbytes priority now released txBytes).waiters = b.waiters ∧
      (b.place nbytes priority now released txBytes).orders = b.orders := by
  unfold place
  dsimp only
  split
  · exact refill_waiters (b := { b with charges := _, nextCharge := _ }) now
  · exact ⟨rfl, rfl⟩

end LinkBudget

/-- Nothing more urgent, and nothing earlier of the same priority, goes before a request that fits. -/
theorem goesBefore_eq_false {priority : Priority} {order : Option ℕ} {w : Waiter}
    (h : LinkBudget.goesBefore priority order w = false) (hother : order ≠ some w.order) :
    ¬w.priority.toInt < priority.toInt ∧ ∀ own ∈ order, w.priority = priority → own < w.order := by
  simp only [LinkBudget.goesBefore, hother, ne_eq, not_false_eq_true, decide_true, Bool.true_and,
    Bool.or_eq_false_iff, decide_eq_false_iff_not] at h
  refine ⟨h.1, fun own hown hpriority => ?_⟩
  have hearlier := h.2
  rw [Option.mem_def.mp hown] at hearlier hother
  simp only [Option.any_some, hpriority, true_and, decide_eq_false_iff_not, not_lt] at hearlier
  exact lt_of_le_of_ne hearlier fun heq => hother (congrArg some heq)

/-- Taking out what has one number takes out one entry, when the numbers differ. -/
theorem filter_ne_eq_eraseIdx {α : Type*} (number : α → ℕ) {entries : List α}
    (h : entries.Pairwise fun a b => number a < number b) {index : ℕ} (hlt : index < entries.length) :
    (entries.filter fun other => number other ≠ number entries[index]) = entries.eraseIdx index := by
  induction entries generalizing index with
  | nil => simp at hlt
  | cons first rest ih =>
    obtain ⟨hfirst, hrest⟩ := List.pairwise_cons.mp h
    cases index with
    | zero =>
      have hall : ∀ other ∈ rest, number other ≠ number first := fun other hother => (hfirst other hother).ne'
      simpa using hall
    | succ index =>
      have hlt' : index < rest.length := by simpa using hlt
      have hne : number first ≠ number rest[index] := (hfirst _ (List.getElem_mem hlt')).ne
      simp only [List.getElem_cons_succ, List.eraseIdx_cons_succ]
      rw [List.filter_cons_of_pos (by simpa using hne), ih hrest hlt']

namespace LedgerDesk

variable {d : LedgerDesk}

/-- What holds along every run. -/
structure Inv (d : LedgerDesk) : Prop where
  urgentFirst : d.UrgentFirst
  recordExact : d.RecordExact
  inArrivalOrder : d.InArrivalOrder
  numbered : ∀ w ∈ d.waiters, w.order < d.budget.orders
  arrival : d.waiters.Pairwise fun first second => first.order < second.order
  served : ∀ a ∈ d.admissions, ∀ own ∈ a.order,
    own < d.budget.orders ∧ ∀ w ∈ d.waiters, w.priority = a.priority → own < w.order

/-- A change of the ledger that leaves its waiting holds. -/
theorem Inv.of_budget (h : d.Inv) {budget : LinkBudget} (hwaiters : budget.waiters = d.budget.waiters)
    (horders : d.budget.orders ≤ budget.orders) : ({ d with budget := budget } : LedgerDesk).Inv where
  urgentFirst := h.urgentFirst
  recordExact := hwaiters.trans h.recordExact
  inArrivalOrder := h.inArrivalOrder
  numbered w hw := (h.numbered w hw).trans_le horders
  arrival := h.arrival
  served a ha own hown := ⟨((h.served a ha own hown).1).trans_le horders, (h.served a ha own hown).2⟩

/-- An admission that no waiting hold goes before. -/
theorem Inv.admitted (h : d.Inv) {budget : LinkBudget} {nbytes : ℤ} {priority : Priority} {order : Option ℕ} {now : ℚ}
    {released : Bool} {txBytes : ℤ} (hwaiters : budget.waiters = d.budget.waiters)
    (horders : d.budget.orders ≤ budget.orders)
    (hfirst : ∀ w ∈ d.waiters, ¬w.priority.toInt < priority.toInt ∧
      ∀ own ∈ order, w.priority = priority → own < w.order)
    (hown : ∀ own ∈ order, own < budget.orders ∧ ∀ a ∈ d.admissions, a.priority = priority →
      ∀ other ∈ a.order, other < own) :
    (d.admitted budget nbytes priority order now released txBytes).Inv := by
  obtain ⟨hplaced, hplacedOrders⟩ := LinkBudget.place_waiters (b := budget) nbytes priority now released txBytes
  refine ⟨?_, ?_, ⟨?_, ?_⟩, ?_, h.arrival, ?_⟩
  · exact List.forall_mem_cons.mpr ⟨fun w hw => (hfirst w hw).1, h.urgentFirst⟩
  · exact (hplaced.trans hwaiters).trans h.recordExact
  · exact List.forall_mem_cons.mpr ⟨fun own hmem w hw => (hfirst w hw).2 own hmem, h.inArrivalOrder.1⟩
  · refine List.pairwise_cons.mpr ⟨fun a ha hpriority own hmem other hother => ?_, h.inArrivalOrder.2⟩
    exact (hown own hmem).2 a ha hpriority.symm other hother
  · intro w hw
    exact hplacedOrders ▸ (h.numbered w hw).trans_le horders
  · refine List.forall_mem_cons.mpr ⟨fun own hmem => ⟨hplacedOrders ▸ (hown own hmem).1, fun w hw => ?_⟩, ?_⟩
    · exact (hfirst w hw).2 own hmem
    · intro a ha own hmem
      exact ⟨hplacedOrders ▸ ((h.served a ha own hmem).1).trans_le horders, (h.served a ha own hmem).2⟩

/-- A charge that is asked for without waiting. -/
theorem Inv.tryCharge (h : d.Inv) (now : ℚ) (nbytes : ℤ) (priority : Priority) (txBytes : ℤ) :
    (d.tryCharge now nbytes priority txBytes).Inv := by
  obtain ⟨hwaiters, horders⟩ := LinkBudget.fits_waiters (b := d.budget) nbytes priority now none txBytes
  unfold LedgerDesk.tryCharge
  split
  case h_1 fitting hfits =>
    rw [hfits] at hwaiters horders
    have hbefore := LinkBudget.fits_true (congrArg Prod.fst hfits)
    refine h.admitted hwaiters horders.ge (fun w hw => ?_) (by simp)
    exact goesBefore_eq_false (hbefore w (h.recordExact ▸ hw)) (by simp)
  case h_2 refused hfits =>
    rw [hfits] at hwaiters horders
    exact h.of_budget hwaiters horders.ge

/-- A hold that comes. -/
theorem Inv.hold (h : d.Inv) (now : ℚ) (nbytes : ℤ) (priority : Priority) (timeoutS : ℚ) (cancelled : Bool)
    (txBytes : ℤ) : (d.hold now nbytes priority timeoutS cancelled txBytes).Inv := by
  unfold LedgerDesk.hold
  split
  case isTrue => exact h
  case isFalse =>
    dsimp only
    obtain ⟨hwaiters, horders⟩ := LinkBudget.fits_waiters
      (b := { d.budget with orders := d.budget.orders + 1 }) nbytes priority now (some d.budget.orders) txBytes
    split
    case h_1 fitting hfits =>
      rw [hfits] at hwaiters horders
      have hbefore := LinkBudget.fits_true (congrArg Prod.fst hfits)
      have hgrown : d.budget.orders + 1 = fitting.orders := horders.symm
      refine h.admitted hwaiters (by omega) (fun w hw => ?_) (fun own hown => ?_)
      · have hnew : some d.budget.orders ≠ some w.order := by
          have := h.numbered w hw
          simp only [ne_eq, Option.some.injEq]
          omega
        exact goesBefore_eq_false (hbefore w (h.recordExact ▸ hw)) hnew
      · obtain rfl := Option.some.inj hown
        exact ⟨by omega, fun a ha _ other hother => (h.served a ha other hother).1⟩
    case h_2 refused hfits =>
      rw [hfits] at hwaiters horders
      have hgrown : d.budget.orders + 1 = refused.orders := horders.symm
      split
      case isTrue => exact h.of_budget hwaiters (by omega)
      case isFalse =>
        have hall : ({ d with
            budget := { refused with waiters := refused.waiters ++ [⟨priority, d.budget.orders⟩] }
            waiting := d.waiting ++ [⟨⟨priority, d.budget.orders⟩, nbytes, now + timeoutS, txBytes⟩] }
              : LedgerDesk).waiters = d.waiters ++ [⟨priority, d.budget.orders⟩] := by
          simp [waiters]
        refine ⟨h.urgentFirst, ?_, h.inArrivalOrder, ?_, ?_, fun a ha own hown => ⟨?_, ?_⟩⟩
        · rw [RecordExact, hall, ← h.recordExact]
          exact congrArg (· ++ [_]) hwaiters
        · rw [hall]
          intro w hw
          rcases List.mem_append.mp hw with hold | hnew
          · exact (h.numbered w hold).trans_le (by simp only; omega)
          · obtain rfl := List.mem_singleton.mp hnew
            simp only
            omega
        · rw [hall]
          refine List.pairwise_append.mpr ⟨h.arrival, List.pairwise_singleton _ _, fun w hw last hlast => ?_⟩
          obtain rfl := List.mem_singleton.mp hlast
          exact h.numbered w hw
        · exact ((h.served a ha own hown).1).trans_le (by simp only; omega)
        · rw [hall]
          intro w hw hpriority
          rcases List.mem_append.mp hw with hold | hnew
          · exact (h.served a ha own hown).2 w hold hpriority
          · obtain rfl := List.mem_singleton.mp hnew
            exact (h.served a ha own hown).1

/-- The holds that wait without the one at a place. -/
theorem leave_waiters (d : LedgerDesk) (call : HoldCall) (index : ℕ) :
    (d.leave call index).waiters = d.waiters.eraseIdx index := by
  simp [waiters, leave, List.eraseIdx_map]

/-- A hold that leaves. -/
theorem Inv.leave (h : d.Inv) {index : ℕ} {call : HoldCall} (hcall : d.waiting[index]? = some call) :
    (d.leave call index).Inv := by
  obtain ⟨hlt, rfl⟩ := List.getElem?_eq_some_iff.mp hcall
  have hlt' : index < d.waiters.length := by simpa [waiters] using hlt
  have hsub : (d.waiters.eraseIdx index).Sublist d.waiters := List.eraseIdx_sublist _ _
  have hall := leave_waiters d d.waiting[index] index
  refine ⟨h.urgentFirst, ?_, h.inArrivalOrder, fun w hw => ?_, ?_, fun a ha own hown => ?_⟩
  · have hsame : d.waiters[index] = d.waiting[index].waiter := by simp [waiters]
    rw [RecordExact, hall, ← filter_ne_eq_eraseIdx Waiter.order h.arrival hlt', hsame]
    exact congrArg (List.filter _) h.recordExact
  · exact h.numbered w (hsub.subset (hall ▸ hw))
  · rw [hall]
    exact h.arrival.sublist hsub
  · obtain ⟨hbelow, hrest⟩ := h.served a ha own hown
    exact ⟨hbelow, fun w hw => hrest w (hsub.subset (hall ▸ hw))⟩

/-- A hold that wakes up. -/
theorem Inv.wake (h : d.Inv) (index : ℕ) (now : ℚ) (cancelled : Bool) : (d.wake index now cancelled).Inv := by
  unfold LedgerDesk.wake
  split
  case h_1 => exact h
  case h_2 call hcall =>
    split
    case isTrue => exact h.leave hcall
    case isFalse =>
      obtain ⟨hwaiters, horders⟩ := LinkBudget.fits_waiters
        (b := d.budget) call.nbytes call.waiter.priority now (some call.waiter.order) call.txBytes
      split
      case h_1 fitting hfits =>
        rw [hfits] at hwaiters horders
        have hbefore := LinkBudget.fits_true (congrArg Prod.fst hfits)
        have hfitting := h.of_budget hwaiters horders.ge
        have hleft : ({ d with budget := fitting }.leave call index).Inv := hfitting.leave hcall
        have hmem : call.waiter ∈ d.waiters := List.mem_map_of_mem (List.mem_of_getElem? hcall)
        refine hleft.admitted rfl le_rfl (fun w hw => ?_) (fun own hown => ?_)
        · obtain ⟨hw, hother⟩ := List.mem_filter.mp (hleft.recordExact ▸ hw)
          refine goesBefore_eq_false (hbefore w (hwaiters ▸ hw)) fun hsame => ?_
          exact of_decide_eq_true hother (Option.some.inj hsame).symm
        · obtain rfl := Option.some.inj hown
          refine ⟨(h.numbered _ hmem).trans_le horders.ge, fun a ha hpriority other hother => ?_⟩
          exact (h.served a ha other hother).2 _ hmem hpriority.symm
      case h_2 refused hfits =>
        rw [hfits] at hwaiters horders
        have hrefused := h.of_budget hwaiters horders.ge
        split
        · exact hrefused.leave hcall
        · exact hrefused

/-- Every step keeps the order and the list. -/
theorem Inv.step (h : d.Inv) (event : LedgerEvent) : (d.step event).Inv := by
  cases event with
  | tryCharge now nbytes priority txBytes => exact h.tryCharge now nbytes priority txBytes
  | hold now nbytes priority timeoutS cancelled txBytes =>
    exact h.hold now nbytes priority timeoutS cancelled txBytes
  | wake index now cancelled => exact h.wake index now cancelled
  | release now charge delayS => exact h.of_budget rfl le_rfl
  | inWindow now => exact h.of_budget rfl le_rfl
  | egressTokens now =>
    obtain ⟨hwaiters, horders⟩ := LinkBudget.refill_waiters (b := d.budget) now
    exact h.of_budget hwaiters horders.ge
  | setEgressShaper now burstBytes rateBytesPerS reserveBytes => exact h.of_budget rfl le_rfl
  | debitEgress now nbytes =>
    obtain ⟨hwaiters, horders⟩ := LinkBudget.refill_waiters (b := d.budget) now
    simp only [LedgerDesk.step, LinkBudget.debitEgress]
    split
    · exact h
    · exact h.of_budget hwaiters horders.ge
  | refundEgress now nbytes =>
    obtain ⟨hwaiters, horders⟩ := LinkBudget.refill_waiters (b := d.budget) now
    simp only [LedgerDesk.step, LinkBudget.refundEgress]
    split
    · exact h
    · exact h.of_budget hwaiters horders.ge

/-- In every state of every run of the ground station's ledger the order and the list are kept. -/
theorem holds_inv (shareBytes : ℤ) (windowS now : ℚ) (events : List LedgerEvent) :
    Holds LedgerDesk.step Inv (new shareBytes windowS now) events :=
  holds_of_step (fun d event h => h.step event) (fun _ h => h)
    ⟨by simp [UrgentFirst, new], rfl, by simp [InArrivalOrder, new], by simp [waiters, new], by simp [waiters, new],
      by simp [new]⟩ events

end LedgerDesk

/-- Both ledgers, in every state of every run: nobody is admitted while a more urgent caller waits, and the record of
the waiting callers is exact. The ground station's serves holds of one priority in the order they came. -/
theorem priority_of_both_ledgers :
    (∀ (share : ℕ) (window : ℤ) (share_le : share ≤ Link.uint32Max) (events : List Link.CounterEvent),
      Holds Link.Counter.step (fun c => c.UrgentFirst ∧ c.RecordExact) (.new share window share_le) events) ∧
    ∀ (shareBytes : ℤ) (windowS now : ℚ) (events : List LedgerEvent),
      Holds LedgerDesk.step (fun d => d.UrgentFirst ∧ d.RecordExact ∧ d.InArrivalOrder)
        (.new shareBytes windowS now) events := by
  constructor
  · intro share window share_le events
    exact (Link.Counter.holds_inv share window share_le events).mono fun c h => ⟨h.urgentFirst, h.recordExact⟩
  · intro shareBytes windowS now events
    exact (LedgerDesk.holds_inv shareBytes windowS now events).mono fun d h =>
      ⟨h.urgentFirst, h.recordExact, h.inArrivalOrder⟩

/-- A replayed frame waits behind a live one, and two commands come for the room of one. -/
theorem priority_of_both_ledgers_bench :
    Holds Link.Counter.step (fun c => c.UrgentFirst ∧ c.RecordExact) (.new 1600 1000000000 (by decide))
      [.call (.tryHold 0 1600 .live 0), .call (.waitHold 1 900 .replay 5 0), .call (.waitHold 2 900 .live 5 0),
        .call (.releaseAt 1 (some 3)), .wake 0 1000000003, .wake 1 1000000003, .wake 0 2000000004] ∧
      Holds LedgerDesk.step (fun d => d.UrgentFirst ∧ d.RecordExact ∧ d.InArrivalOrder) (.new 1150 1 0)
        [.hold 0 1000 .command 0 false 0, .hold 1 1000 .command 9 false 0, .hold 2 1000 .command 9 false 0,
          .release 3 0 0, .wake 1 4 false, .wake 0 4 false] :=
  ⟨priority_of_both_ledgers.1 1600 1000000000 (by decide) _, priority_of_both_ledgers.2 1150 1 0 _⟩

end Coatheal.Ground
