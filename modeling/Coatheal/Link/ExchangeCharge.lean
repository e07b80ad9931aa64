import Coatheal.Link.ExchangeRun

/-!
# The charge of a frame covers its exchange

What the charge counts is the allowance of the kinds of segments that are not
refunded. With one segment for the frame and one for its ACK line every exchange
stays within that, in every run; with more of them each can be acknowledged on its
own, which is charged once.
-/

namespace Coatheal.Link

open Library Wire

/-- What the cost of a frame has for each kind of segment. -/
def allowance (line : List Char) (payload : ℕ) : SegmentKind → ℕ
  | .frame => tcpBytes payload
  | .tcpAck => pureAck
  | .lateReset => reset
  | .ackLine => tcpBytes (ackLinePayload line)
  | .lineReply => pureAck
  | .exchangeReset => reset

namespace LinkBudget

variable {budget : LinkBudget} {id bytes : ℕ} {stop : Option ℤ} {rest : List Entry}

/-- A refund out of the first charge. -/
theorem refund_entries (h : budget.ledger.entries = ⟨id, stop, bytes⟩ :: rest) (refunded : ℕ) :
    (budget.refund id refunded).ledger.entries = ⟨id, stop, bytes - min refunded bytes⟩ :: rest := by
  change updateFirst id (Entry.shrink refunded) budget.ledger.entries = _
  rw [h, updateFirst, if_pos rfl]
  rfl

/-- The end of the first charge. -/
theorem releaseAt_entries (h : budget.ledger.entries = ⟨id, stop, bytes⟩ :: rest) (later : Option ℤ) :
    (budget.releaseAt id later).ledger.entries = ⟨id, later, bytes⟩ :: rest := by
  change updateFirst id (Entry.closeAt later) budget.ledger.entries = _
  rw [h, updateFirst, if_pos rfl]
  rfl

/-- A part of the only charge ends. -/
theorem releasePart_entries (h : budget.ledger.entries = [⟨id, stop, bytes⟩]) (part : ℕ) (later : Option ℤ) :
    (budget.releasePart id part later).ledger.entries =
      [⟨id, stop, bytes - min part bytes⟩, ⟨budget.ledger.nextId, later, min part bytes⟩] := by
  have hfind : budget.ledger.find? id = some ⟨id, stop, bytes⟩ := by
    simp [Ledger.find?, h]
  unfold releasePart
  rw [hfind]
  change updateFirst id (Entry.shrink part) budget.ledger.entries ++ _ = _
  rw [h, updateFirst, if_pos rfl]
  rfl

/-- The calls of an abort on the first charge. -/
theorem abortedCalls_entries (h : budget.ledger.entries = ⟨id, stop, bytes⟩ :: rest) (settled : Bool) (later : ℤ) :
    ((abortedCalls id settled later).foldl Call.apply budget).ledger.entries =
      ⟨id, some later, bytes - if settled then min reset bytes else 0⟩ :: rest := by
  cases settled with
  | true => exact releaseAt_entries (refund_entries h reset) (some later)
  | false => exact releaseAt_entries h (some later)

/-- The calls of an answer on the first charge. -/
theorem answeredCalls_entries (h : budget.ledger.entries = ⟨id, stop, bytes⟩ :: rest) (ackedAt : ℤ) (carried : Bool) :
    ((answeredCalls id ackedAt carried).foldl Call.apply budget).ledger.entries =
      ⟨id, some (ackedAt + ackFlushTail), bytes - min (2 * reset) bytes -
        if carried then min pureAck (bytes - min (2 * reset) bytes) else 0⟩ :: rest := by
  have hresets := refund_entries h (2 * reset)
  cases carried with
  | true => exact releaseAt_entries (refund_entries hresets pureAck) (some (ackedAt + ackFlushTail))
  | false => exact releaseAt_entries hresets (some (ackedAt + ackFlushTail))

/-- Calls leave the window. -/
theorem foldl_apply_window (budget : LinkBudget) (calls : List Call) :
    (calls.foldl Call.apply budget).window = budget.window := by
  induction calls generalizing budget with
  | nil => rfl
  | cons call rest ih => exact (ih _).trans (apply_change budget call).2.1

end LinkBudget

namespace FrameExchange

open LinkBudget

variable {s s' : FrameExchange}

/-- What the charge still has for a kind apart from the written frame. -/
def leftOf (s : FrameExchange) (kind : SegmentKind) : ℕ :=
  if kind ∈ s.refunded ∨ kind = .frame ∧ s.phase.sentAt ≠ none then 0 else allowance s.line s.payload kind

/-- What the charge still has apart from the written frame. -/
def left (s : FrameExchange) : ℕ := (segmentKinds.map s.leftOf).sum

/-- The ledger holds what is left, and the written frame beside it. -/
structure Held (s : FrameExchange) : Prop where
  window : s.budget.window = windowNanos
  entries : s.budget.ledger.entries =
    ⟨ticket, s.phase.stop, s.left⟩ :: (s.phase.sentAt.map fun sentAt => ⟨2, some sentAt, tcpBytes s.payload⟩).toList
  nextId : s.phase = .writing → s.budget.ledger.nextId = 2

/-- What is left before anything is refunded. -/
theorem left_open (hrefunded : s.refunded = []) :
    s.left = (if s.phase.sentAt = none then tcpBytes s.payload else 0) + pureAck + reset +
      tcpBytes (ackLinePayload s.line) + pureAck + reset := by
  by_cases hsent : s.phase.sentAt = none
  · simp [left, leftOf, segmentKinds, allowance, hrefunded, hsent, Nat.add_assoc]
  · simp [left, leftOf, segmentKinds, allowance, hrefunded, hsent, Nat.add_assoc]

/-- What is left when the reset of a late TCP ACK is refunded. -/
theorem left_settled (hrefunded : s.refunded = [.lateReset]) :
    s.left = (if s.phase.sentAt = none then tcpBytes s.payload else 0) + pureAck +
      tcpBytes (ackLinePayload s.line) + pureAck + reset := by
  by_cases hsent : s.phase.sentAt = none
  · simp [left, leftOf, segmentKinds, allowance, hrefunded, hsent, Nat.add_assoc]
  · simp [left, leftOf, segmentKinds, allowance, hrefunded, hsent, Nat.add_assoc]

/-- What is left of a written frame that was answered. -/
theorem left_answered {sentAt : ℤ} (hsent : s.phase.sentAt = some sentAt) (carried : Bool)
    (hrefunded : s.refunded = (if carried then [.tcpAck] else []) ++ [.lateReset, .exchangeReset]) :
    s.left = (if carried then 0 else pureAck) + tcpBytes (ackLinePayload s.line) + pureAck := by
  cases carried with
  | true => simp [left, leftOf, segmentKinds, allowance, hrefunded, hsent]
  | false => simp [left, leftOf, segmentKinds, allowance, hrefunded, hsent, Nat.add_assoc]

/-- A move that leaves the phase, the refunds and the budget leaves the ledger. -/
theorem Held.keep (h : s.Held) (hline : s'.line = s.line) (hpayload : s'.payload = s.payload)
    (hphase : s'.phase = s.phase) (hrefunded : s'.refunded = s.refunded) (hbudget : s'.budget = s.budget) :
    s'.Held := by
  have hleft : s'.left = s.left := by
    unfold left leftOf
    rw [hline, hpayload, hphase, hrefunded]
  refine ⟨hbudget ▸ h.window, ?_, fun hwriting => ?_⟩
  · rw [hbudget, hphase, hleft, hpayload]
    exact h.entries
  · rw [hbudget]
    exact h.nextId (hphase ▸ hwriting)

/-- The calls of every phase leave the ledger as it should be. -/
theorem Held.moves (h : s.Held) (hphased : s.Phased) (hmoves : Moves s s') : s'.Held := by
  cases hmoves with
  | stay => exact h
  | wait nanoseconds => exact h.keep rfl rfl rfl rfl rfl
  | transmit count writing some fits => exact h.keep rfl rfl rfl rfl rfl
  | sendDone writing all =>
    have hrefunded := (hphased.opened (by rw [writing]; rfl)).refunded
    have hbefore := left_open hrefunded
    have hafter := @left_open { s.charge (writtenCalls s.payload ticket s.now) with phase := .waiting s.now } hrefunded
    have hentries := h.entries
    rw [writing] at hentries hbefore
    refine ⟨(foldl_apply_window _ _).trans h.window, ?_, fun hwriting => by cases hwriting⟩
    refine (releasePart_entries hentries (tcpBytes s.payload) (some s.now)).trans ?_
    rw [ExchangePhase.sentAt, if_pos rfl] at hbefore
    change _ = 0 + _ + _ + tcpBytes (ackLinePayload s.line) + _ + _ at hafter
    have hpart : min (tcpBytes s.payload) s.left = tcpBytes s.payload := by omega
    rw [h.nextId writing, hpart, hafter, hbefore]
    have hrest : tcpBytes s.payload + pureAck + reset + tcpBytes (ackLinePayload s.line) + pureAck + reset -
        tcpBytes s.payload = 0 + pureAck + reset + tcpBytes (ackLinePayload s.line) + pureAck + reset := by omega
    rw [hrest]
    rfl
  | linkChanged writing unsent =>
    have hbefore := left_open (hphased.opened (by rw [writing]; rfl)).refunded
    have hentries := h.entries
    rw [writing] at hentries hbefore
    refine ⟨(foldl_apply_window _ _).trans h.window, ?_, fun hwriting => by cases hwriting⟩
    refine (releaseAt_entries (refund_entries hentries (frameCostBytes s.line s.payload)) (some s.now)).trans ?_
    rw [ExchangePhase.sentAt, if_pos rfl] at hbefore
    have hcost : min (frameCostBytes s.line s.payload) s.left = s.left := by
      rw [frameCostBytes]
      omega
    rw [hcost, Nat.sub_self]
    have hleft : left { s.charge (unsentCalls (frameCostBytes s.line s.payload) ticket s.now) with
        phase := .unsent s.now
        refunded := segmentKinds } = 0 := by
      simp [left, leftOf, segmentKinds]
    rw [hleft]
    rfl
  | abort known srtt isOpen =>
    have hrefunded := (hphased.opened isOpen).refunded
    have hbefore := left_open hrefunded
    refine ⟨(foldl_apply_window _ _).trans h.window, ?_, fun hwriting => by cases hwriting⟩
    refine (abortedCalls_entries h.entries (known && decide (s.acked = s.sent)) (s.now + abortTail + srtt)).trans ?_
    have hafter : (s.abort known srtt).left =
        s.left - if (known && decide (s.acked = s.sent)) = true then min reset s.left else 0 := by
      cases hsettled : (known && decide (s.acked = s.sent)) with
      | true =>
        have heq : (s.abort known srtt).refunded = [.lateReset] := by
          unfold abort
          dsimp only
          rw [hsettled, if_pos rfl, hrefunded]
        have hleft := left_settled heq
        change _ = (if s.phase.sentAt = none then tcpBytes s.payload else 0) + _ + tcpBytes (ackLinePayload s.line) +
          _ + _ at hleft
        rw [if_pos rfl]
        omega
      | false =>
        have heq : (s.abort known srtt).refunded = [] := by
          unfold abort
          dsimp only
          rw [hsettled, if_neg Bool.false_ne_true, hrefunded]
        rw [if_neg Bool.false_ne_true, Nat.sub_zero, hbefore]
        exact left_open heq
    rw [← hafter]
    rfl
  | settle known sentAt waiting answered whole =>
    have hrefunded := (hphased.opened (by rw [waiting]; rfl)).refunded
    have hbefore := left_open hrefunded
    have hentries := h.entries
    rw [waiting] at hentries hbefore
    refine ⟨(foldl_apply_window _ _).trans h.window, ?_, fun hwriting => by cases hwriting⟩
    generalize hcarried : (known && decide (s.segmentsIn = 1 ∧ s.dataSegmentsIn = 1)) = carried
    have hafter : (s.settle known sentAt).left =
        (if carried then 0 else pureAck) + tcpBytes (ackLinePayload s.line) + pureAck := by
      refine @left_answered (s.settle known sentAt) sentAt rfl carried ?_
      unfold settle
      dsimp only
      rw [hcarried, hrefunded]
    have hbudget : (s.settle known sentAt).budget =
        (answeredCalls ticket s.now carried).foldl Call.apply s.budget := by
      rw [← hcarried]
      rfl
    rw [hbudget, hafter]
    refine (answeredCalls_entries hentries s.now carried).trans ?_
    rw [ExchangePhase.sentAt, if_neg (Option.some_ne_none _)] at hbefore
    have hbytes : (s.left - min (2 * reset) s.left -
        if carried then min pureAck (s.left - min (2 * reset) s.left) else 0) =
        (if carried then 0 else pureAck) + tcpBytes (ackLinePayload s.line) + pureAck := by
      cases carried with
      | true =>
        rw [if_pos rfl, if_pos rfl]
        omega
      | false =>
        rw [if_neg Bool.false_ne_true, if_neg Bool.false_ne_true]
        omega
    rw [hbytes]
    rfl
  | arrive count live fits => exact h.keep rfl rfl rfl rfl rfl
  | tcpAck live fresh => exact h.keep rfl rfl rfl rfl rfl
  | answer size live all first fits => exact h.keep rfl rfl rfl rfl rfl
  | ackIn number rest flight isOpen => exact h.keep rfl rfl rfl rfl rfl
  | ackLate number rest flight closed live => exact h.keep rfl rfl rfl rfl rfl
  | lineIn count flight some fits isOpen => exact h.keep rfl rfl rfl rfl rfl
  | lineLate count flight some fits closed live => exact h.keep rfl rfl rfl rfl rfl
  | ackLine owed acknowledges => exact h.keep rfl rfl rfl rfl rfl

/-- Everything that holds of an exchange on its way. -/
structure Inv (line : List Char) (payload : ℕ) (s : FrameExchange) : Prop where
  line_eq : s.line = line
  payload_eq : s.payload = payload
  counts : s.Counts
  totals : s.Totals
  phased : s.Phased
  times : s.Times
  held : s.Held

variable {line : List Char} {payload : ℕ}

/-- A move keeps the frame. -/
theorem moves_frame (hmoves : Moves s s') : s'.line = s.line ∧ s'.payload = s.payload := by
  cases hmoves <;> exact ⟨rfl, rfl⟩

/-- Every step keeps it. -/
theorem Inv.step (h : s.Inv line payload) (event : ExchangeEvent) : (s.step event).Inv line payload :=
  have hmoves := step_moves s event
  { line_eq := (moves_frame hmoves).1.trans h.line_eq
    payload_eq := (moves_frame hmoves).2.trans h.payload_eq
    counts := h.counts.moves hmoves
    totals := h.totals.moves h.counts hmoves
    phased := h.phased.moves h.counts hmoves
    times := h.times.moves hmoves
    held := h.held.moves h.phased hmoves }

/-- An admitted frame starts with it. -/
theorem inv_start (line : List Char) (payload : ℕ) : (start line payload).Inv line payload where
  line_eq := rfl
  payload_eq := rfl
  counts := by constructor <;> simp [start]
  totals := by constructor <;> simp [start, total, frameBytes]
  phased := by
    constructor
    · exact fun _ => by constructor <;> simp [start, tally]
    all_goals simp [start]
  times := by constructor <;> simp [start]
  held := by
    refine ⟨rfl, ?_, fun _ => rfl⟩
    have hleft := @left_open (start line payload) rfl
    rw [hleft]
    rfl

/-- Later the times at which the frame was written and the charge stops are the same, and what was refunded is
refunded still. -/
structure Later (s s' : FrameExchange) : Prop where
  sentAt : ∀ sentAt, s.phase.sentAt = some sentAt → s'.phase.sentAt = some sentAt
  stop : ∀ stop, s.phase.stop = some stop → s'.phase.stop = some stop
  refunded : ∀ kind ∈ s.refunded, kind ∈ s'.refunded

/-- After a move it is later. -/
theorem Phased.later (h : s.Phased) (hmoves : Moves s s') : Later s s' := by
  have hopen {kind : SegmentKind} (hphase : s.phase.isOpen = true) (hmem : kind ∈ s.refunded) : False :=
    h.not_mem_of_open hphase kind hmem
  cases hmoves with
  | sendDone writing all => exact {
      sentAt := fun sentAt hsentAt => by
        rw [writing] at hsentAt
        cases hsentAt
      stop := fun stop hstop => by
        rw [writing] at hstop
        cases hstop
      refunded := fun kind hmem => hmem }
  | linkChanged writing unsent => exact {
      sentAt := fun sentAt hsentAt => by
        rw [writing] at hsentAt
        cases hsentAt
      stop := fun stop hstop => by
        rw [writing] at hstop
        cases hstop
      refunded := fun kind hmem => (hopen (by rw [writing]; rfl) hmem).elim }
  | abort known srtt isOpen => exact {
      sentAt := fun sentAt hsentAt => hsentAt
      stop := fun stop hstop => by
        cases hphase : s.phase with
        | writing | waiting =>
          rw [hphase] at hstop
          cases hstop
        | unsent | answered | aborted =>
          rw [hphase] at isOpen
          cases isOpen
      refunded := fun kind hmem => (hopen isOpen hmem).elim }
  | settle known sentAt waiting answered whole => exact {
      sentAt := fun other hother => by
        rw [waiting] at hother
        exact hother
      stop := fun stop hstop => by
        rw [waiting] at hstop
        cases hstop
      refunded := fun kind hmem => (hopen (by rw [waiting]; rfl) hmem).elim }
  | _ => exact ⟨fun _ h => h, fun _ h => h, fun _ h => h⟩

/-- A part of the charge that stopped a window ago. -/
def lapsed (stop : Option ℤ) (now : ℤ) : Bool := stop.any fun stop => stop + windowNanos ≤ now

/-- What the charge counts for a kind: what is left for it, and the written frame for the frame. -/
def countedOf (s : FrameExchange) (kind : SegmentKind) : ℕ :=
  (if lapsed s.phase.stop s.now then 0 else s.leftOf kind) +
    if kind = .frame ∧ s.phase.sentAt ≠ none ∧ lapsed s.phase.sentAt s.now = false then tcpBytes s.payload else 0

/-- What the charge counts is the sum over the kinds. -/
theorem counted_eq (h : s.Held) : s.counted = (segmentKinds.map s.countedOf).sum := by
  have hkinds : (segmentKinds.map s.countedOf).sum = (if lapsed s.phase.stop s.now then 0 else s.left) +
      if s.phase.sentAt ≠ none ∧ lapsed s.phase.sentAt s.now = false then tcpBytes s.payload else 0 := by
    by_cases hstop : lapsed s.phase.stop s.now = true
    · simp [segmentKinds, countedOf, hstop]
    · simp only [segmentKinds, countedOf, left, List.map_cons, List.map_nil, List.sum_cons, List.sum_nil, if_neg hstop,
        reduceCtorEq, false_and, if_false, true_and]
      omega
  rw [hkinds]
  change ((s.budget.ledger.entries.filter fun entry => !entry.expired s.budget.window s.now).map Entry.bytes).sum = _
  rw [h.window, h.entries]
  cases hstop : s.phase.stop with
  | none =>
    cases hsent : s.phase.sentAt with
    | none => simp [Entry.expired, lapsed]
    | some sentAt =>
      by_cases hlate : sentAt + windowNanos ≤ s.now
      · simp [Entry.expired, lapsed, hlate]
      · simp [Entry.expired, lapsed, hlate]
  | some stop =>
    by_cases hended : stop + windowNanos ≤ s.now
    · cases hsent : s.phase.sentAt with
      | none => simp [Entry.expired, lapsed, hended]
      | some sentAt =>
        by_cases hlate : sentAt + windowNanos ≤ s.now
        · simp [Entry.expired, lapsed, hended, hlate]
        · simp [Entry.expired, lapsed, hended, hlate]
    · cases hsent : s.phase.sentAt with
      | none => simp [Entry.expired, lapsed, hended]
      | some sentAt =>
        by_cases hlate : sentAt + windowNanos ≤ s.now
        · simp [Entry.expired, lapsed, hended, hlate]
        · simp [Entry.expired, lapsed, hended, hlate]

end FrameExchange

end Coatheal.Link
