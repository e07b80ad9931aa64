import Coatheal.Link.NoLeak

/-!
# A reply in pieces

`SendPacedReply` of `command_server.cpp`: the reply to a command goes out in chunks
of one segment, each under a hold of its own, and is given up with a reset as soon
as a chunk is not admitted, not sent or not acknowledged. However it ends, and
whatever others do with the budget meanwhile, none of its holds stays open.
-/

namespace Coatheal.Link

open Library Ledger Wire
open LinkBudget (WaitOutcome)

/-- `kReplyChunkBytes`. -/
def replyChunkBytes : ℕ := 520

/-- What a reply goes through on its way: the budget, the tickets that it got and the bytes that were sent. -/
structure PacedReply where
  budget : LinkBudget
  opened : List ℕ
  wire : List UInt8

/-- What a chunk meets: the passes of the wait, whether all of it is sent or how much before a failure, whether it is
acknowledged, and the moments of the calls of the budget. -/
structure ReplyLeg where
  passes : List Moment
  cut : Option ℕ
  acked : Bool
  parted : Moment
  refunded : Moment
  released : Moment
  aborted : Moment
  abandoned : Moment

/-- How a reply ends; one whose wait has not ended yet is waiting. -/
inductive ReplyEnd where
  | sent
  | gaveUp
  | waiting
deriving DecidableEq

/-- The bytes a chunk is charged, beside the headers that the ground station holds for the first one. -/
def replyCost (first : Bool) (chunk : ℕ) : ℕ :=
  chunk + ((if first then 0 else tcpHeaders + frameOverhead) + pureAck) + 2 * reset

namespace PacedReply

variable (p : PacedReply)

/-- The budget as a call finds it. -/
def attend (moment : Moment) : LinkBudget := moment.others.foldl (outsideCall p.opened) p.budget

/-- A call of the budget that hands out no ticket. -/
def charge (moment : Moment) (call : Call) : PacedReply := { p with budget := call.apply (p.attend moment) }

/-- A pass of a wait has ended so. -/
def settle (outcome : WaitOutcome) (budget : LinkBudget) : PacedReply :=
  { p with budget := budget, opened := (ChargedClient.admittedTicket outcome).toList ++ p.opened }

/-- Further passes of `WaitHold`. -/
def waitMore (cost egress : ℕ) (deadline : ℤ) (p : PacedReply) : List Moment → WaitOutcome × PacedReply
  | [] => (.waiting, p)
  | moment :: moments =>
    match (p.attend moment).waitHoldPass moment.now cost .commandReply deadline egress with
    | (.waiting, budget) => waitMore cost egress deadline (p.settle .waiting budget) moments
    | (outcome, budget) => (outcome, p.settle outcome budget)

/-- `WaitHold`. -/
def waitHold (cost egress : ℕ) (deadline : ℤ) : List Moment → WaitOutcome × PacedReply
  | [] => (.waiting, p)
  | moment :: moments =>
    match (p.attend moment).waitHold moment.now cost .commandReply deadline egress with
    | (.waiting, budget) => waitMore cost egress deadline (p.settle .waiting budget) moments
    | (outcome, budget) => (outcome, p.settle outcome budget)

/-- `abort_reply`. -/
def abortReply (ticket : ℕ) (leg : ReplyLeg) : PacedReply :=
  (p.charge leg.aborted (.debitEgress leg.aborted.now reset)).charge leg.abandoned
    (.releaseAt ticket (some (leg.aborted.now + abortTail + leg.aborted.srtt)))

/-- The chunk was sent and acknowledged: what did not go out is given back, and the hold is closed. -/
def settleChunk (ticket : ℕ) (leg : ReplyLeg) : PacedReply :=
  (p.charge leg.refunded (.refund ticket (2 * reset))).charge leg.released
    (.releaseAt ticket (some (leg.released.now + emissionTail)))

/-- `SendPacedReply`, from its next chunk on. -/
def sendPacedReply (deadline : ℤ) : List ReplyLeg → Bool → List UInt8 → PacedReply → ReplyEnd × PacedReply
  | [], _, response, p => (if response = [] then .sent else .waiting, p)
  | leg :: legs, first, response, p =>
    if response = [] then (.sent, p)
    else
      let chunk := response.take replyChunkBytes
      let cost := replyCost first chunk.length
      match p.waitHold cost (tcpBytes chunk.length) deadline leg.passes with
      | (.refused, p) => (.gaveUp, p.charge leg.aborted (.debitEgress leg.aborted.now reset))
      | (.waiting, p) => (.waiting, p)
      | (.admitted ticket, p) =>
        match leg.cut with
        | some count => (.gaveUp, { p with wire := p.wire ++ chunk.take count }.abortReply ticket leg)
        | none =>
          let sent := { p with wire := p.wire ++ chunk }.charge leg.parted
            (.releasePart ticket (cost - 2 * reset - pureAck) (some leg.parted.now))
          if leg.acked then
            sendPacedReply deadline legs false (response.drop replyChunkBytes) (sent.settleChunk ticket leg)
          else (.gaveUp, sent.abortReply ticket leg)

end PacedReply

namespace PacedReply

variable {p : PacedReply}

/-- The tickets were handed out, and none of them is open but perhaps one. -/
structure ClosedBut (p : PacedReply) (held : Option ℕ) : Prop where
  lt : ∀ ticket ∈ p.opened, ticket < p.budget.ledger.nextId
  closed : ∀ ticket ∈ p.opened, held ≠ some ticket → ¬p.budget.ledger.IsOpen ticket

/-- The budget is found quietly. -/
theorem ClosedBut.attend_quiet {held : Option ℕ} (h : p.ClosedBut held) (moment : Moment) :
    Quiet p.opened p.budget.ledger (p.attend moment).ledger := foldl_outsideCall_quiet h.lt _

/-- What is quiet opens none of the tickets. -/
theorem ClosedBut.of_quiet {held : Option ℕ} (h : p.ClosedBut held) {budget : LinkBudget} {wire : List UInt8}
    (hquiet : Quiet p.opened p.budget.ledger budget.ledger) : ClosedBut ⟨budget, p.opened, wire⟩ held :=
  ⟨hquiet.lt h.lt, fun ticket hticket hne hopen => h.closed ticket hticket hne (hquiet.isOpen ticket hticket hopen)⟩

/-- A call that closes nothing at no time opens none of the tickets. -/
theorem ClosedBut.charge {held : Option ℕ} (h : p.ClosedBut held) (moment : Moment) {call : Call}
    (hdefinite : call.definite = true) : (p.charge moment call).ClosedBut held := by
  have hcalled := LinkBudget.apply_quiet ((h.attend_quiet moment).lt h.lt) call fun ticket hcall _ => by
    rw [hcall] at hdefinite
    cases hdefinite
  exact h.of_quiet ((h.attend_quiet moment).trans hcalled)

/-- The ticket that is closed is not open any more. -/
theorem ClosedBut.release {ticket : ℕ} (h : p.ClosedBut (some ticket)) (moment : Moment) (stop : ℤ) :
    (p.charge moment (.releaseAt ticket (some stop))).ClosedBut none := by
  have hcharged := h.charge moment (show (Call.releaseAt ticket (some stop)).definite = true from rfl)
  refine ⟨hcharged.lt, fun other hother _ => ?_⟩
  by_cases hsame : other = ticket
  · rw [hsame]
    exact not_isOpen_closeAt ticket stop
  · exact hcharged.closed other hother fun heq => hsame (Option.some.inj heq).symm

/-- The ticket that a wait leaves open. -/
def waited : WaitOutcome → Option ℕ := ChargedClient.admittedTicket

/-- After a pass at most the ticket it was admitted with is open. -/
theorem ClosedBut.settle (h : p.ClosedBut none) {outcome : WaitOutcome} {budget : LinkBudget}
    (hquiet : Quiet p.opened p.budget.ledger budget.ledger)
    (hfresh : ∀ ticket, outcome = .admitted ticket → ticket < budget.ledger.nextId) :
    (p.settle outcome budget).ClosedBut (waited outcome) := by
  have hkept : ClosedBut ⟨budget, p.opened, p.wire⟩ none := h.of_quiet hquiet
  cases outcome with
  | admitted ticket =>
    refine ⟨List.forall_mem_cons.mpr ⟨hfresh ticket rfl, hkept.lt⟩, List.forall_mem_cons.mpr ⟨fun hne => ?_, ?_⟩⟩
    · exact absurd rfl hne
    · exact fun other hother _ => hkept.closed other hother (by simp)
  | refused => exact hkept
  | waiting => exact hkept

/-- A pass of a wait leaves at most its own ticket open. -/
theorem ClosedBut.pass (h : p.ClosedBut none) (moment : Moment) (cost egress : ℕ) (deadline : ℤ) :
    (p.settle ((p.attend moment).waitHoldPass moment.now cost .commandReply deadline egress).1
      ((p.attend moment).waitHoldPass moment.now cost .commandReply deadline egress).2).ClosedBut
      (waited ((p.attend moment).waitHoldPass moment.now cost .commandReply deadline egress).1) := by
  have hfound := h.attend_quiet moment
  obtain ⟨hquiet, hfresh⟩ :=
    LinkBudget.waitHoldPass_quiet (hfound.lt h.lt) moment.now cost .commandReply deadline egress
  exact h.settle (hfound.trans hquiet) fun ticket hticket => (hfresh ticket hticket).2

/-- Further passes of a wait leave at most its own ticket open. -/
theorem ClosedBut.waitMore (h : p.ClosedBut none) (cost egress : ℕ) (deadline : ℤ) (moments : List Moment) :
    (waitMore cost egress deadline p moments).2.ClosedBut (waited (waitMore cost egress deadline p moments).1) := by
  induction moments generalizing p with
  | nil => exact h
  | cons moment moments ih =>
    have hpass := h.pass moment cost egress deadline
    rw [PacedReply.waitMore]
    rcases hresult : (p.attend moment).waitHoldPass moment.now cost .commandReply deadline egress with ⟨_ | _ | _, budget⟩
    · rw [hresult] at hpass
      exact hpass
    · rw [hresult] at hpass
      exact hpass
    · rw [hresult] at hpass
      exact ih hpass

/-- A wait leaves at most its own ticket open. -/
theorem ClosedBut.waitHold (h : p.ClosedBut none) (cost egress : ℕ) (deadline : ℤ) (moments : List Moment) :
    (p.waitHold cost egress deadline moments).2.ClosedBut (waited (p.waitHold cost egress deadline moments).1) := by
  cases moments with
  | nil => exact h
  | cons moment moments =>
    have hfound := h.attend_quiet moment
    obtain ⟨hquiet, hfresh⟩ := LinkBudget.waitHold_quiet (hfound.lt h.lt) moment.now cost .commandReply deadline egress
    have hpass := h.settle (hfound.trans hquiet) fun ticket hticket => (hfresh ticket hticket).2
    rw [PacedReply.waitHold]
    rcases hresult : (p.attend moment).waitHold moment.now cost .commandReply deadline egress with ⟨_ | _ | _, budget⟩
    · rw [hresult] at hpass
      exact hpass
    · rw [hresult] at hpass
      exact hpass
    · rw [hresult] at hpass
      exact hpass.waitMore cost egress deadline moments

/-- A wait sends nothing. -/
theorem wire_waitMore (cost egress : ℕ) (deadline : ℤ) (p : PacedReply) (moments : List Moment) :
    (waitMore cost egress deadline p moments).2.wire = p.wire := by
  induction moments generalizing p with
  | nil => rfl
  | cons moment moments ih =>
    rw [PacedReply.waitMore]
    rcases (p.attend moment).waitHoldPass moment.now cost .commandReply deadline egress with ⟨_ | _ | _, budget⟩
    · rfl
    · rfl
    · exact ih _

/-- A wait sends nothing. -/
theorem wire_waitHold (cost egress : ℕ) (deadline : ℤ) (p : PacedReply) (moments : List Moment) :
    (p.waitHold cost egress deadline moments).2.wire = p.wire := by
  cases moments with
  | nil => rfl
  | cons moment moments =>
    rw [PacedReply.waitHold]
    rcases (p.attend moment).waitHold moment.now cost .commandReply deadline egress with ⟨_ | _ | _, budget⟩
    · rfl
    · rfl
    · exact wire_waitMore cost egress deadline _ moments

/-- Giving up closes the hold. -/
theorem ClosedBut.abortReply {ticket : ℕ} (h : p.ClosedBut (some ticket)) (leg : ReplyLeg) :
    (p.abortReply ticket leg).ClosedBut none := (h.charge leg.aborted rfl).release leg.abandoned _

/-- An acknowledged chunk closes the hold. -/
theorem ClosedBut.settleChunk {ticket : ℕ} (h : p.ClosedBut (some ticket)) (leg : ReplyLeg) :
    (p.settleChunk ticket leg).ClosedBut none := (h.charge leg.refunded rfl).release leg.released _

/-- What holds of a reply when it ends: none of its tickets is open, and it was sent as far as it came. -/
structure Ended (before : List UInt8) (response : List UInt8) (ended : ReplyEnd × PacedReply) : Prop where
  closed : ended.2.ClosedBut none
  wire : ∃ count, ended.2.wire = before ++ response.take count
  sent : ended.1 = .sent → ended.2.wire = before ++ response

/-- A reply that ends before its next chunk. -/
theorem ended_unsent {before response : List UInt8} {how : ReplyEnd} (h : p.ClosedBut none) (hwire : p.wire = before)
    (hsent : how = .sent → response = []) : Ended before response (how, p) :=
  ⟨h, ⟨0, by simp [hwire]⟩, fun hhow => by simp [hwire, hsent hhow]⟩

/-- A reply that is given up with a part of it sent. -/
theorem ended_gaveUp {before response : List UInt8} {count : ℕ} (h : p.ClosedBut none)
    (hwire : p.wire = before ++ response.take count) : Ended before response (.gaveUp, p) :=
  ⟨h, ⟨count, hwire⟩, fun hhow => by cases hhow⟩

/-- What holds of the rest of a reply holds of the reply. -/
theorem Ended.of_drop {before response : List UInt8} {count : ℕ} {ended : ReplyEnd × PacedReply}
    (h : Ended (before ++ response.take count) (response.drop count) ended) : Ended before response ended := by
  obtain ⟨more, hwire⟩ := h.wire
  refine ⟨h.closed, ⟨count + more, ?_⟩, fun hhow => ?_⟩
  · rw [hwire, List.append_assoc, List.take_add]
  · rw [h.sent hhow, List.append_assoc, List.take_append_drop]

/-- From its next chunk on a reply ends with its holds closed and with nothing on the wire but the beginning of the
response. -/
theorem ended_sendPacedReply (deadline : ℤ) (legs : List ReplyLeg) (first : Bool) (response : List UInt8)
    (h : p.ClosedBut none) : Ended p.wire response (sendPacedReply deadline legs first response p) := by
  induction legs generalizing first response p with
  | nil =>
    refine ended_unsent h rfl fun hhow => ?_
    by_contra hne
    rw [if_neg hne] at hhow
    cases hhow
  | cons leg legs ih =>
    rw [sendPacedReply]
    by_cases hempty : response = []
    · rw [if_pos hempty]
      exact ended_unsent h rfl fun _ => hempty
    rw [if_neg hempty]
    dsimp only
    generalize hcost : replyCost first (response.take replyChunkBytes).length = cost
    generalize hegress : tcpBytes (response.take replyChunkBytes).length = egress
    have hwait := h.waitHold cost egress deadline leg.passes
    have hsame := wire_waitHold cost egress deadline p leg.passes
    rcases hresult : p.waitHold cost egress deadline leg.passes with ⟨ticket | _ | _, waited⟩
    · -- the chunk was admitted: its hold is closed on each of the ways on
      rw [hresult] at hwait hsame
      have hheld : waited.ClosedBut (some ticket) := hwait
      dsimp only
      cases leg.cut with
      | some count =>
        have hpart : ClosedBut { waited with wire := waited.wire ++ (response.take replyChunkBytes).take count } (some ticket) :=
          hheld.of_quiet (Quiet.refl _ _)
        refine @ended_gaveUp _ _ _ (min count replyChunkBytes) (hpart.abortReply leg) ?_
        rw [← List.take_take, ← hsame]
        rfl
      | none =>
        have hsent : ClosedBut { waited with wire := waited.wire ++ response.take replyChunkBytes } (some ticket) :=
          hheld.of_quiet (Quiet.refl _ _)
        have hparted := hsent.charge leg.parted
          (show (Call.releasePart ticket (cost - 2 * reset - pureAck) (some leg.parted.now)).definite = true from rfl)
        cases leg.acked with
        | false =>
          refine @ended_gaveUp _ _ _ replyChunkBytes (hparted.abortReply leg) ?_
          rw [← hsame]
          rfl
        | true =>
          have hrest := ih false (response.drop replyChunkBytes) (hparted.settleChunk leg)
          rw [← hsame]
          exact hrest.of_drop
    · rw [hresult] at hwait hsame
      exact ended_unsent (hwait.charge leg.aborted rfl) hsame fun hhow => by cases hhow
    · rw [hresult] at hwait hsame
      exact ended_unsent hwait hsame fun hhow => by cases hhow

/-- A reply over a budget that others have used already. -/
def start (budget : LinkBudget) : PacedReply := ⟨budget, [], []⟩

/-- However a reply goes, and whatever others do with the budget at any of its calls, none of the holds it got is open when it
ends; what was sent is the beginning of the response, and all of it when the reply was sent. -/
theorem sendPacedReply_start (budget : LinkBudget) (deadline : ℤ) (legs : List ReplyLeg) (response : List UInt8) :
    (∀ ticket ∈ (sendPacedReply deadline legs true response (start budget)).2.opened,
        ¬(sendPacedReply deadline legs true response (start budget)).2.budget.ledger.IsOpen ticket) ∧
      (sendPacedReply deadline legs true response (start budget)).2.wire <+: response ∧
      ((sendPacedReply deadline legs true response (start budget)).1 = .sent →
        (sendPacedReply deadline legs true response (start budget)).2.wire = response) := by
  have hstart : (start budget).ClosedBut none :=
    ⟨fun _ hmem => absurd hmem List.not_mem_nil, fun _ hmem => absurd hmem List.not_mem_nil⟩
  obtain ⟨hclosed, ⟨count, hwire⟩, hsent⟩ := ended_sendPacedReply deadline legs true response hstart
  refine ⟨fun ticket hticket => hclosed.closed ticket hticket (by simp), ?_, hsent⟩
  rw [hwire]
  exact List.take_prefix count response

end PacedReply

end Coatheal.Link
