import Coatheal.Link.Holds

/-!
# No hold of the telemetry client leaks

In a locked section the client's own calls close holds and open none but the one
that is asked for, and nobody else can name its tickets. So after every section
what is open of the client's is the hold of a connection that is there, or the
ticket of a frame that is on its way.
-/

namespace Coatheal.Link

open Library Ledger

/-- The call closes nothing at no time. -/
def Call.definite : Call → Bool
  | .releaseAt _ none => false
  | _ => true

/-- What others call is quiet for the owner of the tickets. -/
theorem outsideCall_quiet {owned : List ℕ} {budget : LinkBudget}
    (howned : ∀ ticket ∈ owned, ticket < budget.ledger.nextId) (call : Call) :
    Quiet owned budget.ledger (outsideCall owned budget call).ledger := by
  unfold outsideCall
  split
  · exact Quiet.refl _ _
  · rename_i hforeign
    refine LinkBudget.apply_quiet howned call fun ticket hcall hticket => hforeign ?_
    rw [hcall]
    exact List.contains_iff_mem.mpr hticket

/-- Any number of calls of others is quiet for the owner of the tickets. -/
theorem foldl_outsideCall_quiet {owned : List ℕ} {budget : LinkBudget}
    (howned : ∀ ticket ∈ owned, ticket < budget.ledger.nextId) (calls : List Call) :
    Quiet owned budget.ledger (calls.foldl (outsideCall owned) budget).ledger := by
  induction calls generalizing budget with
  | nil => exact Quiet.refl _ _
  | cons call rest ih =>
    have hfirst := outsideCall_quiet howned call
    exact hfirst.trans (ih (hfirst.lt howned))

namespace ChargedClient

variable {c c' c'' : ChargedClient}

/-- The order among the client's tickets inside a locked section: they were handed out, those of returned frames are
closed, and of those for connections at most the last one is open. -/
structure Core (c : ChargedClient) : Prop where
  lt : ∀ ticket ∈ c.opened, ticket < c.budget.ledger.nextId
  dialed_opened : ∀ ticket ∈ c.dialed, ticket ∈ c.opened
  returned_opened : ∀ ticket ∈ c.returned, ticket ∈ c.opened
  framed_opened : ∀ f ∈ c.frames, ∀ ticket, f.ticket = some ticket → ticket ∈ c.opened
  returned_closed : ∀ ticket ∈ c.returned, ¬c.budget.ledger.IsOpen ticket
  dialed_closed : ∀ ticket ∈ c.dialed, c.budget.ledger.IsOpen ticket →
    c.connectHoldOpen = true ∧ ticket = c.connectHold
  accounted : ∀ ticket ∈ c.opened, ticket ∈ c.dialed ∨ ticket ∈ c.returned ∨ ∃ f ∈ c.frames, f.ticket = some ticket

/-- The order between sections: a connect hold that counts as open is the one of the connection. -/
structure Inv (c : ChargedClient) : Prop extends Core c where
  held : c.connectHoldOpen = true → ∃ connection ∈ c.connection, connection.hold = c.connectHold

/-- A piece of a section hands out no ticket, takes none back, and opens nothing. -/
structure Within (c c' : ChargedClient) : Prop where
  opened : c'.opened = c.opened
  dialed : c'.dialed = c.dialed
  returned : c'.returned = c.returned
  frames : c'.frames = c.frames
  quiet : Quiet c.opened c.budget.ledger c'.budget.ledger

/-- A piece of a section stays within it and keeps the order among the tickets. -/
def Proceeds (c c' : ChargedClient) : Prop := c.Core → Within c c' ∧ c'.Core

/-- One piece of a section after another. -/
theorem Proceeds.trans (h : Proceeds c c') (hnext : Proceeds c' c'') : Proceeds c c'' := by
  intro hcore
  obtain ⟨hfirst, hcore'⟩ := h hcore
  obtain ⟨hsecond, hcore''⟩ := hnext hcore'
  refine ⟨⟨hsecond.opened.trans hfirst.opened, hsecond.dialed.trans hfirst.dialed,
    hsecond.returned.trans hfirst.returned, hsecond.frames.trans hfirst.frames, ?_⟩, hcore''⟩
  exact hfirst.quiet.trans (hfirst.opened ▸ hsecond.quiet)

/-- A piece within a section keeps the order among the tickets if it leaves the connect hold. -/
theorem Core.of_within (h : c.Core) (hwithin : Within c c') (hopen : c'.connectHoldOpen = c.connectHoldOpen)
    (hhold : c'.connectHold = c.connectHold) : c'.Core where
  lt := by
    rw [hwithin.opened]
    exact hwithin.quiet.lt h.lt
  dialed_opened := by
    rw [hwithin.opened, hwithin.dialed]
    exact h.dialed_opened
  returned_opened := by
    rw [hwithin.opened, hwithin.returned]
    exact h.returned_opened
  framed_opened := by
    rw [hwithin.opened, hwithin.frames]
    exact h.framed_opened
  returned_closed ticket hticket hstill := by
    rw [hwithin.returned] at hticket
    exact h.returned_closed ticket hticket (hwithin.quiet.isOpen ticket (h.returned_opened ticket hticket) hstill)
  dialed_closed ticket hticket hstill := by
    rw [hwithin.dialed] at hticket
    rw [hopen, hhold]
    exact h.dialed_closed ticket hticket (hwithin.quiet.isOpen ticket (h.dialed_opened ticket hticket) hstill)
  accounted := by
    rw [hwithin.opened, hwithin.dialed, hwithin.returned, hwithin.frames]
    exact h.accounted

/-- The budget is found quietly. -/
theorem Core.attended_quiet (h : c.Core) : Quiet c.opened c.budget.ledger c.attended.ledger :=
  foldl_outsideCall_quiet h.lt _

/-- Neither the link nor the connection matters among the tickets. -/
theorem proceeds_fields (c : ChargedClient) (link : TelemetryClient) (connection : Option Connection) :
    Proceeds c { c with link := link, connection := connection } := fun h =>
  have hwithin : Within c { c with link := link, connection := connection } := ⟨rfl, rfl, rfl, rfl, Quiet.refl _ _⟩
  ⟨hwithin, h.of_within hwithin rfl rfl⟩

/-- A call of the client's that closes nothing at no time. -/
theorem charge_proceeds (c : ChargedClient) {call : Call} (hdefinite : call.definite = true) :
    Proceeds c (c.charge call) := by
  intro h
  have hcalled := LinkBudget.apply_quiet (h.attended_quiet.lt h.lt) call (fun ticket hcall _ => by
    rw [hcall] at hdefinite
    cases hdefinite)
  have hwithin : Within c (c.charge call) := ⟨rfl, rfl, rfl, rfl, h.attended_quiet.trans hcalled⟩
  exact ⟨hwithin, h.of_within hwithin rfl rfl⟩

/-- A charge that the client closes is not open. -/
theorem not_isOpen_charge (c : ChargedClient) (ticket : ℕ) (stop : ℤ) :
    ¬(c.charge (.releaseAt ticket (some stop))).budget.ledger.IsOpen ticket :=
  not_isOpen_closeAt ticket stop

/-- Releasing the connect hold closes it. -/
theorem releaseConnectHoldLocked_proceeds (c : ChargedClient) (stop : ℤ) :
    Proceeds c (c.releaseConnectHoldLocked stop) := by
  intro h
  unfold releaseConnectHoldLocked
  split
  · obtain ⟨hwithin, hcore⟩ := @charge_proceeds c (.releaseAt c.connectHold (some stop)) rfl h
    refine ⟨⟨rfl, rfl, rfl, rfl, hwithin.quiet⟩, { hcore with dialed_closed := fun ticket hticket hstill => ?_ }⟩
    obtain ⟨_, hlast⟩ := hcore.dialed_closed ticket hticket hstill
    have hticket : ticket = c.connectHold := hlast
    exact absurd (hticket ▸ hstill) (not_isOpen_charge c c.connectHold stop)
  · exact ⟨⟨rfl, rfl, rfl, rfl, Quiet.refl _ _⟩, h⟩

/-- After its release the connect hold does not count as open. -/
theorem releaseConnectHoldLocked_closed (c : ChargedClient) (stop : ℤ) :
    (c.releaseConnectHoldLocked stop).connectHoldOpen = false := by
  unfold releaseConnectHoldLocked
  split
  · rfl
  · rename_i hclosed
    exact Bool.eq_false_iff.mpr hclosed

/-- Closing the connection releases its hold. -/
theorem closeLocked_proceeds (c : ChargedClient) : Proceeds c c.closeLocked := by
  unfold closeLocked
  dsimp only
  split
  · exact (releaseConnectHoldLocked_proceeds c _).trans (proceeds_fields _ _ none)
  · exact proceeds_fields c _ none

/-- A closed connection has no open hold. -/
theorem closeLocked_closed (c : ChargedClient) : c.closeLocked.connectHoldOpen = false := by
  unfold closeLocked
  dsimp only
  split
  · exact releaseConnectHoldLocked_closed c _
  · rename_i hclosed
    exact Bool.eq_false_iff.mpr hclosed

/-- Resetting the connection releases its hold. -/
theorem abortLocked_proceeds (c : ChargedClient) : Proceeds c c.abortLocked := by
  unfold abortLocked
  dsimp only
  split
  · exact (charge_proceeds c rfl).trans (closeLocked_proceeds _)
  · exact closeLocked_proceeds c

/-- A reset connection has no open hold. -/
theorem abortLocked_closed (c : ChargedClient) : c.abortLocked.connectHoldOpen = false := closeLocked_closed _

/-- Without an open connect hold the order within a section is the one between sections. -/
theorem Core.inv (h : c.Core) (hclosed : c.connectHoldOpen = false) : c.Inv :=
  { h with held := fun hopen => absurd (hclosed.symm.trans hopen) Bool.false_ne_true }

/-- A reset leaves the order between sections. -/
theorem Core.abortLocked (h : c.Core) : c.abortLocked.Inv :=
  (abortLocked_proceeds c h).2.inv (abortLocked_closed c)

/-- The link may change between sections. -/
theorem Inv.withLink (h : c.Inv) (link : TelemetryClient) : Inv { c with link := link } :=
  { (proceeds_fields c link c.connection h.toCore).2 with held := h.held }

/-- An attempt that ends before anything is sent releases its hold. -/
theorem Core.giveUpUnsent (h : c.Core) : c.giveUpUnsent.Inv := by
  have hreleased := releaseConnectHoldLocked_proceeds c c.reading.now
  exact (hreleased.trans (charge_proceeds _ rfl) h).2.inv (releaseConnectHoldLocked_closed c _)

/-- Whatever becomes of the HELLO, the connect hold is released or is the one of the connection. -/
theorem Core.negotiateCodecLocked (h : c.Core)
    (hheld : ∃ connection ∈ c.connection, connection.hold = c.connectHold) (hello : Hello) :
    (c.negotiateCodecLocked hello).Inv := by
  cases hello with
  | noCodec => exact (releaseConnectHoldLocked_proceeds c _ h).2.inv (releaseConnectHoldLocked_closed c _)
  | lost => exact h.abortLocked
  | unanswered =>
    unfold ChargedClient.negotiateCodecLocked
    dsimp only
    split
    · exact { (charge_proceeds c rfl h).2 with held := fun _ => hheld }
    · exact { h with held := fun _ => hheld }
  | answered z1 =>
    have hcore := (proceeds_fields c c.link (c.connection.map (Connection.withCodec z1)) h).2
    exact (releaseConnectHoldLocked_proceeds _ _ hcore).2.inv (releaseConnectHoldLocked_closed _ _)

/-- Every end of a connection attempt releases its hold or leaves it to the connection. -/
theorem Core.connectLocked (h : c.Core) (dial : Dial) : (c.connectLocked dial).Inv := by
  have hunsent := (proceeds_fields c (c.link.connect .unreachable) c.connection h).2.giveUpUnsent
  unfold ChargedClient.connectLocked
  split
  · exact hunsent
  · exact hunsent
  · have hcore := (proceeds_fields c (c.link.connect .unreachable) c.connection h).2
    refine Core.inv (charge_proceeds _ ?_ (releaseConnectHoldLocked_proceeds _ _ hcore).2).2
      (releaseConnectHoldLocked_closed _ _)
    rfl
  · rename_i fd hello hpicked
    have hcore := (proceeds_fields c (c.link.connect .connected) (some ⟨fd, false, c.connectHold⟩) h).2
    exact hcore.negotiateCodecLocked ⟨_, rfl, rfl⟩ hello

/-- A hold for a connection attempt that is refused leaves the order, and one that is admitted becomes the connect
hold if the last one is released. -/
theorem Core.tryHold (h : c.Core) (hclosed : c.connectHoldOpen = false) (bytes : ℕ) (priority : LinkPriority)
    (egress : ℕ) :
    let result := c.tryHold bytes priority egress
    (result.1 = none → result.2.Core) ∧ ∀ ticket, result.1 = some ticket →
      Core { result.2 with connectHold := ticket, connectHoldOpen := true, dialed := ticket :: result.2.dialed } := by
  obtain ⟨hquiet, hfresh⟩ := LinkBudget.admitLocked_quiet (h.attended_quiet.lt h.lt) bytes priority c.reading.now true
    egress
  have hall := h.attended_quiet.trans hquiet
  intro result
  refine ⟨fun hnone => ?_, fun ticket hticket => ?_⟩
  · have hopened : result.2.opened = c.opened := by
      change result.1.toList ++ c.opened = c.opened
      rw [hnone]
      rfl
    exact h.of_within ⟨hopened, rfl, rfl, rfl, hall⟩ rfl rfl
  · have hopened : result.2.opened = ticket :: c.opened := by
      change result.1.toList ++ c.opened = ticket :: c.opened
      rw [hticket]
      rfl
    obtain ⟨hlate, hhanded⟩ := hfresh ticket hticket
    exact {
      lt := fun other hother => by
        rcases List.mem_cons.mp (hopened ▸ hother) with rfl | hold
        · exact hhanded
        · exact hall.lt h.lt other hold
      dialed_opened := fun other hother => by
        rw [hopened]
        rcases List.mem_cons.mp hother with rfl | hold
        · exact List.mem_cons_self
        · exact List.mem_cons_of_mem _ (h.dialed_opened other hold)
      returned_opened := fun other hother => hopened ▸ List.mem_cons_of_mem _ (h.returned_opened other hother)
      framed_opened := fun f hf other hother => hopened ▸ List.mem_cons_of_mem _ (h.framed_opened f hf other hother)
      returned_closed := fun other hother hstill =>
        h.returned_closed other hother (hall.isOpen other (h.returned_opened other hother) hstill)
      dialed_closed := fun other hother hstill => by
        rcases List.mem_cons.mp hother with rfl | hold
        · exact ⟨rfl, rfl⟩
        · obtain ⟨hopen, _⟩ := h.dialed_closed other hold (hall.isOpen other (h.dialed_opened other hold) hstill)
          exact absurd (hclosed.symm.trans hopen) Bool.false_ne_true
      accounted := fun other hother => by
        rcases List.mem_cons.mp (hopened ▸ hother) with rfl | hold
        · exact Or.inl List.mem_cons_self
        · exact (h.accounted other hold).imp_left (List.mem_cons_of_mem _) }

/-- A failover leaves the order between sections. -/
theorem Inv.honorFailover (h : c.Inv) : c.honorFailover.Inv := by
  have hasked := h.withLink { c.link with failoverRequested := false }
  unfold ChargedClient.honorFailover
  dsimp only
  split
  · exact hasked.abortLocked
  · exact hasked

/-- An attempt to connect leaves the order between sections. -/
theorem Inv.reconnect (h : c.Inv) (priority : LinkPriority) (dial : Dial) :
    (c.reconnect priority dial).1.Inv := by
  unfold ChargedClient.reconnect
  split
  · exact h
  dsimp only
  split
  · exact h
  have hcore := (releaseConnectHoldLocked_proceeds c (c.reading.now + Wire.abortTail) h.toCore).2
  have hclosed := releaseConnectHoldLocked_closed c (c.reading.now + Wire.abortTail)
  generalize c.releaseConnectHoldLocked (c.reading.now + Wire.abortTail) = released at hcore hclosed ⊢
  obtain ⟨hrefused, hadmitted⟩ := hcore.tryHold hclosed (connectCostBytes released.sessionId) priority
    (connectEgressBytes released.sessionId)
  split
  · rename_i refused heq
    rw [heq] at hrefused
    exact (hrefused rfl).inv (by
      rw [show refused = (released.tryHold _ priority _).2 from (congrArg Prod.snd heq).symm]
      exact hclosed)
  · rename_i ticket held heq
    rw [heq] at hadmitted
    have hdialed := (hadmitted ticket rfl).connectLocked dial
    split
    · exact hdialed.withLink _
    · exact hdialed.withLink _

/-- What is taken out of the list of frames is the one frame of its place. -/
theorem eq_or_mem_eraseIdx {frames : List PendingFrame} {index : ℕ} {f other : PendingFrame}
    (hf : frames[index]? = some f) (hother : other ∈ frames) : other = f ∨ other ∈ frames.eraseIdx index := by
  obtain ⟨place, hplace, rfl⟩ := List.mem_iff_getElem.mp hother
  by_cases hsame : place = index
  · subst hsame
    rw [List.getElem?_eq_getElem hplace, Option.some_inj] at hf
    exact Or.inl hf
  · exact Or.inr (List.mem_eraseIdx_iff_getElem.mpr ⟨place, hplace, hsame, rfl⟩)

/-- The wait of a frame leaves it in flight with the ticket it was handed, waiting, or gone. -/
theorem Inv.settleWait (h : c.Inv) {f : PendingFrame} (hf : f.ticket = none) {outcome : LinkBudget.WaitOutcome}
    {budget : LinkBudget} (hquiet : Quiet c.opened c.budget.ledger budget.ledger)
    (hfresh : ∀ ticket, outcome = .admitted ticket →
      c.budget.ledger.nextId ≤ ticket ∧ ticket < budget.ledger.nextId) :
    (c.settleWait f outcome budget).1.Inv := by
  have hcore : Core { c with ahead := c.ahead.tail, budget := budget } :=
    h.toCore.of_within ⟨rfl, rfl, rfl, rfl, hquiet⟩ rfl rfl
  cases outcome with
  | refused => exact { hcore with held := h.held }
  | waiting =>
    exact { hcore with
      framed_opened := fun other hother ticket hticket => by
        rcases List.mem_append.mp hother with hold | hnew
        · exact h.framed_opened other hold ticket hticket
        · rw [List.mem_singleton.mp hnew, hf] at hticket
          cases hticket
      accounted := fun ticket hticket => by
        rcases h.accounted ticket hticket with hdialed | hreturned | ⟨other, hother, heq⟩
        · exact Or.inl hdialed
        · exact Or.inr (Or.inl hreturned)
        · exact Or.inr (Or.inr ⟨other, List.mem_append_left _ hother, heq⟩)
      held := h.held }
  | admitted ticket =>
    obtain ⟨hlate, hhanded⟩ := hfresh ticket rfl
    exact {
      lt := fun other hother => by
        rcases List.mem_cons.mp hother with rfl | hold
        · exact hhanded
        · exact hcore.lt other hold
      dialed_opened := fun other hother => List.mem_cons_of_mem _ (h.dialed_opened other hother)
      returned_opened := fun other hother => List.mem_cons_of_mem _ (h.returned_opened other hother)
      framed_opened := fun other hother number hnumber => by
        rcases List.mem_append.mp hother with hold | hnew
        · exact List.mem_cons_of_mem _ (h.framed_opened other hold number hnumber)
        · rw [List.mem_singleton.mp hnew] at hnumber
          cases hnumber
          exact List.mem_cons_self
      returned_closed := hcore.returned_closed
      dialed_closed := hcore.dialed_closed
      accounted := fun other hother => by
        rcases List.mem_cons.mp hother with rfl | hold
        · exact Or.inr (Or.inr ⟨_, List.mem_append_right _ (List.mem_singleton_self _), rfl⟩)
        · rcases h.accounted other hold with hdialed | hreturned | ⟨g, hg, heq⟩
          · exact Or.inl hdialed
          · exact Or.inr (Or.inl hreturned)
          · exact Or.inr (Or.inr ⟨g, List.mem_append_left _ hg, heq⟩)
      held := h.held }

/-- The first pass of a frame's wait leaves the order between sections. -/
theorem Inv.waitHold (h : c.Inv) {f : PendingFrame} (hf : f.ticket = none) : (c.waitHold f).1.Inv := by
  have hattended := h.attended_quiet
  obtain ⟨hquiet, hfresh⟩ := LinkBudget.waitHold_quiet (hattended.lt h.lt) c.reading.now f.cost f.priority f.deadline
    f.egress
  exact h.settleWait hf (hattended.trans hquiet) fun ticket hticket =>
    ⟨hattended.nextId_le.trans (hfresh ticket hticket).1, (hfresh ticket hticket).2⟩

/-- So does another pass. -/
theorem Inv.waitHoldPass (h : c.Inv) {f : PendingFrame} (hf : f.ticket = none) : (c.waitHoldPass f).1.Inv := by
  have hattended := h.attended_quiet
  obtain ⟨hquiet, hfresh⟩ := LinkBudget.waitHoldPass_quiet (hattended.lt h.lt) c.reading.now f.cost f.priority
    f.deadline f.egress
  exact h.settleWait hf (hattended.trans hquiet) fun ticket hticket =>
    ⟨hattended.nextId_le.trans (hfresh ticket hticket).1, (hfresh ticket hticket).2⟩

/-- A frame that asks for its room leaves the order between sections. -/
theorem Inv.requestRoom (h : c.Inv) (line packed : List Char) (priority : LinkPriority) (deadline : ℤ)
    (connection : Connection) : (c.requestRoom line packed priority deadline connection).1.Inv := by
  unfold ChargedClient.requestRoom
  dsimp only
  split
  · exact (charge_proceeds c rfl h.toCore).2.abortLocked.withLink _
  · exact h.waitHold rfl

/-- `SendFrame` up to the wait leaves the order between sections. -/
theorem Inv.beginFrame (h : c.Inv) (line packed : List Char) (priority : LinkPriority) (deadline : ℤ) (dial : Dial) :
    (c.beginFrame line packed priority deadline dial).1.Inv := by
  have hlinked := h.honorFailover.reconnect priority dial
  unfold ChargedClient.beginFrame
  split
  · dsimp only
    split
    · exact h.toCore.abortLocked
    · exact h
  generalize c.honorFailover.reconnect priority dial = result at hlinked ⊢
  obtain ⟨linked, status⟩ := result
  cases status with
  | some status => exact hlinked
  | none =>
    dsimp only
    split
    · exact hlinked
    · exact hlinked.requestRoom line packed priority deadline _

/-- A failed exchange leaves the frame's charge and the connect hold closed. -/
theorem Core.abortExchange (h : c.Core) (ticket : ℕ) (settled : Bool) :
    Within c (c.abortExchange ticket settled) ∧ (c.abortExchange ticket settled).Inv ∧
      ¬(c.abortExchange ticket settled).budget.ledger.IsOpen ticket := by
  have hrefunded : Proceeds c (if settled then c.charge (.refund ticket Wire.reset) else c) := by
    split
    · exact charge_proceeds c rfl
    · exact proceeds_fields c c.link c.connection
  unfold ChargedClient.abortExchange
  dsimp only
  generalize (if settled then c.charge (.refund ticket Wire.reset) else c) = refunded at hrefunded ⊢
  have hclosed := @charge_proceeds refunded.abortLocked (.releaseAt ticket (some refunded.abortTailLocked)) rfl
  obtain ⟨hwithin, hcore⟩ := (hrefunded.trans (abortLocked_proceeds refunded)).trans hclosed h
  exact ⟨hwithin, hcore.inv (abortLocked_closed refunded), not_isOpen_charge _ ticket _⟩

/-- So does an answered one. -/
theorem Core.settleAnswered (h : c.Core) {ticket : ℕ} (hopened : ticket ∈ c.opened) (carried : Bool) :
    Within c (c.settleAnswered ticket carried) ∧ (c.settleAnswered ticket carried).Inv ∧
      ¬(c.settleAnswered ticket carried).budget.ledger.IsOpen ticket := by
  unfold ChargedClient.settleAnswered
  dsimp only
  have hrefunded := @charge_proceeds c (.refund ticket (2 * Wire.reset)) rfl
  generalize c.charge (.refund ticket (2 * Wire.reset)) = refunded at hrefunded ⊢
  have hcarried : Proceeds c (if carried then refunded.charge (.refund ticket Wire.pureAck) else refunded) := by
    split
    · exact hrefunded.trans (charge_proceeds _ rfl)
    · exact hrefunded
  generalize (if carried then refunded.charge (.refund ticket Wire.pureAck) else refunded) = settled at hcarried ⊢
  generalize hstop : c.reading.now + ackFlushTail = stop
  have hclosed := hcarried.trans (@charge_proceeds settled (.releaseAt ticket (some stop)) rfl)
  obtain ⟨hwithin, hcore⟩ := hclosed.trans (releaseConnectHoldLocked_proceeds _ stop) h
  refine ⟨hwithin, hcore.inv (releaseConnectHoldLocked_closed _ stop), fun hopen => ?_⟩
  obtain ⟨hwithin', hcore'⟩ := hclosed h
  have hlater := (releaseConnectHoldLocked_proceeds _ stop hcore').1
  exact not_isOpen_charge settled ticket stop (hlater.quiet.isOpen ticket (hwithin'.opened ▸ hopened) hopen)

/-- A piece of a section before the end of an exchange belongs to the same section. -/
theorem Within.trans (hfirst : Within c c') (hsecond : Within c' c'') : Within c c'' :=
  ⟨hsecond.opened.trans hfirst.opened, hsecond.dialed.trans hfirst.dialed, hsecond.returned.trans hfirst.returned,
    hsecond.frames.trans hfirst.frames, hfirst.quiet.trans (hfirst.opened ▸ hsecond.quiet)⟩

/-- However the exchange of a frame ends, its charge is closed. -/
theorem Core.exchangeFrame (h : c.Core) (f : PendingFrame) {ticket : ℕ} (hopened : ticket ∈ c.opened)
    (exchange : Exchange) :
    Within c (c.exchangeFrame f ticket exchange).1 ∧ (c.exchangeFrame f ticket exchange).1.Inv ∧
      ¬(c.exchangeFrame f ticket exchange).1.budget.ledger.IsOpen ticket := by
  obtain ⟨hwritten, hcore⟩ :=
    @charge_proceeds c (.releasePart ticket (Wire.tcpBytes f.payload) (some c.reading.now)) rfl h
  cases exchange with
  | writeFails settled => exact h.abortExchange ticket settled
  | unanswered settled | wrongAnswer settled =>
    obtain ⟨hwithin, hinv, hclosed⟩ := hcore.abortExchange ticket settled
    exact ⟨hwritten.trans hwithin, hinv, hclosed⟩
  | answered carried =>
    obtain ⟨hwithin, hinv, hclosed⟩ := hcore.settleAnswered (hwritten.opened ▸ hopened) carried
    exact ⟨hwritten.trans hwithin, hinv, hclosed⟩

/-- However `SendFrame` goes on from an admission, the charge of its frame is closed. -/
theorem Inv.finishFrame (h : c.Inv) (f : PendingFrame) {ticket : ℕ} (hopened : ticket ∈ c.opened)
    (exchange : Exchange) :
    Within c (c.finishFrame f ticket exchange).1 ∧ (c.finishFrame f ticket exchange).1.Inv ∧
      ¬(c.finishFrame f ticket exchange).1.budget.ledger.IsOpen ticket := by
  unfold ChargedClient.finishFrame
  split
  · dsimp only
    have hrefunded := @charge_proceeds c (.refund ticket f.cost) rfl
    generalize heq : c.charge (.refund ticket f.cost) = refunded at hrefunded ⊢
    have hreturned := hrefunded.trans
      (@charge_proceeds refunded (.refundEgress refunded.reading.now f.egress) rfl)
    generalize heq' : refunded.charge (.refundEgress refunded.reading.now f.egress) = unsent at hreturned ⊢
    obtain ⟨hwithin, hcore⟩ := hreturned.trans (@charge_proceeds unsent (.release unsent.reading.now ticket) rfl)
      h.toCore
    refine ⟨hwithin, { hcore with held := ?_ }, not_isOpen_charge unsent ticket _⟩
    rw [← heq', ← heq]
    exact h.held
  · exact h.toCore.exchangeFrame f hopened exchange

/-- A frame that returns leaves the frames on their way, and its charge is closed. -/
theorem Inv.settle (h : c.Inv) {index : ℕ} {f : PendingFrame} (hf : c.frames[index]? = some f) {ticket : ℕ}
    (hticket : f.ticket = some ticket) (hclosed : ¬c.budget.ledger.IsOpen ticket) :
    Inv { c with frames := c.frames.eraseIdx index, returned := ticket :: c.returned } :=
  { h with
    returned_opened := fun other hother => by
      rcases List.mem_cons.mp hother with rfl | hold
      · exact h.framed_opened f (List.mem_of_getElem? hf) other hticket
      · exact h.returned_opened other hold
    framed_opened := fun g hg => h.framed_opened g (List.mem_of_mem_eraseIdx hg)
    returned_closed := fun other hother => by
      rcases List.mem_cons.mp hother with rfl | hold
      · exact hclosed
      · exact h.returned_closed other hold
    accounted := fun other hother => by
      rcases h.accounted other hother with hdialed | hreturned | ⟨g, hg, hnumber⟩
      · exact Or.inl hdialed
      · exact Or.inr (Or.inl (List.mem_cons_of_mem _ hreturned))
      · rcases eq_or_mem_eraseIdx hf hg with rfl | hkept
        · rw [hticket, Option.some_inj] at hnumber
          exact Or.inr (Or.inl (hnumber ▸ List.mem_cons_self))
        · exact Or.inr (Or.inr ⟨g, hkept, hnumber⟩) }

/-- A frame that waits may be taken out of the list. -/
theorem Inv.dequeue (h : c.Inv) {index : ℕ} {f : PendingFrame} (hf : c.frames[index]? = some f)
    (hticket : f.ticket = none) : Inv { c with frames := c.frames.eraseIdx index } :=
  { h with
    framed_opened := fun g hg => h.framed_opened g (List.mem_of_mem_eraseIdx hg)
    accounted := fun other hother => by
      rcases h.accounted other hother with hdialed | hreturned | ⟨g, hg, hnumber⟩
      · exact Or.inl hdialed
      · exact Or.inr (Or.inl hreturned)
      · rcases eq_or_mem_eraseIdx hf hg with rfl | hkept
        · rw [hticket] at hnumber
          cases hnumber
        · exact Or.inr (Or.inr ⟨g, hkept, hnumber⟩) }

/-- Following the choice of the ground station leaves the order between sections. -/
theorem Inv.follow (h : c.Inv) (link : TelemetryClient) : (c.follow link).Inv := by
  unfold ChargedClient.follow
  split
  · exact h.toCore.abortLocked.withLink link
  · exact h.withLink link

/-- Every step leaves the order between sections. -/
theorem Inv.step (h : c.Inv) (event : ClientEvent) : (c.step event).Inv := by
  cases event with
  | others call =>
    have hwithin : Within c (c.step (.others call)) := ⟨rfl, rfl, rfl, rfl, outsideCall_quiet h.lt call⟩
    exact { h.toCore.of_within hwithin rfl rfl with held := h.held }
  | wait nanoseconds => exact h.follow _
  | datagram line senderIp => exact h.follow _
  | observe host telemetryPort commandPort priority => exact h.follow _
  | setTransmitEnabled enabled =>
    have hswitched := h.withLink { c.link with transmitEnabled := enabled }
    cases enabled with
    | true => exact hswitched
    | false => exact hswitched.abortLocked
  | sendFrame line packed priority deadline dial => exact h.beginFrame line packed priority deadline dial
  | wake index =>
    unfold ChargedClient.step
    dsimp only
    split
    · rename_i f hf
      split
      · rename_i hwaits
        have hnone := Option.isNone_iff_eq_none.mp hwaits
        exact (h.dequeue hf hnone).waitHoldPass hnone
      · exact h
    · exact h
  | finish index exchange =>
    unfold ChargedClient.step
    dsimp only
    split
    · rename_i f hf
      split
      · rename_i ticket hticket
        have hopened := h.framed_opened f (List.mem_of_getElem? hf) ticket hticket
        obtain ⟨hwithin, hinv, hclosed⟩ := h.finishFrame f hopened exchange
        exact hinv.settle (hwithin.frames ▸ hf) hticket hclosed
      · exact h
    · exact h
  | close => exact (closeLocked_proceeds c h.toCore).2.inv (closeLocked_closed c)

/-- A new client is in order. -/
theorem inv_start (config : TargetConfig) (sessionId : List Char) (budget : LinkBudget) (ahead : List Moment) :
    (start config sessionId budget ahead).Inv where
  lt := by simp [start]
  dialed_opened := by simp [start]
  returned_opened := by simp [start]
  framed_opened := by simp [start]
  returned_closed := by simp [start]
  dialed_closed := by simp [start]
  accounted := by simp [start]
  held := by simp [start]

/-- In order, no hold leaks. -/
theorem Inv.noLeak (h : c.Inv) : c.NoLeak := by
  have hdialed : ∀ ticket ∈ c.dialed, c.budget.ledger.IsOpen ticket →
      ∃ connection ∈ c.connection, connection.hold = ticket := by
    intro ticket hticket hopen
    obtain ⟨hheld, rfl⟩ := h.dialed_closed ticket hticket hopen
    exact h.held hheld
  refine ⟨h.returned_closed, hdialed, fun ticket hticket hopen => ?_⟩
  rcases h.accounted ticket hticket with hdial | hreturned | hframe
  · exact Or.inl (hdialed ticket hdial hopen)
  · exact absurd hopen (h.returned_closed ticket hreturned)
  · exact Or.inr hframe

/-- In every run no hold of the client leaks, in every state it goes through. -/
theorem holds_noLeak (config : TargetConfig) (sessionId : List Char) (budget : LinkBudget) (ahead : List Moment)
    (events : List ClientEvent) : Holds step NoLeak (start config sessionId budget ahead) events :=
  holds_of_step (fun _ event h => h.step event) (fun _ h => h.noLeak) (inv_start config sessionId budget ahead) events

end ChargedClient

end Coatheal.Link
