import Coatheal.Link.Exchange

/-!
# What an exchange puts on the wire

What one step of an exchange can do is said once. From that follow the counters of
segments, the bytes of every kind against them, what is refunded in every phase and
that it never goes on the wire, and the times at which it goes there.
-/

namespace Coatheal.Link

open Library Wire

/-- The kinds of segments. -/
def segmentKinds : List SegmentKind := [.frame, .tcpAck, .lateReset, .ackLine, .lineReply, .exchangeReset]

namespace FrameExchange

variable {s s' : FrameExchange}

/-- The bytes of one kind that went on the wire. -/
def total (s : FrameExchange) (kind : SegmentKind) : ℕ :=
  ((s.emitted.filter fun e => e.kind = kind).map Emission.bytes).sum

/-- How often one kind went on the wire. -/
def tally (s : FrameExchange) (kind : SegmentKind) : ℕ := s.emitted.countP fun e => e.kind = kind

/-- An emission adds its bytes to its kind. -/
theorem total_same {kind : SegmentKind} {time : ℤ} {bytes : ℕ} (h : s'.emitted = ⟨kind, time, bytes⟩ :: s.emitted) :
    s'.total kind = bytes + s.total kind := by
  unfold total
  rw [h, List.filter_cons, if_pos (decide_eq_true rfl), List.map_cons, List.sum_cons]

/-- An emission adds nothing to another kind. -/
theorem total_other {kind other : SegmentKind} {time : ℤ} {bytes : ℕ}
    (h : s'.emitted = ⟨other, time, bytes⟩ :: s.emitted) (hother : other ≠ kind) : s'.total kind = s.total kind := by
  unfold total
  rw [h, List.filter_cons, if_neg (by simpa using hother)]

/-- So a bound of the other kind stays. -/
theorem total_other_le {kind other : SegmentKind} {time : ℤ} {bytes rest bound : ℕ}
    (h : s'.emitted = ⟨other, time, bytes⟩ :: s.emitted) (hother : other ≠ kind) (hle : s.total kind + rest ≤ bound) :
    s'.total kind + rest ≤ bound := (congrArg (· + rest) (total_other h hother)).trans_le hle

/-- What one more emission adds to the tally of a kind. -/
theorem tally_cons {e : Emission} (h : s'.emitted = e :: s.emitted) (kind : SegmentKind) :
    s'.tally kind = s.tally kind + if e.kind = kind then 1 else 0 := by
  unfold tally
  rw [h, List.countP_cons]
  by_cases hkind : e.kind = kind
  · simp [hkind]
  · simp [hkind]

/-- What a step does, with what lets it. -/
inductive Moves (s : FrameExchange) : FrameExchange → Prop where
  | stay : Moves s s
  | wait (nanoseconds : ℕ) : Moves s { s with now := s.now + nanoseconds }
  | transmit (count : ℕ) (writing : s.phase = .writing) (some : 0 < count) (fits : s.sent + count ≤ s.segments) :
      Moves s { s.emit .frame (frameBytes s.payload (s.sent + count) - frameBytes s.payload s.sent) with
        sent := s.sent + count }
  | sendDone (writing : s.phase = .writing) (all : s.sent = s.segments) :
      Moves s { s.charge (writtenCalls s.payload ticket s.now) with phase := .waiting s.now }
  | linkChanged (writing : s.phase = .writing) (unsent : s.sent = 0) :
      Moves s { s.charge (unsentCalls (frameCostBytes s.line s.payload) ticket s.now) with
        phase := .unsent s.now
        refunded := segmentKinds }
  | abort (known : Bool) (srtt : ℕ) (isOpen : s.phase.isOpen = true) : Moves s (s.abort known srtt)
  | settle (known : Bool) (sentAt : ℤ) (waiting : s.phase = .waiting sentAt) (answered : s.lineSent = true)
      (whole : s.lineInFlight = 0) : Moves s (s.settle known sentAt)
  | arrive (count : ℕ) (live : s.phase.live s.now = true) (fits : s.arrived + count ≤ s.sent) :
      Moves s { s with arrived := s.arrived + count }
  | tcpAck (live : s.phase.live s.now = true) (fresh : s.groundAcked < s.arrived) :
      Moves s { s.emit .tcpAck pureAck with inFlight := s.inFlight ++ [s.arrived], groundAcked := s.arrived }
  | answer (size : ℕ) (live : s.phase.live s.now = true) (all : s.arrived = s.segments) (first : s.lineSent = false)
      (fits : size ≤ ackLinePayload s.line) :
      Moves s { s.emit .ackLine (tcpBytes size) with
        lineSent := true
        lineInFlight := tcpSegmentCount size
        groundAcked := s.segments }
  | ackIn (number : ℕ) (rest : List ℕ) (flight : s.inFlight = number :: rest) (isOpen : s.phase.isOpen = true) :
      Moves s { s with inFlight := rest, acked := number, segmentsIn := s.segmentsIn + 1 }
  | ackLate (number : ℕ) (rest : List ℕ) (flight : s.inFlight = number :: rest) (closed : s.phase.isOpen = false)
      (live : s.phase.live s.now = true) : Moves s { s.emit .lateReset reset with inFlight := rest }
  | lineIn (count : ℕ) (flight : s.inFlight = []) (some : 0 < count) (fits : count ≤ s.lineInFlight)
      (isOpen : s.phase.isOpen = true) :
      Moves s { s with
        lineInFlight := s.lineInFlight - count
        acked := s.segments
        segmentsIn := s.segmentsIn + count
        dataSegmentsIn := s.dataSegmentsIn + count
        ackOwed := true }
  | lineLate (count : ℕ) (flight : s.inFlight = []) (some : 0 < count) (fits : count ≤ s.lineInFlight)
      (closed : s.phase.isOpen = false) (live : s.phase.live s.now = true) :
      Moves s { s.emit .lineReply (count * reset) with lineInFlight := s.lineInFlight - count }
  | ackLine (owed : s.ackOwed = true) (acknowledges : s.phase.acknowledges s.now = true) :
      Moves s { s.emit .lineReply pureAck with ackOwed := false }

/-- Reading the line aborts, settles, or does nothing. -/
theorem read_moves (s : FrameExchange) (expected known : Bool) (srtt : ℕ) : Moves s (s.read expected known srtt) := by
  unfold read
  split
  · rename_i sentAt hphase
    split
    · rename_i hline
      split
      · exact .settle known sentAt hphase hline.1 hline.2
      · exact .abort known srtt (by rw [hphase]; rfl)
    · exact .stay
  · exact .stay

/-- Every step does one of these things. -/
theorem step_moves (s : FrameExchange) (event : ExchangeEvent) : Moves s (s.step event) := by
  cases event with
  | wait nanoseconds => exact .wait nanoseconds
  | transmit count =>
    unfold step
    dsimp only
    split
    · rename_i h
      exact .transmit count h.1 h.2.1 h.2.2
    · exact .stay
  | sendDone =>
    unfold step
    dsimp only
    split
    · rename_i h
      exact .sendDone h.1 h.2
    · exact .stay
  | sendFails known srtt =>
    unfold step
    dsimp only
    split
    · rename_i h
      exact .abort known srtt (by rw [h]; rfl)
    · exact .stay
  | linkChanged =>
    unfold step
    dsimp only
    split
    · rename_i h
      exact .linkChanged h.1 h.2
    · exact .stay
  | arrive count =>
    unfold step
    dsimp only
    split
    · rename_i h
      exact .arrive count h.1 h.2
    · exact .stay
  | tcpAck =>
    unfold step
    dsimp only
    split
    · rename_i h
      exact .tcpAck h.1 h.2
    · exact .stay
  | answer size =>
    unfold step
    dsimp only
    split
    · rename_i h
      exact .answer size h.1 h.2.1 h.2.2.1 h.2.2.2
    · exact .stay
  | deliverAck =>
    unfold step deliverAck
    dsimp only
    split
    · exact .stay
    · rename_i number rest hflight
      split
      · rename_i hopen
        exact .ackIn number rest hflight hopen
      · rename_i hclosed
        split
        · rename_i hlive
          exact .ackLate number rest hflight (Bool.eq_false_iff.mpr hclosed) hlive
        · exact .stay
  | deliverLine count =>
    unfold step deliverLine
    dsimp only
    split
    · rename_i h
      split
      · rename_i hopen
        exact .lineIn count h.1 h.2.1 h.2.2 hopen
      · rename_i hclosed
        split
        · rename_i hlive
          exact .lineLate count h.1 h.2.1 h.2.2 (Bool.eq_false_iff.mpr hclosed) hlive
        · exact .stay
    · exact .stay
  | ackLine =>
    unfold step
    dsimp only
    split
    · rename_i h
      exact .ackLine h.1 h.2
    · exact .stay
  | read expected known srtt => exact read_moves s expected known srtt
  | giveUp known srtt =>
    unfold step
    dsimp only
    split
    · rename_i sentAt hphase
      exact .abort known srtt (by rw [hphase]; rfl)
    · exact .stay

/-- What the counters of segments say: what arrived was sent, what is acknowledged arrived, the TCP ACKs on their way
acknowledge more and more, and the ACK line acknowledges all. -/
structure Counts (s : FrameExchange) : Prop where
  sent_le : s.sent ≤ s.segments
  arrived_le : s.arrived ≤ s.sent
  groundAcked_le : s.groundAcked ≤ s.arrived
  chain : (s.acked :: s.inFlight).Pairwise (· < ·)
  chain_le : ∀ number ∈ s.acked :: s.inFlight, number ≤ s.groundAcked
  answered : s.lineSent = true → s.groundAcked = s.segments
  unanswered : s.lineSent = false → s.lineInFlight = 0 ∧ s.dataSegmentsIn = 0 ∧ s.ackOwed = false

/-- If our kernel has everything acknowledged, no TCP ACK is on its way or to come. -/
theorem Counts.settled (h : s.Counts) (hacked : s.acked = s.sent) : s.inFlight = [] ∧ s.groundAcked = s.sent := by
  have hground := h.groundAcked_le.trans h.arrived_le
  have hself := h.chain_le s.acked List.mem_cons_self
  refine ⟨?_, by omega⟩
  cases hflight : s.inFlight with
  | nil => rfl
  | cons number rest =>
    have hmem : number ∈ s.inFlight := hflight ▸ List.mem_cons_self
    have hlater := List.rel_of_pairwise_cons h.chain hmem
    have hle := h.chain_le number (List.mem_cons_of_mem _ hmem)
    omega

/-- Part of the line is on its way only after it was sent. -/
theorem Counts.lineSent (h : s.Counts) {count : ℕ} (hsome : 0 < count) (hfits : count ≤ s.lineInFlight) :
    s.lineSent = true := by
  by_contra hnot
  have hnone := (h.unanswered (Bool.eq_false_iff.mpr hnot)).1
  omega

/-- A TCP ACK goes out only before the line. -/
theorem Counts.unanswered_of_fresh (h : s.Counts) (hfresh : s.groundAcked < s.arrived) : s.lineSent = false := by
  rw [Bool.eq_false_iff]
  intro hsent
  have hall := h.answered hsent
  have harrived := h.arrived_le.trans h.sent_le
  omega

/-- The counters stay in order. -/
theorem Counts.moves (h : s.Counts) (hmoves : Moves s s') : s'.Counts := by
  cases hmoves with
  | stay => exact h
  | wait nanoseconds => exact { h with }
  | transmit count writing some fits => exact { h with
      sent_le := fits
      arrived_le := h.arrived_le.trans (Nat.le_add_right _ _) }
  | sendDone writing all => exact { h with }
  | linkChanged writing unsent => exact { h with }
  | abort known srtt isOpen => exact { h with
      unanswered := fun hsent => ⟨(h.unanswered hsent).1, (h.unanswered hsent).2.1, rfl⟩ }
  | settle known sentAt waiting answered whole => exact { h with }
  | arrive count live fits => exact { h with
      arrived_le := fits
      groundAcked_le := h.groundAcked_le.trans (Nat.le_add_right _ _) }
  | tcpAck live fresh => exact { h with
      groundAcked_le := le_rfl
      chain := by
        rw [← List.cons_append, List.pairwise_append]
        refine ⟨h.chain, List.pairwise_singleton _ _, fun number hnumber other hother => ?_⟩
        rw [List.mem_singleton.mp hother]
        exact (h.chain_le number hnumber).trans_lt fresh
      chain_le := fun number hnumber => by
        rw [← List.cons_append] at hnumber
        rcases List.mem_append.mp hnumber with hold | hnew
        · exact (h.chain_le number hold).trans fresh.le
        · exact (List.mem_singleton.mp hnew).le
      answered := fun hsent => by
        have hnone := h.unanswered_of_fresh fresh
        exact absurd (hnone.symm.trans hsent) Bool.false_ne_true }
  | answer size live all first fits => exact { h with
      groundAcked_le := all.ge
      chain_le := fun number hnumber => by
        have hle := h.chain_le number hnumber
        have hground := h.groundAcked_le
        change number ≤ s.segments
        omega
      answered := fun _ => rfl
      unanswered := fun hsent => by cases hsent }
  | ackIn number rest flight isOpen => exact { h with
      chain := by
        have hchain := h.chain
        rw [flight] at hchain
        exact hchain.tail
      chain_le := fun other hother => h.chain_le other (List.mem_cons_of_mem _ (flight ▸ hother)) }
  | ackLate number rest flight closed live => exact { h with
      chain := by
        have hchain := h.chain
        rw [flight] at hchain
        exact hchain.sublist ((List.sublist_cons_self number rest).cons_cons s.acked)
      chain_le := fun other hother => by
        refine h.chain_le other ?_
        rcases List.mem_cons.mp hother with rfl | hrest
        · exact List.mem_cons_self
        · exact List.mem_cons_of_mem _ (flight ▸ List.mem_cons_of_mem _ hrest) }
  | lineIn count flight some fits isOpen =>
    have hsent := h.lineSent some fits
    exact { h with
      chain := by
        change (s.segments :: s.inFlight).Pairwise (· < ·)
        rw [flight]
        exact List.pairwise_singleton _ _
      chain_le := fun number hnumber => by
        change number ∈ s.segments :: s.inFlight at hnumber
        rw [flight] at hnumber
        exact (List.mem_singleton.mp hnumber).le.trans (h.answered hsent).ge
      unanswered := fun hnot => absurd (hsent.symm.trans hnot) (by simp) }
  | lineLate count flight some fits closed live =>
    have hsent := h.lineSent some fits
    exact { h with unanswered := fun hnot => absurd (hsent.symm.trans hnot) (by simp) }
  | ackLine owed acknowledges => exact { h with
      unanswered := fun hnot => ⟨(h.unanswered hnot).1, (h.unanswered hnot).2.1, rfl⟩ }

/-- The bytes of every kind against the counters. -/
structure Totals (s : FrameExchange) : Prop where
  frame : s.total .frame = frameBytes s.payload s.sent
  tcpAck : s.total .tcpAck ≤ pureAck * s.groundAcked
  lateReset : s.total .lateReset + reset * s.inFlight.length ≤ reset * s.groundAcked
  ackLine : s.total .ackLine ≤ if s.lineSent then tcpBytes (ackLinePayload s.line) else 0
  lineReply : s.total .lineReply + pureAck * ((if s.ackOwed then 1 else 0) + s.lineInFlight) ≤
    if s.lineSent then pureAck * tcpSegmentCount (ackLinePayload s.line) else 0
  exchangeReset : s.total .exchangeReset ≤ if s.phase.isOpen then 0 else reset

/-- More segments have more bytes. -/
theorem frameBytes_mono (payload : ℕ) {fewer count : ℕ} (h : fewer ≤ count) :
    frameBytes payload fewer ≤ frameBytes payload count :=
  Nat.add_le_add (Nat.mul_le_mul_right _ h) (min_le_min le_rfl (Nat.mul_le_mul_right _ h))

/-- A larger payload takes at least as many segments. -/
theorem tcpSegmentCount_mono {size payload : ℕ} (h : size ≤ payload) : tcpSegmentCount size ≤ tcpSegmentCount payload := by
  simp only [tcpSegmentCount, mss, linkMtu]
  split <;> split <;> omega

/-- A larger payload takes at least as many bytes. -/
theorem tcpBytes_mono {size payload : ℕ} (h : size ≤ payload) : tcpBytes size ≤ tcpBytes payload :=
  Nat.add_le_add (Nat.mul_le_mul_right _ (tcpSegmentCount_mono h)) h

/-- Every payload takes a segment. -/
theorem tcpSegmentCount_pos (payload : ℕ) : 0 < tcpSegmentCount payload := by
  simp only [tcpSegmentCount, mss, linkMtu]
  split <;> omega

/-- The bytes stay within what the counters allow. -/
theorem Totals.moves (h : s.Totals) (hcounts : s.Counts) (hmoves : Moves s s') : s'.Totals := by
  cases hmoves with
  | stay => exact h
  | wait nanoseconds => exact { h with }
  | transmit count writing some fits =>
    refine ⟨?_, (total_other rfl (by decide)).trans_le h.tcpAck, total_other_le rfl (by decide) h.lateReset,
      (total_other rfl (by decide)).trans_le h.ackLine, total_other_le rfl (by decide) h.lineReply,
      (total_other rfl (by decide)).trans_le h.exchangeReset⟩
    refine (total_same rfl).trans ?_
    rw [h.frame]
    exact Nat.sub_add_cancel (frameBytes_mono _ (Nat.le_add_right _ _))
  | sendDone writing all =>
    have hnone := h.exchangeReset
    rw [writing] at hnone
    exact { h with exchangeReset := hnone }
  | linkChanged writing unsent =>
    have hnone := h.exchangeReset
    rw [writing] at hnone
    exact { h with exchangeReset := hnone.trans (Nat.zero_le _) }
  | abort known srtt isOpen =>
    have hnone := h.exchangeReset
    rw [isOpen, if_pos rfl] at hnone
    refine ⟨(total_other rfl (by decide)).trans h.frame, (total_other rfl (by decide)).trans_le h.tcpAck,
      total_other_le rfl (by decide) h.lateReset, (total_other rfl (by decide)).trans_le h.ackLine,
      total_other_le rfl (by decide) (le_trans ?_ h.lineReply), (total_same rfl).trans_le ?_⟩
    · exact Nat.add_le_add_left (Nat.mul_le_mul_left _ (Nat.add_le_add_right (Nat.zero_le _) _)) _
    · exact Nat.add_le_add_left hnone _
  | settle known sentAt waiting answered whole =>
    have hnone := h.exchangeReset
    rw [waiting] at hnone
    exact { h with exchangeReset := hnone.trans (Nat.zero_le _) }
  | arrive count live fits => exact { h with }
  | tcpAck live fresh =>
    refine ⟨(total_other rfl (by decide)).trans h.frame, (total_same rfl).trans_le ?_,
      total_other_le rfl (by decide) ?_, (total_other rfl (by decide)).trans_le h.ackLine,
      total_other_le rfl (by decide) h.lineReply, (total_other rfl (by decide)).trans_le h.exchangeReset⟩
    · calc pureAck + s.total .tcpAck ≤ pureAck + pureAck * s.groundAcked := Nat.add_le_add_left h.tcpAck _
        _ = pureAck * (s.groundAcked + 1) := by rw [Nat.mul_succ, Nat.add_comm]
        _ ≤ pureAck * s.arrived := Nat.mul_le_mul_left _ fresh
    · dsimp only
      rw [List.length_append, List.length_singleton]
      calc s.total .lateReset + reset * (s.inFlight.length + 1)
          = s.total .lateReset + reset * s.inFlight.length + reset := by rw [Nat.mul_succ, Nat.add_assoc]
        _ ≤ reset * s.groundAcked + reset := Nat.add_le_add_right h.lateReset _
        _ ≤ reset * s.arrived := Nat.mul_le_mul_left _ fresh
  | answer size live all first fits =>
    obtain ⟨hnone, _, howed⟩ := hcounts.unanswered first
    have hline := h.ackLine
    have hreply := h.lineReply
    rw [first, if_neg Bool.false_ne_true] at hline hreply
    have hground := hcounts.groundAcked_le.trans all.le
    refine ⟨(total_other rfl (by decide)).trans h.frame, (total_other rfl (by decide)).trans_le ?_,
      total_other_le rfl (by decide) ?_, (total_same rfl).trans_le ?_, total_other_le rfl (by decide) ?_,
      (total_other rfl (by decide)).trans_le h.exchangeReset⟩
    · exact h.tcpAck.trans (Nat.mul_le_mul_left _ hground)
    · exact h.lateReset.trans (Nat.mul_le_mul_left _ hground)
    · rw [if_pos rfl, Nat.le_zero.mp hline, Nat.add_zero]
      exact tcpBytes_mono fits
    · rw [if_pos rfl]
      change s.total .lineReply + pureAck * ((if s.ackOwed = true then 1 else 0) + tcpSegmentCount size) ≤ _
      rw [howed, if_neg Bool.false_ne_true, Nat.zero_add]
      have hsegments := Nat.mul_le_mul_left pureAck (tcpSegmentCount_mono fits)
      change _ ≤ pureAck * tcpSegmentCount (ackLinePayload s.line)
      omega
  | ackIn number rest flight isOpen =>
    have hlate := h.lateReset
    rw [flight] at hlate
    exact { h with
      lateReset := le_trans (Nat.add_le_add_left (Nat.mul_le_mul_left _ (Nat.le_succ rest.length)) _) hlate }
  | ackLate number rest flight closed live =>
    have hlate := h.lateReset
    rw [flight, List.length_cons, Nat.mul_succ] at hlate
    refine ⟨(total_other rfl (by decide)).trans h.frame, (total_other rfl (by decide)).trans_le h.tcpAck, ?_,
      (total_other rfl (by decide)).trans_le h.ackLine, total_other_le rfl (by decide) h.lineReply,
      (total_other rfl (by decide)).trans_le h.exchangeReset⟩
    refine (congrArg (· + reset * rest.length) (total_same rfl)).trans_le ?_
    change reset + s.total .lateReset + reset * rest.length ≤ reset * s.groundAcked
    omega
  | lineIn count flight some fits isOpen => exact { h with
      lineReply := by
        refine le_trans ?_ h.lineReply
        refine Nat.add_le_add_left (Nat.mul_le_mul_left _ ?_) _
        change 1 + (s.lineInFlight - count) ≤ (if s.ackOwed then 1 else 0) + s.lineInFlight
        omega }
  | lineLate count flight some fits closed live =>
    refine ⟨(total_other rfl (by decide)).trans h.frame, (total_other rfl (by decide)).trans_le h.tcpAck,
      total_other_le rfl (by decide) h.lateReset, (total_other rfl (by decide)).trans_le h.ackLine, ?_,
      (total_other rfl (by decide)).trans_le h.exchangeReset⟩
    refine le_trans ((congrArg (· + _) (total_same rfl)).trans_le ?_) h.lineReply
    have hless : count * reset + pureAck * (s.lineInFlight - count) ≤ pureAck * s.lineInFlight := by
      obtain ⟨left, hleft⟩ := Nat.exists_eq_add_of_le fits
      rw [hleft, Nat.add_sub_cancel_left, Nat.mul_add, Nat.mul_comm pureAck count]
      exact Nat.add_le_add_right (Nat.mul_le_mul_left _ (by decide)) _
    change count * reset + s.total .lineReply + pureAck * ((if s.ackOwed then 1 else 0) + (s.lineInFlight - count)) ≤ _
    rw [Nat.mul_add, Nat.mul_add]
    omega
  | ackLine owed acknowledges =>
    refine ⟨(total_other rfl (by decide)).trans h.frame, (total_other rfl (by decide)).trans_le h.tcpAck,
      total_other_le rfl (by decide) h.lateReset, (total_other rfl (by decide)).trans_le h.ackLine, ?_,
      (total_other rfl (by decide)).trans_le h.exchangeReset⟩
    refine le_trans ((congrArg (· + _) (total_same rfl)).trans_le ?_) h.lineReply
    change pureAck + s.total .lineReply + pureAck * (0 + s.lineInFlight) ≤ _
    rw [owed, if_pos rfl, Nat.mul_add, Nat.mul_add]
    omega

/-- While the connection is open nothing was refunded or reset, nothing goes out before the frame, and the segment
counters tell the TCP ACKs that arrived from the ACK line. -/
structure Opened (s : FrameExchange) : Prop where
  refunded : s.refunded = []
  quiet : s.sent = 0 → s.emitted = []
  noReset : ∀ e ∈ s.emitted, e.kind ≠ .lateReset ∧ e.kind ≠ .exchangeReset
  counted : s.tally .tcpAck + s.dataSegmentsIn = s.inFlight.length + s.segmentsIn
  line : s.lineSent = true → 0 < s.dataSegmentsIn + s.lineInFlight
  flight : 0 < s.dataSegmentsIn → s.inFlight = []

/-- What is refunded in every phase, and that it did not go on the wire. -/
structure Phased (s : FrameExchange) : Prop where
  opened : s.phase.isOpen = true → s.Opened
  unsent : ∀ stop, s.phase = .unsent stop → s.emitted = [] ∧ s.refunded = segmentKinds
  answered : ∀ sentAt stop, s.phase = .answered sentAt stop →
    s.refunded = [.lateReset, .exchangeReset] ∨ s.refunded = [.tcpAck, .lateReset, .exchangeReset]
  aborted : ∀ sentAt stop, s.phase = .aborted sentAt stop →
    s.refunded = [] ∨ s.refunded = [.lateReset] ∧ s.inFlight = [] ∧ s.groundAcked = s.sent
  held : ∀ e ∈ s.emitted, e.kind ∉ s.refunded

/-- With one segment in, and that one with data, no TCP ACK went out on its own. -/
theorem Opened.carried (h : s.Opened) (hin : s.segmentsIn = 1) (hdata : s.dataSegmentsIn = 1) :
    ∀ e ∈ s.emitted, e.kind ≠ .tcpAck := by
  have hcounted := h.counted
  rw [h.flight (hdata.symm ▸ Nat.one_pos), hin, hdata, List.length_nil] at hcounted
  intro e he hkind
  have hnone : s.tally .tcpAck = 0 := by omega
  exact List.countP_eq_zero.mp hnone e he (decide_eq_true hkind)

/-- A segment that comes through meets a connection that is open or was reset. -/
theorem live_cases {now : ℤ} {phase : ExchangePhase} (h : phase.live now = true) :
    phase.isOpen = true ∨ ∃ sentAt stop, phase = .aborted sentAt stop ∧ now ≤ stop := by
  cases phase with
  | writing | waiting => exact Or.inl rfl
  | aborted sentAt stop => exact Or.inr ⟨sentAt, stop, rfl, of_decide_eq_true h⟩
  | unsent | answered => cases h

/-- A move that leaves the phase and the refunds leaves them in order, if what it adds is not refunded. -/
theorem Phased.keep (h : s.Phased) (hphase : s'.phase = s.phase) (hrefunded : s'.refunded = s.refunded)
    (hopened : s.phase.isOpen = true → s.Opened → s'.Opened)
    (hunsent : ∀ stop, s.phase = .unsent stop → s'.emitted = s.emitted)
    (haborted : ∀ sentAt stop, s.phase = .aborted sentAt stop → s.inFlight = [] ∧ s.groundAcked = s.sent →
      s'.inFlight = [] ∧ s'.groundAcked = s'.sent)
    (hadds : ∀ e ∈ s'.emitted, e ∈ s.emitted ∨ e.kind ∉ s.refunded) : s'.Phased where
  opened hopen := by
    rw [hphase] at hopen
    exact hopened hopen (h.opened hopen)
  unsent stop hstop := by
    rw [hphase] at hstop
    rw [hunsent stop hstop, hrefunded]
    exact h.unsent stop hstop
  answered sentAt stop hstop := by
    rw [hphase] at hstop
    rw [hrefunded]
    exact h.answered sentAt stop hstop
  aborted sentAt stop hstop := by
    rw [hphase] at hstop
    rw [hrefunded]
    exact (h.aborted sentAt stop hstop).imp_right (And.imp_right (haborted sentAt stop hstop))
  held e he := by
    rw [hrefunded]
    exact (hadds e he).elim (h.held e) id

/-- An open connection has nothing refunded. -/
theorem Phased.not_mem_of_open (h : s.Phased) (hopen : s.phase.isOpen = true) (kind : SegmentKind) :
    kind ∉ s.refunded := by
  rw [(h.opened hopen).refunded]
  exact List.not_mem_nil

/-- Of what comes through, only a reset for a late TCP ACK can be refunded. -/
theorem Phased.not_mem_of_live (h : s.Phased) (hlive : s.phase.live s.now = true) {kind : SegmentKind}
    (hkind : kind ≠ .lateReset) : kind ∉ s.refunded := by
  rcases live_cases hlive with hopen | ⟨sentAt, stop, hphase, _⟩
  · exact h.not_mem_of_open hopen kind
  · rcases h.aborted sentAt stop hphase with hnone | ⟨hlate, _⟩
    · rw [hnone]
      exact List.not_mem_nil
    · rw [hlate]
      exact fun hmem => hkind (List.mem_singleton.mp hmem)

/-- Nothing comes through for a frame that was not sent. -/
theorem not_unsent_of_live {now stop : ℤ} {phase : ExchangePhase} (hlive : phase.live now = true) :
    phase ≠ .unsent stop := by
  rintro rfl
  cases hlive

/-- An emission is the new one or an old one. -/
theorem mem_of_adds {e : Emission} {kind : SegmentKind} {time : ℤ} {bytes : ℕ}
    (h : s'.emitted = ⟨kind, time, bytes⟩ :: s.emitted) (he : e ∈ s'.emitted) (hkind : kind ∉ s.refunded) :
    e ∈ s.emitted ∨ e.kind ∉ s.refunded := by
  rw [h] at he
  rcases List.mem_cons.mp he with rfl | hold
  · exact Or.inr hkind
  · exact Or.inl hold

/-- An emission of another kind leaves a tally. -/
theorem tally_other {kind other : SegmentKind} {time : ℤ} {bytes : ℕ}
    (h : s'.emitted = ⟨other, time, bytes⟩ :: s.emitted) (hother : other ≠ kind) : s'.tally kind = s.tally kind := by
  rw [tally_cons h, if_neg hother]
  rfl

/-- While the connection is open the new emission is no reset. -/
theorem Opened.noReset_cons (h : s.Opened) {kind : SegmentKind} {time : ℤ} {bytes : ℕ}
    (hadds : s'.emitted = ⟨kind, time, bytes⟩ :: s.emitted) (hkind : kind ≠ .lateReset ∧ kind ≠ .exchangeReset) :
    ∀ e ∈ s'.emitted, e.kind ≠ .lateReset ∧ e.kind ≠ .exchangeReset := by
  intro e he
  rw [hadds] at he
  rcases List.mem_cons.mp he with rfl | hold
  · exact hkind
  · exact h.noReset e hold

/-- Refunds stay what never goes on the wire. -/
theorem Phased.moves (h : s.Phased) (hcounts : s.Counts) (hmoves : Moves s s') : s'.Phased := by
  have hsent := hcounts.sent_le
  have harrived := hcounts.arrived_le
  have hpositive : 0 < s.segments := tcpSegmentCount_pos s.payload
  cases hmoves with
  | stay => exact h
  | wait nanoseconds => exact { h with opened := fun hopen => { h.opened hopen with } }
  | transmit count writing some fits =>
    refine h.keep rfl rfl (fun _ hopened => { hopened with
        quiet := fun hnone => absurd hnone (Nat.ne_of_gt (Nat.add_pos_right _ some))
        noReset := hopened.noReset_cons rfl (by decide)
        counted := (congrArg (· + _) (tally_other rfl (by decide))).trans hopened.counted })
      (fun stop hstop => ?_) (fun sentAt stop hstop => ?_)
      (fun e he => mem_of_adds rfl he (h.not_mem_of_open (by rw [writing]; rfl) _))
    · rw [writing] at hstop
      cases hstop
    · rw [writing] at hstop
      cases hstop
  | sendDone writing all =>
    have hopened := h.opened (by rw [writing]; rfl)
    exact { h with
      opened := fun _ => { hopened with }
      unsent := fun stop hstop => by cases hstop
      answered := fun sentAt stop hstop => by cases hstop
      aborted := fun sentAt stop hstop => by cases hstop }
  | linkChanged writing unsent =>
    have hnone := (h.opened (by rw [writing]; rfl)).quiet unsent
    exact {
      opened := fun hopen => by cases hopen
      unsent := fun stop hstop => ⟨hnone, rfl⟩
      answered := fun sentAt stop hstop => by cases hstop
      aborted := fun sentAt stop hstop => by cases hstop
      held := fun e he => absurd (hnone ▸ he) List.not_mem_nil }
  | abort known srtt isOpen =>
    have hopened := h.opened isOpen
    have hrefunded : (s.abort known srtt).refunded = [] ∨
        (s.abort known srtt).refunded = [.lateReset] ∧ s.inFlight = [] ∧ s.groundAcked = s.sent := by
      unfold abort
      dsimp only
      rw [hopened.refunded]
      split
      · rename_i hsettled
        exact Or.inr ⟨rfl, hcounts.settled (of_decide_eq_true (Bool.and_eq_true_iff.mp hsettled).2)⟩
      · exact Or.inl rfl
    exact {
      opened := fun hopen => by cases hopen
      unsent := fun stop hstop => by cases hstop
      answered := fun sentAt stop hstop => by cases hstop
      aborted := fun sentAt stop hstop => hrefunded
      held := fun e he hmem => by
        have hlate : e.kind = .lateReset := by
          rcases hrefunded with hnone | ⟨hlate, _⟩
          · exact absurd (hnone ▸ hmem) List.not_mem_nil
          · exact List.mem_singleton.mp (hlate ▸ hmem)
        rcases List.mem_cons.mp he with rfl | hold
        · cases hlate
        · exact (hopened.noReset e hold).1 hlate }
  | settle known sentAt waiting answered whole =>
    have hopened := h.opened (by rw [waiting]; rfl)
    have hrefunded : (s.settle known sentAt).refunded = [.lateReset, .exchangeReset] ∨
        (s.settle known sentAt).refunded = [.tcpAck, .lateReset, .exchangeReset] ∧
          ∀ e ∈ s.emitted, e.kind ≠ .tcpAck := by
      unfold settle
      dsimp only
      rw [hopened.refunded]
      split
      · rename_i hcarried
        obtain ⟨hin, hdata⟩ := of_decide_eq_true (Bool.and_eq_true_iff.mp hcarried).2
        exact Or.inr ⟨rfl, hopened.carried hin hdata⟩
      · exact Or.inl rfl
    exact {
      opened := fun hopen => by cases hopen
      unsent := fun stop hstop => by cases hstop
      answered := fun _ _ _ => hrefunded.imp_right And.left
      aborted := fun sentAt stop hstop => by cases hstop
      held := fun e he hmem => by
        obtain ⟨hlate, hexchange⟩ := hopened.noReset e he
        rcases hrefunded with hrefunded | ⟨hrefunded, hnone⟩
        · rw [hrefunded] at hmem
          simp [hlate, hexchange] at hmem
        · rw [hrefunded] at hmem
          simp [hlate, hexchange, hnone e he] at hmem }
  | arrive count live fits =>
    exact h.keep rfl rfl (fun _ hopened => { hopened with }) (fun _ _ => rfl) (fun _ _ _ hall => hall)
      (fun e he => Or.inl he)
  | tcpAck live fresh =>
    refine h.keep rfl rfl (fun _ hopened => ?_) (fun stop hstop => absurd hstop (not_unsent_of_live live))
      (fun _ _ _ hall => ?_) (fun e he => mem_of_adds rfl he (h.not_mem_of_live live (by decide)))
    · obtain ⟨_, hdata, _⟩ := hcounts.unanswered (hcounts.unanswered_of_fresh fresh)
      exact { hopened with
        quiet := fun hnone => by
          change s.sent = 0 at hnone
          omega
        noReset := hopened.noReset_cons rfl (by decide)
        counted := by
          refine (congrArg (· + s.dataSegmentsIn) (tally_cons rfl _)).trans ?_
          have hcounted := hopened.counted
          change s.tally .tcpAck + 1 + s.dataSegmentsIn = (s.inFlight ++ [s.arrived]).length + s.segmentsIn
          rw [List.length_append, List.length_singleton]
          omega
        flight := fun hsome => absurd hdata (Nat.ne_of_gt hsome) }
    · have hall' := hall.2
      omega
  | answer size live all first fits =>
    refine h.keep rfl rfl (fun _ hopened => ?_) (fun stop hstop => absurd hstop (not_unsent_of_live live))
      (fun _ _ _ hall => ⟨hall.1, ?_⟩) (fun e he => mem_of_adds rfl he (h.not_mem_of_live live (by decide)))
    · exact { hopened with
        quiet := fun hnone => by
          change s.sent = 0 at hnone
          omega
        noReset := hopened.noReset_cons rfl (by decide)
        counted := (congrArg (· + _) (tally_other rfl (by decide))).trans hopened.counted
        line := fun _ => Nat.add_pos_right _ (tcpSegmentCount_pos size) }
    · change s.segments = s.sent
      omega
  | ackIn number rest flight isOpen =>
    refine h.keep rfl rfl (fun _ hopened => ?_) (fun _ _ => rfl) (fun _ _ hphase _ => ?_) (fun e he => Or.inl he)
    · exact { hopened with
        counted := by
          have hcounted := hopened.counted
          rw [flight, List.length_cons] at hcounted
          change s.tally .tcpAck + s.dataSegmentsIn = rest.length + (s.segmentsIn + 1)
          omega
        flight := fun hsome => by
          have hnone := hopened.flight hsome
          rw [flight] at hnone
          cases hnone }
    · rw [hphase] at isOpen
      cases isOpen
  | ackLate number rest flight closed live =>
    refine h.keep rfl rfl (fun hopen => absurd (closed.symm.trans hopen) Bool.false_ne_true)
      (fun stop hstop => absurd hstop (not_unsent_of_live live)) (fun _ _ _ hall => ?_)
      (fun e he => mem_of_adds rfl he ?_)
    · rw [flight] at hall
      cases hall.1
    · rcases live_cases live with hopen | ⟨sentAt, stop, hphase, _⟩
      · exact absurd (closed.symm.trans hopen) Bool.false_ne_true
      · rcases h.aborted sentAt stop hphase with hnone | ⟨_, hempty, _⟩
        · rw [hnone]
          exact List.not_mem_nil
        · rw [flight] at hempty
          cases hempty
  | lineIn count flight some fits isOpen =>
    refine h.keep rfl rfl (fun _ hopened => ?_) (fun _ _ => rfl) (fun _ _ _ hall => hall) (fun e he => Or.inl he)
    exact { hopened with
      counted := by
        have hcounted := hopened.counted
        change s.tally .tcpAck + (s.dataSegmentsIn + count) = s.inFlight.length + (s.segmentsIn + count)
        omega
      line := fun _ => Nat.add_pos_left (Nat.add_pos_right _ some) _
      flight := fun _ => flight }
  | lineLate count flight some fits closed live =>
    exact h.keep rfl rfl (fun hopen => absurd (closed.symm.trans hopen) Bool.false_ne_true)
      (fun stop hstop => absurd hstop (not_unsent_of_live live)) (fun _ _ _ hall => hall)
      (fun e he => mem_of_adds rfl he (h.not_mem_of_live live (by decide)))
  | ackLine owed acknowledges =>
    have hkept : SegmentKind.lineReply ∉ s.refunded := by
      cases hphase : s.phase with
      | writing | waiting => exact h.not_mem_of_open (by rw [hphase]; rfl) _
      | unsent | aborted =>
        rw [hphase] at acknowledges
        cases acknowledges
      | answered sentAt stop => rcases h.answered sentAt stop hphase with heq | heq <;> simp [heq]
    refine h.keep rfl rfl (fun hopen hopened => ?_) (fun stop hstop => ?_) (fun _ _ _ hall => hall)
      (fun e he => mem_of_adds rfl he hkept)
    · have hline : s.lineSent = true := by
        by_contra hnot
        have hnone := (hcounts.unanswered (Bool.eq_false_iff.mpr hnot)).2.2
        exact Bool.false_ne_true (hnone.symm.trans owed)
      have hall := hcounts.answered hline
      have hground := hcounts.groundAcked_le
      exact { hopened with
        quiet := fun hnone => by
          change s.sent = 0 at hnone
          omega
        noReset := hopened.noReset_cons rfl (by decide)
        counted := (congrArg (· + _) (tally_other rfl (by decide))).trans hopened.counted }
    · rw [hstop] at acknowledges
      cases acknowledges

/-- When things went on the wire: the frame before it counted as written, and everything before the charge stops. -/
structure Times (s : FrameExchange) : Prop where
  past : ∀ e ∈ s.emitted, e.time ≤ s.now
  written : ∀ sentAt, s.phase.sentAt = some sentAt → ∀ e ∈ s.emitted, e.kind = .frame → e.time ≤ sentAt
  stopped : ∀ stop, s.phase.stop = some stop → ∀ e ∈ s.emitted, e.time ≤ stop

/-- A move that leaves the phase and the time leaves the times in order, if what it adds comes in time. -/
theorem Times.keep (h : s.Times) (hphase : s'.phase = s.phase) (hnow : s'.now = s.now) {kind : SegmentKind} {bytes : ℕ}
    (hadds : s'.emitted = ⟨kind, s.now, bytes⟩ :: s.emitted) (hkind : kind = .frame → s.phase.sentAt = none)
    (hstop : ∀ stop, s.phase.stop = some stop → s.now ≤ stop) : s'.Times where
  past e he := by
    rw [hadds] at he
    rw [hnow]
    rcases List.mem_cons.mp he with rfl | hold
    · exact le_rfl
    · exact h.past e hold
  written sentAt hsentAt e he hframe := by
    rw [hadds] at he
    rw [hphase] at hsentAt
    rcases List.mem_cons.mp he with rfl | hold
    · cases (hkind hframe).symm.trans hsentAt
    · exact h.written sentAt hsentAt e hold hframe
  stopped stop hstopped e he := by
    rw [hadds] at he
    rw [hphase] at hstopped
    rcases List.mem_cons.mp he with rfl | hold
    · exact hstop stop hstopped
    · exact h.stopped stop hstopped e hold

/-- What comes through comes before the charge stops. -/
theorem le_stop_of_live {now : ℤ} {phase : ExchangePhase} (hlive : phase.live now = true) :
    ∀ stop, phase.stop = some stop → now ≤ stop := by
  intro stop hstop
  cases phase with
  | writing | waiting => cases hstop
  | unsent | answered => cases hlive
  | aborted sentAt other =>
    cases hstop
    exact of_decide_eq_true hlive

/-- So does our ACK of the line. -/
theorem le_stop_of_acknowledges {now : ℤ} {phase : ExchangePhase} (hacknowledges : phase.acknowledges now = true) :
    ∀ stop, phase.stop = some stop → now ≤ stop := by
  intro stop hstop
  cases phase with
  | writing | waiting => cases hstop
  | unsent | aborted => cases hacknowledges
  | answered sentAt other =>
    cases hstop
    exact of_decide_eq_true hacknowledges

/-- The times stay in order. -/
theorem Times.moves (h : s.Times) (hmoves : Moves s s') : s'.Times := by
  cases hmoves with
  | stay => exact h
  | wait nanoseconds => exact { h with
      past := fun e he => (h.past e he).trans (le_add_of_nonneg_right (Int.natCast_nonneg _)) }
  | transmit count writing some fits =>
    refine h.keep rfl rfl rfl (fun _ => ?_) (fun stop hstop => ?_)
    · rw [writing]
      rfl
    · rw [writing] at hstop
      cases hstop
  | sendDone writing all => exact {
      past := h.past
      written := fun sentAt hsentAt e he _ => by
        cases hsentAt
        exact h.past e he
      stopped := fun stop hstop => by cases hstop }
  | linkChanged writing unsent => exact {
      past := h.past
      written := fun sentAt hsentAt => by cases hsentAt
      stopped := fun stop hstop e he => by
        cases hstop
        exact h.past e he }
  | abort known srtt isOpen =>
    have hlater : s.now ≤ s.now + abortTail + srtt := by
      unfold abortTail
      omega
    exact {
      past := fun e he => by
        rcases List.mem_cons.mp he with rfl | hold
        · exact le_rfl
        · exact h.past e hold
      written := fun sentAt hsentAt e he hframe => by
        rcases List.mem_cons.mp he with rfl | hold
        · cases hframe
        · exact h.written sentAt hsentAt e hold hframe
      stopped := fun stop hstop e he => by
        cases hstop
        rcases List.mem_cons.mp he with rfl | hold
        · exact hlater
        · exact (h.past e hold).trans hlater }
  | settle known sentAt waiting answered whole =>
    have hlater : s.now ≤ s.now + ackFlushTail := by
      unfold ackFlushTail
      omega
    exact {
      past := h.past
      written := fun other hother e he hframe => by
        cases hother
        exact h.written sentAt (by rw [waiting]; rfl) e he hframe
      stopped := fun stop hstop e he => by
        cases hstop
        exact (h.past e he).trans hlater }
  | arrive count live fits => exact { h with }
  | tcpAck live fresh => exact h.keep rfl rfl rfl (fun hkind => by cases hkind) (le_stop_of_live live)
  | answer size live all first fits => exact h.keep rfl rfl rfl (fun hkind => by cases hkind) (le_stop_of_live live)
  | ackIn number rest flight isOpen => exact { h with }
  | ackLate number rest flight closed live =>
    exact h.keep rfl rfl rfl (fun hkind => by cases hkind) (le_stop_of_live live)
  | lineIn count flight some fits isOpen => exact { h with }
  | lineLate count flight some fits closed live =>
    exact h.keep rfl rfl rfl (fun hkind => by cases hkind) (le_stop_of_live live)
  | ackLine owed acknowledges =>
    exact h.keep rfl rfl rfl (fun hkind => by cases hkind) (le_stop_of_acknowledges acknowledges)

end FrameExchange

end Coatheal.Link
