import Coatheal.Library.TokenBucket
import Coatheal.Link.History
import Mathlib.Tactic.Positivity
import Mathlib.Tactic.Ring

/-!
# The modelled bucket and the kernel's

The ledger debits its modelled bucket when a charge is admitted; the kernel's
bucket is debited when the bytes are sent. Both have the same burst and the
kernel's fills at least as fast. The bytes of a charge are sent, given back or
given up some time after its admission. What the kernel's bucket does not hold
has to wait: its level then falls below zero by what is queued.
-/

namespace Coatheal.Link

open Coatheal.Library

/-- The budget beside the kernel's bucket: its rate and level at the clock, the charged bytes that
may still be sent, and whether any charged byte had to wait so far. -/
structure Shaped where
  budget : LinkBudget
  kernelRate : ℚ
  level : ℚ
  clock : ℤ
  unsent : ℕ
  delayed : Bool

/-- What happens on the port: a call of the budget, charged bytes sent, or charged bytes that will
not be sent any more. -/
inductive PortEvent where
  | call (call : Call)
  | send (now : ℤ) (bytes : ℕ)
  | giveUp (bytes : ℕ)
deriving DecidableEq, Repr

namespace Call

/-- The bytes our side may send for a charge the call places. -/
def granted (budget : LinkBudget) : Call → ℕ
  | .tryCharge now bytes priority txBytes =>
    if (budget.tryCharge now bytes priority txBytes).1.isSome then txBytes else 0
  | .tryHold now bytes priority txBytes =>
    if (budget.tryHold now bytes priority txBytes).1.isSome then txBytes else 0
  | .waitHold now bytes priority deadline txBytes =>
    match (budget.waitHold now bytes priority deadline txBytes).1 with
    | .admitted _ => txBytes
    | _ => 0
  | .waitHoldPass now bytes priority deadline txBytes =>
    match (budget.waitHoldPass now bytes priority deadline txBytes).1 with
    | .admitted _ => txBytes
    | _ => 0
  | _ => 0

/-- The unsent bytes the call gives back. -/
def returned : Call → ℕ
  | .refundEgress _ bytes => bytes
  | _ => 0

/-- The bytes sent without a charge that the call accounts for. -/
def unscheduled : Call → ℕ
  | .debitEgress _ bytes => bytes
  | _ => 0

/-- The call sets up the shaper. -/
def setsShaper : Call → Bool
  | .setEgressShaper _ _ _ => true
  | _ => false

end Call

/-- The clock reading of an event. -/
def PortEvent.reading : PortEvent → Option ℤ
  | .call c => c.reading
  | .send now _ => some now
  | .giveUp _ => none

namespace Shaped

/-- A new budget with its shaper set up, beside a full kernel bucket. -/
def start (share : ℕ) (window : ℤ) (share_le : share ≤ uint32Max) (now : ℤ)
    (burstBytes rateBytesPerS : ℕ) (kernelRate : ℚ) : Shaped :=
  ⟨(LinkBudget.new share window share_le).setEgressShaper now burstBytes rateBytesPerS, kernelRate,
    burstBytes, now, 0, false⟩

/-- The tokens in the modelled bucket at the clock. -/
def tokens (s : Shaped) : ℚ := (s.budget.egress.refill s.clock).tokens

/-- Time passes: the kernel's bucket fills. -/
def advance (s : Shaped) (now : ℤ) : Shaped :=
  { s with
    level := fill s.budget.egress.burst s.kernelRate s.level (Egress.seconds (now - s.clock))
    clock := now }

/-- Time passes up to an event. -/
def advanceTo (s : Shaped) (event : PortEvent) : Shaped :=
  match event.reading with
  | some now => s.advance now
  | none => s

/-- An event at the clock. -/
def perform (s : Shaped) : PortEvent → Shaped
  | .call call =>
    { s with
      budget := call.apply s.budget
      level := s.level - call.unscheduled
      unsent := s.unsent + call.granted s.budget - call.returned }
  | .send _ bytes =>
    { s with
      level := s.level - bytes
      unsent := s.unsent - bytes
      delayed := s.delayed || decide (s.level < bytes) }
  | .giveUp bytes => { s with unsent := s.unsent - bytes }

/-- Time passes and an event happens. -/
def step (s : Shaped) (event : PortEvent) : Shaped := (s.advanceTo event).perform event

/-- The model never holds more tokens than the kernel's bucket, and no charged byte had to wait. -/
def Safe (s : Shaped) : Prop := s.tokens ≤ s.level ∧ s.delayed = false

/-- What the callers keep to: the clock does not run back, only charged bytes are sent, given back
or given up, and the shaper stays as it was set up. -/
def Legal (s : Shaped) (event : PortEvent) : Prop :=
  (∀ now, event.reading = some now → s.clock ≤ now) ∧
    match event with
    | .call call => call.setsShaper = false ∧ call.returned ≤ s.unsent
    | .send _ bytes => bytes ≤ s.unsent
    | .giveUp bytes => bytes ≤ s.unsent

/-- A legal event can be told. -/
instance (s : Shaped) : (event : PortEvent) → Decidable (s.Legal event)
  | .call call => inferInstanceAs (Decidable ((∀ now ∈ call.reading, s.clock ≤ now) ∧
      call.setsShaper = false ∧ call.returned ≤ s.unsent))
  | .send now bytes => inferInstanceAs (Decidable ((∀ reading ∈ some now, s.clock ≤ reading) ∧
      bytes ≤ s.unsent))
  | .giveUp bytes => inferInstanceAs (Decidable ((∀ reading ∈ none, s.clock ≤ reading) ∧
      bytes ≤ s.unsent))

/-- The modelled bucket does not fill up before the charged bytes are sent. -/
def FillsLate (s : Shaped) (now : ℤ) : Prop :=
  s.unsent = 0 ∨
    s.tokens + s.budget.egress.rate * Egress.seconds (now - s.clock) + s.unsent ≤ s.budget.egress.burst

/-- Time passes only as far as charged bytes are sent in time; no debit is cut off at one bucket of
debt, and no more charged bytes are sent at once than the modelled tokens left with them. -/
def Timely (s : Shaped) (event : PortEvent) : Prop :=
  (∀ now, event.reading = some now → s.FillsLate now) ∧
    match event with
    | .call (.debitEgress _ bytes) => -s.budget.egress.burst ≤ (s.advanceTo event).tokens - bytes
    | .call _ => True
    | .send _ bytes => (bytes : ℚ) ≤ (s.advanceTo event).tokens + s.unsent
    | .giveUp _ => True

/-- Whether the bytes are sent in time can be told. -/
instance (s : Shaped) (now : ℤ) : Decidable (s.FillsLate now) :=
  inferInstanceAs (Decidable (_ ∨ _))

/-- An event in time can be told. -/
instance (s : Shaped) : (event : PortEvent) → Decidable (s.Timely event)
  | .call (.debitEgress now bytes) =>
    inferInstanceAs (Decidable ((∀ reading ∈ some now, s.FillsLate reading) ∧
      -s.budget.egress.burst ≤ (s.advanceTo (.call (.debitEgress now bytes))).tokens - bytes))
  | .call (.tryCharge now _ _ _) | .call (.tryHold now _ _ _) | .call (.waitHold now _ _ _ _)
  | .call (.waitHoldPass now _ _ _ _) | .call (.inWindow now) | .call (.setEgressShaper now _ _)
  | .call (.refundEgress now _) | .call (.egressTokens now) =>
    inferInstanceAs (Decidable ((∀ reading ∈ some now, s.FillsLate reading) ∧ True))
  | .call (.release _ _) | .call (.releaseAt _ _) | .call (.releasePart _ _ _) | .call (.refund _ _) =>
    inferInstanceAs (Decidable ((∀ reading ∈ none, s.FillsLate reading) ∧ True))
  | .send now bytes => inferInstanceAs (Decidable ((∀ reading ∈ some now, s.FillsLate reading) ∧
      (bytes : ℚ) ≤ (s.advanceTo (.send now bytes)).tokens + s.unsent))
  | .giveUp _ => inferInstanceAs (Decidable ((∀ reading ∈ none, s.FillsLate reading) ∧ True))

end Shaped

namespace Egress

/-- Nanoseconds add up as seconds. -/
theorem seconds_add (first second : ℤ) : seconds (first + second) = seconds first + seconds second := by
  unfold seconds
  push_cast
  ring

/-- A span that does not run back lasts no less than no time. -/
theorem seconds_nonneg {duration : ℤ} (h : 0 ≤ duration) : 0 ≤ seconds duration := by
  unfold seconds
  have hcast : (0 : ℚ) ≤ duration := Int.cast_nonneg h
  positivity

/-- A refill changes neither the burst nor the rate. -/
theorem refill_config (egress : Egress) (now : ℤ) :
    (egress.refill now).burst = egress.burst ∧ (egress.refill now).rate = egress.rate := by
  unfold refill
  split
  · exact ⟨rfl, rfl⟩
  · exact ⟨rfl, rfl⟩

/-- After a refill the stamp is the reading, unless the reading is behind it. -/
theorem refill_stamp {egress : Egress} {now : ℤ} (h : egress.stamp ≤ now) :
    (egress.refill now).stamp = now := by
  unfold refill
  split
  · rfl
  · omega

/-- The tokens after a refill are those of a bucket that filled since the last one. -/
theorem refill_tokens {egress : Egress} {now : ℤ} (h : egress.stamp ≤ now)
    (hcap : egress.tokens ≤ egress.burst) :
    (egress.refill now).tokens =
      fill egress.burst egress.rate egress.tokens (seconds (now - egress.stamp)) := by
  unfold refill
  split
  · rfl
  · have hsame : now - egress.stamp = 0 := by omega
    have hnone : seconds 0 = 0 := by norm_num [seconds]
    rw [hsame, hnone, fill_zero _ hcap]

/-- A bucket that holds no more than its burst does so after a refill. -/
theorem refill_le_burst {egress : Egress} (now : ℤ) (hcap : egress.tokens ≤ egress.burst) :
    (egress.refill now).tokens ≤ egress.burst := by
  unfold refill
  split
  · exact min_le_left _ _
  · exact hcap

/-- A second refill at a later reading adds what came in between. -/
theorem refill_later {egress : Egress} {now later : ℤ} (hstamp : egress.stamp ≤ now)
    (hlater : now ≤ later) (hrate : 0 ≤ egress.rate) (hcap : egress.tokens ≤ egress.burst) :
    (egress.refill later).tokens =
      fill egress.burst egress.rate (egress.refill now).tokens (seconds (later - now)) := by
  have hsplit : seconds (later - egress.stamp) = seconds (now - egress.stamp) + seconds (later - now) := by
    rw [← seconds_add]
    congr 1
    omega
  rw [refill_tokens (le_trans hstamp hlater) hcap, refill_tokens hstamp hcap, hsplit,
    fill_fill hrate (seconds_nonneg (by omega))]

/-- A refill at the reading of the last one changes nothing. -/
theorem refill_stale {egress : Egress} {now : ℤ} (h : now ≤ egress.stamp) : egress.refill now = egress := by
  unfold refill
  split
  · omega
  · rfl

/-- What one call may do to the modelled bucket: its tokens at the reading `now` are bounded, and
the burst, the rate and the cap stay. -/
structure Kept (egress : Egress) (now : ℤ) (bound : ℚ) (after : Egress) : Prop where
  burst_eq : after.burst = egress.burst
  rate_eq : after.rate = egress.rate
  stamp_le : after.stamp ≤ now
  cap : after.tokens ≤ after.burst
  tokens_le : (after.refill now).tokens ≤ bound

/-- A bucket left alone keeps its tokens. -/
theorem Kept.same {egress : Egress} {now : ℤ} (hstamp : egress.stamp ≤ now)
    (hcap : egress.tokens ≤ egress.burst) : egress.Kept now (egress.refill now).tokens egress :=
  ⟨rfl, rfl, hstamp, hcap, le_refl _⟩

/-- A bucket that is refilled and set to some tokens holds those. -/
theorem Kept.set {egress : Egress} {now : ℤ} {level : ℚ} (hstamp : egress.stamp ≤ now)
    (hlevel : level ≤ egress.burst) :
    egress.Kept now level { egress.refill now with tokens := level } := by
  obtain ⟨hburst, hrate⟩ := egress.refill_config now
  have hnow : (egress.refill now).stamp = now := refill_stamp hstamp
  refine ⟨hburst, hrate, le_of_eq hnow, ?_, ?_⟩
  · rw [hburst]
    exact hlevel
  · rw [refill_stale]
    exact le_of_eq hnow.symm

/-- A refill keeps the tokens the bucket has at that reading. -/
theorem Kept.refilled {egress : Egress} {now : ℤ} (hstamp : egress.stamp ≤ now)
    (hcap : egress.tokens ≤ egress.burst) :
    egress.Kept now (egress.refill now).tokens (egress.refill now) :=
  .set hstamp (refill_le_burst now hcap)

/-- A bound may be raised. -/
theorem Kept.le {egress after : Egress} {now : ℤ} {bound higher : ℚ} (h : egress.Kept now bound after)
    (hle : bound ≤ higher) : egress.Kept now higher after :=
  { h with tokens_le := le_trans h.tokens_le hle }

/-- A call that grants, gives back and accounts for nothing costs nothing. -/
theorem Kept.free {egress after : Egress} {now : ℤ} {tokens : ℚ} (h : egress.Kept now tokens after) :
    egress.Kept now (tokens - (0 : ℕ) + (0 : ℕ) - (0 : ℕ)) after := by
  simpa using h

/-- A call that gives back and accounts for nothing costs what it grants. -/
theorem Kept.granting {egress after : Egress} {now : ℤ} {tokens : ℚ} {granted : ℕ}
    (h : egress.Kept now (tokens - granted) after) :
    egress.Kept now (tokens - granted + (0 : ℕ) - (0 : ℕ)) after := by
  simpa using h

/-- A charge that is taken costs its tokens, one that is refused costs none. -/
theorem take_kept {egress : Egress} {now : ℤ} (txBytes : ℕ) (hburst : 0 < egress.burst)
    (hstamp : egress.stamp ≤ now) (hcap : egress.tokens ≤ egress.burst) :
    egress.Kept now
      ((egress.refill now).tokens - (if (egress.take now txBytes).1 then txBytes else 0 : ℕ))
      (egress.take now txBytes).2 := by
  by_cases htx : txBytes > 0
  · by_cases hshort : (egress.refill now).tokens < min (txBytes : ℚ) (egress.refill now).burst
    · have hrefused : egress.take now txBytes = (false, egress.refill now) := by
        unfold take
        rw [if_pos ⟨hburst, htx⟩]
        exact if_pos hshort
      rw [hrefused]
      simpa using Kept.refilled hstamp hcap
    · have htaken : egress.take now txBytes =
          (true, { egress.refill now with tokens := (egress.refill now).tokens - txBytes }) := by
        unfold take
        rw [if_pos ⟨hburst, htx⟩]
        exact if_neg hshort
      have hbytes : (0 : ℚ) ≤ txBytes := Nat.cast_nonneg txBytes
      have hfull : (egress.refill now).tokens ≤ egress.burst := refill_le_burst now hcap
      rw [htaken]
      exact .set hstamp (by simpa using by linarith)
  · have hnothing : egress.take now txBytes = (true, egress) := by
      unfold take
      exact if_neg (fun h => htx h.2)
    have hzero : txBytes = 0 := by omega
    rw [hnothing, hzero]
    simpa using Kept.same hstamp hcap

/-- A debit that is not cut off costs its bytes. -/
theorem debit_kept {egress : Egress} {now : ℤ} {bytes : ℕ} (hburst : 0 < egress.burst)
    (hstamp : egress.stamp ≤ now) (hcap : egress.tokens ≤ egress.burst)
    (hdebt : -egress.burst ≤ (egress.refill now).tokens - bytes) :
    egress.Kept now ((egress.refill now).tokens - bytes) (egress.debit now bytes) := by
  have hbytes : (0 : ℚ) ≤ bytes := Nat.cast_nonneg bytes
  have hfull : (egress.refill now).tokens ≤ egress.burst := refill_le_burst now hcap
  unfold debit
  rw [if_neg (not_le.mpr hburst)]
  have hcut : max ((egress.refill now).tokens - bytes) (-(egress.refill now).burst) =
      (egress.refill now).tokens - bytes := by
    rw [(egress.refill_config now).1, max_eq_left hdebt]
  dsimp only
  rw [hcut]
  exact .set hstamp (by linarith)

/-- A refund gives back at most its bytes. -/
theorem refund_kept {egress : Egress} {now : ℤ} (bytes : ℕ) (hburst : 0 < egress.burst)
    (hstamp : egress.stamp ≤ now) :
    egress.Kept now ((egress.refill now).tokens + bytes) (egress.refund now bytes) := by
  unfold refund
  rw [if_neg (not_le.mpr hburst)]
  have hlevel : min (egress.refill now).burst ((egress.refill now).tokens + bytes) ≤ egress.burst := by
    rw [(egress.refill_config now).1]
    exact min_le_left _ _
  exact (Kept.set hstamp hlevel).le (min_le_right _ _)

end Egress

/-- An admission costs the bytes it grants. -/
theorem admitLocked_kept {budget : LinkBudget} {bytes : ℕ} {priority : LinkPriority} {now : ℤ}
    {isOpen : Bool} {txBytes : ℕ} (hburst : 0 < budget.egress.burst)
    (hstamp : budget.egress.stamp ≤ now) (hcap : budget.egress.tokens ≤ budget.egress.burst) :
    let result := budget.admitLocked bytes priority now isOpen txBytes
    budget.egress.Kept now
      ((budget.egress.refill now).tokens - (if result.1.isSome then txBytes else 0 : ℕ))
      result.2.egress := by
  have hsame := Egress.Kept.same hstamp hcap
  have htake := Egress.take_kept txBytes hburst hstamp hcap
  unfold LinkBudget.admitLocked LinkBudget.inWindowLocked
  dsimp only
  split
  · simpa using hsame
  split
  · simpa using hsame
  split
  · simpa using hsame
  split
  case h_1 egress heq => simpa [heq] using htake
  case h_2 egress heq => simpa [heq] using htake

/-- One pass of a waiting hold costs the bytes it grants. -/
theorem waitHoldPass_kept {budget : LinkBudget} {bytes : ℕ} {priority : LinkPriority}
    {now deadline : ℤ} {txBytes : ℕ} (hburst : 0 < budget.egress.burst)
    (hstamp : budget.egress.stamp ≤ now) (hcap : budget.egress.tokens ≤ budget.egress.burst) :
    budget.egress.Kept now
      ((budget.egress.refill now).tokens -
        (Call.waitHoldPass now bytes priority deadline txBytes).granted budget)
      (budget.waitHoldPass now bytes priority deadline txBytes).2.egress := by
  have h := @admitLocked_kept { budget with waiting := budget.waiting.erase priority } bytes priority
    now true txBytes hburst hstamp hcap
  unfold Call.granted LinkBudget.waitHoldPass
  dsimp only at h ⊢
  rcases hresult : LinkBudget.admitLocked { budget with waiting := budget.waiting.erase priority } bytes
    priority now true txBytes with ⟨ticket, after⟩
  rw [hresult] at h
  cases ticket with
  | some ticket => simpa using h
  | none =>
    by_cases hlate : now ≥ deadline
    · simpa [hlate] using h
    · simpa [hlate] using h

/-- A call costs the modelled bucket at least what it grants and what was sent without a charge,
less what it gives back. -/
theorem apply_kept {budget : LinkBudget} {call : Call} {now : ℤ} (hset : call.setsShaper = false)
    (hreading : ∀ reading, call.reading = some reading → reading = now)
    (hburst : 0 < budget.egress.burst) (hstamp : budget.egress.stamp ≤ now)
    (hcap : budget.egress.tokens ≤ budget.egress.burst)
    (hdebt : ∀ reading bytes, call = .debitEgress reading bytes →
      -budget.egress.burst ≤ (budget.egress.refill now).tokens - bytes) :
    budget.egress.Kept now
      ((budget.egress.refill now).tokens - call.granted budget + call.returned - call.unscheduled)
      (call.apply budget).egress := by
  have hsame := Egress.Kept.same hstamp hcap
  cases call with
  | tryCharge reading bytes priority txBytes =>
    obtain rfl := hreading reading rfl
    exact (admitLocked_kept hburst hstamp hcap).granting
  | tryHold reading bytes priority txBytes =>
    obtain rfl := hreading reading rfl
    exact (admitLocked_kept hburst hstamp hcap).granting
  | waitHoldPass reading bytes priority deadline txBytes =>
    obtain rfl := hreading reading rfl
    exact (waitHoldPass_kept hburst hstamp hcap).granting
  | waitHold reading bytes priority deadline txBytes =>
    obtain rfl := hreading reading rfl
    have hpass := @waitHoldPass_kept { budget with waiting := budget.waiting ++ [priority] } bytes
      priority reading deadline txBytes hburst hstamp hcap
    by_cases hlarge : bytes > budget.share
    · simpa [Call.apply, Call.granted, Call.returned, Call.unscheduled, LinkBudget.waitHold, hlarge]
        using hsame
    · simpa [Call.apply, Call.granted, Call.returned, Call.unscheduled, LinkBudget.waitHold, hlarge]
        using hpass
  | release stop ticket => exact hsame.free
  | releaseAt ticket stop => exact hsame.free
  | releasePart ticket bytes stop =>
    have hegress : (budget.releasePart ticket bytes stop).egress = budget.egress := by
      unfold LinkBudget.releasePart
      split
      · rfl
      · rfl
    rw [Call.apply, hegress]
    exact hsame.free
  | refund ticket bytes => exact hsame.free
  | inWindow reading => exact hsame.free
  | setEgressShaper reading burstBytes rateBytesPerS => cases hset
  | debitEgress reading bytes =>
    obtain rfl := hreading reading rfl
    simpa [Call.apply, Call.granted, Call.returned, Call.unscheduled, LinkBudget.debitEgress] using
      Egress.debit_kept hburst hstamp hcap (hdebt reading bytes rfl)
  | refundEgress reading bytes =>
    obtain rfl := hreading reading rfl
    simpa [Call.apply, Call.granted, Call.returned, Call.unscheduled, LinkBudget.refundEgress] using
      Egress.refund_kept bytes hburst hstamp
  | egressTokens reading =>
    obtain rfl := hreading reading rfl
    have hrefilled := Egress.Kept.refilled hstamp hcap
    simpa [Call.apply, Call.granted, Call.returned, Call.unscheduled, LinkBudget.egressTokens,
      not_le.mpr hburst] using hrefilled

namespace Shaped

/-- The model lags behind the kernel's bucket by at least the charged bytes still unsent. -/
structure Covered (s : Shaped) : Prop where
  burst_pos : 0 < s.budget.egress.burst
  rate_nonneg : 0 ≤ s.budget.egress.rate
  rate_le : s.budget.egress.rate ≤ s.kernelRate
  stamp_le : s.budget.egress.stamp ≤ s.clock
  cap : s.budget.egress.tokens ≤ s.budget.egress.burst
  lags : s.tokens + s.unsent ≤ s.level
  passed : s.delayed = false

/-- While the model lags behind, it never holds more than the kernel's bucket. -/
theorem Covered.safe {s : Shaped} (h : s.Covered) : s.Safe := by
  have hunsent : (0 : ℚ) ≤ s.unsent := Nat.cast_nonneg s.unsent
  have hlags := h.lags
  exact ⟨by linarith, h.passed⟩

/-- Both buckets start full. -/
theorem start_covered (share : ℕ) (window : ℤ) (share_le : share ≤ uint32Max) (now : ℤ)
    {burstBytes rateBytesPerS : ℕ} {kernelRate : ℚ} (hburst : 0 < burstBytes)
    (hrate : (rateBytesPerS : ℚ) ≤ kernelRate) :
    (start share window share_le now burstBytes rateBytesPerS kernelRate).Covered where
  burst_pos := Nat.cast_pos.mpr hburst
  rate_nonneg := Nat.cast_nonneg rateBytesPerS
  rate_le := hrate
  stamp_le := le_refl now
  cap := le_refl _
  lags := by simp [start, tokens, LinkBudget.setEgressShaper, Egress.refill]
  passed := rfl

/-- Time that passes before the modelled bucket is full again keeps the lag. -/
theorem advance_covered {s : Shaped} {now : ℤ} (h : s.Covered) (hclock : s.clock ≤ now)
    (hfills : s.FillsLate now) : (s.advance now).Covered where
  burst_pos := h.burst_pos
  rate_nonneg := h.rate_nonneg
  rate_le := h.rate_le
  stamp_le := le_trans h.stamp_le hclock
  cap := h.cap
  lags := by
    have helapsed : 0 ≤ Egress.seconds (now - s.clock) := Egress.seconds_nonneg (by omega)
    have htokens : (s.advance now).tokens =
        fill s.budget.egress.burst s.budget.egress.rate s.tokens (Egress.seconds (now - s.clock)) :=
      Egress.refill_later h.stamp_le hclock h.rate_nonneg h.cap
    have hfit : (s.unsent : ℚ) = 0 ∨ s.tokens +
        s.budget.egress.rate * Egress.seconds (now - s.clock) + s.unsent ≤ s.budget.egress.burst :=
      hfills.imp_left (fun hnone => by rw [hnone, Nat.cast_zero])
    rw [htokens]
    exact fill_add_le h.lags h.rate_le helapsed hfit
  passed := h.passed

/-- Passing to an event keeps the lag and the charged bytes, and the event happens at the clock. -/
theorem advanceTo_covered {s : Shaped} {event : PortEvent} (h : s.Covered)
    (hclock : ∀ now, event.reading = some now → s.clock ≤ now)
    (hfills : ∀ now, event.reading = some now → s.FillsLate now) :
    (s.advanceTo event).Covered ∧ (s.advanceTo event).unsent = s.unsent ∧
      ∀ now, event.reading = some now → now = (s.advanceTo event).clock := by
  unfold advanceTo
  cases hreading : event.reading with
  | none => exact ⟨h, rfl, by simp⟩
  | some now =>
    refine ⟨advance_covered h (hclock now hreading) (hfills now hreading), rfl, ?_⟩
    intro later hlater
    exact (Option.some.inj hlater).symm

/-- A call at the clock keeps the lag: what it grants it takes from the model, and what it gives
back was unsent. -/
theorem perform_call_covered {s : Shaped} {call : Call} (h : s.Covered) (hset : call.setsShaper = false)
    (hreading : ∀ now, call.reading = some now → now = s.clock) (hreturned : call.returned ≤ s.unsent)
    (hdebt : ∀ now bytes, call = .debitEgress now bytes → -s.budget.egress.burst ≤ s.tokens - bytes) :
    (s.perform (.call call)).Covered := by
  have hkept := apply_kept hset hreading h.burst_pos h.stamp_le h.cap hdebt
  constructor
  · simpa [perform, hkept.burst_eq] using h.burst_pos
  · simpa [perform, hkept.rate_eq] using h.rate_nonneg
  · simpa [perform, hkept.rate_eq] using h.rate_le
  · exact hkept.stamp_le
  · exact hkept.cap
  · have htokens : (s.perform (.call call)).tokens ≤
        s.tokens - call.granted s.budget + call.returned - call.unscheduled := hkept.tokens_le
    have hunsent : ((s.perform (.call call)).unsent : ℚ) =
        s.unsent + call.granted s.budget - call.returned := by
      simp only [perform]
      rw [Nat.cast_sub (by omega), Nat.cast_add]
    have hlevel : (s.perform (.call call)).level = s.level - call.unscheduled := rfl
    have hlags := h.lags
    linarith
  · exact h.passed

/-- Sending charged bytes the modelled tokens are there for takes them from the lag, and the
kernel's bucket holds them. -/
theorem perform_send_covered {s : Shaped} {now : ℤ} {bytes : ℕ} (h : s.Covered)
    (hcharged : bytes ≤ s.unsent) (htokens : (bytes : ℚ) ≤ s.tokens + s.unsent) :
    (s.perform (.send now bytes)).Covered where
  burst_pos := h.burst_pos
  rate_nonneg := h.rate_nonneg
  rate_le := h.rate_le
  stamp_le := h.stamp_le
  cap := h.cap
  lags := by
    have hunsent : ((s.perform (.send now bytes)).unsent : ℚ) = s.unsent - bytes := Nat.cast_sub hcharged
    have hlevel : (s.perform (.send now bytes)).level = s.level - bytes := rfl
    have hsame : (s.perform (.send now bytes)).tokens = s.tokens := rfl
    have hlags := h.lags
    linarith
  passed := by
    have hholds : (bytes : ℚ) ≤ s.level := le_trans htokens h.lags
    simp [perform, h.passed, not_lt.mpr hholds]

/-- Giving up charged bytes shortens what the lag has to cover. -/
theorem perform_giveUp_covered {s : Shaped} {bytes : ℕ} (h : s.Covered) :
    (s.perform (.giveUp bytes)).Covered where
  burst_pos := h.burst_pos
  rate_nonneg := h.rate_nonneg
  rate_le := h.rate_le
  stamp_le := h.stamp_le
  cap := h.cap
  lags := by
    have hunsent : ((s.perform (.giveUp bytes)).unsent : ℚ) ≤ s.unsent :=
      Nat.cast_le.mpr (Nat.sub_le s.unsent bytes)
    have hsame : (s.perform (.giveUp bytes)).tokens = s.tokens := rfl
    have hlevel : (s.perform (.giveUp bytes)).level = s.level := rfl
    have hlags := h.lags
    linarith
  passed := h.passed

/-- A legal event in time keeps the lag. -/
theorem step_covered (s : Shaped) (event : PortEvent) (h : s.Covered)
    (hok : s.Legal event ∧ s.Timely event) : (s.step event).Covered := by
  obtain ⟨⟨hclock, hlegal⟩, hfills, htimely⟩ := hok
  obtain ⟨hthere, hunsent, hreading⟩ := advanceTo_covered h hclock hfills
  unfold step
  cases event with
  | call call =>
    obtain ⟨hset, hreturned⟩ := hlegal
    refine perform_call_covered hthere hset hreading (by rw [hunsent]; exact hreturned) ?_
    intro now bytes hcall
    subst hcall
    exact htimely
  | send now bytes =>
    refine perform_send_covered hthere (by rw [hunsent]; exact hlegal) ?_
    rw [hunsent]
    exact htimely
  | giveUp bytes => exact perform_giveUp_covered hthere

/-- In every run that sends what it charged before the modelled bucket is full again, pays for its
unscheduled bytes in full and sends no more in debt than was left with it, the model never holds
more tokens than the kernel's bucket and no charged byte waits. -/
theorem egress_never_waits {share : ℕ} {window : ℤ} {share_le : share ≤ uint32Max} {now : ℤ}
    {burstBytes rateBytesPerS : ℕ} {kernelRate : ℚ} {events : List PortEvent} (hburst : 0 < burstBytes)
    (hrate : (rateBytesPerS : ℚ) ≤ kernelRate)
    (hmeets : Meets step (fun s event => s.Legal event ∧ s.Timely event)
      (start share window share_le now burstBytes rateBytesPerS kernelRate) events) :
    Holds step Safe (start share window share_le now burstBytes rateBytesPerS kernelRate) events :=
  holds_of_meets step_covered (fun _ h => h.safe) (start_covered share window share_le now hburst hrate)
    hmeets

/-- A share of 1600 bytes in a second, with a modelled bucket of 1000 bytes at 776 bytes a second
beside a kernel's at 800. -/
def port : Shaped := start 1600 1000000000 (by decide) 0 1000 776 800

/-- A hold, its bytes in two sends, a debit, a refund after a failed send and a second hold. -/
def sampleEvents : List PortEvent :=
  [.call (.tryHold 0 700 .live 400), .send 0 300, .send 20000000 60,
    .call (.debitEgress 30000000 40), .call (.refundEgress 30000000 40),
    .call (.releaseAt 1 (some 30000000)), .call (.waitHold 1200000000 500 .commandReply 1300000000 500),
    .send 1200000000 500, .call (.egressTokens 1500000000)]

/-- The sample keeps to the conditions. -/
theorem egress_never_waits_sampleEvents : Holds step Safe port sampleEvents :=
  egress_never_waits (by decide) (by norm_num) (by decide +kernel)

/-- Bytes sent 1.3 s after their charge leave the model with a full bucket beside an empty one, and
the next charge is admitted and has to wait. -/
theorem lateSend_waits :
    let events : List PortEvent :=
      [.call (.tryHold 0 1000 .live 1000), .send 1300000000 1000,
        .call (.tryHold 1300000000 500 .live 500), .send 1300000000 500]
    Meets step Legal port events ∧ ¬ Holds step Safe port events ∧ (run step port events).delayed := by
  refine ⟨by decide +kernel, ?_, by decide +kernel⟩
  intro h
  exact absurd h.last.2 (by decide +kernel)

end Shaped

end Coatheal.Link
