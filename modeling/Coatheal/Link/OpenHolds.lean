import Coatheal.Link.History

/-!
# Which holds are open

A charge of the ledger is open until a call gives it an end. The calls of one
owner of tickets and those of everybody else are told apart by the tickets they
name: a call opens at most the hold it admits, and reopens a hold only if it is
told to close that one at no time.
-/

namespace Coatheal.Link

/-- The ticket a call names. -/
def Call.ticket : Call → Option ℕ
  | .release _ ticket | .releaseAt ticket _ | .releasePart ticket _ _ | .refund ticket _ => some ticket
  | _ => none

namespace Ledger

variable {ledger : Ledger}

/-- The charge of a ticket is in the ledger and has no end yet. -/
def IsOpen (ledger : Ledger) (ticket : ℕ) : Prop := ∃ entry ∈ ledger.entries, entry.id = ticket ∧ entry.stop = none

/-- Pruning opens nothing. -/
theorem IsOpen.of_prune {window now : ℤ} {ticket : ℕ} (h : (ledger.prune window now).IsOpen ticket) :
    ledger.IsOpen ticket := by
  obtain ⟨entry, hentry, hid⟩ := h
  exact ⟨entry, List.mem_of_mem_filter hentry, hid⟩

/-- A new charge opens at most its own ticket. -/
theorem IsOpen.of_push {stop : Option ℤ} {bytes ticket : ℕ} (h : (ledger.push stop bytes).IsOpen ticket)
    (hold : ticket < ledger.nextId) : ledger.IsOpen ticket := by
  obtain ⟨entry, hentry, rfl, hopen⟩ := h
  rcases List.mem_append.mp hentry with hkept | hnew
  · exact ⟨entry, hkept, rfl, hopen⟩
  · rw [List.mem_singleton.mp hnew] at hold
    exact absurd hold (lt_irrefl _)

/-- An entry after a change in place is an old one, or the changed one. -/
theorem mem_updateFirst {id : ℕ} {change : Entry → Entry} {entries : List Entry} {entry : Entry}
    (h : entry ∈ updateFirst id change entries) :
    entry ∈ entries ∨ ∃ before ∈ entries, before.id = id ∧ entry = change before := by
  induction entries with
  | nil => cases h
  | cons first rest ih =>
    unfold updateFirst at h
    split at h
    · rename_i hid
      rcases List.mem_cons.mp h with rfl | hrest
      · exact Or.inr ⟨first, List.mem_cons_self, hid, rfl⟩
      · exact Or.inl (List.mem_cons_of_mem _ hrest)
    · rcases List.mem_cons.mp h with rfl | hrest
      · exact Or.inl List.mem_cons_self
      · rcases ih hrest with hkept | ⟨before, hbefore, hid, heq⟩
        · exact Or.inl (List.mem_cons_of_mem _ hkept)
        · exact Or.inr ⟨before, List.mem_cons_of_mem _ hbefore, hid, heq⟩

/-- A change in place of another ticket leaves this one as it was. -/
theorem IsOpen.of_update {other ticket : ℕ} {change : Entry → Entry} {hid : ∀ entry, (change entry).id = entry.id}
    (h : (ledger.update other change hid).IsOpen ticket) (hother : ticket ≠ other) : ledger.IsOpen ticket := by
  obtain ⟨entry, hentry, rfl, hopen⟩ := h
  rcases mem_updateFirst hentry with hkept | ⟨before, _, hbefore, rfl⟩
  · exact ⟨entry, hkept, rfl, hopen⟩
  · exact absurd ((hid before).trans hbefore) hother

/-- Shrinking opens nothing. -/
theorem IsOpen.of_shrink {other bytes ticket : ℕ}
    (h : (ledger.update other (Entry.shrink bytes) (Entry.shrink_id bytes)).IsOpen ticket) :
    ledger.IsOpen ticket := by
  obtain ⟨entry, hentry, rfl, hopen⟩ := h
  rcases mem_updateFirst hentry with hkept | ⟨before, hbefore, _, rfl⟩
  · exact ⟨entry, hkept, rfl, hopen⟩
  · exact ⟨before, hbefore, rfl, hopen⟩

/-- In a list without repeated ids a change that closes leaves no open entry of its id. -/
theorem updateFirst_closed {ticket : ℕ} {stop : ℤ} {entries : List Entry} (hnodup : (entries.map Entry.id).Nodup) :
    ∀ entry ∈ updateFirst ticket (Entry.closeAt (some stop)) entries, entry.id = ticket → entry.stop ≠ none := by
  induction entries with
  | nil => simp [updateFirst]
  | cons first rest ih =>
    rw [List.map_cons, List.nodup_cons] at hnodup
    intro entry hentry hid
    unfold updateFirst at hentry
    split at hentry
    · rename_i hfirst
      rcases List.mem_cons.mp hentry with rfl | hrest
      · exact Option.some_ne_none _
      · exact absurd (List.mem_map.mpr ⟨entry, hrest, hid.trans hfirst.symm⟩) hnodup.1
    · rename_i hfirst
      rcases List.mem_cons.mp hentry with rfl | hrest
      · exact absurd hid hfirst
      · exact ih hnodup.2 entry hrest hid

/-- A charge closed at some time is not open. -/
theorem not_isOpen_closeAt (ticket : ℕ) (stop : ℤ) :
    ¬(ledger.update ticket (Entry.closeAt (some stop)) (Entry.closeAt_id _)).IsOpen ticket :=
  fun ⟨entry, hentry, hid, hopen⟩ => updateFirst_closed ledger.ids_nodup entry hentry hid hopen

/-- From one ledger to the next no ticket of the owner's becomes open, and no id is handed out twice. -/
structure Quiet (owned : List ℕ) (before after : Ledger) : Prop where
  nextId_le : before.nextId ≤ after.nextId
  isOpen : ∀ ticket ∈ owned, after.IsOpen ticket → before.IsOpen ticket

/-- Nothing happens. -/
theorem Quiet.refl (owned : List ℕ) (ledger : Ledger) : Quiet owned ledger ledger := ⟨le_rfl, fun _ _ h => h⟩

/-- One thing after another. -/
theorem Quiet.trans {owned : List ℕ} {middle after : Ledger} (h : Quiet owned ledger middle)
    (hnext : Quiet owned middle after) : Quiet owned ledger after :=
  ⟨h.nextId_le.trans hnext.nextId_le, fun ticket howned hopen =>
    h.isOpen ticket howned (hnext.isOpen ticket howned hopen)⟩

/-- Tickets that were handed out stay handed out. -/
theorem Quiet.lt {owned : List ℕ} {after : Ledger} (h : Quiet owned ledger after)
    (howned : ∀ ticket ∈ owned, ticket < ledger.nextId) : ∀ ticket ∈ owned, ticket < after.nextId :=
  fun ticket hticket => (howned ticket hticket).trans_le h.nextId_le

/-- Pruning is quiet. -/
theorem quiet_prune (owned : List ℕ) (ledger : Ledger) (window now : ℤ) :
    Quiet owned ledger (ledger.prune window now) := ⟨le_rfl, fun _ _ hopen => hopen.of_prune⟩

/-- A new charge is quiet for everybody who holds tickets already. -/
theorem quiet_push {owned : List ℕ} (howned : ∀ ticket ∈ owned, ticket < ledger.nextId) (stop : Option ℤ) (bytes : ℕ) :
    Quiet owned ledger (ledger.push stop bytes) :=
  ⟨Nat.le_succ _, fun ticket hticket hopen => hopen.of_push (howned ticket hticket)⟩

/-- Shrinking is quiet. -/
theorem quiet_shrink (owned : List ℕ) (ledger : Ledger) (ticket bytes : ℕ) :
    Quiet owned ledger (ledger.update ticket (Entry.shrink bytes) (Entry.shrink_id bytes)) :=
  ⟨le_rfl, fun _ _ hopen => hopen.of_shrink⟩

/-- Closing is quiet, at some time for everybody and at no time for those who do not own the ticket. -/
theorem quiet_closeAt (owned : List ℕ) (ledger : Ledger) {ticket : ℕ} {stop : Option ℤ}
    (h : stop = none → ticket ∉ owned) :
    Quiet owned ledger (ledger.update ticket (Entry.closeAt stop) (Entry.closeAt_id stop)) := by
  refine ⟨le_rfl, fun other hother hopen => ?_⟩
  cases stop with
  | some stop =>
    have hne : other ≠ ticket := fun heq => not_isOpen_closeAt ticket stop (heq ▸ hopen)
    exact IsOpen.of_update hopen hne
  | none =>
    have hne : other ≠ ticket := fun heq => h rfl (heq ▸ hother)
    exact IsOpen.of_update hopen hne

end Ledger

namespace LinkBudget

open Ledger

variable {owned : List ℕ} {budget : LinkBudget}

/-- An admission is quiet for everybody who holds tickets already, and hands out a fresh one. -/
theorem admitLocked_quiet (howned : ∀ ticket ∈ owned, ticket < budget.ledger.nextId) (bytes : ℕ)
    (priority : LinkPriority) (now : ℤ) (isOpen : Bool) (txBytes : ℕ) :
    let result := budget.admitLocked bytes priority now isOpen txBytes
    Quiet owned budget.ledger result.2.ledger ∧
      ∀ ticket, result.1 = some ticket → budget.ledger.nextId ≤ ticket ∧ ticket < result.2.ledger.nextId := by
  have hpruned := quiet_prune owned budget.ledger budget.window now
  unfold admitLocked inWindowLocked
  dsimp only
  split
  · exact ⟨Quiet.refl _ _, fun ticket hticket => by cases hticket⟩
  split
  · exact ⟨Quiet.refl _ _, fun ticket hticket => by cases hticket⟩
  split
  · exact ⟨hpruned, fun ticket hticket => by cases hticket⟩
  split
  · exact ⟨hpruned, fun ticket hticket => by cases hticket⟩
  · refine ⟨hpruned.trans (quiet_push (hpruned.lt howned) _ _), fun ticket hticket => ?_⟩
    cases hticket
    exact ⟨le_rfl, Nat.lt_succ_self _⟩

/-- A pass of a waiting hold is quiet as the admission it tries. -/
theorem waitHoldPass_quiet (howned : ∀ ticket ∈ owned, ticket < budget.ledger.nextId) (now : ℤ) (bytes : ℕ)
    (priority : LinkPriority) (deadline : ℤ) (txBytes : ℕ) :
    let result := budget.waitHoldPass now bytes priority deadline txBytes
    Quiet owned budget.ledger result.2.ledger ∧ ∀ ticket, result.1 = .admitted ticket →
      budget.ledger.nextId ≤ ticket ∧ ticket < result.2.ledger.nextId := by
  obtain ⟨hquiet, hfresh⟩ := @admitLocked_quiet owned { budget with waiting := budget.waiting.erase priority } howned
    bytes priority now true txBytes
  unfold waitHoldPass
  dsimp only at hquiet hfresh ⊢
  split
  case h_1 ticket admitted heq =>
    rw [heq] at hquiet hfresh
    refine ⟨hquiet, fun other hother => ?_⟩
    cases hother
    exact hfresh ticket rfl
  case h_2 refused heq =>
    rw [heq] at hquiet
    split
    · exact ⟨hquiet, fun ticket hticket => by cases hticket⟩
    · exact ⟨hquiet, fun ticket hticket => by cases hticket⟩

/-- A waiting hold up to its first wait is quiet as well. -/
theorem waitHold_quiet (howned : ∀ ticket ∈ owned, ticket < budget.ledger.nextId) (now : ℤ) (bytes : ℕ)
    (priority : LinkPriority) (deadline : ℤ) (txBytes : ℕ) :
    let result := budget.waitHold now bytes priority deadline txBytes
    Quiet owned budget.ledger result.2.ledger ∧ ∀ ticket, result.1 = .admitted ticket →
      budget.ledger.nextId ≤ ticket ∧ ticket < result.2.ledger.nextId := by
  unfold waitHold
  dsimp only
  split
  · exact ⟨Quiet.refl _ _, fun ticket hticket => by cases hticket⟩
  · exact @waitHoldPass_quiet owned { budget with waiting := budget.waiting ++ [priority] } howned
      now bytes priority deadline txBytes

/-- A call opens nothing of an owner's, unless it closes a ticket of the owner's at no time. -/
theorem apply_quiet (howned : ∀ ticket ∈ owned, ticket < budget.ledger.nextId) (call : Call)
    (hcloses : ∀ ticket, call = .releaseAt ticket none → ticket ∉ owned) :
    Quiet owned budget.ledger (call.apply budget).ledger := by
  cases call with
  | tryCharge now bytes priority txBytes => exact (admitLocked_quiet howned bytes priority now false txBytes).1
  | tryHold now bytes priority txBytes => exact (admitLocked_quiet howned bytes priority now true txBytes).1
  | waitHold now bytes priority deadline txBytes => exact (waitHold_quiet howned now bytes priority deadline txBytes).1
  | waitHoldPass now bytes priority deadline txBytes =>
    exact (waitHoldPass_quiet howned now bytes priority deadline txBytes).1
  | release stop ticket => exact quiet_closeAt owned budget.ledger fun h => by cases h
  | releaseAt ticket stop => exact quiet_closeAt owned budget.ledger fun h => hcloses ticket (h ▸ rfl)
  | releasePart ticket bytes stop =>
    simp only [Call.apply, releasePart]
    split
    · exact Quiet.refl _ _
    · have hshrunk := quiet_shrink owned budget.ledger ticket bytes
      exact hshrunk.trans (quiet_push (hshrunk.lt howned) _ _)
  | refund ticket bytes => exact quiet_shrink owned budget.ledger ticket bytes
  | inWindow now => exact quiet_prune owned budget.ledger budget.window now
  | setEgressShaper now burstBytes rateBytesPerS => exact Quiet.refl _ _
  | debitEgress now bytes => exact Quiet.refl _ _
  | refundEgress now bytes => exact Quiet.refl _ _
  | egressTokens now =>
    simp only [Call.apply, egressTokens]
    split
    · exact Quiet.refl _ _
    · exact Quiet.refl _ _

end LinkBudget

end Coatheal.Link
