import Coatheal.Link.History

/-!
# The sliding-window law of the link budget

Seen from the wire, the ledger is a set of charges: those it still holds and
those it has dropped. Taking every charge it holds as not yet closed, no window
position is ever charged beyond the share, because a dropped charge ended a
whole window before the admission that dropped it. Emissions follow the charges.
-/

namespace Coatheal.Link

open Coatheal.Library

/-- A budget with what it has forgotten: the latest clock reading, the moment each id was placed,
and the entries that were dropped, as they stood then. -/
structure History where
  budget : LinkBudget
  clock : Option ℤ
  placedAt : ℕ → ℤ
  retired : List Entry

namespace History

/-- The history of a new budget. -/
def start (share : ℕ) (window : ℤ) (share_le : share ≤ uint32Max) : History :=
  ⟨.new share window share_le, none, fun _ => 0, []⟩

/-- The entries of one ledger whose ids are missing in a later one. -/
def dropped (before after : Ledger) : List Entry :=
  before.entries.filter fun entry => entry.id ∉ after.entries.map Entry.id

/-- When the entries a call creates were placed: a split part was placed with the charge it came
from, and any other entry at the reading of the call. -/
def placement (history : History) (call : Call) : ℤ :=
  match call.parent with
  | some ticket => history.placedAt ticket
  | none => call.reading.getD 0

/-- Take one call, and note what it creates and what it drops. -/
def step (history : History) (call : Call) : History :=
  let next := call.apply history.budget
  { budget := next
    clock := call.reading.or history.clock
    placedAt := fun id =>
      if id < history.budget.ledger.nextId then history.placedAt id else history.placement call
    retired := history.retired ++ dropped history.budget.ledger next.ledger }

/-- The call reads the clock no earlier than the calls before it. -/
def ClockForward (history : History) (call : Call) : Prop :=
  ∀ now ∈ call.reading, ∀ last ∈ history.clock, last ≤ now

/-- Every part of every charge ever made, as it stands now or stood when it was dropped. -/
def parts (history : History) : List Entry := history.budget.ledger.entries ++ history.retired

/-- A part as a charge on the wire. -/
def charge (history : History) (entry : Entry) : Charge ℝ :=
  ⟨history.placedAt entry.id, entry.stop.map (Int.cast : ℤ → ℝ), entry.bytes⟩

/-- Emission times for the bytes of every part: at most one for each byte that was not refunded,
none before the part was placed and none after its release. -/
def Schedules (history : History) (emits : ℕ → List ℝ) : Prop :=
  ∀ entry ∈ history.parts, (history.charge entry).Emits (emits entry.id)

/-- The bytes on the wire inside the window that starts at `t`. -/
noncomputable def wireBytes (history : History) (emits : ℕ → List ℝ) (t : ℝ) : ℕ :=
  (history.parts.map fun entry => countIn (history.budget.window : ℝ) t (emits entry.id)).sum

/-- The charges of the wire with everything the ledger holds taken as open. -/
def openCharges (history : History) : List (Charge ℝ) :=
  history.budget.ledger.entries.map fun entry => (history.charge entry).reopened

/-- The charges of the wire that the ledger has dropped. -/
def retiredCharges (history : History) : List (Charge ℝ) :=
  history.retired.map history.charge

/-- What every history of a forward clock keeps. -/
structure Inv (history : History) : Prop where
  retired_past : ∀ entry ∈ history.retired, ∃ stop ∈ entry.stop, ∃ now ∈ history.clock,
    stop + history.budget.window ≤ now
  retired_lt : ∀ entry ∈ history.retired, entry.id < history.budget.ledger.nextId
  total_le : history.budget.ledger.total ≤ history.budget.share
  within : WithinShare (history.budget.window : ℝ) history.budget.share
    (history.openCharges ++ history.retiredCharges)

end History

/-- The bytes of the entries, each counted as often as its id says. -/
def weighted (factor : ℕ → ℕ) (entries : List Entry) : ℕ :=
  (entries.map fun entry => factor entry.id * entry.bytes).sum

/-- No entry, no weight. -/
@[simp]
theorem weighted_nil (factor : ℕ → ℕ) : weighted factor [] = 0 := rfl

/-- Weights add up over the entries. -/
@[simp]
theorem weighted_cons (factor : ℕ → ℕ) (entry : Entry) (rest : List Entry) :
    weighted factor (entry :: rest) = factor entry.id * entry.bytes + weighted factor rest := by
  simp [weighted]

/-- Weights add up over two lists of entries. -/
@[simp]
theorem weighted_append (factor : ℕ → ℕ) (first second : List Entry) :
    weighted factor (first ++ second) = weighted factor first + weighted factor second := by
  simp [weighted]

/-- Counting every entry once gives the bytes in the ledger. -/
theorem Ledger.total_eq_weighted (ledger : Ledger) :
    ledger.total = weighted (fun _ => 1) ledger.entries := by
  simp [Ledger.total, weighted]

/-- Two selections without a common entry weigh no more than the whole. -/
theorem weighted_filter_add_le (factor : ℕ → ℕ) {first second : Entry → Bool} {entries : List Entry}
    (hdisjoint : ∀ entry ∈ entries, first entry → second entry → False) :
    weighted factor (entries.filter first) + weighted factor (entries.filter second) ≤
      weighted factor entries := by
  induction entries with
  | nil => simp [weighted]
  | cons entry rest ih =>
    have hrest := ih fun e he => hdisjoint e (List.mem_cons_of_mem entry he)
    have hnow := hdisjoint entry List.mem_cons_self
    cases hfirst : first entry <;> cases hsecond : second entry
    · simp only [hfirst, hsecond, Bool.false_eq_true, not_false_eq_true, List.filter_cons_of_neg,
        weighted_cons]
      omega
    · simp only [hfirst, hsecond, Bool.false_eq_true, not_false_eq_true, List.filter_cons_of_neg,
        List.filter_cons_of_pos, weighted_cons]
      omega
    · simp only [hfirst, hsecond, Bool.false_eq_true, not_false_eq_true, List.filter_cons_of_neg,
        List.filter_cons_of_pos, weighted_cons]
      omega
    · exact absurd (hnow hfirst hsecond) id

/-- Closing a charge moves no bytes. -/
theorem weighted_closeAt (factor : ℕ → ℕ) (ticket : ℕ) (stop : Option ℤ) (entries : List Entry) :
    weighted factor (updateFirst ticket (Entry.closeAt stop) entries) = weighted factor entries := by
  induction entries with
  | nil => rfl
  | cons entry rest ih =>
    unfold updateFirst
    split
    · simp [Entry.closeAt]
    · simp [ih]

/-- Shrinking a charge takes bytes out and adds none. -/
theorem weighted_shrink_le (factor : ℕ → ℕ) (ticket bytes : ℕ) (entries : List Entry) :
    weighted factor (updateFirst ticket (Entry.shrink bytes) entries) ≤ weighted factor entries := by
  induction entries with
  | nil => exact le_rfl
  | cons entry rest ih =>
    unfold updateFirst
    split
    · simp only [weighted_cons, Entry.shrink]
      exact Nat.add_le_add_right (Nat.mul_le_mul_left _ (Nat.sub_le _ _)) _
    · simp only [weighted_cons]
      exact Nat.add_le_add_left ih _

/-- What a split takes out of a charge is exactly the part it closes. -/
theorem weighted_shrink_add_part (factor : ℕ → ℕ) {ticket : ℕ} (bytes : ℕ) {entry : Entry}
    {entries : List Entry} (hfind : entries.find? (fun e => e.id = ticket) = some entry) :
    weighted factor (updateFirst ticket (Entry.shrink bytes) entries) +
      factor ticket * min bytes entry.bytes = weighted factor entries := by
  induction entries with
  | nil => cases hfind
  | cons first rest ih =>
    unfold updateFirst
    by_cases hid : first.id = ticket
    · rw [List.find?_cons_of_pos (by simpa using hid)] at hfind
      cases hfind
      rw [if_pos hid]
      simp only [weighted_cons, Entry.shrink, hid]
      have hsplit : factor ticket * (entry.bytes - min bytes entry.bytes) +
          factor ticket * min bytes entry.bytes = factor ticket * entry.bytes := by
        rw [← Nat.mul_add, Nat.sub_add_cancel (min_le_right _ _)]
      omega
    · rw [List.find?_cons_of_neg (by simpa using hid)] at hfind
      rw [if_neg hid]
      simp only [weighted_cons]
      have hrest := ih hfind
      omega

namespace History

/-- Nothing is dropped while all ids stay. -/
theorem dropped_eq_nil {before after : Ledger}
    (hids : ∀ entry ∈ before.entries, entry.id ∈ after.entries.map Entry.id) :
    dropped before after = [] := by
  rw [dropped, List.filter_eq_nil_iff]
  intro entry hentry
  simpa using hids entry hentry

/-- An entry is dropped only by a pruning it has expired for. -/
theorem expired_of_dropped {before after : Ledger} {window now : ℤ}
    (hkept : ∀ entry ∈ (before.prune window now).entries, entry.id ∈ after.entries.map Entry.id)
    {entry : Entry} (h : entry ∈ dropped before after) : entry.expired window now = true := by
  obtain ⟨hentry, hgone⟩ := List.mem_filter.mp h
  by_contra hlive
  refine of_decide_eq_true hgone (hkept entry (List.mem_filter.mpr ⟨hentry, ?_⟩))
  simpa using hlive

/-- Whether an entry with this id can still reach the window that starts at `t`. -/
noncomputable def reach (placedAt : ℕ → ℤ) (window : ℤ) (t : ℝ) (id : ℕ) : ℕ :=
  open Classical in if (placedAt id : ℝ) < t + window then 1 else 0

/-- The load of open charges is the weight of their entries. -/
theorem load_openCharges (history : History) (entries : List Entry) (t : ℝ) :
    load (history.budget.window : ℝ) (entries.map fun entry => (history.charge entry).reopened) t =
      weighted (reach history.placedAt history.budget.window t) entries := by
  induction entries with
  | nil => rfl
  | cons entry rest ih =>
    rw [List.map_cons, load_cons, weighted_cons, ih]
    congr 1
    simp only [Charge.load, Charge.Reaches, Charge.reopened, charge, reach]
    by_cases h : (history.placedAt entry.id : ℝ) < t + history.budget.window
    · simp [h]
    · simp [h]

/-- The load of dropped charges is at most the weight their entries had while open. -/
theorem load_charges_le (history : History) (entries : List Entry) (t : ℝ) :
    load (history.budget.window : ℝ) (entries.map history.charge) t ≤
      weighted (reach history.placedAt history.budget.window t) entries := by
  rw [← load_openCharges]
  induction entries with
  | nil => exact le_rfl
  | cons entry rest ih =>
    simp only [List.map_cons, load_cons]
    exact Nat.add_le_add (Charge.load_le_reopened _ _ t) ih

/-- The law of the wire as one inequality for each window position. -/
theorem within_iff (history : History) :
    WithinShare (history.budget.window : ℝ) history.budget.share
        (history.openCharges ++ history.retiredCharges) ↔
      ∀ t : ℝ, weighted (reach history.placedAt history.budget.window t)
          history.budget.ledger.entries +
        load (history.budget.window : ℝ) history.retiredCharges t ≤ history.budget.share := by
  unfold WithinShare
  simp only [load_append, openCharges, load_openCharges]

end History

/-- Weights depend only on the factors of the ids that occur. -/
theorem weighted_congr {first second : ℕ → ℕ} {entries : List Entry}
    (h : ∀ entry ∈ entries, first entry.id = second entry.id) :
    weighted first entries = weighted second entries := by
  unfold weighted
  exact congrArg List.sum (List.map_congr_left fun entry hentry => by rw [h entry hentry])

/-- Ids are handed out upwards. -/
theorem LedgerChange.nextId_le {share : ℕ} {window : ℤ} {call : Call} {before after : Ledger}
    (h : LedgerChange share window call before after) : before.nextId ≤ after.nextId := by
  cases h with
  | keep => exact le_rfl
  | prune now hreading => exact le_rfl
  | charge now stop bytes hreading hparent hfits => exact Nat.le_succ _
  | close ticket stop => exact le_rfl
  | shrink ticket bytes => exact le_rfl
  | split ticket bytes stop entry hparent hfind => exact Nat.le_succ _

/-- A call loses no id, or prunes at its reading and loses none of the ids that are left. -/
theorem LedgerChange.ids_kept {share : ℕ} {window : ℤ} {call : Call} {before after : Ledger}
    (h : LedgerChange share window call before after) :
    (∀ entry ∈ before.entries, entry.id ∈ after.entries.map Entry.id) ∨
      ∃ now, call.reading = some now ∧
        ∀ entry ∈ (before.prune window now).entries, entry.id ∈ after.entries.map Entry.id := by
  cases h with
  | keep => exact .inl fun entry hentry => List.mem_map_of_mem hentry
  | prune now hreading => exact .inr ⟨now, hreading, fun entry hentry => List.mem_map_of_mem hentry⟩
  | charge now stop bytes hreading hparent hfits =>
    exact .inr ⟨now, hreading, fun entry hentry =>
      Ledger.mem_push_ids (List.mem_map_of_mem hentry) _ _⟩
  | close ticket stop =>
    exact .inl fun entry hentry => Ledger.mem_update_ids hentry ticket _ _
  | shrink ticket bytes =>
    exact .inl fun entry hentry => Ledger.mem_update_ids hentry ticket _ _
  | split ticket bytes stop entry hparent hfind =>
    exact .inl fun entry hentry =>
      Ledger.mem_push_ids (Ledger.mem_update_ids hentry ticket _ _) _ _

namespace History

/-- Known ids keep the moment they were placed. -/
theorem step_placedAt (history : History) (call : Call) {id : ℕ}
    (h : id < history.budget.ledger.nextId) : (history.step call).placedAt id = history.placedAt id :=
  if_pos h

/-- The entry a call creates is placed where the call says. -/
theorem step_placedAt_nextId (history : History) (call : Call) :
    (history.step call).placedAt history.budget.ledger.nextId = history.placement call :=
  if_neg (lt_irrefl _)

/-- A call sees the entries that existed before it as the charges they were. -/
theorem map_charge_step (history : History) (call : Call) {entries : List Entry}
    (h : ∀ entry ∈ entries, entry.id < history.budget.ledger.nextId) :
    entries.map (history.step call).charge = entries.map history.charge :=
  List.map_congr_left fun entry hentry => by
    simp only [charge, step_placedAt history call (h entry hentry)]

/-- Only what has expired is dropped, and it was dropped at the reading of the call. -/
theorem retired_past_of_change {history : History} (hinv : history.Inv) {call : Call}
    (hclock : history.ClockForward call) {after : Ledger}
    (hchange : LedgerChange history.budget.share history.budget.window call history.budget.ledger after) :
    ∀ entry ∈ history.retired ++ dropped history.budget.ledger after, ∃ stop ∈ entry.stop,
      ∃ now ∈ call.reading.or history.clock, stop + history.budget.window ≤ now := by
  intro entry hentry
  rcases List.mem_append.mp hentry with hold | hnew
  · obtain ⟨stop, hstop, last, hlast, hle⟩ := hinv.retired_past entry hold
    rcases hreading : call.reading with _ | now
    · exact ⟨stop, hstop, last, hlast, hle⟩
    · exact ⟨stop, hstop, now, rfl, le_trans hle (hclock now hreading last hlast)⟩
  · rcases hchange.ids_kept with hall | ⟨now, hreading, hkept⟩
    · rw [dropped_eq_nil hall] at hnew
      cases hnew
    · have hexpired := expired_of_dropped hkept hnew
      rcases hstop : entry.stop with _ | stop
      · simp [Entry.expired, hstop] at hexpired
      · refine ⟨stop, rfl, now, by rw [hreading]; rfl, ?_⟩
        simpa [Entry.expired, hstop] using hexpired

/-- Dropped entries carry ids handed out before. -/
theorem step_retired_lt {history : History} (hinv : history.Inv) (call : Call) :
    ∀ entry ∈ (history.step call).retired, entry.id < history.budget.ledger.nextId := by
  intro entry hentry
  rcases List.mem_append.mp hentry with hold | hnew
  · exact hinv.retired_lt entry hold
  · exact history.budget.ledger.ids_lt entry (List.mem_of_mem_filter hnew)

/-- A sum that fits although it may have saturated is a sum that fits: the share is no larger than
the counter. -/
theorem fits_of_saturated {share total bytes : ℕ} (hshare : share ≤ uint32Max)
    (htotal : total ≤ share) (h : min total uint32Max + bytes ≤ share) : total + bytes ≤ share := by
  rwa [min_eq_left (le_trans htotal hshare)] at h

/-- Pruning leaves no more bytes than before. -/
theorem total_prune_le (ledger : Ledger) (window now : ℤ) :
    (ledger.prune window now).total ≤ ledger.total :=
  (List.filter_sublist.map Entry.bytes).sum_le_sum fun _ _ => Nat.zero_le _

/-- The ledger never holds more than the share. -/
theorem step_total_le {history : History} (hinv : history.Inv) (call : Call) :
    (call.apply history.budget).ledger.total ≤ history.budget.share := by
  obtain ⟨-, -, hchange⟩ := apply_change history.budget call
  have htotal := hinv.total_le
  generalize (call.apply history.budget).ledger = after at hchange
  cases hchange with
  | keep => exact htotal
  | prune now hreading => exact le_trans (total_prune_le _ _ now) htotal
  | charge now stop bytes hreading hparent hfits =>
    have hkept := le_trans (total_prune_le history.budget.ledger history.budget.window now) htotal
    have hroom := fits_of_saturated history.budget.share_le hkept hfits
    simpa [Ledger.total, Ledger.push] using hroom
  | close ticket stop =>
    rw [Ledger.total_eq_weighted] at htotal ⊢
    exact le_trans (le_of_eq (weighted_closeAt _ ticket stop _)) htotal
  | shrink ticket bytes =>
    rw [Ledger.total_eq_weighted] at htotal ⊢
    exact le_trans (weighted_shrink_le _ ticket bytes _) htotal
  | split ticket bytes stop entry hparent hfind =>
    rw [Ledger.total_eq_weighted] at htotal ⊢
    have hparts := weighted_shrink_add_part (fun _ => 1) bytes hfind
    simp only [Ledger.push, Ledger.update, weighted_append] at hparts ⊢
    simp only [weighted, List.map_cons, List.map_nil, List.sum_cons, List.sum_nil] at hparts htotal ⊢
    omega

/-- The law still holds once the expired entries are counted as dropped. -/
theorem within_of_pruned {history : History} (hinv : history.Inv) {now : ℤ} {after : Ledger}
    (hkept : ∀ entry ∈ (history.budget.ledger.prune history.budget.window now).entries,
      entry.id ∈ after.entries.map Entry.id) (t : ℝ) :
    weighted (reach history.placedAt history.budget.window t)
        (history.budget.ledger.prune history.budget.window now).entries +
      load (history.budget.window : ℝ)
        ((history.retired ++ dropped history.budget.ledger after).map history.charge) t ≤
      history.budget.share := by
  have hlaw := history.within_iff.mp hinv.within t
  have hclosed := history.load_charges_le (dropped history.budget.ledger after) t
  have hsplit := @weighted_filter_add_le (reach history.placedAt history.budget.window t)
    (fun entry => !entry.expired history.budget.window now)
    (fun entry => entry.id ∉ after.entries.map Entry.id) history.budget.ledger.entries
    (fun entry hentry hlive hgone =>
      absurd (hkept entry (List.mem_filter.mpr ⟨hentry, hlive⟩)) (of_decide_eq_true hgone))
  rw [List.map_append, load_append]
  change weighted _ (history.budget.ledger.prune history.budget.window now).entries +
    weighted _ (dropped history.budget.ledger after) ≤ _ at hsplit
  rw [retiredCharges] at hlaw
  omega

/-- What was dropped before a reading was released a whole window before it. -/
theorem released_of_past {history : History} {call : Call} {now : ℤ} (hreading : call.reading = some now)
    {entries : List Entry}
    (hpast : ∀ entry ∈ entries, ∃ stop ∈ entry.stop, ∃ now ∈ call.reading.or history.clock,
      stop + history.budget.window ≤ now) :
    ∀ charge ∈ entries.map history.charge, ∃ e, charge.release = some e ∧
      e + (history.budget.window : ℝ) ≤ now := by
  intro charge hcharge
  obtain ⟨entry, hentry, rfl⟩ := List.mem_map.mp hcharge
  obtain ⟨stop, hstop, last, hlast, hle⟩ := hpast entry hentry
  obtain rfl : now = last := by simpa [hreading] using hlast
  refine ⟨stop, by rw [History.charge, Option.mem_def.mp hstop, Option.map_some], ?_⟩
  exact_mod_cast hle

/-- Open charges cover the bytes of their entries. -/
theorem sizes_openCharges (history : History) (entries : List Entry) :
    ((entries.map fun entry => (history.charge entry).reopened).map Charge.size).sum =
      (entries.map Entry.bytes).sum := by
  rw [List.map_map]
  rfl

/-- The law survives every change of the ledger, with known ids placed as before and the new id
placed where the call says. -/
theorem within_of_change {history : History} (hinv : history.Inv) {call : Call}
    (hclock : history.ClockForward call) {after : Ledger}
    (hchange : LedgerChange history.budget.share history.budget.window call history.budget.ledger after)
    {placedAt : ℕ → ℤ}
    (hold : ∀ id < history.budget.ledger.nextId, placedAt id = history.placedAt id)
    (hnew : placedAt history.budget.ledger.nextId = history.placement call) (t : ℝ) :
    weighted (reach placedAt history.budget.window t) after.entries +
      load (history.budget.window : ℝ)
        ((history.retired ++ dropped history.budget.ledger after).map history.charge) t ≤
      history.budget.share := by
  have hlaw := history.within_iff.mp hinv.within t
  have hsame : ∀ entries : List Entry, (∀ entry ∈ entries, entry.id < history.budget.ledger.nextId) →
      weighted (reach placedAt history.budget.window t) entries =
        weighted (reach history.placedAt history.budget.window t) entries :=
    fun entries h => weighted_congr fun entry hentry => by simp only [reach, hold _ (h entry hentry)]
  have hnone : (∀ entry ∈ history.budget.ledger.entries, entry.id ∈ after.entries.map Entry.id) →
      (history.retired ++ dropped history.budget.ledger after).map history.charge =
        history.retiredCharges :=
    fun h => by rw [dropped_eq_nil h, List.append_nil, retiredCharges]
  cases hchange with
  | keep =>
    rw [hnone fun entry hentry => List.mem_map_of_mem hentry, hsame _ history.budget.ledger.ids_lt]
    exact hlaw
  | prune now hreading =>
    rw [hsame _ (history.budget.ledger.prune history.budget.window now).ids_lt]
    exact within_of_pruned hinv (fun entry hentry => List.mem_map_of_mem hentry) t
  | charge now stop bytes hreading hparent hfits =>
    have hkept : ∀ entry ∈ (history.budget.ledger.prune history.budget.window now).entries,
        entry.id ∈ ((history.budget.ledger.prune history.budget.window now).push stop
          bytes).entries.map Entry.id :=
      fun entry hentry => Ledger.mem_push_ids (List.mem_map_of_mem hentry) _ _
    have hroom := fits_of_saturated history.budget.share_le
      (le_trans (total_prune_le _ _ now) hinv.total_le) hfits
    have hplaced : placedAt history.budget.ledger.nextId = now := by
      rw [hnew, placement, hparent, hreading, Option.getD_some]
    have hpast := retired_past_of_change hinv hclock
      (.charge now stop bytes hreading hparent hfits)
    have hkeptLaw : WithinShare (history.budget.window : ℝ) history.budget.share
        ((history.budget.ledger.prune history.budget.window now).entries.map
          (fun entry => (history.charge entry).reopened) ++
        (history.retired ++ dropped history.budget.ledger
          ((history.budget.ledger.prune history.budget.window now).push stop bytes)).map
            history.charge) := fun t => by
      rw [load_append, load_openCharges]
      exact within_of_pruned hinv hkept t
    have hcharged : WithinShare (history.budget.window : ℝ) history.budget.share
        (⟨(now : ℝ), none, bytes⟩ :: _) :=
      hkeptLaw.charge (released_of_past hreading hpast) (by rw [sizes_openCharges]; exact hroom)
    have hload : Charge.load (history.budget.window : ℝ) ⟨(now : ℝ), none, bytes⟩ t =
        reach placedAt history.budget.window t history.budget.ledger.nextId * bytes := by
      simp only [Charge.load, Charge.Reaches, reach, hplaced]
      by_cases h : (now : ℝ) < t + history.budget.window
      · simp [h]
      · simp [h]
    have hnow := hcharged t
    rw [load_cons, load_append, load_openCharges, hload] at hnow
    have hkeptSame := hsame _ (history.budget.ledger.prune history.budget.window now).ids_lt
    rw [Ledger.push, weighted_append, weighted_cons, weighted_nil, hkeptSame]
    change _ + (reach placedAt history.budget.window t history.budget.ledger.nextId * bytes + 0) + _ ≤ _
    rw [Ledger.push] at hnow
    omega
  | close ticket stop =>
    rw [hnone fun entry hentry => Ledger.mem_update_ids hentry ticket _ _,
      hsame _ (Ledger.ids_lt (history.budget.ledger.update ticket _ _)), Ledger.update,
      weighted_closeAt]
    exact hlaw
  | shrink ticket bytes =>
    rw [hnone fun entry hentry => Ledger.mem_update_ids hentry ticket _ _,
      hsame _ (Ledger.ids_lt (history.budget.ledger.update ticket _ _))]
    have hle := weighted_shrink_le (reach history.placedAt history.budget.window t) ticket bytes
      history.budget.ledger.entries
    exact le_trans (Nat.add_le_add_right hle _) hlaw
  | split ticket bytes stop entry hparent hfind =>
    have hplaced : placedAt history.budget.ledger.nextId = history.placedAt ticket := by
      rw [hnew, placement, hparent]
    rw [hnone fun entry hentry => Ledger.mem_push_ids (Ledger.mem_update_ids hentry ticket _ _) _ _]
    have hparts := weighted_shrink_add_part (reach history.placedAt history.budget.window t) bytes hfind
    have hrestSame := hsame _ (history.budget.ledger.update ticket (Entry.shrink bytes)
      (Entry.shrink_id bytes)).ids_lt
    have hpart : reach placedAt history.budget.window t history.budget.ledger.nextId =
        reach history.placedAt history.budget.window t ticket := by simp only [reach, hplaced]
    rw [Ledger.push, weighted_append, weighted_cons, weighted_nil, hrestSame]
    change weighted _ (updateFirst ticket _ history.budget.ledger.entries) +
      (reach placedAt history.budget.window t history.budget.ledger.nextId * min bytes entry.bytes + 0) +
        _ ≤ _
    rw [hpart]
    omega

/-- Every call of a forward clock keeps the invariant. -/
theorem inv_step (history : History) (call : Call) (hinv : history.Inv)
    (hclock : history.ClockForward call) : (history.step call).Inv := by
  obtain ⟨hshare, hwindow, hchange⟩ := apply_change history.budget call
  have hretiredLt := step_retired_lt hinv call
  refine ⟨?_, ?_, ?_, ?_⟩
  · have hpast := retired_past_of_change hinv hclock hchange
    rwa [← hwindow] at hpast
  · exact fun entry hentry => lt_of_lt_of_le (hretiredLt entry hentry) hchange.nextId_le
  · change (call.apply history.budget).ledger.total ≤ (call.apply history.budget).share
    rw [hshare]
    exact step_total_le hinv call
  · rw [within_iff]
    intro t
    have hlaw := within_of_change hinv hclock hchange (fun id => history.step_placedAt call)
      (history.step_placedAt_nextId call) t
    rw [retiredCharges, map_charge_step history call hretiredLt]
    change weighted (reach _ (call.apply history.budget).window t) _ +
      load ((call.apply history.budget).window : ℝ) _ t ≤ (call.apply history.budget).share
    rw [hshare, hwindow]
    exact hlaw

/-- A new budget keeps the invariant. -/
theorem inv_start (share : ℕ) (window : ℤ) (share_le : share ≤ uint32Max) :
    (start share window share_le).Inv where
  retired_past entry hentry := by cases hentry
  retired_lt entry hentry := by cases hentry
  total_le := Nat.zero_le _
  within t := Nat.zero_le _

/-- A run keeps the share and the window it started with. -/
theorem run_share_window (history : History) (calls : List Call) :
    (run step history calls).budget.share = history.budget.share ∧
      (run step history calls).budget.window = history.budget.window := by
  induction calls generalizing history with
  | nil => exact ⟨rfl, rfl⟩
  | cons call rest ih =>
    obtain ⟨hshare, hwindow, -⟩ := apply_change history.budget call
    obtain ⟨ihShare, ihWindow⟩ := ih (history.step call)
    exact ⟨ihShare.trans hshare, ihWindow.trans hwindow⟩

/-- Any schedule of the parts of a history stays within the share in every window. -/
theorem wireBytes_le {history : History} (hinv : history.Inv) {emits : ℕ → List ℝ}
    (hemits : history.Schedules emits) (t : ℝ) : history.wireBytes emits t ≤ history.budget.share := by
  have hwithin : WithinShare (history.budget.window : ℝ) history.budget.share
      (history.parts.map history.charge) := by
    intro s
    have hopen := history.within_iff.mp hinv.within s
    have hclosed := history.load_charges_le history.budget.ledger.entries s
    rw [retiredCharges] at hopen
    rw [parts, List.map_append, load_append]
    omega
  have h := @emittedIn_le_share ℝ _ _ (history.budget.window : ℝ) history.budget.share
    (history.parts.map fun entry => (history.charge entry, emits entry.id))
    (by simpa [List.map_map, Function.comp_def] using hwithin)
    (by
      intro pair hpair
      obtain ⟨entry, hentry, rfl⟩ := List.mem_map.mp hpair
      exact hemits entry hentry) t
  simpa [emittedIn, wireBytes, List.map_map, Function.comp_def] using h

/-- The sliding-window law: whatever the callers charge, hold, release, split and refund under a
clock that never runs back, and whenever the bytes of each part are emitted between its placement
and its release, no window of the wire carries more than the share. -/
theorem slidingWindow_law (share : ℕ) (window : ℤ) (share_le : share ≤ uint32Max) (calls : List Call)
    (hclock : Meets step ClockForward (start share window share_le) calls) (emits : ℕ → List ℝ)
    (hemits : (run step (start share window share_le) calls).Schedules emits) (t : ℝ) :
    (run step (start share window share_le) calls).wireBytes emits t ≤ share := by
  have hinv := run_invariant inv_step (inv_start share window share_le) hclock
  have h := wireBytes_le hinv hemits t
  rwa [(run_share_window (start share window share_le) calls).1] at h

/-- A hold that is split, shrunk by a refund, and followed by a charge. -/
def sampleCalls : List Call :=
  [.tryHold 0 80 .live 0, .releasePart 1 30 (some 5), .refund 1 10, .inWindow 15,
    .tryCharge 16 20 .live 0]

/-- The parts the sample leaves: the open rest, the charge, and the dropped part. -/
private theorem sampleCalls_parts :
    (run step (start 100 10 (by decide)) sampleCalls).parts =
      [⟨1, none, 40⟩, ⟨3, some 16, 20⟩, ⟨2, some 5, 30⟩] := by
  decide +kernel

/-- The sample places both parts of the hold at its admission. -/
private theorem sampleCalls_placedAt :
    (run step (start 100 10 (by decide)) sampleCalls).placedAt 1 = 0 ∧
      (run step (start 100 10 (by decide)) sampleCalls).placedAt 2 = 0 ∧
      (run step (start 100 10 (by decide)) sampleCalls).placedAt 3 = 16 := by
  decide +kernel

/-- The law on the sample, with bytes emitted before and after the split. -/
theorem slidingWindow_law_sampleCalls :
    (run step (start 100 10 (by decide)) sampleCalls).wireBytes
      (fun id => if id = 2 then [3, 5] else if id = 3 then [16] else [4, 20]) 4 ≤ 100 := by
  refine slidingWindow_law 100 10 (by decide) sampleCalls ?_ _ ?_ 4
  · simp [Meets, ClockForward, sampleCalls, step, start, Call.reading]
  · obtain ⟨hfirst, hsecond, hthird⟩ := sampleCalls_placedAt
    intro entry hentry
    rw [sampleCalls_parts] at hentry
    simp only [List.mem_cons, List.not_mem_nil, or_false] at hentry
    rcases hentry with rfl | rfl | rfl
    · norm_num [charge, Charge.Emits, hfirst]
      simp
    · norm_num [charge, Charge.Emits, hthird]
    · norm_num [charge, Charge.Emits, hsecond]

end History

end Coatheal.Link
