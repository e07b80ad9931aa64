import Coatheal.Library.Run
import Coatheal.Library.Trace
import Mathlib.Data.List.Nodup
import Mathlib.Data.Rat.Floor

/-!
# Discovery rounds

`DiscoveryRounds`: a round of datagrams is begun in a state of the link, and every
check charges and sends what the ledger takes; the rest stays for the next check.
A datagram goes once, right behind its own charge, and only while no check has
found the link in another state. The link is looked at in the checks only, so
that a change back and forth between two of them drops nothing.
-/

namespace Coatheal.Ground

open Library

/-- `UDP_HEADERS`: Ethernet, IPv4 and UDP. -/
def udpHeaders : ℕ := 42

/-- `MIN_FRAME`. -/
def minFrame : ℕ := 60

/-- `WIRE_OVERHEAD`. -/
def wireOverhead : ℕ := 24

/-- `udp_datagram`. -/
def udpDatagram (payloadBytes : ℕ) : ℕ := max minFrame (udpHeaders + payloadBytes) + wireOverhead

/-- Rounds of datagrams of any kind. Times are monotonic seconds. -/
structure DiscoveryRounds (α : Type) where
  intervalS : ℚ
  healthyIntervalS : ℚ
  skipped : ℕ
  lastRound : Option ℚ
  roundHealthy : Option Bool
  pending : List α

namespace DiscoveryRounds

variable {α β L : Type}

/-- `DiscoveryRounds(...)`. -/
def new (intervalS healthyIntervalS : ℚ) : DiscoveryRounds α := ⟨intervalS, healthyIntervalS, 0, none, none, []⟩

/-- `due`. -/
def due (r : DiscoveryRounds α) (now : ℚ) (healthy : Bool) : Bool :=
  match r.lastRound with
  | none => true
  | some last => decide ((if healthy then r.healthyIntervalS else r.intervalS) ≤ now - last)

/-- `start`. -/
def start (r : DiscoveryRounds α) (now : ℚ) (healthy : Bool) (datagrams : List α) : DiscoveryRounds α :=
  { r with lastRound := some now, roundHealthy := some healthy, pending := datagrams }

/-- `clear`. -/
def clear (r : DiscoveryRounds α) : DiscoveryRounds α := { r with pending := [] }

/-- The loop of `send_pending`: the ledger is asked for each datagram, with its size on the wire. -/
def offer (tryCharge : L → ℕ → Bool × L) (size : α → ℕ) : L → List α → List (α × Bool) × L
  | ledger, [] => ([], ledger)
  | ledger, datagram :: rest =>
    let charge := tryCharge ledger (udpDatagram (size datagram))
    let others := offer tryCharge size charge.2 rest
    ((datagram, charge.1) :: others.1, others.2)

/-- The pending datagrams that a check offers: none of a round begun in the other state of the link. -/
def offered (r : DiscoveryRounds α) (healthy : Bool) : List α := if r.roundHealthy = some healthy then r.pending else []

/-- `send_pending`: the datagrams in order with whether each was charged and sent, and what stays. -/
def sendPending (tryCharge : L → ℕ → Bool × L) (size : α → ℕ) (r : DiscoveryRounds α) (healthy : Bool) (ledger : L) :
    List (α × Bool) × DiscoveryRounds α × L :=
  let answers := offer tryCharge size ledger (r.offered healthy)
  let still := (answers.1.filter fun answer => !answer.2).map Prod.fst
  (answers.1, { r with skipped := r.skipped + still.length, pending := still }, answers.2)

/-- The same rounds with other datagrams. -/
def map (f : α → β) (r : DiscoveryRounds α) : DiscoveryRounds β := { r with pending := r.pending.map f }

end DiscoveryRounds

namespace DiscoveryRounds

variable {α β L : Type}

end DiscoveryRounds

/-- The number of a round and the place in it. -/
abbrev DatagramId := ℕ × ℕ

/-- What happens to the rounds. A datagram that is sent goes in a state of the link. -/
inductive DiscoveryEntry where
  | began (round : ℕ) (link : Bool) (count : ℕ)
  | cleared
  | linkChanged
  | checked (link : Bool)
  | charged (id : DatagramId)
  | refused (id : DatagramId)
  | sent (id : DatagramId) (link : Bool)
deriving DecidableEq

/-- A sender with its rounds, the ledger and the state of the link. Each datagram has its number, and the log has its
newest entry first. -/
structure Discovery (α L : Type) where
  rounds : DiscoveryRounds (DatagramId × α)
  ledger : L
  link : Bool
  begun : ℕ
  log : List DiscoveryEntry

/-- A call of the sender, a change of the link, or anything that changes the ledger. -/
inductive DiscoveryEvent (α L : Type) where
  | setLink (healthy : Bool)
  | ledgerChange (change : L → L)
  | due (now : ℚ)
  | start (now : ℚ) (datagrams : List α)
  | clear
  | sendPending

namespace Discovery

variable {α L : Type} (tryCharge : L → ℕ → Bool × L) (size : α → ℕ)

/-- A new sender. -/
def new (intervalS healthyIntervalS : ℚ) (ledger : L) : Discovery α L := ⟨.new intervalS healthyIntervalS, ledger, false, 0, []⟩

/-- The datagrams of a round with their numbers. -/
def numbered (round : ℕ) (datagrams : List α) : List (DatagramId × α) :=
  datagrams.zipIdx.map fun datagram => ((round, datagram.2), datagram.1)

/-- What is logged of the answer to a datagram, the newest entry first. -/
def answerEntries (link : Bool) (answer : (DatagramId × α) × Bool) : List DiscoveryEntry :=
  if answer.2 then [.sent answer.1.1 link, .charged answer.1.1] else [.refused answer.1.1]

/-- The log with the answers to some datagrams. -/
def logAnswers (link : Bool) (log : List DiscoveryEntry) (answers : List ((DatagramId × α) × Bool)) :
    List DiscoveryEntry :=
  answers.foldl (fun log answer => answerEntries link answer ++ log) log

/-- One event. -/
def step (d : Discovery α L) : DiscoveryEvent α L → Discovery α L
  | .setLink healthy =>
    if healthy = d.link then d else { d with link := healthy, log := .linkChanged :: d.log }
  | .ledgerChange change => { d with ledger := change d.ledger }
  | .due _ => d
  | .start now datagrams =>
    { d with
      rounds := d.rounds.start now d.link (numbered d.begun datagrams)
      begun := d.begun + 1
      log := .began d.begun d.link datagrams.length :: d.log }
  | .clear => { d with rounds := d.rounds.clear, log := .cleared :: d.log }
  | .sendPending =>
    let check := d.rounds.sendPending tryCharge (fun datagram => size datagram.2) d.link d.ledger
    { d with
      rounds := check.2.1
      ledger := check.2.2
      log := logAnswers d.link (.checked d.link :: d.log) check.1 }

end Discovery

/-- An entry that drops the datagrams of a round begun in a state of the link. -/
def Drops (link : Bool) : DiscoveryEntry → Prop
  | .began _ _ _ => True
  | .cleared => True
  | .checked found => found ≠ link
  | _ => False

/-- A datagram of the newest round, begun in this state of the link, that was neither dropped since nor sent. -/
def Alive (log : List DiscoveryEntry) (id : DatagramId) (link : Bool) : Prop :=
  (∃ later earlier count, log = later ++ .began id.1 link count :: earlier ∧ id.2 < count ∧
    ∀ entry ∈ later, ¬ Drops link entry) ∧ ∀ found, .sent id found ∉ log

/-- A datagram is sent in the state of the link in which its round began, right behind its own charge, while it was
neither dropped nor sent. -/
def AllowedSend : DiscoveryEntry → List DiscoveryEntry → Prop
  | .sent id link, log => ∃ before, log = .charged id :: before ∧ Alive before id link
  | _, _ => True

/-- A datagram lives on behind an entry that does not drop its round, or it is of the round that begins. -/
theorem alive_cons {entry : DiscoveryEntry} {log : List DiscoveryEntry} {id : DatagramId} {link : Bool} :
    Alive (entry :: log) id link ↔ (∀ found, .sent id found ∉ entry :: log) ∧
      ((∃ count, entry = .began id.1 link count ∧ id.2 < count) ∨ ¬ Drops link entry ∧ Alive log id link) := by
  constructor
  · rintro ⟨⟨later, earlier, count, hsplit, hplace, hlater⟩, hunsent⟩
    refine ⟨hunsent, ?_⟩
    cases later with
    | nil =>
      obtain ⟨rfl, rfl⟩ := List.cons.inj hsplit
      exact Or.inl ⟨count, rfl, hplace⟩
    | cons newest later =>
      obtain ⟨rfl, rfl⟩ := List.cons.inj hsplit
      refine Or.inr ⟨hlater _ List.mem_cons_self, ⟨later, earlier, count, rfl, hplace, fun other hother => ?_⟩, ?_⟩
      · exact hlater other (List.mem_cons_of_mem _ hother)
      · exact fun found hfound => hunsent found (List.mem_cons_of_mem _ hfound)
  · rintro ⟨hunsent, ⟨count, rfl, hplace⟩ | ⟨hkeeps, ⟨later, earlier, count, rfl, hplace, hlater⟩, _⟩⟩
    · exact ⟨⟨[], log, count, rfl, hplace, by simp⟩, hunsent⟩
    · exact ⟨⟨entry :: later, earlier, count, rfl, hplace, List.forall_mem_cons.mpr ⟨hkeeps, hlater⟩⟩, hunsent⟩

/-- A datagram lives on behind an entry that neither drops its round nor sends it nor begins a round. -/
theorem alive_cons_of_keeps {entry : DiscoveryEntry} {log : List DiscoveryEntry} {id : DatagramId} {link : Bool}
    (hkeeps : ¬ Drops link entry) (hunsent : ∀ found, entry ≠ .sent id found) :
    Alive (entry :: log) id link ↔ Alive log id link := by
  rw [alive_cons]
  constructor
  · rintro ⟨_, ⟨count, rfl, _⟩ | ⟨_, halive⟩⟩
    · exact absurd trivial hkeeps
    · exact halive
  · intro halive
    refine ⟨fun found hfound => ?_, Or.inr ⟨hkeeps, halive⟩⟩
    rcases List.mem_cons.mp hfound with rfl | hbefore
    · exact hunsent found rfl
    · exact halive.2 found hbefore

namespace Discovery

variable {α L : Type}

/-- The numbers of some datagrams. -/
def idsOf (datagrams : List (DatagramId × α)) : List DatagramId := datagrams.map Prod.fst

/-- The datagrams that are pending are those that live, each once, and what was sent is of the rounds so far. -/
structure Consistent (d : Discovery α L) : Prop where
  alive_iff : ∀ id link, Alive d.log id link ↔ id ∈ idsOf d.rounds.pending ∧ d.rounds.roundHealthy = some link
  nodup : (idsOf d.rounds.pending).Nodup
  sent_lt : ∀ id found, .sent id found ∈ d.log → id.1 < d.begun
  lawful : Lawful AllowedSend d.log
  pending_lt : ∀ id ∈ idsOf d.rounds.pending, id.1 < d.begun

/-- The datagrams of a round are numbered by their places. -/
theorem idsOf_numbered (round : ℕ) (datagrams : List α) :
    idsOf (numbered round datagrams) = (List.range datagrams.length).map fun place => (round, place) := by
  rw [idsOf, numbered, List.map_map, List.range_eq_range', ← List.zipIdx_map_snd 0 datagrams, List.map_map]
  rfl

/-- A number of a round names one of its datagrams. -/
theorem mem_idsOf_numbered {round : ℕ} {datagrams : List α} {id : DatagramId} :
    id ∈ idsOf (numbered round datagrams) ↔ id.1 = round ∧ id.2 < datagrams.length := by
  rw [idsOf_numbered, List.mem_map]
  constructor
  · rintro ⟨place, hplace, rfl⟩
    exact ⟨rfl, List.mem_range.mp hplace⟩
  · rintro ⟨rfl, hplace⟩
    exact ⟨id.2, List.mem_range.mpr hplace, rfl⟩

/-- A datagram lives on behind the answer to it unless it was sent. -/
theorem alive_answerEntries {link other : Bool} {answer : (DatagramId × α) × Bool} {log : List DiscoveryEntry}
    {id : DatagramId} :
    Alive (answerEntries link answer ++ log) id other ↔ Alive log id other ∧ (answer.2 = true → answer.1.1 ≠ id) := by
  rw [answerEntries]
  split
  case isTrue hsent =>
    rw [List.cons_append, List.cons_append, List.nil_append]
    by_cases hid : answer.1.1 = id
    · subst hid
      refine iff_of_false (fun halive => halive.2 link List.mem_cons_self) fun hboth => hboth.2 hsent rfl
    · have hsentKeeps : ¬ Drops other (.sent answer.1.1 link) := fun hdrops => hdrops
      have hchargedKeeps : ¬ Drops other (.charged answer.1.1) := fun hdrops => hdrops
      rw [alive_cons_of_keeps hsentKeeps fun found hsame => hid (DiscoveryEntry.sent.inj hsame).1,
        alive_cons_of_keeps hchargedKeeps fun found hsame => by cases hsame]
      exact (and_iff_left fun _ => hid).symm
  case isFalse hkept =>
    have hkeeps : ¬ Drops other (.refused answer.1.1) := fun hdrops => hdrops
    rw [List.singleton_append, alive_cons_of_keeps hkeeps fun found hsame => by cases hsame]
    exact (and_iff_left fun hsent => absurd hsent hkept).symm

/-- The answers to different datagrams that live: each is logged, and those that are sent are sent as they should. -/
theorem logAnswers_spec {link : Bool} {log : List DiscoveryEntry} {answers : List ((DatagramId × α) × Bool)}
    (hnodup : (idsOf (answers.map Prod.fst)).Nodup) (halive : ∀ answer ∈ answers, Alive log answer.1.1 link)
    (hlawful : Lawful AllowedSend log) :
    Lawful AllowedSend (logAnswers link log answers) ∧
      (∀ id other, Alive (logAnswers link log answers) id other ↔
        Alive log id other ∧ ∀ answer ∈ answers, answer.2 = true → answer.1.1 ≠ id) ∧
      (∀ id found, .sent id found ∈ logAnswers link log answers →
        .sent id found ∈ log ∨ ∃ answer ∈ answers, answer.1.1 = id) ∧
      ∃ new, logAnswers link log answers = new ++ log ∧
        ∀ answer ∈ answers, .charged answer.1.1 ∈ new ∨ .refused answer.1.1 ∈ new := by
  induction answers generalizing log with
  | nil => exact ⟨hlawful, fun id other => by simp [logAnswers], fun id found hsent => Or.inl hsent, [], rfl, by simp⟩
  | cons answer answers ih =>
    rw [List.map_cons, idsOf, List.map_cons, List.nodup_cons] at hnodup
    have hfirst : Alive log answer.1.1 link := halive answer List.mem_cons_self
    have hnext : Lawful AllowedSend (answerEntries link answer ++ log) := by
      rw [answerEntries]
      split
      · exact ⟨⟨log, rfl, hfirst⟩, trivial, hlawful⟩
      · exact ⟨trivial, hlawful⟩
    have hrest (other : (DatagramId × α) × Bool) (hother : other ∈ answers) :
        Alive (answerEntries link answer ++ log) other.1.1 link := by
      refine alive_answerEntries.mpr ⟨halive other (List.mem_cons_of_mem _ hother), fun _ hsame => hnodup.1 ?_⟩
      rw [hsame]
      exact List.mem_map_of_mem (List.mem_map_of_mem hother)
    obtain ⟨hlawful', halive', hsent', new, hnew, hanswered⟩ := ih hnodup.2 hrest hnext
    refine ⟨hlawful', fun id other => ?_, fun id found hsent => ?_, new ++ answerEntries link answer, ?_, ?_⟩
    · rw [logAnswers, List.foldl_cons, ← logAnswers, halive', alive_answerEntries, List.forall_mem_cons, and_assoc]
    · rcases hsent' id found hsent with hin | ⟨other, hother, hid⟩
      · rcases List.mem_append.mp hin with hentry | hbefore
        · refine Or.inr ⟨answer, List.mem_cons_self, ?_⟩
          rw [answerEntries] at hentry
          split at hentry
          · rcases List.mem_cons.mp hentry with hsame | hcharged
            · exact (DiscoveryEntry.sent.inj hsame).1.symm
            · cases List.mem_singleton.mp hcharged
          · cases List.mem_singleton.mp hentry
        · exact Or.inl hbefore
      · exact Or.inr ⟨other, List.mem_cons_of_mem _ hother, hid⟩
    · rw [logAnswers, List.foldl_cons, ← logAnswers, hnew, List.append_assoc]
    · intro other hother
      rcases List.mem_cons.mp hother with rfl | hlater
      · rw [answerEntries]
        split
        · exact Or.inl (List.mem_append_right _ (by simp))
        · exact Or.inr (List.mem_append_right _ (by simp))
      · exact (hanswered other hlater).imp (List.mem_append_left _) (List.mem_append_left _)

/-- Every pending datagram is offered, in its order. -/
theorem offer_fst (tryCharge : L → ℕ → Bool × L) (size : α → ℕ) (ledger : L) (datagrams : List α) :
    (DiscoveryRounds.offer tryCharge size ledger datagrams).1.map Prod.fst = datagrams := by
  induction datagrams generalizing ledger with
  | nil => rfl
  | cons datagram rest ih =>
    rw [DiscoveryRounds.offer, List.map_cons, ih]

variable {tryCharge : L → ℕ → Bool × L} {size : α → ℕ} {d : Discovery α L}

/-- A check: every datagram that lives is charged or refused, and the rounds stay consistent. -/
theorem Consistent.sendPending (h : d.Consistent) : (step tryCharge size d .sendPending).Consistent ∧
    ∃ new, (step tryCharge size d .sendPending).log = new ++ d.log ∧
      ∀ id, Alive d.log id d.link → .charged id ∈ new ∨ .refused id ∈ new := by
  have hpending : ∀ datagram ∈ d.rounds.offered d.link, datagram ∈ d.rounds.pending ∧ d.rounds.roundHealthy = some d.link := by
    intro datagram hin
    rw [DiscoveryRounds.offered] at hin
    split at hin
    case isTrue hsame => exact ⟨hin, hsame⟩
    case isFalse => cases hin
  have hids : (idsOf (d.rounds.offered d.link)).Nodup := by
    rw [DiscoveryRounds.offered]
    split
    · exact h.nodup
    · exact List.nodup_nil
  have hoffered (id : DatagramId) (link : Bool) : Alive (.checked d.link :: d.log) id link ↔
      id ∈ idsOf (d.rounds.offered d.link) ∧ d.rounds.roundHealthy = some link := by
    by_cases hlink : d.link = link
    · subst hlink
      have hkeeps : ¬ Drops d.link (.checked d.link) := fun hdrops => hdrops rfl
      rw [alive_cons_of_keeps hkeeps (fun found hsame => by cases hsame), h.alive_iff, DiscoveryRounds.offered]
      refine and_congr_left fun hsame => ?_
      rw [if_pos hsame]
    · refine iff_of_false (fun halive => ?_) fun ⟨hin, hhealthy⟩ => ?_
      · rcases (alive_cons.mp halive).2 with ⟨count, hbegan, _⟩ | ⟨hkeeps, _⟩
        · cases hbegan
        · exact hkeeps hlink
      · obtain ⟨datagram, hdatagram, _⟩ := List.mem_map.mp hin
        exact hlink (Option.some.inj ((hpending datagram hdatagram).2.symm.trans hhealthy))
  have hfst := offer_fst tryCharge (fun datagram : DatagramId × α => size datagram.2) d.ledger (d.rounds.offered d.link)
  generalize hanswers : (DiscoveryRounds.offer tryCharge (fun datagram : DatagramId × α => size datagram.2) d.ledger
    (d.rounds.offered d.link)).1 = answers at hfst
  have hmem (answer : (DatagramId × α) × Bool) (hin : answer ∈ answers) : answer.1 ∈ d.rounds.offered d.link :=
    hfst ▸ List.mem_map_of_mem hin
  obtain ⟨hlawful, halive, hsent, new, hnew, hanswered⟩ := @logAnswers_spec α d.link (.checked d.link :: d.log) answers
    (by rwa [hfst]) (fun answer hin => (hoffered _ _).mpr ⟨List.mem_map_of_mem (hmem answer hin),
      (hpending _ (hmem answer hin)).2⟩) ⟨trivial, h.lawful⟩
  have hlog : (step tryCharge size d .sendPending).log = logAnswers d.link (.checked d.link :: d.log) answers := by
    rw [← hanswers]
    rfl
  have hstill : (step tryCharge size d .sendPending).rounds.pending =
      (answers.filter fun answer => !answer.2).map Prod.fst := by
    rw [← hanswers]
    rfl
  have hkept (id : DatagramId) : id ∈ idsOf ((answers.filter fun answer => !answer.2).map Prod.fst) ↔
      id ∈ idsOf (d.rounds.offered d.link) ∧ ∀ answer ∈ answers, answer.2 = true → answer.1.1 ≠ id := by
    rw [← hfst, idsOf, idsOf, List.map_map, List.map_map]
    rw [← hfst, idsOf, List.map_map] at hids
    constructor
    · intro hin
      obtain ⟨answer, hanswer, rfl⟩ := List.mem_map.mp hin
      obtain ⟨hin', hrefused⟩ := List.mem_filter.mp hanswer
      refine ⟨List.mem_map_of_mem hin', fun other hother hsent hsame => ?_⟩
      obtain rfl := List.inj_on_of_nodup_map hids hother hin' hsame
      rw [hsent] at hrefused
      cases hrefused
    · rintro ⟨hin, hunsent⟩
      obtain ⟨answer, hanswer, rfl⟩ := List.mem_map.mp hin
      refine List.mem_map_of_mem (List.mem_filter.mpr ⟨hanswer, ?_⟩)
      cases hadmitted : answer.2 with
      | true => exact absurd rfl (hunsent answer hanswer hadmitted)
      | false => rfl
  refine ⟨⟨fun id link => ?_, ?_, fun id found hin => ?_, hlog ▸ hlawful, fun id hin => ?_⟩, new ++ [.checked d.link],
    ?_, ?_⟩
  · rw [hlog, hstill, halive, hkept, hoffered]
    exact and_right_comm
  · rw [hstill]
    rw [← hfst, idsOf, List.map_map] at hids
    rw [idsOf, List.map_map]
    exact (List.filter_sublist.map _).nodup hids
  · rw [hlog] at hin
    rcases hsent id found hin with hbefore | ⟨answer, hanswer, rfl⟩
    · rcases List.mem_cons.mp hbefore with hsame | hbefore
      · cases hsame
      · exact h.sent_lt id found hbefore
    · exact h.pending_lt _ (List.mem_map_of_mem (hpending _ (hmem answer hanswer)).1)
  · rw [hstill] at hin
    obtain ⟨datagram, hdatagram, rfl⟩ := List.mem_map.mp ((hkept id).mp hin).1
    exact h.pending_lt _ (List.mem_map_of_mem (hpending datagram hdatagram).1)
  · rw [hlog, hnew, List.append_assoc, List.singleton_append]
  · intro id hlives
    have hin : id ∈ idsOf (d.rounds.offered d.link) := by
      obtain ⟨hpend, hhealthy⟩ := (h.alive_iff id d.link).mp hlives
      rwa [DiscoveryRounds.offered, if_pos hhealthy]
    rw [← hfst, idsOf, List.map_map] at hin
    obtain ⟨answer, hanswer, rfl⟩ := List.mem_map.mp hin
    exact (hanswered answer hanswer).imp (List.mem_append_left _) (List.mem_append_left _)

/-- Every event keeps the rounds consistent. -/
theorem Consistent.step (h : d.Consistent) (event : DiscoveryEvent α L) : (step tryCharge size d event).Consistent := by
  cases event with
  | setLink healthy =>
    rw [Discovery.step]
    split
    · exact h
    · have hkeeps (link : Bool) : ¬ Drops link .linkChanged := fun hdrops => hdrops
      refine ⟨fun id link => ?_, h.nodup, fun id found hin => ?_, ⟨trivial, h.lawful⟩, h.pending_lt⟩
      · exact (alive_cons_of_keeps (hkeeps link) fun found hsame => by cases hsame).trans (h.alive_iff id link)
      · exact h.sent_lt id found (List.mem_of_ne_of_mem (by simp) hin)
  | ledgerChange change => exact ⟨h.alive_iff, h.nodup, h.sent_lt, h.lawful, h.pending_lt⟩
  | due now => exact h
  | start now datagrams =>
    have hunsent {id : DatagramId} {link : Bool} (hid : id.1 = d.begun) (found : Bool) :
        .sent id found ∉ DiscoveryEntry.began d.begun link datagrams.length :: d.log := by
      intro hin
      have hlt := h.sent_lt id found (List.mem_of_ne_of_mem (by simp) hin)
      omega
    refine ⟨fun id link => ?_, ?_, fun id found hin => ?_, ⟨trivial, h.lawful⟩, fun id hin => ?_⟩
    · change Alive (.began d.begun d.link datagrams.length :: d.log) id link ↔
        id ∈ idsOf (numbered d.begun datagrams) ∧ some d.link = some link
      rw [alive_cons, mem_idsOf_numbered]
      constructor
      · rintro ⟨_, ⟨count, hbegan, hplace⟩ | ⟨hkeeps, _⟩⟩
        · obtain ⟨hround, hlink, rfl⟩ := DiscoveryEntry.began.inj hbegan
          exact ⟨⟨hround.symm, hplace⟩, congrArg some hlink⟩
        · exact absurd trivial hkeeps
      · rintro ⟨⟨hround, hplace⟩, hlink⟩
        refine ⟨hunsent hround, Or.inl ⟨_, ?_, hplace⟩⟩
        rw [hround, Option.some.inj hlink]
    · change (idsOf (numbered d.begun datagrams)).Nodup
      rw [idsOf_numbered]
      exact List.nodup_range.map fun place other hsame => (Prod.ext_iff.mp hsame).2
    · exact (h.sent_lt id found (List.mem_of_ne_of_mem (by simp) hin)).trans (Nat.lt_succ_self _)
    · rw [(mem_idsOf_numbered.mp hin).1]
      exact Nat.lt_succ_self _
  | clear =>
    refine ⟨fun id link => ?_, List.nodup_nil, fun id found hin => ?_, ⟨trivial, h.lawful⟩, fun id hin => by cases hin⟩
    · refine iff_of_false (fun halive => ?_) fun hin => by cases hin.1
      rcases (alive_cons.mp halive).2 with ⟨count, hbegan, _⟩ | ⟨hkeeps, _⟩
      · cases hbegan
      · exact hkeeps trivial
    · exact h.sent_lt id found (List.mem_of_ne_of_mem (by simp) hin)
  | sendPending => exact h.sendPending.1

/-- `GsBeacon.poll` on its rounds: what it calls in silence, when a round is due, and when none is. -/
def pollCalls (quiet : Bool) (now : ℚ) (datagrams : Bool → List α) (d : Discovery α L) : List (DiscoveryEvent α L) :=
  if quiet then [.clear]
  else if d.rounds.due now d.link then [.due now, .start now (datagrams d.link), .sendPending]
  else [.due now, .sendPending]

/-- Every check of the beacon keeps the rounds consistent. -/
theorem Consistent.poll (h : d.Consistent) (quiet : Bool) (now : ℚ) (datagrams : Bool → List α) :
    (run (Discovery.step tryCharge size) d (pollCalls quiet now datagrams d)).Consistent :=
  (holds_of_step (fun _ event h => h.step event) (fun _ h => h) h _).last

/-- The rounds of a new sender are consistent. -/
theorem consistent_new (intervalS healthyIntervalS : ℚ) (ledger : L) :
    (new intervalS healthyIntervalS ledger : Discovery α L).Consistent := by
  refine ⟨fun id link => iff_of_false ?_ fun hin => (by cases hin.1), List.nodup_nil, fun id found hin => (by cases hin),
    trivial, fun id hin => (by cases hin)⟩
  rintro ⟨⟨later, earlier, count, hsplit, _⟩, _⟩
  cases later with
  | nil => cases hsplit
  | cons entry later => cases hsplit

/-- Whatever is called in whatever order, and whatever the ledger refuses: a datagram is sent at most once, right
behind its own charge, in the state of the link in which its round began, and never once a check has found the link
in another state, the rounds were cleared or a newer round has begun. Until then every check offers it again. -/
theorem rounds_law (tryCharge : L → ℕ → Bool × L) (size : α → ℕ) (intervalS healthyIntervalS : ℚ) (ledger : L)
    (events : List (DiscoveryEvent α L)) :
    let d := run (step tryCharge size) (new intervalS healthyIntervalS ledger) events
    Lawful AllowedSend d.log ∧ ∃ new, (step tryCharge size d .sendPending).log = new ++ d.log ∧
      ∀ id, Alive d.log id d.link → .charged id ∈ new ∨ .refused id ∈ new := by
  have hconsistent : (run (step tryCharge size) (new intervalS healthyIntervalS ledger) events).Consistent :=
    (holds_of_step (fun _ event h => h.step event) (fun _ h => h) (consistent_new intervalS healthyIntervalS ledger)
      events).last
  exact ⟨hconsistent.lawful, hconsistent.sendPending.2⟩

/-- No datagram is sent once the link has changed since its round began. -/
def NeverAfterChange (log : List DiscoveryEntry) : Prop :=
  ∀ later earlier between before id link count,
    log = later ++ .sent id link :: earlier → earlier = between ++ .began id.1 link count :: before → .linkChanged ∉ between

/-- A link that changes back and forth between two checks drops nothing: a round that the ledger refused is sent after
the changes. -/
theorem not_neverAfterChange_backAndForth : ¬ ∀ events : List (DiscoveryEvent Unit Bool),
    NeverAfterChange (run (step (fun admits _ => (admits, admits)) fun _ => 0) (new 2 15 false) events).log := by
  intro hnever
  refine hnever [.start 0 [()], .sendPending, .setLink true, .setLink false, .ledgerChange fun _ => true, .sendPending]
    [] ([.charged (0, 0), .checked false, .linkChanged, .linkChanged, .refused (0, 0), .checked false] ++
      [.began 0 false 1])
    [.charged (0, 0), .checked false, .linkChanged, .linkChanged, .refused (0, 0), .checked false] [] (0, 0) false 1
    rfl rfl ?_
  decide

end Discovery

end Coatheal.Ground
