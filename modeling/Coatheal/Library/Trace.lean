import Mathlib.Data.List.Basic

/-!
# Logs and what each entry allows

A log lists what happened, the newest entry first. `AfterEach` says what must
have come since every occurrence of an entry, and `Lawful` that every entry was
allowed by the log before it.
-/

namespace Coatheal.Library

variable {α : Type*}

/-- Since every occurrence of an entry, the newer part of the log meets a condition. -/
def AfterEach (excuse : List α → Prop) (mark : α) (log : List α) : Prop :=
  ∀ since older, log = since ++ mark :: older → excuse since

/-- A condition on what came since is still met after one more entry. -/
def Growing (excuse : List α → Prop) : Prop := ∀ entry since, excuse since → excuse (entry :: since)

/-- The newest entry is the entry in question, with nothing since, or came since all the others. -/
theorem afterEach_cons {excuse : List α → Prop} {mark entry : α} {log : List α} :
    AfterEach excuse mark (entry :: log) ↔
      (entry = mark → excuse []) ∧ AfterEach (fun since => excuse (entry :: since)) mark log := by
  constructor
  · intro h
    refine ⟨fun heq => h [] log (by rw [heq, List.nil_append]), fun since older hlog => ?_⟩
    exact h (entry :: since) older (by rw [hlog, List.cons_append])
  · rintro ⟨hnow, hrest⟩ since older hlog
    cases since with
    | nil => exact hnow (List.cons.inj hlog).1
    | cons first since =>
      obtain ⟨rfl, htail⟩ := List.cons.inj hlog
      exact hrest since older htail

/-- A weaker condition is met as well. -/
theorem AfterEach.mono {excuse weaker : List α → Prop} {mark : α} {log : List α}
    (himp : ∀ since, excuse since → weaker since) (h : AfterEach excuse mark log) :
    AfterEach weaker mark log :=
  fun since older hlog => himp since (h since older hlog)

/-- Another entry does no harm to a growing condition. -/
theorem AfterEach.cons {excuse : List α → Prop} {mark entry : α} {log : List α}
    (h : AfterEach excuse mark log) (hgrow : Growing excuse) (hne : entry ≠ mark) :
    AfterEach excuse mark (entry :: log) :=
  afterEach_cons.mpr ⟨fun heq => absurd heq hne, h.mono (hgrow entry)⟩

/-- Other entries do no harm to a growing condition. -/
theorem AfterEach.append {excuse : List α → Prop} {mark : α} {log entries : List α}
    (h : AfterEach excuse mark log) (hgrow : Growing excuse) (hnotin : mark ∉ entries) :
    AfterEach excuse mark (entries ++ log) := by
  induction entries with
  | nil => exact h
  | cons entry entries ih =>
    have hne : entry ≠ mark := fun heq => hnotin (heq ▸ List.mem_cons_self)
    exact (ih fun hmem => hnotin (List.mem_cons_of_mem _ hmem)).cons hgrow hne

/-- Every entry was allowed by the log before it. -/
def Lawful (allowed : α → List α → Prop) : List α → Prop
  | [] => True
  | entry :: log => allowed entry log ∧ Lawful allowed log

/-- A log can be checked against its law. -/
instance decidableLawful {allowed : α → List α → Prop} [∀ entry log, Decidable (allowed entry log)] :
    (log : List α) → Decidable (Lawful allowed log)
  | [] => inferInstanceAs (Decidable True)
  | entry :: log =>
    have : Decidable (Lawful allowed log) := decidableLawful log
    inferInstanceAs (Decidable (allowed entry log ∧ Lawful allowed log))

/-- Entries that are always allowed keep a log lawful. -/
theorem Lawful.append {allowed : α → List α → Prop} {log entries : List α} (h : Lawful allowed log)
    (hentries : ∀ entry ∈ entries, ∀ before, allowed entry before) :
    Lawful allowed (entries ++ log) := by
  induction entries with
  | nil => exact h
  | cons entry entries ih =>
    exact ⟨hentries entry List.mem_cons_self _,
      ih fun e he => hentries e (List.mem_cons_of_mem _ he)⟩

/-- The newest entries, so many of them, meet a condition. -/
def Newest (count : ℕ) (test : α → Prop) (log : List α) : Prop :=
  count ≤ log.length ∧ ∀ entry ∈ log.take count, test entry

instance (count : ℕ) (test : α → Prop) [DecidablePred test] (log : List α) : Decidable (Newest count test log) :=
  inferInstanceAs (Decidable (count ≤ log.length ∧ ∀ entry ∈ log.take count, test entry))

/-- No entry has to meet anything. -/
theorem newest_zero (test : α → Prop) (log : List α) : Newest 0 test log := ⟨Nat.zero_le _, by simp⟩

/-- One more entry that meets the condition. -/
theorem Newest.cons {count : ℕ} {test : α → Prop} {log : List α} {entry : α} (h : Newest count test log)
    (hentry : test entry) : Newest (count + 1) test (entry :: log) :=
  ⟨Nat.succ_le_succ h.1, List.forall_mem_cons.mpr ⟨hentry, h.2⟩⟩

/-- Fewer of the newest entries meet it as well. -/
theorem Newest.of_le {count fewer : ℕ} {test : α → Prop} {log : List α} (h : Newest count test log)
    (hle : fewer ≤ count) : Newest fewer test log :=
  ⟨Nat.le_trans hle h.1, fun entry hentry => h.2 entry (List.take_subset_take_left log hle hentry)⟩

/-- A weaker condition is met as well. -/
theorem Newest.mono {count : ℕ} {test weaker : α → Prop} {log : List α} (h : Newest count test log)
    (himp : ∀ entry ∈ log.take count, test entry → weaker entry) : Newest count weaker log :=
  ⟨h.1, fun entry hentry => himp entry hentry (h.2 entry hentry)⟩

end Coatheal.Library
