import Coatheal.Library.Run

/-!
# What is kept of repeated attempts

A source is asked again and again, and each attempt gives a value or fails. What
is kept is the value of the last success, when it was, and whether the last
attempt was one. A value counts as current while the last attempt was a success
and its moment is recent.
-/

namespace Coatheal.Library

variable {α β τ σ ι : Type*}

/-- An attempt: its answer, if there was one, and its moment. -/
structure Attempt (α τ : Type*) where
  answer : Option α
  moment : τ

/-- The same attempt, of which only a part of the answer matters. -/
def Attempt.part (pick : α → Option β) (attempt : Attempt α τ) : Attempt β τ := ⟨attempt.answer.bind pick, attempt.moment⟩

/-- The value and the moment of the last success. -/
def lastSuccess (attempts : List (Attempt α τ)) : Option (α × τ) :=
  attempts.foldl (fun last attempt => (attempt.answer.map fun value => (value, attempt.moment)).or last) none

/-- The last attempt was a success. -/
def lastSucceeded (attempts : List (Attempt α τ)) : Bool := attempts.getLast?.any fun attempt => attempt.answer.isSome

/-- The value of the last attempt, if it was a recent success. -/
def current (recent : τ → Bool) (attempts : List (Attempt α τ)) : Option α :=
  attempts.getLast?.bind fun attempt => attempt.answer.filter fun _ => recent attempt.moment

/-- One more attempt. -/
theorem lastSuccess_concat (attempts : List (Attempt α τ)) (attempt : Attempt α τ) :
    lastSuccess (attempts ++ [attempt]) =
      (attempt.answer.map fun value => (value, attempt.moment)).or (lastSuccess attempts) := by
  rw [lastSuccess, List.foldl_concat]
  rfl

theorem lastSucceeded_concat (attempts : List (Attempt α τ)) (attempt : Attempt α τ) :
    lastSucceeded (attempts ++ [attempt]) = attempt.answer.isSome := by
  rw [lastSucceeded, List.getLast?_concat]
  rfl

/-- After a success of the last attempt its value is the one of the last success. -/
theorem lastSuccess_of_lastSucceeded {attempts : List (Attempt α τ)} (h : lastSucceeded attempts = true) :
    ∃ value moment, attempts.getLast? = some ⟨some value, moment⟩ ∧ lastSuccess attempts = some (value, moment) := by
  rcases List.eq_nil_or_concat attempts with rfl | ⟨earlier, ⟨answer, moment⟩, rfl⟩
  · exact absurd h Bool.false_ne_true
  · rw [List.concat_eq_append, lastSucceeded_concat, Option.isSome_iff_exists] at h
    obtain ⟨value, rfl⟩ := h
    refine ⟨value, moment, by simp, ?_⟩
    rw [List.concat_eq_append, lastSuccess_concat]
    rfl

/-- A value is current when the last attempt was a success and the last success is recent. -/
theorem isSome_current (recent : τ → Bool) (attempts : List (Attempt α τ)) :
    (current recent attempts).isSome =
      (lastSucceeded attempts && (lastSuccess attempts).any fun last => recent last.2) := by
  cases hlast : lastSucceeded attempts with
  | true =>
    obtain ⟨value, moment, hget, hsuccess⟩ := lastSuccess_of_lastSucceeded hlast
    rw [current, hget, hsuccess]
    cases hrecent : recent moment <;> simp [hrecent]
  | false =>
    rw [lastSucceeded] at hlast
    rw [current, Bool.false_and]
    cases hget : attempts.getLast? with
    | none => rfl
    | some attempt =>
      rw [hget, Option.any_some, Option.isSome_eq_false_iff, Option.isNone_iff_eq_none] at hlast
      rw [Option.bind_some, hlast]
      rfl

/-- A current value is the one of the last success. -/
theorem lastSuccess_of_current {recent : τ → Bool} {attempts : List (Attempt α τ)} {value : α}
    (h : current recent attempts = some value) :
    ∃ moment, lastSuccess attempts = some (value, moment) ∧ recent moment = true := by
  have hsome := isSome_current recent attempts
  rw [h, Option.isSome_some] at hsome
  have hlast := (Bool.and_eq_true_iff.mp hsome.symm).1
  obtain ⟨shown, moment, hget, hsuccess⟩ := lastSuccess_of_lastSucceeded hlast
  rw [current, hget, Option.bind_some, Option.filter_eq_some_iff] at h
  obtain ⟨hvalue, hrecent⟩ := h
  obtain rfl := Option.some.inj hvalue
  exact ⟨moment, hsuccess, hrecent⟩

/-- A part of an answer that is always there is current with the answer. -/
theorem current_part (recent : τ → Bool) (pick : α → β) (attempts : List (Attempt α τ)) :
    current recent (attempts.map (Attempt.part fun answer => some (pick answer))) = (current recent attempts).map pick := by
  rw [current, current, List.getLast?_map]
  cases attempts.getLast? with
  | none => rfl
  | some attempt =>
    cases hanswer : attempt.answer with
    | none => simp [Attempt.part, hanswer]
    | some value =>
      simp only [Option.map_some, Option.bind_some, Attempt.part, hanswer]
      cases recent attempt.moment with
      | true => rfl
      | false => rfl

/-- What is observed on the way of a run, each observation in the state before its step. -/
def observations (step : σ → ι → σ) (observe : σ → ι → Option β) : σ → List ι → List β
  | _, [] => []
  | state, input :: inputs => (observe state input).toList ++ observations step observe (step state input) inputs

/-- A state that represents what was observed so far does so after a run, as soon as each step keeps it so. -/
theorem represents_run {step : σ → ι → σ} {observe : σ → ι → Option β} {represents : σ → List β → Prop}
    (hstep : ∀ state seen input, represents state seen → represents (step state input) (seen ++ (observe state input).toList))
    {start : σ} (hstart : represents start []) (inputs : List ι) :
    represents (run step start inputs) (observations step observe start inputs) := by
  have hfrom (state : σ) (seen : List β) (h : represents state seen) :
      represents (run step state inputs) (seen ++ observations step observe state inputs) := by
    induction inputs generalizing state seen with
    | nil => simpa [observations] using h
    | cons input inputs ih =>
      have hrest := ih (step state input) _ (hstep state seen input h)
      rwa [List.append_assoc] at hrest
  exact hfrom start [] hstart

end Coatheal.Library
