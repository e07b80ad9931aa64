import Mathlib.Logic.Basic

/-!
# The motion lock

One motor at a time may hold the lock, and only its holder can free it. The
heaters are inhibited while it is held. The holder is an optional motor, where
the source writes -1 for no motor.
-/

namespace Coatheal.Motion

variable {ι : Type*}

/-- The lock shared by all motors and the heater scheduler. -/
structure MotionLock (ι : Type*) where
  holder : Option ι
deriving DecidableEq, Repr

namespace MotionLock

/-- A free lock. -/
def free : MotionLock ι := ⟨none⟩

/-- Take the lock for a motor, if nobody holds it, this motor included. -/
def tryAcquire (lock : MotionLock ι) (motor : ι) : Bool × MotionLock ι :=
  match lock.holder with
  | some _ => (false, lock)
  | none => (true, ⟨some motor⟩)

/-- Free the lock if this motor holds it. -/
def release [DecidableEq ι] (lock : MotionLock ι) (motor : ι) : MotionLock ι :=
  if lock.holder = some motor then ⟨none⟩ else lock

/-- Some motor holds the lock. -/
def isActive (lock : MotionLock ι) : Bool := lock.holder.isSome

/-- A motor gets the lock exactly when it was free, and holds it then. -/
theorem tryAcquire_eq_true {lock after : MotionLock ι} {motor : ι}
    (h : lock.tryAcquire motor = (true, after)) : lock.holder = none ∧ after.holder = some motor := by
  unfold tryAcquire at h
  cases hholder : lock.holder with
  | some other => simp [hholder] at h
  | none =>
    simp only [hholder, Prod.mk.injEq, true_and] at h
    exact ⟨rfl, by rw [← h]⟩

/-- A release takes the lock from its own motor and from nobody else. -/
theorem release_holder [DecidableEq ι] (lock : MotionLock ι) (motor : ι) :
    (lock.release motor).holder = if lock.holder = some motor then none else lock.holder := by
  unfold release
  split
  · rfl
  · rfl

/-- Releasing twice is releasing once. -/
theorem release_release [DecidableEq ι] (lock : MotionLock ι) (motor : ι) :
    (lock.release motor).release motor = lock.release motor := by
  unfold release
  by_cases h : lock.holder = some motor
  · simp [h]
  · simp [h]

end MotionLock

end Coatheal.Motion
