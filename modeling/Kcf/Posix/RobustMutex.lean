import Mathlib.Data.Option.Basic
import Kcf.Errno

/-!
# Robust mutexes

The states of a process-shared mutex with the robust attribute.  The next thread
that locks the mutex of a dead owner gets it together with `EOWNERDEAD` and has
to declare it consistent; unlocking it before that makes it unusable for good.
-/

namespace Kcf.Posix

universe u

/-- State of a robust mutex over the threads `Owner`. -/
inductive RobustMutex (Owner : Type u) where
  | free
  | held (owner : Owner)
  /-- locked with `EOWNERDEAD` and not declared consistent yet -/
  | inconsistent (owner : Owner)
  /-- the owner died while it held the lock -/
  | abandoned
  | unrecoverable
  deriving DecidableEq

namespace RobustMutex

variable {Owner : Type u}

/-- The thread that has the lock. -/
def owner : RobustMutex Owner → Option Owner
  | .held owner | .inconsistent owner => some owner
  | .free | .abandoned | .unrecoverable => none

/-- `pthread_mutex_lock`: the new state and the result, or nothing while the
thread has to wait. -/
def lock (thread : Owner) : RobustMutex Owner → Option (RobustMutex Owner × Int)
  | .free => some (.held thread, 0)
  | .abandoned => some (.inconsistent thread, Errno.eownerdead)
  | .unrecoverable => some (.unrecoverable, Errno.enotrecoverable)
  | .held _ | .inconsistent _ => none

/-- `pthread_mutex_unlock` by the thread that has the lock. -/
def unlock : RobustMutex Owner → RobustMutex Owner
  | .held _ => .free
  | .inconsistent _ => .unrecoverable
  | mutex => mutex

/-- A successful `pthread_mutex_consistent`. -/
def consistent : RobustMutex Owner → RobustMutex Owner
  | .inconsistent owner => .held owner
  | mutex => mutex

/-- The death of a thread, wherever it was. -/
def died [DecidableEq Owner] (thread : Owner) (mutex : RobustMutex Owner) : RobustMutex Owner :=
  if mutex.owner = some thread then .abandoned else mutex

/-- What `lock` can do: take a free mutex, inherit a dead owner's, or fail. -/
theorem lock_cases {thread : Owner} {mutex next : RobustMutex Owner} {result : Int}
    (locked : mutex.lock thread = some (next, result)) :
    (mutex = .free ∧ next = .held thread ∧ result = 0) ∨
    (mutex = .abandoned ∧ next = .inconsistent thread ∧ result = Errno.eownerdead) ∨
    (mutex = .unrecoverable ∧ next = .unrecoverable ∧ result = Errno.enotrecoverable) := by
  cases mutex <;> simp_all [lock]

theorem lock_owner {thread : Owner} {mutex next : RobustMutex Owner} {result : Int}
    (locked : mutex.lock thread = some (next, result)) : mutex.owner = none := by
  rcases lock_cases locked with ⟨rfl, _⟩ | ⟨rfl, _⟩ | ⟨rfl, _⟩ <;> rfl

@[simp] theorem unlock_owner (mutex : RobustMutex Owner) : mutex.unlock.owner = none := by
  cases mutex <;> rfl

@[simp] theorem consistent_owner (mutex : RobustMutex Owner) :
    mutex.consistent.owner = mutex.owner := by
  cases mutex <;> rfl

theorem died_owner [DecidableEq Owner] (mutex : RobustMutex Owner) (thread other : Owner) :
    (mutex.died thread).owner = some other ↔ mutex.owner = some other ∧ other ≠ thread := by
  unfold died
  split
  next owned =>
    rw [owned]
    simp only [owner, reduceCtorEq, Option.some.injEq, false_iff, not_and, not_not]
    exact fun same => same.symm
  next other_owner =>
    refine ⟨fun owned => ⟨owned, ?_⟩, fun both => both.1⟩
    rintro rfl
    exact other_owner owned

end RobustMutex

end Kcf.Posix
