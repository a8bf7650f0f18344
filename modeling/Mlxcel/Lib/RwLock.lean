import Mathlib.Logic.Function.Basic

/-!
# A readers-writer lock

`RwLock P` records in which mode every process of `P` holds a lock. The exclusion that the lock
provides is a field of the structure: next to an exclusive holder there is no other holder. The
two ways of acquiring ask for what the lock waits for, so an invalid state cannot be built.
-/

/-- How a lock can be held. -/
inductive LockMode
  | shared | exclusive
deriving DecidableEq, Repr

/-- Who holds a readers-writer lock. -/
structure RwLock (P : Type*) where
  mode : P → Option LockMode
  exclusion : ∀ p q, mode p = some .exclusive → mode q ≠ none → q = p

namespace RwLock

open Function

variable {P : Type*}

/-- The lock that nobody holds. -/
def free : RwLock P := ⟨fun _ => none, fun _ _ h => absurd h (by simp)⟩

variable [DecidableEq P]

def acquireExclusive (l : RwLock P) (p : P) (h : ∀ q, l.mode q = none) : RwLock P where
  mode := update l.mode p (some .exclusive)
  exclusion := by
    intro q r hq hr
    have hheld : ∀ t, update l.mode p (some LockMode.exclusive) t ≠ none → t = p := by
      intro t ht
      by_contra hne
      rw [update_of_ne hne] at ht
      exact ht (h t)
    rw [hheld q (by rw [hq]; simp), hheld r hr]

def acquireShared (l : RwLock P) (p : P) (h : ∀ q, l.mode q ≠ some .exclusive) : RwLock P where
  mode := update l.mode p (some .shared)
  exclusion := by
    intro q r hq _
    by_cases hqp : q = p
    · rw [hqp, update_self] at hq
      simp at hq
    · rw [update_of_ne hqp] at hq
      exact absurd hq (h q)

def release (l : RwLock P) (p : P) : RwLock P where
  mode := update l.mode p none
  exclusion := by
    intro q r hq hr
    have hqp : q ≠ p := by
      rintro rfl
      rw [update_self] at hq
      simp at hq
    have hrp : r ≠ p := by
      rintro rfl
      rw [update_self] at hr
      simp at hr
    rw [update_of_ne hqp] at hq
    rw [update_of_ne hrp] at hr
    exact l.exclusion q r hq hr

variable (l : RwLock P) {p q : P}

@[simp] lemma acquireExclusive_mode_self (h) :
    (l.acquireExclusive p h).mode p = some .exclusive :=
  update_self ..

@[simp] lemma acquireShared_mode_self (h) : (l.acquireShared p h).mode p = some .shared :=
  update_self ..

lemma acquireExclusive_mode_of_ne (h) (hq : q ≠ p) :
    (l.acquireExclusive p h).mode q = l.mode q :=
  update_of_ne hq ..

lemma acquireShared_mode_of_ne (h) (hq : q ≠ p) : (l.acquireShared p h).mode q = l.mode q :=
  update_of_ne hq ..

lemma release_mode_of_ne (hq : q ≠ p) : (l.release p).mode q = l.mode q :=
  update_of_ne hq ..

end RwLock
