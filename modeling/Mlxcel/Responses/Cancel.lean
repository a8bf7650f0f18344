import Mathlib.Logic.Relation

/-!
# Cancelling a response

`routes/responses.rs` and `responses_store.rs` as seen by one id. The generating task stores its
response and then leaves the in-flight registry; a cancel call looks at the registry first and at the
store afterwards. Each access takes a lock of its own, so other calls run between any two of them.

A cancel call that finds the task in flight and nothing stored answers at once, and nothing keeps the
task from storing a completed response after that.
-/

namespace Mlxcel.Responses

open Relation

inductive ResponseStatus
  | queued
  | inProgress
  | completed
  | failed
  | cancelled
  | incomplete

/-- The accesses that the generating task has behind it. -/
inductive Task
  | generating
  | persisted
  | unregistered

/-- The accesses that a cancel call has behind it. -/
inductive CancelCall
  | checked (inFlightAborted : Bool)
  | found

/-- `inFlight` has the token of the registry and `inner` the stored status. `answered` is not in the
code: some call has answered with the status `cancelled`. -/
structure ResponsesStore where
  inFlight : Option Bool := some false
  inner : Option ResponseStatus := none
  task : Task := .generating
  calls : List CancelCall := []
  answered : Bool := false

/-- One access to one of the maps. Entries expire and are evicted at any time. The generation may
come to any end, cancelled or not. With `careful` a cancel call only looks at the store when the task
has been there. -/
inductive Step (careful : Prop) : ResponsesStore → ResponsesStore → Prop
  | persist {s} (status : ResponseStatus) (h : s.task = .generating) :
      Step careful s { s with inner := some status, task := .persisted }
  | fail {s} (h : s.task = .generating) :
      Step careful s { s with inFlight := none, task := .unregistered }
  | unregisterInFlight {s} (h : s.task = .persisted) :
      Step careful s { s with inFlight := none, task := .unregistered }
  | evict {s} : Step careful s { s with inner := none }
  | cancelInFlight {s} : Step careful s { s with
      inFlight := s.inFlight.map fun _ => true
      calls := .checked s.inFlight.isSome :: s.calls }
  | get {s inFlightAborted calls} (h : s.calls.Perm (.checked inFlightAborted :: calls))
      (hlate : careful → s.task ≠ .generating) : Step careful s
        (match s.inner with
        | some _ => { s with calls := .found :: calls }
        | none => { s with calls, answered := s.answered || inFlightAborted })
  | insert {s calls} (h : s.calls.Perm (.found :: calls)) :
      Step careful s { s with inner := some .cancelled, calls, answered := true }

/-- No call has got to the store before the task. -/
structure Settled (s : ResponsesStore) : Prop where
  early : s.task = .generating → s.answered = false ∧ .found ∉ s.calls
  final : s.answered = true → s.inner ≠ some .completed

lemma Settled.step {s s' : ResponsesStore} (hs : Settled s) (h : Step True s s') : Settled s' := by
  cases h with
  | persist status htask =>
    exact ⟨by simp, fun hanswered => by simp [(hs.early htask).1] at hanswered⟩
  | fail => exact ⟨by simp, hs.final⟩
  | unregisterInFlight => exact ⟨by simp, hs.final⟩
  | evict => exact ⟨hs.early, by simp⟩
  | cancelInFlight => exact ⟨fun htask => by simpa using hs.early htask, hs.final⟩
  | get hcalls hlate =>
    have hlate := hlate trivial
    split
    · exact ⟨fun htask => absurd htask hlate, hs.final⟩
    · rename_i hinner
      exact ⟨fun htask => absurd htask hlate, by simp [hinner]⟩
  | insert hcalls =>
    exact ⟨fun htask => absurd (hcalls.mem_iff.mpr (by simp)) (hs.early htask).2, by simp⟩

/-- **A cancelled response stays cancelled** in the runs in which no call looks too early. -/
theorem cancel_final {s : ResponsesStore} (h : ReflTransGen (Step True) {} s)
    (hanswered : s.answered = true) : s.inner ≠ some .completed := by
  suffices hs : Settled s from hs.final hanswered
  clear hanswered
  induction h with
  | refl => exact ⟨by simp, by simp⟩
  | tail _ hstep ih => exact ih.step hstep

theorem cancel_final_persisted :
    (⟨some true, some .cancelled, .persisted, [], true⟩ : ResponsesStore).inner
      ≠ some .completed :=
  cancel_final (.tail (.tail (.tail (.tail .refl (.persist .completed rfl)) .cancelInFlight)
    (.get (.refl _) fun _ => nofun)) (.insert (.refl _))) rfl

/-- A call is answered before the response is stored. -/
theorem not_cancel_final : ∃ s, ReflTransGen (Step False) {} s ∧
    s.answered = true ∧ s.inner = some .completed :=
  ⟨_, .tail (.tail (.tail .refl .cancelInFlight) (.get (.refl _) False.elim))
    (.persist .completed rfl), rfl, rfl⟩

end Mlxcel.Responses
