import Mathlib.Data.Nat.Notation
import Mathlib.Data.Sum.Basic

/-!
# Calls that change a state and may fail, and loops

**Calls.** A call is a computation in `ExceptT ε (StateM σ)`: it returns a value or an error, and what it has
changed stays changed when it fails. `on x s` is what the call `x` returns on the state `s`,
together with the state that it leaves. The lemmas evaluate `on` along the steps of a call. What is
asked of every call of a run, after those before it, is taken apart at the first call
(`forall_calls_cons`) and passes to the runs that the run starts with (`forall_calls_append`).

**Loops.** A loop is a body that either goes on with a new state or leaves with a result.
`Loop.run` gives it a number of rounds. `Loop.run_of_variant` is the rule of total correctness: an
invariant that the body keeps and a number that every round makes smaller give a result as soon as
the rounds outnumber it.
-/

namespace Calls

variable {ε σ α β : Type}

/-- What a call returns, and the state that it leaves. -/
def on (x : ExceptT ε (StateM σ) α) (s : σ) : Except ε α × σ := ExceptT.run x s

/-- The second call runs on the state that the first one left, if that one returned a value. -/
lemma on_bind (x : ExceptT ε (StateM σ) α) (f : α → ExceptT ε (StateM σ) β) (s : σ) :
    on (x >>= f) s = match on x s with
      | (.ok a, s') => on (f a) s'
      | (.error e, s') => (.error e, s') := by
  have hbind : on (x >>= f) s
      = (fun p : Except ε α × σ => (ExceptT.bindCont f p.1 : StateM σ (Except ε β)) p.2)
          (on x s) := rfl
  rw [hbind]
  obtain ⟨e | a, s'⟩ := on x s
  · rfl
  · rfl

@[simp] lemma on_get (s : σ) : on (get : ExceptT ε (StateM σ) σ) s = (.ok s, s) := rfl

@[simp] lemma on_lift (x : Except ε α) (s : σ) :
    on (liftM x : ExceptT ε (StateM σ) α) s = (x, s) := by
  cases x with
  | error e => rfl
  | ok a => rfl

lemma on_get_bind (f : σ → ExceptT ε (StateM σ) β) (s : σ) : on (get >>= f) s = on (f s) s := rfl

lemma on_bind_eq_ok {x : ExceptT ε (StateM σ) α} {f : α → ExceptT ε (StateM σ) β} {s s' : σ}
    {b : β} : on (x >>= f) s = (.ok b, s') ↔
      ∃ a t, on x s = (.ok a, t) ∧ on (f a) t = (.ok b, s') := by
  rw [on_bind]
  obtain ⟨e | a, t⟩ := on x s
  · simp
  · constructor
    · intro h
      exact ⟨a, t, rfl, h⟩
    · rintro ⟨_, _, ⟨⟩, h⟩
      exact h

section Cases

variable {s s' : σ} {out : Except ε β}

lemma on_throw_cases {e : ε} (h : on (throw e : ExceptT ε (StateM σ) β) s = (out, s')) :
    ∃ e, out = .error e ∧ s' = s := by
  obtain ⟨rfl, rfl⟩ := Prod.mk.inj h
  exact ⟨e, rfl, rfl⟩

/-- A step that reads or writes nothing of the state fails, or the call goes on with its value. -/
lemma on_lift_bind_cases {x : Except ε α} {f : α → ExceptT ε (StateM σ) β}
    (h : on (liftM x >>= f) s = (out, s')) :
    (∃ e, out = .error e ∧ s' = s) ∨ ∃ a, x = .ok a ∧ on (f a) s = (out, s') := by
  cases x with
  | error e => exact .inl (on_throw_cases h)
  | ok a => exact .inr ⟨a, rfl, h⟩

end Cases

section Runs

open List

variable {κ : Type*} {call : κ} {calls more : List κ} {p : List κ → κ → Prop}

lemma forall_calls_cons :
    (∀ before x after, call :: calls = before ++ x :: after → p before x) ↔
      p [] call ∧ ∀ before x after, calls = before ++ x :: after → p (call :: before) x := by
  constructor
  · intro h
    refine ⟨h [] call calls rfl, fun before x after hcalls => h (call :: before) x after ?_⟩
    rw [hcalls, cons_append]
  · rintro ⟨hfirst, hrest⟩ (_ | ⟨y, before⟩) x after hcalls
    · rwa [← (cons.inj hcalls).1]
    · rw [← (cons.inj hcalls).1]
      exact hrest before x after (cons.inj hcalls).2

lemma forall_calls_append (h : ∀ before x after, calls ++ more = before ++ x :: after → p before x) :
    ∀ before x after, calls = before ++ x :: after → p before x := by
  intro before x after hcalls
  exact h before x (after ++ more) (by rw [hcalls, append_assoc, cons_append])

end Runs

end Calls

namespace Loop

variable {σ ρ : Type*}

/-- At most `fuel` rounds; `none` when they were not enough. -/
def run (body : σ → σ ⊕ ρ) : ℕ → σ → Option ρ
  | 0, _ => none
  | fuel + 1, s =>
    match body s with
    | .inl s' => run body fuel s'
    | .inr r => some r

/-- **Total correctness of a loop.** -/
theorem run_of_variant {body : σ → σ ⊕ ρ} (inv : σ → Prop) (variant : σ → ℕ) {post : ρ → Prop}
    (hround : ∀ s, inv s →
      Sum.elim (fun s' => inv s' ∧ variant s' < variant s) post (body s))
    {s : σ} (hs : inv s) {fuel : ℕ} (hfuel : variant s < fuel) :
    ∃ r, run body fuel s = some r ∧ post r := by
  induction fuel generalizing s with
  | zero => omega
  | succ fuel ih =>
    have h := hround s hs
    rw [run]
    cases hbody : body s with
    | inl s' =>
      rw [hbody] at h
      obtain ⟨hs', hlt⟩ := h
      exact ih hs' (by omega)
    | inr r =>
      rw [hbody] at h
      exact ⟨r, rfl, h⟩

end Loop
