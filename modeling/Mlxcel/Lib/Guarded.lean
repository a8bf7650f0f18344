import Mathlib.Data.List.Basic
import Mathlib.Algebra.Ring.Nat
import Mathlib.Tactic.NormNum

/-!
# Machine arithmetic, and computations that may fail, panic and ask for resources

**Machine integers.** Integers of 32 bits are integers that are wrapped after each operation, and a
cast to an unsigned integer of 64 bits is a remainder. Where all values fit, both do nothing.

**Computations.** A computation of `Comp ω ε α` ends with a value, with an error it reports, or in a panic, and logs
the amounts that it asked its surroundings for on the way. The panicking primitives are those of a
language with checked slices and checked machine arithmetic: `slice`, `index`, `add`, `mul`.

**The logic.** `Safe asks post x` says that `x` does not panic, that everything it asks for
satisfies `asks`, and that a value it returns satisfies `post`. There is one rule for each
combinator, so that a proof of safety follows the text of the program, and `Safe.bind` composes
them.

**Evaluation.** `bind_result` and the lemmas about the primitives compute the result of a run whose
checks are known to pass.
-/

namespace MachineInt

/-- The integer of 32 bits that a value is cut to. -/
def asI32 (x : ℤ) : ℤ := (Int32.ofInt x).toInt

/-- The unsigned integer of 64 bits that a value is cut to. -/
def asUsize (x : ℤ) : ℕ := (x % 2 ^ 64).toNat

/-- A quotient that is rounded up. -/
def divCeil (a b : ℕ) : ℕ := (a + b - 1) / b

lemma asI32_of_bounds {x : ℤ} (hlow : -(2 ^ 31) ≤ x) (hhigh : x < 2 ^ 31) : asI32 x = x :=
  Int32.toInt_ofInt_of_le hlow hhigh

lemma asI32_asI32 (x : ℤ) : asI32 (asI32 x) = asI32 x := by
  unfold asI32
  rw [Int32.ofInt_toInt]

lemma asI32_natCast {n : ℕ} (h : n < 2 ^ 31) : asI32 (n : ℤ) = n :=
  asI32_of_bounds (by omega) (by exact_mod_cast h)

lemma asI32_sub {m n : ℕ} (hle : n ≤ m) (h : m < 2 ^ 31) :
    asI32 ((m : ℤ) - n) = ((m - n : ℕ) : ℤ) := by
  rw [← Nat.cast_sub hle]
  exact asI32_natCast (lt_of_le_of_lt (Nat.sub_le _ _) h)

lemma asUsize_natCast {n : ℕ} (h : n < 2 ^ 64) : asUsize (n : ℤ) = n := by
  unfold asUsize
  omega

end MachineInt

namespace Guarded

variable {ω ε α β γ : Type}

/-- How a computation ends without a value. -/
inductive Fault (ε : Type)
  | error (e : ε)
  | panic
deriving Repr, DecidableEq

/-- The amounts a computation asked for, and how it ended. -/
structure Comp (ω ε α : Type) where
  asked : List ω
  result : Except (Fault ε) α

namespace Comp

/-- A value, at no cost. -/
protected def pure (a : α) : Comp ω ε α := ⟨[], .ok a⟩

/-- One computation after another. -/
protected def bind (x : Comp ω ε α) (f : α → Comp ω ε β) : Comp ω ε β :=
  match x.result with
  | .ok a => ⟨x.asked ++ (f a).asked, (f a).result⟩
  | .error e => ⟨x.asked, .error e⟩

instance : Monad (Comp ω ε) where
  pure := Comp.pure
  bind := Comp.bind

/-- An error. -/
def bail (e : ε) : Comp ω ε α := ⟨[], .error (.error e)⟩

/-- A panic. -/
def panicked : Comp ω ε α := ⟨[], .error .panic⟩

/-- Ask the surroundings for an amount. -/
def ask (w : ω) : Comp ω ε Unit := ⟨[w], .ok ()⟩

/-- Go on only if a check passes. -/
def ensure (c : Prop) [Decidable c] (e : ε) : Comp ω ε Unit := if c then pure () else bail e

/-- A value that may be missing, with the error that reports it. -/
def orBail (x : Option α) (e : ε) : Comp ω ε α :=
  match x with
  | some a => pure a
  | none => bail e

/-- The same computation with its errors rewritten. -/
def mapError (f : ε → ε) (x : Comp ω ε α) : Comp ω ε α :=
  match x.result with
  | .error (.error e) => ⟨x.asked, .error (.error (f e))⟩
  | _ => x

/-- The bytes from `lo` up to `hi`. -/
def slice (buf : List β) (lo hi : ℕ) : Comp ω ε (List β) :=
  if lo ≤ hi ∧ hi ≤ buf.length then pure ((buf.drop lo).take (hi - lo)) else panicked

/-- The element at a position. -/
def index (buf : List β) (i : ℕ) : Comp ω ε β :=
  match buf[i]? with
  | some b => pure b
  | none => panicked

/-- A sum of two machine words of 64 bits. -/
def add (a b : ℕ) : Comp ω ε ℕ := if a + b < 2 ^ 64 then pure (a + b) else panicked

/-- A product of two machine words of 64 bits. -/
def mul (a b : ℕ) : Comp ω ε ℕ := if a * b < 2 ^ 64 then pure (a * b) else panicked

/-- A loop that computes one value for each element of a list. -/
def each (f : α → Comp ω ε β) : List α → Comp ω ε (List β)
  | [] => pure []
  | a :: as => do
    let b ← f a
    let bs ← each f as
    pure (b :: bs)

/-! ## Evaluation -/

@[simp] lemma pure_result (a : α) : (pure a : Comp ω ε α).result = .ok a := rfl

@[simp] lemma bail_result (e : ε) : (bail e : Comp ω ε α).result = .error (.error e) := rfl

@[simp] lemma ask_result (w : ω) : (ask w : Comp ω ε Unit).result = .ok () := rfl

lemma bind_result (x : Comp ω ε α) (f : α → Comp ω ε β) :
    (x >>= f).result = x.result.bind fun a => (f a).result := by
  change (Comp.bind x f).result = _
  unfold Comp.bind
  cases x.result <;> rfl

variable {x : Comp ω ε α} {f : α → Comp ω ε β}

lemma bind_result_of_ok {a : α} (hx : x.result = .ok a) : (x >>= f).result = (f a).result := by
  rw [bind_result, hx]
  rfl

lemma bind_result_of_error {e : Fault ε} (hx : x.result = .error e) :
    (x >>= f).result = .error e := by
  rw [bind_result, hx]
  rfl

/-- A computation that ends with a value had its first part end with one. -/
lemma bind_ok {b : β} (h : (x >>= f).result = .ok b) :
    ∃ a, x.result = .ok a ∧ (f a).result = .ok b := by
  rw [bind_result] at h
  cases hx : x.result with
  | error e => rw [hx] at h; cases h
  | ok a => exact ⟨a, rfl, by rwa [hx] at h⟩

/-- The same, in both directions. -/
lemma bind_eq_ok {b : β} :
    (x >>= f).result = .ok b ↔ ∃ a, x.result = .ok a ∧ (f a).result = .ok b :=
  ⟨bind_ok, fun ⟨_, hx, hf⟩ => (bind_result_of_ok hx).trans hf⟩

/-- A guarded value is returned only past its guard. -/
lemma guard_eq_ok {c : Prop} [Decidable c] {a b : α} {e : Fault ε} :
    (if c then pure a else ⟨[], .error e⟩ : Comp ω ε α).result = .ok b ↔ c ∧ a = b := by
  split <;> simp [*]

lemma ensure_result {c : Prop} [Decidable c] {e : ε} (hc : c) :
    (ensure c e : Comp ω ε Unit).result = .ok () := by
  simp [ensure, hc]

lemma ensure_result_of_not {c : Prop} [Decidable c] {e : ε} (hc : ¬c) :
    (ensure c e : Comp ω ε Unit).result = .error (.error e) := by
  simp [ensure, hc]

@[simp] lemma orBail_some_result (a : α) (e : ε) :
    (orBail (some a) e : Comp ω ε α).result = .ok a := rfl

lemma orBail_eq_ok {x : Option α} {a : α} {e : ε} :
    (orBail x e : Comp ω ε α).result = .ok a ↔ x = some a := by
  cases x <;> simp [orBail]

lemma mapError_result_of_ok {f : ε → ε} {a : α} (hx : x.result = .ok a) :
    (mapError f x).result = .ok a := by
  unfold mapError
  rw [hx]
  exact hx

lemma slice_result {buf : List β} {lo hi : ℕ} (h : lo ≤ hi) (hhi : hi ≤ buf.length) :
    (slice buf lo hi : Comp ω ε (List β)).result = .ok ((buf.drop lo).take (hi - lo)) := by
  simp [slice, h, hhi]

lemma slice_middle {u v w : List β} {lo hi : ℕ} (hlo : lo = u.length)
    (hhi : hi = u.length + v.length) :
    (slice (u ++ v ++ w) lo hi : Comp ω ε (List β)).result = .ok v := by
  subst hlo hhi
  rw [slice_result (by omega) (by simp)]
  simp

lemma index_result {buf : List β} {i : ℕ} {b : β} (h : buf[i]? = some b) :
    (index buf i : Comp ω ε β).result = .ok b := by
  simp [index, h]

lemma add_result {a b : ℕ} (h : a + b < 2 ^ 64) : (add a b : Comp ω ε ℕ).result = .ok (a + b) := by
  unfold add
  rw [if_pos h]
  rfl

lemma add_ok {a b c : ℕ} (h : (add a b : Comp ω ε ℕ).result = .ok c) : a + b < 2 ^ 64 := by
  by_contra hge
  rw [add, if_neg hge] at h
  cases h

lemma mul_result {a b : ℕ} (h : a * b < 2 ^ 64) : (mul a b : Comp ω ε ℕ).result = .ok (a * b) := by
  unfold mul
  rw [if_pos h]
  rfl

lemma each_result {g : α → β} {as : List α} (h : ∀ a ∈ as, (f a).result = .ok (g a)) :
    (each f as).result = .ok (as.map g) := by
  induction as with
  | nil => rfl
  | cons a as ih =>
    rw [each, bind_result_of_ok (h a (by simp)),
      bind_result_of_ok (ih fun b hb => h b (by simp [hb]))]
    rfl

/-! ## The logic of safe computations -/

/-- **Safety.** No panic, every amount asked for is one of `asks`, and a value satisfies `post`. -/
structure Safe (asks : ω → Prop) (post : α → Prop) (x : Comp ω ε α) : Prop where
  asked : ∀ w ∈ x.asked, asks w
  noPanic : x.result ≠ .error .panic
  value : ∀ a, x.result = .ok a → post a

namespace Safe

variable {asks : ω → Prop} {post post' : α → Prop}

lemma mono (hx : Safe asks post x) (h : ∀ a, post a → post' a) :
    Safe asks post' x :=
  ⟨hx.asked, hx.noPanic, fun a ha => h a (hx.value a ha)⟩

/-- What is known of a value includes where it came from. -/
lemma withResult (hx : Safe asks post x) :
    Safe asks (fun a => x.result = .ok a ∧ post a) x :=
  ⟨hx.asked, hx.noPanic, fun a ha => ⟨ha, hx.value a ha⟩⟩

protected lemma pure {a : α} (h : post a) : Safe asks post (pure a : Comp ω ε α) where
  asked := by intro w hw; cases hw
  noPanic := by intro hp; cases hp
  value := by intro b hb; cases hb; exact h

protected lemma bail {e : ε} : Safe asks post (bail e : Comp ω ε α) where
  asked := by intro w hw; cases hw
  noPanic := by intro hp; cases hp
  value := by intro b hb; cases hb

protected lemma ask {w : ω} (hw : asks w) : Safe asks (fun _ => True) (ask w : Comp ω ε Unit) where
  asked := by intro v hv; rw [List.mem_singleton.mp hv]; exact hw
  noPanic := by intro hp; cases hp
  value := by intro b _; trivial

/-- The rule of composition: what follows is safe for every value the first part can return. -/
protected lemma bind {x : Comp ω ε α} {f : α → Comp ω ε β} {post' : β → Prop}
    (hx : Safe asks post x) (hf : ∀ a, post a → Safe asks post' (f a)) :
    Safe asks post' (x >>= f) := by
  have hbind : x >>= f = .bind x f := rfl
  rw [hbind]
  unfold Comp.bind
  cases hres : x.result with
  | ok a =>
    have ha := hf a (hx.value a hres)
    refine ⟨fun w hw => ?_, ha.noPanic, ha.value⟩
    rcases List.mem_append.mp hw with h | h
    · exact hx.asked w h
    · exact ha.asked w h
  | error e =>
    exact ⟨hx.asked, fun hp => hx.noPanic (by cases hp; exact hres), fun b hb => by cases hb⟩

protected lemma ensure {c : Prop} [Decidable c] {e : ε} :
    Safe asks (fun _ => c) (ensure c e : Comp ω ε Unit) := by
  unfold ensure
  split
  · exact .pure ‹_›
  · exact .bail

protected lemma orBail {x : Option α} {e : ε} :
    Safe asks (fun a => x = some a) (orBail x e : Comp ω ε α) := by
  cases x with
  | none => exact .bail
  | some a => exact .pure rfl

protected lemma mapError {f : ε → ε} {x : Comp ω ε α} (hx : Safe asks post x) :
    Safe asks post (mapError f x) := by
  unfold mapError
  split
  · exact ⟨hx.asked, (by intro hp; cases hp), (by intro a ha; cases ha)⟩
  · exact hx

protected lemma slice {buf : List β} {lo hi : ℕ} (h : lo ≤ hi) (hhi : hi ≤ buf.length) :
    Safe asks (fun out => out = (buf.drop lo).take (hi - lo) ∧ out.length = hi - lo)
      (slice buf lo hi : Comp ω ε (List β)) := by
  unfold slice
  rw [if_pos ⟨h, hhi⟩]
  refine .pure ⟨rfl, ?_⟩
  simp
  omega

protected lemma index {buf : List β} {i : ℕ} (h : i < buf.length) :
    Safe asks (fun b => buf[i]? = some b) (index buf i : Comp ω ε β) := by
  unfold index
  rw [List.getElem?_eq_getElem h]
  exact .pure rfl

protected lemma add {a b : ℕ} (h : a + b < 2 ^ 64) :
    Safe asks (fun r => r = a + b) (add a b : Comp ω ε ℕ) := by
  unfold add
  rw [if_pos h]
  exact .pure rfl

protected lemma mul {a b : ℕ} (h : a * b < 2 ^ 64) :
    Safe asks (fun r => r = a * b) (mul a b : Comp ω ε ℕ) := by
  unfold mul
  rw [if_pos h]
  exact .pure rfl

/-- The rule of loops over a list: each round is safe, and the values stand in the rounds' order. -/
protected lemma each {f : α → Comp ω ε β} {post' : α → β → Prop} {as : List α}
    (h : ∀ a ∈ as, Safe asks (post' a) (f a)) :
    Safe asks (fun bs => List.Forall₂ post' as bs) (each f as) := by
  induction as with
  | nil => exact .pure .nil
  | cons a as ih =>
    refine (h a (by simp)).bind fun b hb => ?_
    refine (ih fun c hc => h c (by simp [hc])).bind fun bs hbs => ?_
    exact .pure (.cons hb hbs)

end Safe

end Comp

end Guarded
