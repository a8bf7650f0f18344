import Mathlib.Algebra.Ring.Nat
import Mathlib.Data.List.Basic
import Mathlib.Data.List.Flatten
import Mathlib.Data.Set.Function

/-!
# Self-delimiting encoders

A byte string built by concatenating fields can be read back only if every field says where it
ends. This file develops that notion for encoders `f : α → List β` over an arbitrary alphabet:
`SelfDelimitingOn s f` says that for values of `s` the encoding is determined by any string that
starts with it.

**Rules.**
* `SelfDelimitingOn.of_length_eq` — fields of one fixed width;
* `append_cons_inj_of_notMem` — a field closed by a symbol that it never contains;
* `SelfDelimitingOn.flatMap` — a list of fields whose length is known.

**Numbers.** `leBytes w n` is the `w`-byte little-endian rendering of `n`, and `leNat` reads one
back; `beBytes` and `beNat` are the same in the other order. Below `256 ^ w` the rendering is a
fixed-width field.
-/

namespace Delimited

open List

variable {α α' β : Type*}

/-- On the values of `s`, a string that starts with `f a` determines both `a` and the rest. -/
def SelfDelimitingOn (s : Set α) (f : α → List β) : Prop :=
  ∀ a ∈ s, ∀ b ∈ s, ∀ x y : List β, f a ++ x = f b ++ y → a = b ∧ x = y

/-- Encodings of one fixed width are self-delimiting as soon as they are injective. -/
lemma SelfDelimitingOn.of_length_eq {s : Set α} {f : α → List β} (n : ℕ)
    (hlen : ∀ a, (f a).length = n) (hinj : Set.InjOn f s) : SelfDelimitingOn s f := by
  intro a ha b hb x y h
  obtain ⟨hab, hxy⟩ := append_inj h (by rw [hlen, hlen])
  exact ⟨hinj ha hb hab, hxy⟩

/-- A string splits in one way at its first `t`. -/
lemma append_cons_inj_of_notMem {t : β} {u v x y : List β} (hu : t ∉ u) (hv : t ∉ v)
    (h : u ++ t :: x = v ++ t :: y) : u = v ∧ x = y := by
  induction u generalizing v with
  | nil =>
    cases v with
    | nil => simpa using h
    | cons c v => exact absurd (by simp at h; simp [h.1]) hv
  | cons c u ih =>
    cases v with
    | nil => exact absurd (by simp at h; simp [h.1]) hu
    | cons d v =>
      simp only [cons_append, List.cons.injEq] at h
      obtain ⟨rfl, rfl⟩ := ih (not_mem_of_not_mem_cons hu)
        (not_mem_of_not_mem_cons hv) h.2
      exact ⟨by rw [h.1], rfl⟩

/-- Lists of self-delimiting fields are read back field by field once their lengths agree. -/
lemma SelfDelimitingOn.flatMap {s : Set α} {f : α → List β} (hf : SelfDelimitingOn s f) :
    ∀ {l m : List α} {x y : List β}, (∀ a ∈ l, a ∈ s) → (∀ a ∈ m, a ∈ s) →
      l.length = m.length → l.flatMap f ++ x = m.flatMap f ++ y → l = m ∧ x = y := by
  intro l
  induction l with
  | nil =>
    intro m x y _ _ hlen h
    obtain rfl : m = [] := by simpa using hlen.symm
    exact ⟨rfl, by simpa using h⟩
  | cons a l ih =>
    intro m x y hl hm hlen h
    cases m with
    | nil => simp at hlen
    | cons b m =>
      simp only [flatMap_cons, List.append_assoc] at h
      obtain ⟨rfl, hrest⟩ := hf a (hl a (by simp)) b (hm b (by simp)) _ _ h
      obtain ⟨rfl, rfl⟩ := ih (fun c hc => hl c (by simp [hc]))
        (fun c hc => hm c (by simp [hc])) (by simpa using hlen) hrest
      exact ⟨rfl, rfl⟩

/-! ## Little-endian numbers -/

/-- The `w`-byte little-endian rendering of `n`, which keeps the low `8 * w` bits. -/
def leBytes : ℕ → ℕ → List UInt8
  | 0, _ => []
  | w + 1, n => UInt8.ofNat (n % 256) :: leBytes w (n / 256)

/-- The number that a little-endian byte string renders. -/
def leNat : List UInt8 → ℕ
  | [] => 0
  | b :: bs => b.toNat + 256 * leNat bs

@[simp] lemma length_leBytes (w n : ℕ) : (leBytes w n).length = w := by
  induction w generalizing n with
  | zero => rfl
  | succ w ih => simp [leBytes, ih]

lemma leNat_leBytes (w n : ℕ) : leNat (leBytes w n) = n % 256 ^ w := by
  induction w generalizing n with
  | zero => simp [leBytes, leNat, Nat.mod_one]
  | succ w ih =>
    simp only [leBytes, leNat, ih]
    rw [Nat.pow_succ', Nat.mod_mul]
    simp

lemma leNat_lt (bs : List UInt8) : leNat bs < 256 ^ bs.length := by
  induction bs with
  | nil => simp [leNat]
  | cons b bs ih =>
    have hb : b.toNat < 256 := b.toNat_lt
    simp only [leNat, length_cons]
    omega

lemma leBytes_injOn (w : ℕ) : Set.InjOn (leBytes w) {n | n < 256 ^ w} := by
  intro a ha b hb h
  have hab := congrArg leNat h
  rwa [leNat_leBytes, leNat_leBytes, Nat.mod_eq_of_lt ha, Nat.mod_eq_of_lt hb] at hab

/-- Below `256 ^ w` the `w`-byte rendering is a fixed-width field. -/
lemma leBytes_selfDelimitingOn (w : ℕ) : SelfDelimitingOn {n | n < 256 ^ w} (leBytes w) :=
  .of_length_eq w (length_leBytes w) (leBytes_injOn w)

lemma leNat_leBytes_of_lt {w n : ℕ} (h : n < 256 ^ w) : leNat (leBytes w n) = n := by
  rw [leNat_leBytes, Nat.mod_eq_of_lt h]

/-! ## Big-endian numbers -/

/-- The `w`-byte big-endian rendering of `n`. -/
def beBytes (w n : ℕ) : List UInt8 := (leBytes w n).reverse

/-- The number that a big-endian byte string renders. -/
def beNat (bs : List UInt8) : ℕ := leNat bs.reverse

@[simp] lemma length_beBytes (w n : ℕ) : (beBytes w n).length = w := by
  simp [beBytes]

lemma beNat_beBytes_of_lt {w n : ℕ} (h : n < 256 ^ w) : beNat (beBytes w n) = n := by
  rw [beNat, beBytes, reverse_reverse, leNat_leBytes_of_lt h]

end Delimited
