import Mlxcel.Lib.Delimited

/-!
# Reading a byte string at fixed offsets

`slice l start len` is what stands in `l` from `start` on, `len` symbols long.

**Taking apart.** A string is the concatenation of its slices (`slice_append_slice`,
`flatMap_slice`), so that a reader that looks at all of them loses nothing.

**Putting together.** In a concatenation, the slices at the right offsets are the parts
(`slice_front`, `slice_skip`, `slice_append_left`).
-/

namespace Slices

open List Delimited

variable {α : Type*}

def slice (l : List α) (start len : ℕ) : List α := (l.drop start).take len

lemma length_slice {l : List α} {start len : ℕ} (h : start + len ≤ l.length) :
    (slice l start len).length = len := by
  rw [slice, length_take, length_drop]
  omega

lemma slice_append_slice (l : List α) (start m n : ℕ) :
    slice l start m ++ slice l (start + m) n = slice l start (m + n) := by
  rw [slice, slice, slice, ← drop_drop, take_add]

lemma slice_front {l m : List α} {len : ℕ} (h : l.length = len) : slice (l ++ m) 0 len = l := by
  rw [slice, drop_zero, take_left' h]

lemma slice_skip {l m : List α} {n : ℕ} (start len : ℕ) (h : l.length = n) :
    slice (l ++ m) (n + start) len = slice m start len := by
  rw [slice, slice, ← drop_drop, drop_left' h]

lemma slice_append_left {l m : List α} {start len : ℕ} (h : start + len ≤ l.length) :
    slice (l ++ m) start len = slice l start len := by
  rw [slice, slice, drop_append_of_le_length (by omega), take_append_of_le_length]
  rw [length_drop]
  omega

lemma flatMap_slice_range (l : List α) (start w n : ℕ) :
    (List.range n).flatMap (fun i => slice l (start + i * w) w) = slice l start (n * w) := by
  induction n with
  | zero => simp [slice]
  | succ n ih =>
    rw [range_succ, flatMap_append, ih, flatMap_singleton, slice_append_slice, Nat.succ_mul]

/-- A string is made of its slices of one width. -/
lemma flatMap_slice {l : List α} {start w n : ℕ} (h : l.length = start + n * w) :
    (List.range n).flatMap (fun i => slice l (start + i * w) w) = l.drop start := by
  rw [flatMap_slice_range]
  refine take_of_length_le ?_
  rw [length_drop]
  omega

lemma leBytes_leNat {bytes : List UInt8} {w : ℕ} (h : bytes.length = w) :
    leBytes w (leNat bytes) = bytes := by
  induction bytes generalizing w with
  | nil =>
    subst h
    rfl
  | cons b bytes ih =>
    subst h
    have hmod : (b.toNat + 256 * leNat bytes) % 256 = b.toNat := by
      have := b.toNat_lt
      omega
    have hdiv : (b.toNat + 256 * leNat bytes) / 256 = leNat bytes := by
      omega
    rw [length_cons, leNat, leBytes, hmod, hdiv, ih rfl, UInt8.ofNat_toNat]

end Slices
