import Mathlib.Data.List.Basic
import Mathlib.Tactic.Ring
import Mathlib.Tactic.Linarith

/-!
# Blocks of equal width, and groups of blocks

**Blocks.** A list of indices is read as blocks of one width: `block width i` takes the `i`-th of
them, and `interval width i` is the `i`-th block of `0, 1, 2, …`.

**Groups.** `H` members are shared out over `K` groups in order, `H / K` to a group, so that the
member `m` belongs to the group `m / (H / K)`; and over `T` holders, `H / T` to a holder. The
lemmas say to which group the `j`-th member of a holder belongs when the groups are split over
the holders, and when several holders share one group.
-/

namespace Blocks

open List

variable {α : Type*}

/-- The `i`-th block of a list. -/
def block (width i : ℕ) (l : List α) : List α := (l.drop (i * width)).take width

/-- The indices of the `i`-th block. -/
def interval (width i : ℕ) : List ℕ := range' (i * width) width

lemma interval_injective {width : ℕ} (hwidth : 0 < width) :
    Function.Injective (interval width) := by
  intro i j h
  have hhead : (interval width i).head? = (interval width j).head? := by rw [h]
  simp only [interval, head?_range', if_neg hwidth.ne', Option.some.injEq] at hhead
  exact Nat.eq_of_mul_eq_mul_right hwidth hhead

/-- The blocks of a stretch that starts at a block. -/
lemma block_range' {width i n : ℕ} (s : ℕ) (hi : i < n) :
    block width i (range' (s * width) (n * width)) = interval width (s + i) := by
  have hroom : width ≤ n * width - i * width := by
    obtain ⟨m, rfl⟩ := Nat.exists_eq_add_of_lt hi
    rw [← Nat.sub_mul, show i + m + 1 - i = m + 1 by omega]
    exact Nat.le_mul_of_pos_left _ (Nat.succ_pos m)
  rw [block, drop_range', take_range'_of_length_ge hroom]
  congr 1
  ring

lemma flatMap_interval (width n : ℕ) :
    (range n).flatMap (interval width) = range (n * width) := by
  induction n with
  | zero => simp
  | succ n ih =>
    rw [range_succ, flatMap_append, ih, flatMap_singleton, interval,
      range_eq_range', range_eq_range', Nat.succ_mul, ← range'_append_1,
      zero_add]

section Groups

variable {H K T : ℕ}

/-- When the groups are split over the holders, a holder's members belong to its own groups. -/
lemma group_of_split (hH : 0 < H) (hKH : K ∣ H) (hTH : T ∣ H) (hTK : T ∣ K) (r j : ℕ) :
    (r * (H / T) + j) / (H / K) = r * (K / T) + j / (H / T / (K / T)) := by
  obtain ⟨g, rfl⟩ := hKH
  obtain ⟨k, rfl⟩ := hTK
  obtain ⟨⟨hT, hk⟩, hg⟩ : (0 < T ∧ 0 < k) ∧ 0 < g := by simpa using hH
  have hmembers : T * k * g / T = k * g := by
    rw [mul_assoc, Nat.mul_div_cancel_left _ hT]
  rw [hmembers, Nat.mul_div_cancel_left _ (Nat.mul_pos hT hk), Nat.mul_div_cancel_left _ hT,
    Nat.mul_div_cancel_left _ hk, ← mul_assoc, mul_comm (r * k) g, Nat.mul_add_div hg]

lemma group_lt_of_split (hH : 0 < H) (hKH : K ∣ H) (hTK : T ∣ K) {j : ℕ} (hj : j < H / T) :
    j / (H / T / (K / T)) < K / T := by
  obtain ⟨g, rfl⟩ := hKH
  obtain ⟨k, rfl⟩ := hTK
  obtain ⟨⟨hT, hk⟩, -⟩ : (0 < T ∧ 0 < k) ∧ 0 < g := by simpa using hH
  rw [mul_assoc T k g, Nat.mul_div_cancel_left _ hT] at hj
  rw [mul_assoc T k g, Nat.mul_div_cancel_left _ hT, Nat.mul_div_cancel_left _ hT,
    Nat.mul_div_cancel_left _ hk]
  exact Nat.div_lt_of_lt_mul (by rwa [mul_comm])

/-- When `T / K` holders share a group, all members of a holder belong to that group. -/
lemma group_of_shared (hH : 0 < H) (hTH : T ∣ H) (hKT : K ∣ T) {j : ℕ} (hj : j < H / T) (r : ℕ) :
    (r * (H / T) + j) / (H / K) = r / (T / K) := by
  obtain ⟨m, rfl⟩ := hTH
  obtain ⟨n, rfl⟩ := hKT
  obtain ⟨⟨hK, hn⟩, hm⟩ : (0 < K ∧ 0 < n) ∧ 0 < m := by simpa using hH
  rw [Nat.mul_div_cancel_left _ (Nat.mul_pos hK hn)] at hj
  rw [Nat.mul_div_cancel_left _ (Nat.mul_pos hK hn), mul_assoc K n m,
    Nat.mul_div_cancel_left _ hK, Nat.mul_div_cancel_left _ hK, mul_comm n m,
    ← Nat.div_div_eq_div_mul, mul_comm r m, Nat.mul_add_div hm, Nat.div_eq_of_lt hj, add_zero]

/-- With two groups and two holders or more, the last holder does not start in the first group. -/
lemma group_last_pos (hH : 0 < H) (hKH : K ∣ H) (hTH : T ∣ H) (hK : 2 ≤ K) (hT : 2 ≤ T) :
    0 < (T - 1) * (H / T) / (H / K) := by
  obtain ⟨m, rfl⟩ := hTH
  obtain ⟨g, hg⟩ := hKH
  have hgpos : 0 < g := Nat.pos_of_ne_zero (by rintro rfl; simp [hg] at hH)
  rw [Nat.mul_div_cancel_left _ (by omega), hg, Nat.mul_div_cancel_left _ (by omega)]
  refine Nat.div_pos ?_ hgpos
  -- both `g` and `m` are at most half of `T * m = K * g`
  obtain ⟨t, rfl⟩ := Nat.exists_eq_add_of_le hT
  rw [show 2 + t - 1 = t + 1 by omega]
  nlinarith

end Groups

end Blocks
