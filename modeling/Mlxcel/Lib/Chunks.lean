import Mathlib.Data.List.Basic
import Mathlib.Data.Nat.Basic

/-!
# Fixed-size chunks of a list

`chunks n l` cuts `l` into consecutive pieces of `n` elements, the last one possibly shorter. The
pieces are given by their position, so that every fact below is read off one lemma,
`getElem?_chunks`: the piece at index `i` is `(l.drop (i * n)).take n`, and it exists exactly when
`i * n < l.length`.
-/

namespace Chunks

open List

variable {α : Type*}

/-- The consecutive pieces of `n` elements of `l`; the last one may be shorter. -/
def chunks (n : ℕ) (l : List α) : List (List α) :=
  (List.range ((l.length + n - 1) / n)).map fun i => (l.drop (i * n)).take n

lemma length_chunks (n : ℕ) (l : List α) : (chunks n l).length = (l.length + n - 1) / n := by
  simp [chunks]

variable {n : ℕ}

lemma lt_length_chunks_iff (hn : 0 < n) (l : List α) (i : ℕ) :
    i < (chunks n l).length ↔ i * n < l.length := by
  rw [length_chunks, Nat.lt_div_iff_mul_lt hn]
  omega

lemma getElem?_chunks (hn : 0 < n) (l : List α) (i : ℕ) :
    (chunks n l)[i]? = if i * n < l.length then some ((l.drop (i * n)).take n) else none := by
  split_ifs with h
  · have hi := (lt_length_chunks_iff hn l i).mpr h
    rw [length_chunks] at hi
    simp [chunks, hi]
  · rw [getElem?_eq_none]
    exact Nat.le_of_not_lt fun hi => h ((lt_length_chunks_iff hn l i).mp hi)

lemma length_le_of_mem_chunks {l c : List α} (hc : c ∈ chunks n l) : c.length ≤ n := by
  obtain ⟨i, _, rfl⟩ := mem_map.mp hc
  exact length_take_le n _

/-- An element of `l` sits in the chunk that its index points to. -/
lemma getElem?_eq_bind_chunks (hn : 0 < n) (l : List α) (t : ℕ) :
    l[t]? = (chunks n l)[t / n]?.bind fun piece => piece[t % n]? := by
  have ht : t / n * n + t % n = t := Nat.div_add_mod' t n
  rw [getElem?_chunks hn]
  split_ifs with h
  · rw [Option.bind_some, getElem?_take_of_lt (Nat.mod_lt t hn), getElem?_drop, ht]
  · rw [Option.bind_none, getElem?_eq_none]
    omega

/-- Lists that agree on their first `k` chunks agree on their first `k * n` elements. -/
lemma take_eq_of_chunks_eq (hn : 0 < n) {l m : List α} {k : ℕ}
    (h : ∀ j < k, (chunks n l)[j]? = (chunks n m)[j]?) : l.take (k * n) = m.take (k * n) := by
  apply ext_getElem?
  intro t
  by_cases ht : t < k * n
  · rw [getElem?_take_of_lt ht, getElem?_take_of_lt ht, getElem?_eq_bind_chunks hn l,
      getElem?_eq_bind_chunks hn m, h (t / n) (Nat.div_lt_of_lt_mul (by rwa [Nat.mul_comm]))]
  · rw [getElem?_take_eq_none (Nat.le_of_not_lt ht),
      getElem?_take_eq_none (Nat.le_of_not_lt ht)]

lemma eq_of_chunks_eq (hn : 0 < n) {l m : List α} (h : chunks n l = chunks n m) :
    l = m := by
  apply ext_getElem?
  intro t
  rw [getElem?_eq_bind_chunks hn l, getElem?_eq_bind_chunks hn m, h]

/-- Lists that agree on their first `(j + 1) * n` elements have the same chunk at index `j`. -/
lemma chunks_eq_of_take_eq (hn : 0 < n) {l m : List α} {j : ℕ}
    (h : l.take ((j + 1) * n) = m.take ((j + 1) * n)) : (chunks n l)[j]? = (chunks n m)[j]? := by
  have hpiece : ∀ u : List α, (u.drop (j * n)).take n = (u.take ((j + 1) * n)).drop (j * n) := by
    intro u
    rw [drop_take, Nat.succ_mul, Nat.add_sub_cancel_left]
  have hlen : ∀ u : List α, j * n < u.length ↔ j * n < (u.take ((j + 1) * n)).length := by
    intro u
    rw [length_take, Nat.succ_mul]
    omega
  have hboth : j * n < l.length ↔ j * n < m.length := by rw [hlen l, hlen m, h]
  rw [getElem?_chunks hn, getElem?_chunks hn, hpiece l, hpiece m, h]
  simp only [hboth]

/-- Rows of one length, one after another. -/
lemma getElem?_flatten (hn : 0 < n) {rows : List (List α)} (h : ∀ row ∈ rows, row.length = n)
    (t : ℕ) :
    rows.flatten[t]? = rows[t / n]?.bind fun row => row[t % n]? := by
  induction rows generalizing t with
  | nil => simp
  | cons row rows ih =>
    have hrow : row.length = n := h row mem_cons_self
    rw [flatten_cons]
    by_cases ht : t < n
    · rw [getElem?_append_left (hrow ▸ ht), Nat.div_eq_of_lt ht, Nat.mod_eq_of_lt ht]
      rfl
    · have hle := Nat.le_of_not_lt ht
      rw [getElem?_append_right (hrow ▸ hle), hrow,
        ih (fun row hmem => h row (mem_cons_of_mem _ hmem)), Nat.div_eq_sub_div hn hle,
        Nat.mod_eq_sub_mod hle, getElem?_cons_succ]

end Chunks
