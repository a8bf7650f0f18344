import Mathlib.Data.List.Infix

/-!
# The longest common prefix of two lists

`commonPrefixLen a b` counts the leading positions at which two lists agree. It is the largest `n`
for which both lists have `n` elements and the same first `n` of them (`le_commonPrefixLen_iff`),
and it cuts the lists into a shared part and two remainders that do not start alike
(`exists_common_split`).
-/

namespace CommonPrefix

open List

variable {α : Type} [DecidableEq α]

/-- The number of leading positions at which the lists agree. -/
def commonPrefixLen (a b : List α) : ℕ :=
  ((a.zip b).takeWhile fun p => decide (p.1 = p.2)).length

@[simp] lemma commonPrefixLen_nil_left (b : List α) : commonPrefixLen [] b = 0 := rfl

@[simp] lemma commonPrefixLen_nil_right (a : List α) : commonPrefixLen a [] = 0 := by
  simp [commonPrefixLen]

lemma commonPrefixLen_cons_cons (x y : α) (a b : List α) :
    commonPrefixLen (x :: a) (y :: b) = if x = y then commonPrefixLen a b + 1 else 0 := by
  by_cases h : x = y <;> simp [commonPrefixLen, h]

lemma le_commonPrefixLen_iff {n : ℕ} {a b : List α} :
    n ≤ commonPrefixLen a b ↔ n ≤ a.length ∧ n ≤ b.length ∧ a.take n = b.take n := by
  induction a generalizing b n with
  | nil => simp +contextual
  | cons x a ih =>
    cases b with
    | nil => simp +contextual
    | cons y b =>
      rw [commonPrefixLen_cons_cons]
      cases n with
      | zero => simp
      | succ n =>
        by_cases h : x = y
        · simp [h, ih]
        · simp [h]

lemma commonPrefixLen_le_left (a b : List α) : commonPrefixLen a b ≤ a.length :=
  (le_commonPrefixLen_iff.mp le_rfl).1

lemma commonPrefixLen_le_right (a b : List α) : commonPrefixLen a b ≤ b.length :=
  (le_commonPrefixLen_iff.mp le_rfl).2.1

lemma take_commonPrefixLen (a b : List α) :
    a.take (commonPrefixLen a b) = b.take (commonPrefixLen a b) :=
  (le_commonPrefixLen_iff.mp le_rfl).2.2

lemma commonPrefixLen_append_append (p a b : List α) :
    commonPrefixLen (p ++ a) (p ++ b) = p.length + commonPrefixLen a b := by
  induction p with
  | nil => simp
  | cons x p ih =>
    rw [cons_append, cons_append, commonPrefixLen_cons_cons, if_pos rfl, length_cons]
    omega

/-- A list that the other leaves before its end has the same common prefix when it is extended. -/
lemma commonPrefixLen_append_left {p b : List α} (h : commonPrefixLen p b < p.length)
    (a : List α) : commonPrefixLen (p ++ a) b = commonPrefixLen p b := by
  induction p generalizing b with
  | nil => simp at h
  | cons x p ih =>
    cases b with
    | nil => simp
    | cons y b =>
      rw [cons_append, commonPrefixLen_cons_cons, commonPrefixLen_cons_cons]
      rw [commonPrefixLen_cons_cons] at h
      by_cases hxy : x = y
      · rw [if_pos hxy, if_pos hxy, ih (by simpa [hxy] using h)]
      · rw [if_neg hxy, if_neg hxy]

lemma commonPrefixLen_eq_length_iff {a b : List α} : commonPrefixLen a b = a.length ↔ a <+: b := by
  constructor
  · intro h
    have htake := take_commonPrefixLen a b
    rw [h, take_length] at htake
    exact htake ▸ take_prefix _ _
  · rintro ⟨c, rfl⟩
    have h := commonPrefixLen_append_append a [] c
    simpa using h

/-- The lists split into what they share and two remainders that do not start alike. -/
lemma exists_common_split (a b : List α) :
    ∃ p a' b', a = p ++ a' ∧ b = p ++ b' ∧ p.length = commonPrefixLen a b ∧
      ∀ x ∈ a'.head?, ∀ y ∈ b'.head?, x ≠ y := by
  induction a generalizing b with
  | nil => exact ⟨[], [], b, rfl, rfl, rfl, by simp⟩
  | cons x a ih =>
    cases b with
    | nil => exact ⟨[], x :: a, [], rfl, rfl, by simp, by simp⟩
    | cons y b =>
      by_cases hxy : x = y
      · obtain ⟨p, a', b', ha, hb, hp, hne⟩ := ih b
        refine ⟨x :: p, a', b', by rw [ha, cons_append], by rw [hb, hxy, cons_append],
          ?_, hne⟩
        rw [commonPrefixLen_cons_cons, if_pos hxy, length_cons, hp]
      · refine ⟨[], x :: a, y :: b, rfl, rfl, ?_, by simpa using hxy⟩
        rw [commonPrefixLen_cons_cons, if_neg hxy, length_nil]

end CommonPrefix
