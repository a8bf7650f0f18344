import Mathlib.Data.List.Infix

/-!
# Scanning a text for delimiters

A `Table` is a list of delimiters over an arbitrary alphabet, each with a label, none of which
is empty or occurs inside another. Scanning a text cuts it, from left to right, into the symbols
outside delimiters and the labels of the delimiters met (`Table.tokens`).

**Reading in pieces.** A reader that has only seen the first part of a text can already cut off
* everything before a delimiter that it has seen completely (`Table.tokens_found`), and
* everything before the first suffix that may still grow into a delimiter (`Table.tokens_safe`),

whatever the rest of the text is. Both rest on no delimiter hiding inside another one.
-/

namespace Scanner

open List

variable {α κ : Type*}

/-- Delimiters with labels: none is empty, and none occurs inside another. -/
structure Table (α κ : Type*) where
  /-- The delimiters with their labels. -/
  entries : List (List α × κ)
  ne_nil : ∀ d ∈ entries, d.1 ≠ []
  factorFree : ∀ d ∈ entries, ∀ e ∈ entries, d.1 <:+: e.1 → d = e

variable [DecidableEq α] (T : Table α κ)

namespace Table

/-- The delimiter that a text starts with, if any. -/
def matchAt (s : List α) : Option (List α × κ) := T.entries.find? fun d => d.1.isPrefixOf s

/-- **The scan.** Symbols outside delimiters, and labels of delimiters; the first argument counts
the symbols of the current delimiter that are still to be skipped. -/
def scanFrom : ℕ → List α → List (α ⊕ κ)
  | _, [] => []
  | skip + 1, _ :: s => scanFrom skip s
  | 0, a :: s =>
    match T.matchAt (a :: s) with
    | some d => .inr d.2 :: scanFrom (d.1.length - 1) s
    | none => .inl a :: scanFrom 0 s

/-- The tokens of a text. -/
def tokens (s : List α) : List (α ⊕ κ) := T.scanFrom 0 s

variable {T}

/-! ## The delimiter at one place -/

variable {s : List α}

lemma matchAt_eq_none : T.matchAt s = none ↔ ∀ d ∈ T.entries, ¬ d.1 <+: s := by
  simp [matchAt]

variable {d : List α × κ}

lemma mem_of_matchAt (h : T.matchAt s = some d) :
    d ∈ T.entries ∧ d.1 <+: s := by
  have hsome := find?_some (p := fun d : List α × κ => d.1.isPrefixOf s) h
  exact ⟨mem_of_find?_eq_some h, isPrefixOf_iff_prefix.mp hsome⟩

/-- At most one delimiter starts at a place, because it would be part of the other one. -/
lemma matchAt_eq_some :
    T.matchAt s = some d ↔ d ∈ T.entries ∧ d.1 <+: s := by
  refine ⟨mem_of_matchAt, ?_⟩
  rintro ⟨hd, hs⟩
  cases he : T.matchAt s with
  | none => exact absurd hs (matchAt_eq_none.mp he d hd)
  | some e =>
    obtain ⟨hmem, hpre⟩ := mem_of_matchAt he
    rcases prefix_or_prefix_of_prefix hpre hs with hed | hde
    · rw [T.factorFree e hmem d hd hed.isInfix]
    · rw [T.factorFree d hd e hmem hde.isInfix]

/-! ## Tokens -/

lemma scanFrom_eq (n : ℕ) (s : List α) : T.scanFrom n s = T.tokens (s.drop n) := by
  induction s generalizing n with
  | nil => simp [scanFrom, tokens]
  | cons a s ih =>
    cases n with
    | zero => rfl
    | succ n => rw [scanFrom, ih, drop_succ_cons]

@[simp] lemma tokens_nil : T.tokens [] = [] := rfl

lemma tokens_cons_of_none {a : α} (h : T.matchAt (a :: s) = none) :
    T.tokens (a :: s) = .inl a :: T.tokens s := by
  rw [tokens, scanFrom, h, tokens]

lemma tokens_entry (hd : d ∈ T.entries) (s : List α) :
    T.tokens (d.1 ++ s) = .inr d.2 :: T.tokens s := by
  have hmatch : T.matchAt (d.1 ++ s) = some d := matchAt_eq_some.mpr ⟨hd, prefix_append _ _⟩
  cases hword : d.1 with
  | nil => exact absurd hword (T.ne_nil d hd)
  | cons a w =>
    rw [hword, cons_append] at hmatch
    rw [cons_append, tokens, scanFrom, hmatch]
    simp [hword, scanFrom_eq]

/-- Symbols at which no delimiter starts are tokens of their own. -/
lemma tokens_append_of_none {u v : List α}
    (h : ∀ i < u.length, T.matchAt ((u ++ v).drop i) = none) :
    T.tokens (u ++ v) = u.map .inl ++ T.tokens v := by
  induction u with
  | nil => rfl
  | cons a u ih =>
    have hhead : T.matchAt (a :: (u ++ v)) = none := h 0 (by simp)
    rw [cons_append, tokens_cons_of_none hhead, ih, map_cons, cons_append]
    intro i hi
    exact h (i + 1) (by simpa using hi)

/-! ## Reading in pieces -/

omit [DecidableEq α] in
/-- A delimiter that starts inside what was read and does not fit continues all of it. -/
lemma prefix_of_not_prefix_append {d s v : List α} (h : d <+: s ++ v) (hs : ¬ d <+: s) : s <+: d :=
  (List.prefix_or_prefix_of_prefix h (prefix_append s v)).resolve_left hs

/-- **A complete delimiter is final.** If no delimiter starts before `d` in what was read, then
none will, however the text goes on: it would have `d` inside. -/
theorem tokens_found (hd : d ∈ T.entries) {u rest : List α}
    (h : ∀ i < u.length, T.matchAt ((u ++ (d.1 ++ rest)).drop i) = none) (v : List α) :
    T.tokens (u ++ (d.1 ++ rest) ++ v) = u.map .inl ++ .inr d.2 :: T.tokens (rest ++ v) := by
  rw [append_assoc, append_assoc, ← tokens_entry hd]
  refine tokens_append_of_none fun i hi => ?_
  rw [matchAt_eq_none]
  intro e he hmatch
  have hi' : i ≤ u.length := hi.le
  rw [← append_assoc, ← append_assoc, append_assoc u,
    drop_append_of_le_length (by simp; omega)] at hmatch
  have hcont := prefix_of_not_prefix_append hmatch (matchAt_eq_none.mp (h i hi) e he)
  rw [drop_append_of_le_length hi'] at hcont
  have hinside : d.1 <:+: e.1 :=
    .trans ⟨u.drop i, rest, by simp⟩ hcont.isInfix
  have hlen := hcont.length_le
  rw [T.factorFree d hd e he hinside] at hlen
  simp only [length_append, length_drop] at hlen
  omega

/-- **What cannot grow into a delimiter is final.** If no delimiter starts in `u` within what was
read, and no suffix that starts in `u` can grow into one, then none will. -/
theorem tokens_safe {u held : List α}
    (hnone : ∀ i < u.length, T.matchAt ((u ++ held).drop i) = none)
    (hgrow : ∀ i < u.length, ∀ d ∈ T.entries, ¬ (u ++ held).drop i <+: d.1) (v : List α) :
    T.tokens (u ++ held ++ v) = u.map .inl ++ T.tokens (held ++ v) := by
  rw [append_assoc]
  refine tokens_append_of_none fun i hi => ?_
  rw [matchAt_eq_none]
  intro e he hmatch
  rw [← append_assoc, drop_append_of_le_length (by simp; omega)] at hmatch
  exact hgrow i hi e he
    (prefix_of_not_prefix_append hmatch (matchAt_eq_none.mp (hnone i hi) e he))

end Table

end Scanner
