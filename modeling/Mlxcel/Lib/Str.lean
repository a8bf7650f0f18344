import Mathlib.Algebra.Ring.Nat
import Mathlib.Data.List.Infix
import Mathlib.Data.List.DropRight

/-!
# Searching a text

Texts are lists over an arbitrary alphabet, and an offset is the number of symbols before it.

* `find p s` is the offset of the leftmost occurrence of `p` in `s`, with its two rules
  `find_eq_some` and `find_eq_none`;
* `contains p s` says that there is one, which is `p <:+: s`;
* `replace p r s` puts `r` for the occurrences of `p`, from left to right, without looking at what
  this joins;
* `trim` cuts white space off both ends, and `lines` cuts a text at its line ends.
-/

namespace Str

open List Option

variable {α : Type*} [DecidableEq α]

instance decidableMem (w : List α) (ws : List (List α)) : Decidable (w ∈ ws) :=
  List.instDecidableMemOfLawfulBEq w ws

/-- The offset of the leftmost occurrence of `p`. -/
def find (p : List α) : List α → Option ℕ
  | [] => if p = [] then some 0 else none
  | a :: s => if p.isPrefixOf (a :: s) then some 0 else (find p s).map (· + 1)

/-- Whether `p` occurs at all. -/
def contains (p s : List α) : Bool := (find p s).isSome

lemma find_cons_of_isPrefix {p s : List α} {a : α} (h : p <+: a :: s) : find p (a :: s) = some 0 := by
  rw [find, if_pos (List.isPrefixOf_iff_prefix.mpr h)]

lemma find_cons_of_not_isPrefix {p s : List α} {a : α} (h : ¬ p <+: a :: s) :
    find p (a :: s) = (find p s).map (· + 1) := by
  rw [find, if_neg (fun hp => h (List.isPrefixOf_iff_prefix.mp hp))]

/-- **Absence.** `find` fails exactly when no suffix starts with the pattern. -/
lemma find_eq_none {p s : List α} : find p s = none ↔ ∀ i, i ≤ s.length → ¬ p <+: s.drop i := by
  induction s with
  | nil => by_cases hp : p = [] <;> simp [find]
  | cons a s ih =>
    by_cases h : p <+: a :: s
    · rw [find_cons_of_isPrefix h]
      simp only [reduceCtorEq, false_iff, not_forall, not_not]
      exact ⟨0, Nat.zero_le _, h⟩
    · rw [find_cons_of_not_isPrefix h, map_eq_none_iff, ih]
      constructor
      · intro hs i hi
        cases i with
        | zero => exact h
        | succ i => simpa using hs i (by simpa using hi)
      · intro hs i hi
        simpa using hs (i + 1) (by simpa using hi)

/-- **Presence.** The offset found is an occurrence, and none starts before it. -/
lemma find_eq_some {p s : List α} {i : ℕ} :
    find p s = some i ↔ i ≤ s.length ∧ p <+: s.drop i ∧ ∀ j < i, ¬ p <+: s.drop j := by
  induction s generalizing i with
  | nil =>
    by_cases hp : p = []
    · simp only [find, hp, if_true, some.injEq, length_nil]
      constructor
      · rintro rfl
        simp
      · rintro ⟨hi, -⟩
        omega
    · simp [find, hp]
  | cons a s ih =>
    by_cases h : p <+: a :: s
    · rw [find_cons_of_isPrefix h, some.injEq]
      constructor
      · rintro rfl
        simpa using h
      · rintro ⟨-, -, hj⟩
        by_contra hi
        exact hj 0 (by omega) h
    · rw [find_cons_of_not_isPrefix h]
      cases i with
      | zero => simp [h]
      | succ i =>
        simp only [map_eq_some_iff, Nat.add_right_cancel_iff, exists_eq_right, ih,
          length_cons, Nat.add_le_add_iff_right]
        refine and_congr_right fun _ => and_congr_right fun _ => ?_
        constructor
        · intro hs j hj
          cases j with
          | zero => exact h
          | succ j => simpa using hs j (by omega)
        · intro hs j hj
          simpa using hs (j + 1) (by omega)

lemma find_of_isPrefix {p s : List α} (h : p <+: s) : find p s = some 0 :=
  find_eq_some.mpr ⟨Nat.zero_le _, by simpa using h, by simp⟩

/-- Symbols at which the pattern does not start are passed over. -/
lemma find_append {p u s : List α} (h : ∀ i < u.length, ¬ p <+: (u ++ s).drop i) :
    find p (u ++ s) = (find p s).map (· + u.length) := by
  induction u with
  | nil => simp
  | cons a u ih =>
    have hhead : ¬ p <+: a :: (u ++ s) := h 0 (by simp)
    rw [cons_append, find_cons_of_not_isPrefix hhead,
      ih (fun i hi => h (i + 1) (by simpa using hi)), Option.map_map]
    rfl

lemma find_add_length_le {p s : List α} {i : ℕ} (h : find p s = some i) :
    i + p.length ≤ s.length := by
  obtain ⟨hi, hp, -⟩ := find_eq_some.mp h
  have := hp.length_le
  rw [length_drop] at this
  omega

lemma find_split {p s : List α} {i : ℕ} (h : find p s = some i) :
    s = s.take i ++ (p ++ s.drop (i + p.length)) := by
  obtain ⟨-, ⟨r, hr⟩, -⟩ := find_eq_some.mp h
  have hdrop : s.drop (i + p.length) = r := by
    rw [← drop_drop, ← hr, drop_left]
  rw [hdrop, hr, take_append_drop]

lemma contains_iff_isInfix {p s : List α} : contains p s = true ↔ p <:+: s := by
  rw [contains, isSome_iff_exists]
  constructor
  · rintro ⟨i, hi⟩
    exact ⟨s.take i, s.drop (i + p.length), by rw [append_assoc]; exact (find_split hi).symm⟩
  · rintro ⟨u, v, rfl⟩
    by_contra hnone
    rw [← isSome_iff_exists, not_isSome_iff_eq_none, find_eq_none] at hnone
    refine hnone u.length (by simp) ?_
    rw [append_assoc, drop_left]
    exact prefix_append _ _

/-- `replace` inside an occurrence: the first argument counts the symbols still to be skipped. -/
def replaceFrom (p r : List α) : ℕ → List α → List α
  | _, [] => []
  | skip + 1, _ :: s => replaceFrom p r skip s
  | 0, a :: s =>
    if p.isPrefixOf (a :: s) then r ++ replaceFrom p r (p.length - 1) s
    else a :: replaceFrom p r 0 s

/-- Put `r` for every occurrence of the non-empty `p`, from left to right. -/
def replace (p r s : List α) : List α := replaceFrom p r 0 s

/-- The rest of a text behind `p`, if it starts with it. -/
def stripPrefix (p s : List α) : Option (List α) :=
  if p.isPrefixOf s then some (s.drop p.length) else none

/-- The text before `p`, if it ends with it. -/
def stripSuffix (p s : List α) : Option (List α) :=
  if p.isSuffixOf s then some (s.take (s.length - p.length)) else none

/-- The offset of the rightmost occurrence of `p`. -/
def rfind (p s : List α) : Option ℕ :=
  ((List.range (s.length + 1)).filter fun i => p.isPrefixOf (s.drop i)).getLast?

/-! ## White space and lines -/

/-- The characters with the Unicode property `White_Space`. -/
def isWhitespace (a : Char) : Bool :=
  let n := a.toNat
  (9 ≤ n && n ≤ 13) || n == 0x20 || n == 0x85 || n == 0xA0 || n == 0x1680 ||
    (0x2000 ≤ n && n ≤ 0x200A) || n == 0x2028 || n == 0x2029 || n == 0x202F || n == 0x205F ||
    n == 0x3000

variable (s : List Char)

/-- Cut white space off the front. -/
def trimStart : List Char := s.dropWhile isWhitespace

/-- Cut white space off the end. -/
def trimEnd : List Char := s.rdropWhile isWhitespace

/-- Cut white space off both ends. -/
def trim : List Char := trimEnd (trimStart s)

lemma trim_isInfix : trim s <:+: s :=
  (List.rdropWhile_prefix _ _).isInfix.trans (dropWhile_suffix _).isInfix

lemma head?_trimEnd {a : Char} {s : List Char} (h : isWhitespace a = false) :
    ∃ t, trimEnd (a :: s) = a :: t := by
  obtain ⟨r, hr⟩ := rdropWhile_prefix isWhitespace (a :: s)
  cases hcut : (a :: s).rdropWhile isWhitespace with
  | nil =>
    have hall := rdropWhile_eq_nil_iff.mp hcut a (by simp)
    rw [h] at hall
    exact absurd hall (by simp)
  | cons b t =>
    rw [hcut, cons_append, cons.injEq] at hr
    exact ⟨t, by rw [trimEnd, hcut, hr.1]⟩

@[simp] lemma trim_trim : trim (trim s) = trim s := by
  have hstart : trimStart (trim s) = trim s := by
    rw [trim]
    cases hcut : trimStart s with
    | nil => rfl
    | cons a t =>
      have ha : isWhitespace a = false := by
        have hhead := head?_dropWhile_not isWhitespace s
        rw [show s.dropWhile isWhitespace = a :: t from hcut] at hhead
        simpa using hhead
      obtain ⟨r, hr⟩ := head?_trimEnd (s := t) ha
      rw [hr, trimStart, dropWhile_cons_of_neg (by simp [ha])]
  rw [trim, hstart, trim, trimEnd, trimEnd, rdropWhile_idempotent]

/-- The lines of a text, the first one continuing `line`; a line end is a newline with an optional
carriage return before it. -/
def linesFrom (line : List Char) : List Char → List (List Char)
  | [] => if line = [] then [] else [line]
  | '\n' :: s => (stripSuffix ['\r'] line).getD line :: linesFrom [] s
  | a :: s => linesFrom (line ++ [a]) s

/-- The lines of a text. -/
def lines : List (List Char) := linesFrom [] s

end Str
