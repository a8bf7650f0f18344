import Mathlib.Data.List.TakeWhile
import Mlxcel.Lib.CommonPrefix

/-!
# Greedy decoding and its speculative verification

`next` is a language model that is asked for one token at a time: the token it prefers after a
context. `continuation` is what it writes when every token goes back into the context.

**Verification.** `choices` are the answers of one pass over several tokens at once, an answer
after each of them. As long as the tokens are the ones that the model would have written, the
answers are the continuation (`take_choices`). That is all a speculative decoder rests on.

**Stopping.** `cut` keeps a text up to its first stop token; `Decoded` says what a decoder has
written so far while no stop token came up.

**Rounds.** `Pending` is the state of a speculative decoder between two rounds: the model has read
all of the text but its last token. `Pending.continues` and `Pending.ended` say what a round makes of it,
whatever the drafts are.
-/

namespace Decode

open List CommonPrefix

variable {α : Type}

section Continuation

variable (next : List α → α)

/-- The first `n` tokens that the model writes after a context. -/
def continuation : List α → ℕ → List α
  | _, 0 => []
  | context, n + 1 => next context :: continuation (context ++ [next context]) n

variable (context : List α)

@[simp] lemma length_continuation (n : ℕ) :
    (continuation next context n).length = n := by
  induction n generalizing context with
  | zero => rfl
  | succ n ih => simp [continuation, ih]

lemma continuation_add (m n : ℕ) :
    continuation next context (m + n) = continuation next context m ++
      continuation next (context ++ continuation next context m) n := by
  induction m generalizing context with
  | zero => simp [continuation]
  | succ m ih =>
    rw [Nat.add_right_comm, continuation, continuation, ih]
    simp

lemma continuation_of_take {context : List α} {m n : ℕ} (h : m ≤ n) :
    (continuation next context n).take m = continuation next context m := by
  obtain ⟨k, rfl⟩ := Nat.exists_eq_add_of_le h
  rw [continuation_add, take_left' (length_continuation _ _ _)]

/-- The answers of one pass over `input`, one after each of its tokens. -/
def choices {β : Type} (answer : List α → β) : List α → List α → List β
  | _, [] => []
  | context, x :: input => answer (context ++ [x]) :: choices answer (context ++ [x]) input

@[simp] lemma length_choices {β : Type} (answer : List α → β) (context input : List α) :
    (choices answer context input).length = input.length := by
  induction input generalizing context with
  | nil => rfl
  | cons x input ih => simp [choices, ih]

lemma choices_append {β : Type} (answer : List α → β) (context input more : List α) :
    choices answer context (input ++ more) =
      choices answer context input ++ choices answer (context ++ input) more := by
  induction input generalizing context with
  | nil => simp [choices]
  | cons x input ih => simp [choices, ih]

lemma getLast?_choices {β : Type} (answer : List α → β) (context input : List α) (x : α) :
    (choices answer context (x :: input)).getLast? = some (answer (context ++ x :: input)) := by
  induction input generalizing context x with
  | nil => rfl
  | cons y input ih =>
    rw [choices, getLast?_cons, ih]
    simp

/-- **Verification.** Up to the first draft that differs from the answer before it, and one
further, the answers are the continuation. -/
theorem take_choices [DecidableEq α] (x : α) (drafts : List α) :
    (choices next context (x :: drafts)).take
        (commonPrefixLen drafts (choices next context (x :: drafts)) + 1) =
      continuation next (context ++ [x])
        (commonPrefixLen drafts (choices next context (x :: drafts)) + 1) := by
  induction drafts generalizing context x with
  | nil => simp [choices, continuation]
  | cons d drafts ih =>
    rw [choices, commonPrefixLen_cons_cons]
    split_ifs with hd
    · subst hd
      rw [take_succ_cons, ih, continuation.eq_2 next (context ++ [x])]
    · simp [continuation]

end Continuation

section Stopping

variable [DecidableEq α] (stops : List α)

/-- A text up to its first stop token, which is kept. -/
def cut : List α → List α
  | [] => []
  | x :: xs => if x ∈ stops then [x] else x :: cut xs

variable {stops}

lemma cut_append_of_stop {xs : List α} (h : ∃ x ∈ xs, x ∈ stops) (ys : List α) :
    cut stops (xs ++ ys) = cut stops xs := by
  induction xs with
  | nil => simp at h
  | cons x xs ih =>
    rw [cons_append, cut, cut]
    split_ifs with hx
    · rfl
    · rw [ih (by simpa [hx] using h)]

lemma cut_append {xs : List α} (h : ∀ x ∈ xs, x ∉ stops) (ys : List α) :
    cut stops (xs ++ ys) = xs ++ cut stops ys := by
  induction xs with
  | nil => rfl
  | cons x xs ih =>
    rw [forall_mem_cons] at h
    rw [cons_append, cut, if_neg h.1, ih h.2, cons_append]

lemma cut_eq_self {xs : List α} (h : ∀ x ∈ xs, x ∉ stops) : cut stops xs = xs := by
  simpa [cut] using cut_append h []

end Stopping

section Decoded

variable (next : List α → α) (stops : List α) (prompt : List α)

/-- A text that the model writes after the prompt, with no stop token in it. -/
structure Decoded (text : List α) : Prop where
  eq_continuation : text = continuation next prompt text.length
  no_stop : ∀ x ∈ text, x ∉ stops

variable {next stops prompt} {text : List α} (h : Decoded next stops prompt text) {n : ℕ}

include h

lemma Decoded.continuation_eq (hn : text.length ≤ n) : continuation next prompt n =
      text ++ continuation next (prompt ++ text) (n - text.length) := by
  obtain ⟨k, rfl⟩ := Nat.exists_eq_add_of_le hn
  rw [continuation_add, ← h.eq_continuation, Nat.add_sub_cancel_left]

lemma Decoded.append (hstop : ∀ x ∈ continuation next (prompt ++ text) n, x ∉ stops) :
    Decoded next stops prompt (text ++ continuation next (prompt ++ text) n) where
  eq_continuation := by
    rw [length_append, length_continuation, continuation_add, ← h.eq_continuation]
  no_stop := by
    intro x hx
    rcases mem_append.mp hx with hx | hx
    · exact h.no_stop x hx
    · exact hstop x hx

lemma Decoded.concat (hstop : next (prompt ++ text) ∉ stops) :
    Decoded next stops prompt (text ++ [next (prompt ++ text)]) :=
  h.append (n := 1) (by simpa [continuation] using hstop)

/-- A text before a stop token is the whole answer of a decoder that drops the stop token. -/
lemma Decoded.eq_takeWhile [DecidableEq α]
    (hend : text.length < n ∧ next (prompt ++ text) ∈ stops ∨ text.length = n) :
    text = (continuation next prompt n).takeWhile (· ∉ stops) := by
  have hpass : ∀ x ∈ text, decide (x ∉ stops) = true := by simpa using h.no_stop
  rcases hend with ⟨hlt, hstop⟩ | rfl
  · obtain ⟨k, hk⟩ : ∃ k, n - text.length = k + 1 := ⟨n - text.length - 1, by omega⟩
    rw [h.continuation_eq hlt.le, hk, continuation, takeWhile_append_of_pos hpass]
    simp [hstop]
  · rw [← h.eq_continuation, List.takeWhile_eq_self_iff.mpr hpass]

/-- A text that ends at a stop token, or that has the full length, is the whole answer. -/
lemma Decoded.append_cut [DecidableEq α] {k : ℕ} (hk : text.length + k ≤ n)
    (hend : (∃ x ∈ continuation next (prompt ++ text) k, x ∈ stops) ∨ text.length + k = n) :
    text ++ cut stops (continuation next (prompt ++ text) k) =
      cut stops (continuation next prompt n) := by
  rw [h.continuation_eq (by omega), cut_append h.no_stop,
    show n - text.length = k + (n - text.length - k) by omega, continuation_add]
  rcases hend with hstop | hlen
  · rw [cut_append_of_stop hstop]
  · rw [show n - text.length - k = 0 by omega]
    simp [continuation]

end Decoded

section Rounds

variable [DecidableEq α] (next : List α → α)

/-- How many drafts the model would have written itself. -/
def accepted (context : List α) (last : α) (drafts : List α) : ℕ :=
  commonPrefixLen drafts (choices next context (last :: drafts))

lemma accepted_le (context : List α) (last : α) (drafts : List α) :
    accepted next context last drafts ≤ drafts.length :=
  commonPrefixLen_le_left _ _

/-- The accepted drafts and the answer after them, cut to a budget. -/
def roundTokens (context : List α) (last : α) (drafts : List α) (budget : ℕ) : List α :=
  ((choices next context (last :: drafts)).take (accepted next context last drafts + 1)).take budget

variable {next}

lemma roundTokens_eq (context : List α) (last : α) (drafts : List α) (budget : ℕ) :
    roundTokens next context last drafts budget = continuation next (context ++ [last])
      (min budget (accepted next context last drafts + 1)) := by
  rw [roundTokens, accepted, take_choices, ← continuation_of_take next (Nat.min_le_right _ _)]
  simp

variable (next) (stops prompt : List α) (maxTokens : ℕ)

/-- Between two rounds: what was written, what the model has read, and the token it reads next. -/
structure Pending (seen context : List α) (last : α) : Prop where
  decoded : Decoded next stops prompt seen
  short : seen.length < maxTokens
  context_eq : context ++ [last] = prompt ++ seen

variable {next stops prompt maxTokens} {seen context : List α} {last : α}

omit [DecidableEq α] in
/-- Plain decoding of one token, which is where a decoder starts from. -/
lemma Pending.first (hmax : 1 < maxTokens) (hstop : next prompt ∉ stops) :
    Pending next stops prompt maxTokens [next prompt] prompt (next prompt) where
  decoded := ⟨rfl, by simpa using hstop⟩
  short := hmax
  context_eq := rfl

omit [DecidableEq α] in
lemma Pending.getLast?_seen (h : Pending next stops prompt maxTokens seen context last)
    (hseen : seen ≠ []) : seen.getLast? = some last := by
  have hlast := congrArg List.getLast? h.context_eq
  rw [getLast?_concat, getLast?_append] at hlast
  obtain ⟨x, hx⟩ := Option.isSome_iff_exists.mp (List.getLast?_isSome.mpr hseen)
  rw [hx] at hlast ⊢
  exact hlast.symm

variable (h : Pending next stops prompt maxTokens seen context last) (drafts : List α)
include h

lemma Pending.roundTokens_eq : roundTokens next context last drafts (maxTokens - seen.length) =
    continuation next (prompt ++ seen)
      (min (maxTokens - seen.length) (accepted next context last drafts + 1)) := by
  rw [Decode.roundTokens_eq, h.context_eq]

/-- A round that meets a stop token or uses up the budget completes the answer. -/
theorem Pending.ended
    (hend : (∃ x ∈ roundTokens next context last drafts (maxTokens - seen.length), x ∈ stops) ∨
      maxTokens ≤ seen.length +
        (roundTokens next context last drafts (maxTokens - seen.length)).length) :
    seen ++ cut stops (roundTokens next context last drafts (maxTokens - seen.length)) =
      cut stops (continuation next prompt maxTokens) := by
  have hshort := h.short
  rw [h.roundTokens_eq] at hend ⊢
  refine h.decoded.append_cut (by omega) (hend.imp id fun hlen => ?_)
  rw [length_continuation] at hlen
  omega

/-- Any other round leaves the decoder between two rounds, with more tokens written. -/
theorem Pending.continues
    (hstop : ∀ x ∈ roundTokens next context last drafts (maxTokens - seen.length), x ∉ stops)
    (hlen : seen.length + (roundTokens next context last drafts (maxTokens - seen.length)).length <
      maxTokens) :
    ∃ last', (roundTokens next context last drafts (maxTokens - seen.length)).getLast? = some last' ∧
      Pending next stops prompt maxTokens
        (seen ++ roundTokens next context last drafts (maxTokens - seen.length))
        (context ++ (last :: drafts).take (accepted next context last drafts + 1)) last' := by
  rw [h.roundTokens_eq] at hstop hlen ⊢
  rw [length_continuation] at hlen
  rw [show min (maxTokens - seen.length) (accepted next context last drafts + 1) =
    accepted next context last drafts + 1 by omega] at hstop hlen ⊢
  -- the drafts that were accepted are the first tokens of the round
  have hdrafts : drafts.take (accepted next context last drafts) =
      continuation next (prompt ++ seen) (accepted next context last drafts) := by
    have hagree : drafts.take (accepted next context last drafts) =
        (choices next context (last :: drafts)).take (accepted next context last drafts) :=
      take_commonPrefixLen _ _
    rw [hagree, ← continuation_of_take next (Nat.le_succ _), ← h.context_eq, accepted,
      ← take_choices, take_take, Nat.min_eq_left (Nat.le_succ _)]
  have hsnoc := continuation_add next (prompt ++ seen) (accepted next context last drafts) 1
  refine ⟨_, by rw [hsnoc]; exact getLast?_concat .., h.decoded.append hstop, ?_, ?_⟩
  · simpa using hlen
  · rw [take_succ_cons, hdrafts, hsnoc, ← List.append_assoc prompt, ← h.context_eq]
    simp [continuation]

end Rounds

end Decode
