import Mlxcel.Speculative.Classic

/-!
# The two caches of the draft-model driver

Between two rounds of `SpeculativeGenerator::generate` both models should have read the prompt and
the output up to its last token, so that the next draft starts where the main model stands.

**The main model.**  Its cache is in step after every round (`SpeculativeRun.Ok`).

**The draft model.**  The last draft token is never fed to the draft model, so a round with `n`
drafts puts `n` tokens into its cache and `n + 1` into the main model's. With all drafts accepted
nothing makes up for the missing token; with `a < n` accepted, `a + 1` of the `n` tokens should stay and
the clamped `rejected + 1` is taken back, which leaves `a - 1`. The draft cache falls behind in every
round that does not end the generation (`Completed.draft_behind`), so the caches are in step only
where no such round comes up (`inStep_iff`).
-/

namespace Mlxcel.Speculative

open List Decode CommonPrefix

variable {L : Type} {m : SpeculativeGenerator L} {eos prompt : List Token} {maxTokens : ℕ}
  {s s' : SpeculativeRun}

/-- Both caches hold the prompt and the output without its last token. -/
def SpeculativeRun.InStep (prompt : List Token) (s : SpeculativeRun) : Prop :=
  s.mainContext = prompt ++ s.generated.dropLast ∧
    s.draftContext = prompt ++ s.generated.dropLast

/-- The generation goes on. -/
def SpeculativeRun.Going (maxTokens : ℕ) (s : SpeculativeRun) : Prop :=
  s.generated.length < maxTokens ∧ s.done = false

namespace SpeculativeGenerator

/-- The state after one or more completed rounds of a call. -/
inductive Completed (m : SpeculativeGenerator L) (maxTokens : ℕ) (stopTokenIds prompt : List Token) :
    SpeculativeRun → Prop
  /-- `generate` reaches its loop. -/
  | first {s : SpeculativeRun} (hprompt : prompt ≠ [])
      (hfirst : m.main.next (prefill prompt) ∉ mergedEosTokenIds m.main.eosTokenIds stopTokenIds)
      (hmax : 1 < maxTokens)
      (hround : m.round (mergedEosTokenIds m.main.eosTokenIds stopTokenIds) maxTokens
        (m.start prompt) = .inl s) : Completed m maxTokens stopTokenIds prompt s
  | next {s s' : SpeculativeRun} (hs : Completed m maxTokens stopTokenIds prompt s)
      (hround : m.round (mergedEosTokenIds m.main.eosTokenIds stopTokenIds) maxTokens s = .inl s') :
      Completed m maxTokens stopTokenIds prompt s'

/-- The drafts of the first round. -/
def firstDrafts (m : SpeculativeGenerator L) (eos prompt : List Token) : List Token :=
  (m.draftLoop eos m.numDraft 0 prompt (m.main.next prompt)).1

variable (next : List Token → Token)

/-- The number of leading drafts that the main model would have written. -/
def agreeing (context drafts : List Token) : ℕ :=
  commonPrefixLen drafts (continuation next context drafts.length)

/-- The generation is over after the first round: one of the tokens that it can write by then is a
stop token, or they fill the output. -/
def EndsAtOnce (m : SpeculativeGenerator L) (maxTokens : ℕ) (eos prompt : List Token) : Prop :=
  let written := agreeing m.main.next (prompt ++ [m.main.next prompt]) (m.firstDrafts eos prompt) + 2
  (∃ t ∈ continuation m.main.next prompt written, t ∈ eos) ∨ maxTokens ≤ written

/-! ## One round -/

/-- The draft model reads the current token and all drafts but the last. -/
lemma draftLoop_spec (n calls : ℕ) (context : List Token) (token : Token) :
    (m.draftLoop eos n calls context token).2.1.length =
      context.length + (m.draftLoop eos n calls context token).1.length := by
  induction n generalizing calls context token with
  | zero => rfl
  | succ n ih =>
    simp only [draftLoop]
    split_ifs
    · simp
    · simp only [ih, length_append, length_cons, length_nil]
      omega

lemma agreeing_cons (context : List Token) (d : Token)
    (drafts : List Token) : agreeing next context (d :: drafts) =
      if d = next context then agreeing next (context ++ [d]) drafts + 1 else 0 := by
  rw [agreeing, length_cons, continuation, commonPrefixLen_cons_cons]
  split_ifs with hd
  · rw [agreeing, hd]
  · rfl

/-- **What step 3 does**, in terms of the drafts that agree: it goes on if none of the tokens it
writes is a stop token and the accepted ones leave room. -/
lemma compare_eq {next : List Token → Token} {context : List Token} {current : Token}
    {generated drafts : List Token} {accepted : ℕ} (hshort : generated.length < maxTokens) :
    let a := agreeing next (context ++ [current]) drafts
    let written := continuation next (context ++ [current]) (min (a + 1) drafts.length)
    let out := compare eos maxTokens drafts (choices next context (current :: drafts)) generated
      accepted
    ((∀ t ∈ written, t ∉ eos) ∧ generated.length + a < maxTokens →
        out = ⟨generated ++ written, accepted + a, false⟩) ∧
      (¬ ((∀ t ∈ written, t ∉ eos) ∧ generated.length + a < maxTokens) → out.done = true) := by
  induction drafts generalizing context current generated accepted with
  | nil => simp [compare, agreeing, continuation, hshort]
  | cons d drafts ih =>
    dsimp only
    rw [choices, compare, agreeing_cons, length_cons]
    by_cases hd : next (context ++ [current]) = d
    · rw [if_pos hd, if_pos hd.symm, Nat.add_min_add_right, continuation, hd]
      by_cases hstop : d ∈ eos
      · rw [if_pos hstop]
        exact ⟨fun h => absurd hstop (h.1 d mem_cons_self), fun _ => rfl⟩
      · rw [if_neg hstop]
        by_cases hfull : maxTokens ≤ (generated ++ [d]).length
        · rw [if_pos hfull]
          rw [length_append, length_singleton] at hfull
          exact ⟨fun h => by omega, fun _ => rfl⟩
        · rw [if_neg hfull]
          have hroom : (generated ++ [d]).length < maxTokens := by omega
          obtain ⟨hgo, hend⟩ :=
            @ih (context ++ [current]) d (generated ++ [d]) (accepted + 1) hroom
          generalize agreeing next (context ++ [current] ++ [d]) drafts = a at hgo hend ⊢
          rw [length_append, length_singleton] at hgo hend
          refine ⟨fun h => ?_, fun h => hend fun h' => h ⟨?_, by omega⟩⟩
          · rw [hgo ⟨fun t ht => h.1 t (mem_cons_of_mem _ ht), by omega⟩]
            simp only [List.append_assoc, singleton_append, Compared.mk.injEq, true_and,
              and_true]
            omega
          · simpa [hstop] using h'.1
    · rw [if_neg hd, if_neg (Ne.symm hd)]
      have hone : min (0 + 1) (drafts.length + 1) = 1 := by omega
      simp only [hone, continuation, mem_singleton, forall_eq]
      by_cases hstop : next (context ++ [current]) ∈ eos
      · rw [if_pos hstop]
        exact ⟨fun h => absurd hstop h.1, fun _ => rfl⟩
      · rw [if_neg hstop]
        exact ⟨fun _ => rfl, fun h => absurd ⟨hstop, hshort⟩ h⟩

/-- **When a round ends the generation.** -/
lemma verifyRound_going_iff (hs : s.Ok m eos prompt maxTokens) (hgoing : s.Going maxTokens)
    (drafts draftContext : List Token) (draftCalls : ℕ) :
    (m.verifyRound eos maxTokens s drafts draftContext draftCalls).Going maxTokens ↔
      (∀ t ∈ continuation m.main.next (prompt ++ s.generated)
          (agreeing m.main.next (prompt ++ s.generated) drafts + 1), t ∉ eos) ∧
        s.generated.length + agreeing m.main.next (prompt ++ s.generated) drafts + 1 <
          maxTokens := by
  obtain ⟨hshort, hrunning⟩ := hgoing
  obtain ⟨-, -, hcontext⟩ : _ ∧ _ ∧ _ := by simpa [SpeculativeRun.Ok, hrunning] using hs
  obtain ⟨hgo, hend⟩ := @compare_eq eos maxTokens m.main.next s.mainContext s.currentToken
    s.generated drafts 0 hshort
  rw [hcontext] at hgo hend
  have hle : agreeing m.main.next (prompt ++ s.generated) drafts ≤ drafts.length :=
    commonPrefixLen_le_left _ _
  have hbonus := getLast?_choices m.main.next s.mainContext drafts s.currentToken
  have hagreed := take_commonPrefixLen drafts
    (continuation m.main.next (prompt ++ s.generated) drafts.length)
  change drafts.take (agreeing _ _ _) = .take (agreeing _ _ _) _ at hagreed
  rw [continuation_of_take _ hle] at hagreed
  simp only [verifyRound, verify_eq, SpeculativeRun.Going, hbonus]
  generalize agreeing m.main.next (prompt ++ s.generated) drafts = a at *
  by_cases hcond : (∀ t ∈ continuation m.main.next (prompt ++ s.generated)
      (min (a + 1) drafts.length), t ∉ eos) ∧ s.generated.length + a < maxTokens
  · rw [hgo hcond]
    rcases hle.eq_or_lt with rfl | hlt
    · -- all drafts agree, and the answer behind them is the bonus token
      have hall : min (drafts.length + 1) drafts.length = drafts.length := by omega
      rw [hall] at hcond ⊢
      have hread : s.mainContext ++ s.currentToken :: drafts =
          prompt ++ s.generated ++ continuation m.main.next (prompt ++ s.generated) drafts.length := by
        rw [← hagreed, ← hcontext]
        simp
      have hroom : (s.generated ++ continuation m.main.next (prompt ++ s.generated)
          drafts.length).length < maxTokens := by
        simpa using hcond.2
      rw [continuation_add, hread, if_pos ⟨Nat.zero_add _, rfl, hroom⟩]
      have hnone := hcond.1
      split_ifs with hstop
      · refine ⟨fun h => by simp at h, fun h => absurd hstop (h.1 _ ?_)⟩
        simp [continuation]
      · simp only [continuation, mem_append, mem_singleton, length_append,
          length_continuation, length_singleton, and_true]
        refine ⟨fun h => ⟨?_, by omega⟩, fun h => by omega⟩
        rintro t (ht | rfl)
        exacts [hnone t ht, hstop]
    · have hone : min (a + 1) drafts.length = a + 1 := by omega
      rw [hone] at hcond ⊢
      have hrejected : ¬ 0 + a = drafts.length := by omega
      simp only [hrejected, false_and, if_false, if_true, length_append, length_continuation, and_true]
      exact ⟨fun h => ⟨hcond.1, by omega⟩, fun h => by omega⟩
  · have hdone := hend hcond
    simp only [hdone, Bool.true_eq_false, false_and, and_false, if_false]
    refine ⟨False.elim, fun h => absurd ⟨fun t ht => h.1 t ?_, by omega⟩ hcond⟩
    rw [← continuation_of_take _ (Nat.min_le_left (a + 1) drafts.length)] at ht
    exact mem_of_mem_take ht

/-- The draft cache does not keep pace with the main cache in a round that goes on. -/
lemma verifyRound_draft_behind (hs : s.Ok m eos prompt maxTokens) (hgoing : s.Going maxTokens)
    {drafts draftContext : List Token} (draftCalls : ℕ)
    (hread : draftContext.length = s.draftContext.length + drafts.length)
    (hle : s.draftContext.length ≤ s.mainContext.length)
    (hnext : (m.verifyRound eos maxTokens s drafts draftContext draftCalls).done = false) :
    (m.verifyRound eos maxTokens s drafts draftContext draftCalls).draftContext.length <
      (m.verifyRound eos maxTokens s drafts draftContext draftCalls).mainContext.length := by
  obtain ⟨hshort, hrunning⟩ := hgoing
  obtain ⟨hdecoded, -, hcontext⟩ : _ ∧ _ ∧ _ := by simpa [SpeculativeRun.Ok, hrunning] using hs
  have hspec : Compares m.main.next eos prompt maxTokens s.generated drafts 0 _ :=
    compare_spec hdecoded hshort hcontext
  simp only [verifyRound, verify_eq] at hnext ⊢
  generalize compare eos maxTokens drafts _ s.generated 0 = compared at hspec hnext ⊢
  cases hspec with
  | done answer => simp at hnext
  | all decoded short =>
    simp only [Nat.zero_add, Nat.sub_self, lt_irrefl, if_false, length_append,
      length_cons]
    omega
  | @rejected k mainToken hk decoded short =>
    simp only [Nat.zero_add, Nat.sub_pos_of_lt hk, if_true, trim, length_take,
      length_append, length_cons]
    omega

/-! ## Whole calls -/

/-- A round that is completed started from a generation that goes on. -/
lemma round_eq_inl (hround : m.round eos maxTokens s = .inl s') :
    s.Going maxTokens ∧ ∃ drafts draftContext draftCalls,
      m.draftLoop eos m.numDraft s.draftCalls s.draftContext s.currentToken =
        (drafts, draftContext, draftCalls) ∧ drafts ≠ [] ∧
      s' = m.verifyRound eos maxTokens s drafts draftContext draftCalls := by
  rw [round] at hround
  split_ifs at hround with hgoing
  dsimp only at hround
  split_ifs at hround with hnone
  exact ⟨hgoing, _, _, _, rfl, hnone, (Sum.inl.inj hround).symm⟩

lemma start_ok (hfirst : m.main.next (prefill prompt) ∉ eos) (hmax : 1 < maxTokens) :
    (m.start prompt).Ok m eos prompt maxTokens := by
  rw [prefill_eq] at hfirst
  rw [start, prefill_eq]
  exact ⟨⟨rfl, by simpa using hfirst⟩, hmax.le, rfl⟩

/-- One round from a state in which the draft cache is not ahead. -/
lemma round_draft_behind (hok : s.Ok m eos prompt maxTokens)
    (hle : s.done = false → s.draftContext.length ≤ s.mainContext.length)
    (hround : m.round eos maxTokens s = .inl s') :
    s'.Ok m eos prompt maxTokens ∧
      (s'.done = false → s'.draftContext.length < s'.mainContext.length) := by
  obtain ⟨hgoing, drafts, draftContext, draftCalls, hloop, -, rfl⟩ := round_eq_inl hround
  have hread := @draftLoop_spec L m eos m.numDraft s.draftCalls s.draftContext s.currentToken
  rw [hloop] at hread
  exact ⟨(verifyRound_ok hok hgoing _ _ _).1, fun hnext =>
    verifyRound_draft_behind hok hgoing _ hread (hle hgoing.2) hnext⟩

/-- What holds after every completed round: the main model is in step, and the draft cache is
shorter unless the generation is over. -/
lemma Completed.draft_behind {stopTokenIds : List Token}
    (h : Completed m maxTokens stopTokenIds prompt s) :
    s.Ok m (mergedEosTokenIds m.main.eosTokenIds stopTokenIds) prompt maxTokens ∧
      (s.done = false → s.draftContext.length < s.mainContext.length) := by
  induction h with
  | first hprompt hfirst hmax hround =>
    exact round_draft_behind (start_ok hfirst hmax) (fun _ => le_rfl) hround
  | next hs hround ih => exact round_draft_behind ih.1 (fun hdone => (ih.2 hdone).le) hround

/-- The main model's cache is in step after every completed round that goes on. -/
lemma Completed.main_inStep {stopTokenIds : List Token}
    (h : Completed m maxTokens stopTokenIds prompt s) (hdone : s.done = false) :
    s.mainContext = prompt ++ s.generated.dropLast := by
  obtain ⟨hok, -⟩ := h.draft_behind
  obtain ⟨-, -, hcontext⟩ : _ ∧ _ ∧ _ := by simpa [SpeculativeRun.Ok, hdone] using hok
  have hne : s.generated ≠ [] := by
    have hgrows : ∀ {eos} {s s' : SpeculativeRun}, s.Ok m eos prompt maxTokens →
        m.round eos maxTokens s = .inl s' → s'.done = false → s'.generated ≠ [] := by
      intro eos s s' hok hround hdone
      obtain ⟨hgoing, drafts, draftContext, draftCalls, -, -, rfl⟩ := round_eq_inl hround
      have hlt := (verifyRound_ok hok hgoing drafts draftContext draftCalls).2 hdone
      exact ne_nil_of_length_pos (by omega)
    cases h with
    | first hprompt hfirst hmax hround => exact hgrows (start_ok hfirst hmax) hround hdone
    | next hs hround => exact hgrows hs.draft_behind.1 hround hdone
  have hlast : (s.mainContext ++ [s.currentToken]).dropLast = (prompt ++ s.generated).dropLast := by
    rw [hcontext]
  rwa [dropLast_concat, dropLast_append_of_ne_nil hne] at hlast

/-- The first round goes on exactly if the generation does not end at once. -/
lemma first_going_iff (hfirst : m.main.next (prefill prompt) ∉ eos) (hmax : 1 < maxTokens)
    (hround : m.round eos maxTokens (m.start prompt) = .inl s) :
    s.Going maxTokens ↔ ¬ EndsAtOnce m maxTokens eos prompt := by
  obtain ⟨hgoing, drafts, draftContext, draftCalls, hloop, -, rfl⟩ := round_eq_inl hround
  rw [verifyRound_going_iff (start_ok hfirst hmax) hgoing]
  have hdrafts : m.firstDrafts eos prompt = drafts := by
    rw [start, prefill_eq] at hloop
    rw [firstDrafts, hloop]
  rw [prefill_eq] at hfirst
  have hgenerated : (m.start prompt).generated = [m.main.next prompt] := by rw [start, prefill_eq]
  rw [hgenerated, EndsAtOnce, hdrafts]
  rw [not_or, length_singleton]
  refine and_congr ⟨fun h => ?_, fun h t ht hstop => h ⟨t, mem_cons_of_mem _ ht, hstop⟩⟩
    ⟨fun h => by omega, fun h => by omega⟩
  rintro ⟨t, ht, hstop⟩
  rcases mem_cons.mp ht with rfl | ht
  · exact hfirst hstop
  · exact h t ht hstop

/-- **When the two caches are in step** after every completed round that does not end the
generation: when there is no such round. -/
theorem inStep_iff (m : SpeculativeGenerator L) (maxTokens : ℕ) (stopTokenIds prompt : List Token)
    (hdraft : 1 ≤ m.numDraft) (hprompt : prompt ≠ []) :
    (∀ s, Completed m maxTokens stopTokenIds prompt s → s.Going maxTokens → s.InStep prompt) ↔
      EndsAtOnce m maxTokens (mergedEosTokenIds m.main.eosTokenIds stopTokenIds) prompt := by
  constructor
  · intro hall
    by_contra hgoes
    have hgoes' := hgoes
    rw [EndsAtOnce, not_or] at hgoes'
    obtain ⟨hnone, hroom⟩ := hgoes'
    have hfirst : m.main.next (prefill prompt) ∉
        mergedEosTokenIds m.main.eosTokenIds stopTokenIds := by
      rw [prefill_eq]
      exact fun hstop => hnone ⟨_, by exact mem_cons_self, hstop⟩
    have hmax : 1 < maxTokens := by omega
    obtain ⟨s, hround⟩ : ∃ s, m.round (mergedEosTokenIds m.main.eosTokenIds stopTokenIds) maxTokens
        (m.start prompt) = .inl s := by
      have hgoing : (m.start prompt).generated.length < maxTokens ∧ (m.start prompt).done = false :=
        ⟨hmax, rfl⟩
      rw [round, if_pos hgoing]
      dsimp only
      rw [if_neg (m.draftLoop_ne_nil _ hdraft _ _ _)]
      exact ⟨_, rfl⟩
    have hcompleted : Completed m maxTokens stopTokenIds prompt s :=
      .first hprompt hfirst hmax hround
    have hgoing := (first_going_iff hfirst hmax hround).mpr hgoes
    obtain ⟨hmain, hdraftCache⟩ := hall s hcompleted hgoing
    have hbehind := hcompleted.draft_behind.2 hgoing.2
    rw [hmain, hdraftCache] at hbehind
    exact lt_irrefl _ hbehind
  · intro hends s hs hgoing
    refine absurd hgoing ?_
    clear hgoing
    induction hs with
    | first hprompt hfirst hmax hround =>
      exact fun hgoing => (first_going_iff hfirst hmax hround).mp hgoing hends
    | next hs hround ih => exact fun _ => ih (round_eq_inl hround).1

/-- A main model that writes the length of its context, and a draft model that does the same or
always writes zero. -/
def countingPair (agrees : Bool) : SpeculativeGenerator Unit where
  main := ⟨fun context => Int32.ofNat context.length, fun _ => (), []⟩
  draft := fun _ context => if agrees then Int32.ofNat context.length else 0
  numDraft := 2
  align := false

theorem inStep_countingPair :
    (∀ s, Completed (countingPair true) 4 [] [7] s → s.Going 4 → s.InStep [7]) ∧
      Completed (countingPair true) 4 [] [7]
        ⟨[1, 2, 3, 4], [7, 1, 2, 3], [7, 1, 2], 2, 4, false⟩ := by
  refine ⟨(inStep_iff (countingPair true) 4 [] [7] (by decide) (by decide)).mpr
    (.inr (by decide)), .first (by decide) ?_ (by decide) ?_⟩
  · decide
  · rw [start, prefill_eq]
    rfl

/-- Both drafts are rejected, and the main model is in step. -/
theorem main_inStep_countingPair : ∃ s, Completed (countingPair false) 9 [] [7] s ∧
    s.generated = [1, 2] ∧ s.mainContext = [7] ++ s.generated.dropLast := by
  have h : Completed (countingPair false) 9 [] [7] ⟨[1, 2], [7, 1], [7], 2, 2, false⟩ :=
    .first (by decide) (by decide) (by decide) (by rw [start, prefill_eq]; rfl)
  exact ⟨_, h, rfl, h.main_inStep rfl⟩

/-- With both drafts rejected the draft model has not read the current token of the round; with both
accepted it has not read the last of them. -/
theorem not_inStep_countingPair :
    ¬ (∀ s, Completed (countingPair false) 9 [] [7] s → s.Going 9 → s.InStep [7]) ∧
      ¬ (∀ s, Completed (countingPair true) 9 [] [7] s → s.Going 9 → s.InStep [7]) := by
  refine ⟨fun h => ?_, fun h => ?_⟩
  · have hstep := h ⟨[1, 2], [7, 1], [7], 2, 2, false⟩
      (.first (by decide) (by decide) (by decide) (by rw [start, prefill_eq]; rfl))
      ⟨by decide, rfl⟩
    exact absurd hstep.2 (by decide)
  · have hstep := h ⟨[1, 2, 3, 4], [7, 1, 2, 3], [7, 1, 2], 2, 4, false⟩
      (.first (by decide) (by decide) (by decide) (by rw [start, prefill_eq]; rfl))
      ⟨by decide, rfl⟩
    exact absurd hstep.2 (by decide)

end SpeculativeGenerator

end Mlxcel.Speculative
