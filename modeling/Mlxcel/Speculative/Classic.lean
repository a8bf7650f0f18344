import Mlxcel.Speculative.Walk

/-!
# The draft-model driver

`SpeculativeGenerator::generate` drafts with a second, smaller model that has a cache of its own.
Unlike the MTP drivers it drops the stop token, ends a draft block early at a stop token of the
draft model, and pads the verify pass to the tile size of the hardware.
-/

namespace Mlxcel.Speculative

open List Decode

variable {L : Type}

def naTileSize : ℕ := 32

def alignToNaTile (len : ℕ) : ℕ :=
  if len = 0 then 0 else (len + naTileSize - 1) / naTileSize * naTileSize

def prefillStepSize : ℕ := 512

/-- The chunked prefill of a cache: all tokens but the last, `prefillStepSize` at a time. -/
def prefillLoop (prompt : List Token) (consumed : ℕ) (context : List Token) : ℕ × List Token :=
  if 1 < prompt.length - consumed then
    let step := min prefillStepSize (prompt.length - consumed - 1)
    prefillLoop prompt (consumed + step) (context ++ (prompt.drop consumed).take step)
  else (consumed, context)
  termination_by prompt.length - consumed
  decreasing_by simp only [prefillStepSize]; omega

/-- The prefill, with the pass over the remaining token that the first choice is made after. -/
def prefill (prompt : List Token) : List Token :=
  let (consumed, context) := prefillLoop prompt 0 []
  context ++ prompt.drop consumed

lemma prefillLoop_eq {prompt : List Token} {consumed : ℕ} {context : List Token}
    (h : context = prompt.take consumed) :
    (prefillLoop prompt consumed context).2 =
      prompt.take (prefillLoop prompt consumed context).1 := by
  fun_induction prefillLoop prompt consumed context with
  | case1 consumed context hlong step ih =>
    refine ih ?_
    rw [h, take_add]
  | case2 consumed context hlong => exact h

/-- Chunking the prefill makes no difference to what a cache has read. -/
lemma prefill_eq (prompt : List Token) : prefill prompt = prompt := by
  simp only [prefill]
  rw [prefillLoop_eq (by simp), take_append_drop]

/-- The parameters of a call: the draft model answers with any token, and sees how often it was
asked before and what its own cache has read. `align` holds on hardware with tiles and a model that
supports padding. -/
structure SpeculativeGenerator (L : Type) where
  main : Target L
  draft : ℕ → List Token → Token
  numDraft : ℕ
  align : Bool

/-- The locals of `generate` between two rounds and both caches; `draftCalls` counts the passes of
the draft model. -/
structure SpeculativeRun where
  generated : List Token
  mainContext : List Token
  draftContext : List Token
  draftCalls : ℕ
  currentToken : Token
  done : Bool
  deriving DecidableEq

open SpeculativeRun

namespace SpeculativeGenerator

variable (m : SpeculativeGenerator L) (eos : List Token) (maxTokens : ℕ)

/-- Step 1: the draft loop, for at most `n` more tokens. It returns them, and the draft model's
cache and pass counter. -/
def draftLoop : ℕ → ℕ → List Token → Token → List Token × List Token × ℕ
  | 0, calls, context, _ => ([], context, calls)
  | n + 1, calls, context, draftToken =>
    let context := context ++ [draftToken]
    let token := m.draft calls context
    if token ∈ eos then ([token], context, calls + 1)
    else
      let (rest, result) := draftLoop n (calls + 1) context token
      (token :: rest, result)

/-- Step 2: the verify pass of the main model, with what its cache has read afterwards. The padded
pass reads the padding too and takes it back. -/
def verify (context verifyTokens : List Token) : List Token × List Token :=
  let actualVerifyLen := verifyTokens.length
  let paddedLen := alignToNaTile actualVerifyLen
  if m.align ∧ actualVerifyLen < paddedLen then
    let paddedTokens := verifyTokens ++ List.replicate (paddedLen - actualVerifyLen) 0
    ((choices m.main.next context paddedTokens).take actualVerifyLen,
      trim (paddedLen - actualVerifyLen) (context ++ paddedTokens))
  else (choices m.main.next context verifyTokens, context ++ verifyTokens)

/-- What step 3 changes: the output, the number of accepted drafts and the `done` flag. -/
structure Compared where
  generated : List Token
  accepted : ℕ
  done : Bool

/-- Step 3: the drafts against the main model's choices, position by position. -/
def compare : List Token → List Token → List Token → ℕ → Compared
  | draftToken :: drafts, mainToken :: mains, generated, accepted =>
    if mainToken = draftToken then
      if draftToken ∈ eos then ⟨generated, accepted + 1, true⟩
      else if maxTokens ≤ (generated ++ [draftToken]).length then
        ⟨generated ++ [draftToken], accepted + 1, true⟩
      else compare drafts mains (generated ++ [draftToken]) (accepted + 1)
    else if mainToken ∈ eos then ⟨generated, accepted, true⟩
    else ⟨generated ++ [mainToken], accepted, false⟩
  | _, _, generated, accepted => ⟨generated, accepted, false⟩

/-- One round after the drafts are there. -/
def verifyRound (s : SpeculativeRun) (draftTokens draftContext : List Token) (draftCalls : ℕ) :
    SpeculativeRun :=
  let (mainTokens, mainContext) := m.verify s.mainContext (s.currentToken :: draftTokens)
  let compared := compare eos maxTokens draftTokens mainTokens s.generated 0
  let bonusToken := mainTokens.getLast?.getD s.currentToken
  let (generated, done, currentToken) :=
    if compared.accepted = draftTokens.length ∧ compared.done = false ∧
        compared.generated.length < maxTokens then
      if bonusToken ∈ eos then (compared.generated, true, bonusToken)
      else (compared.generated ++ [bonusToken], false, bonusToken)
    else if compared.done = false then
      (compared.generated, false, compared.generated.getLast?.getD s.currentToken)
    else (compared.generated, true, s.currentToken)
  -- Step 4: both caches take back what was rejected
  let rejected := draftTokens.length - compared.accepted
  { generated
    mainContext := if 0 < rejected then trim rejected mainContext else mainContext
    draftContext :=
      if 0 < rejected then trim (min (rejected + 1) draftTokens.length) draftContext
      else draftContext
    draftCalls
    currentToken
    done }

/-- The decode loop's body. -/
def round (s : SpeculativeRun) : SpeculativeRun ⊕ List Token :=
  if s.generated.length < maxTokens ∧ s.done = false then
    let (draftTokens, draftContext, draftCalls) :=
      m.draftLoop eos m.numDraft s.draftCalls s.draftContext s.currentToken
    if draftTokens = [] then .inr s.generated
    else .inl (m.verifyRound eos maxTokens s draftTokens draftContext draftCalls)
  else .inr s.generated

/-- The locals of `generate` in front of its first round. -/
def start (prompt : List Token) : SpeculativeRun where
  generated := [m.main.next (prefill prompt)]
  mainContext := prefill prompt
  draftContext := prefill prompt
  draftCalls := 0
  currentToken := m.main.next (prefill prompt)
  done := false

/-- `generate`, with at most `fuel` rounds. No result: the prompt is empty, which the source
asserts against, or the rounds were not enough. -/
def generate (stopTokenIds prompt : List Token) (fuel : ℕ) : Option (List Token) :=
  if prompt = [] then none
  else
    let eosTokens := mergedEosTokenIds m.main.eosTokenIds stopTokenIds
    let firstToken := m.main.next (prefill prompt)
    if firstToken ∈ eosTokens ∨ maxTokens = 0 then some []
    else if maxTokens ≤ 1 then some [firstToken]
    else Loop.run (m.round eosTokens maxTokens) fuel (m.start prompt)

end SpeculativeGenerator

/-! ## A round -/

section Round

variable {m : SpeculativeGenerator L} {eos prompt : List Token} {maxTokens : ℕ}

namespace SpeculativeGenerator

/-- Padding the pass makes no difference. -/
lemma verify_eq (context verifyTokens : List Token) : m.verify context verifyTokens =
    (choices m.main.next context verifyTokens, context ++ verifyTokens) := by
  simp only [verify]
  split_ifs
  · rw [choices_append, trim_append _ _ (by simp)]
    simp
  · rfl

/-- The outcomes of step 3 on the choices of the main model, for an output that is decoded so
far. -/
inductive Compares (next : List Token → Token) (eos prompt : List Token) (maxTokens : ℕ)
    (generated drafts : List Token) (accepted : ℕ) : Compared → Prop
  /-- The output is complete. -/
  | done {text : List Token} {k : ℕ}
      (answer : text = (continuation next prompt maxTokens).takeWhile (· ∉ eos)) :
      Compares next eos prompt maxTokens generated drafts accepted ⟨text, k, true⟩
  /-- All drafts were accepted. -/
  | all (decoded : Decoded next eos prompt (generated ++ drafts))
      (short : (generated ++ drafts).length < maxTokens) :
      Compares next eos prompt maxTokens generated drafts accepted
        ⟨generated ++ drafts, accepted + drafts.length, false⟩
  /-- The draft after the first `k` was rejected for the main model's token. -/
  | rejected {k : ℕ} {mainToken : Token} (hk : k < drafts.length)
      (decoded : Decoded next eos prompt (generated ++ drafts.take k ++ [mainToken]))
      (short : (generated ++ drafts.take k).length < maxTokens) :
      Compares next eos prompt maxTokens generated drafts accepted
        ⟨generated ++ drafts.take k ++ [mainToken], accepted + k, false⟩

variable {next : List Token → Token} {generated drafts : List Token} {accepted : ℕ}

/-- An accepted draft goes in front of the outcome of the drafts after it. -/
lemma Compares.cons {d : Token} {compared : Compared}
    (h : Compares next eos prompt maxTokens (generated ++ [d]) drafts (accepted + 1) compared) :
    Compares next eos prompt maxTokens generated (d :: drafts) accepted compared := by
  cases h with
  | done answer => exact .done answer
  | all decoded short =>
    have hassoc : generated ++ [d] ++ drafts = generated ++ d :: drafts := by simp
    have hcount : accepted + 1 + drafts.length = accepted + (d :: drafts).length := by
      rw [length_cons]
      omega
    rw [hassoc] at decoded short
    rw [hassoc, hcount]
    exact .all decoded short
  | @rejected k mainToken hk decoded short =>
    have hassoc : generated ++ [d] ++ drafts.take k = generated ++ (d :: drafts).take (k + 1) := by
      simp
    have hcount : accepted + 1 + k = accepted + (k + 1) := by omega
    rw [hassoc] at decoded short
    rw [hassoc, hcount]
    exact .rejected (by simpa using hk) decoded short

/-- **Step 3** on the choices of the main model. -/
lemma compare_spec {context : List Token} {current : Token}
    (hdecoded : Decoded next eos prompt generated) (hshort : generated.length < maxTokens)
    (hcontext : context ++ [current] = prompt ++ generated) :
    Compares next eos prompt maxTokens generated drafts accepted
      (compare eos maxTokens drafts (choices next context (current :: drafts)) generated
        accepted) := by
  induction drafts generalizing context current generated accepted with
  | nil =>
    have hall : Compares next eos prompt maxTokens generated [] accepted
        ⟨generated ++ [], accepted + 0, false⟩ :=
      .all (by simpa using hdecoded) (by simpa using hshort)
    simpa [compare] using hall
  | cons d drafts ih =>
    rw [choices, compare, hcontext]
    by_cases hd : next (prompt ++ generated) = d
    · subst hd
      rw [if_pos rfl]
      split_ifs with hstop hfull
      · exact .done (hdecoded.eq_takeWhile (.inl ⟨hshort, hstop⟩))
      · refine .done ((hdecoded.concat hstop).eq_takeWhile (.inr ?_))
        rw [length_append, length_singleton] at hfull ⊢
        omega
      · refine .cons ?_
        rw [← hcontext]
        refine ih ?_ (by rw [hcontext]; omega) (by simp [hcontext])
        rw [hcontext]
        exact hdecoded.concat hstop
    · split_ifs with hstop
      · exact .done (hdecoded.eq_takeWhile (.inl ⟨hshort, hstop⟩))
      · have hreject : Compares next eos prompt maxTokens generated (d :: drafts) accepted
            ⟨generated ++ (d :: drafts).take 0 ++ [next (prompt ++ generated)], accepted + 0,
              false⟩ :=
          .rejected (by simp) (by simpa using hdecoded.concat hstop) (by simpa using hshort)
        simpa using hreject

end SpeculativeGenerator

/-- The loop's invariant: the main model has read all but the current token of the output. -/
def SpeculativeRun.Ok (m : SpeculativeGenerator L) (eos prompt : List Token) (maxTokens : ℕ)
    (s : SpeculativeRun) : Prop :=
  if s.done then s.generated = (continuation m.main.next prompt maxTokens).takeWhile (· ∉ eos)
  else Decoded m.main.next eos prompt s.generated ∧ s.generated.length ≤ maxTokens ∧
    s.mainContext ++ [s.currentToken] = prompt ++ s.generated

variable {s : SpeculativeRun}

/-- A round completes the output or makes it longer. -/
lemma SpeculativeGenerator.verifyRound_ok (hs : s.Ok m eos prompt maxTokens)
    (hrun : s.generated.length < maxTokens ∧ s.done = false)
    (drafts draftContext : List Token) (draftCalls : ℕ) :
    (m.verifyRound eos maxTokens s drafts draftContext draftCalls).Ok m eos prompt maxTokens ∧
      ((m.verifyRound eos maxTokens s drafts draftContext draftCalls).done = false →
        s.generated.length <
          (m.verifyRound eos maxTokens s drafts draftContext draftCalls).generated.length) := by
  obtain ⟨hshort, hgoing⟩ := hrun
  obtain ⟨hdecoded, -, hcontext⟩ : _ ∧ _ ∧ _ := by simpa [Ok, hgoing] using hs
  have hspec : Compares m.main.next eos prompt maxTokens s.generated drafts 0 _ :=
    compare_spec hdecoded hshort hcontext
  simp only [verifyRound, verify_eq]
  generalize hcompared : compare eos maxTokens drafts _ s.generated 0 = compared
  rw [hcompared] at hspec
  cases hspec with
  | done answer => simp [Ok, answer]
  | all decoded short =>
    have hread : s.mainContext ++ s.currentToken :: drafts = prompt ++ (s.generated ++ drafts) := by
      rw [← List.append_assoc, ← hcontext]
      simp
    simp only [Nat.zero_add, short, and_self, if_true, getLast?_choices, hread,
      Nat.sub_self, lt_irrefl, if_false]
    split_ifs with hstop
    · exact ⟨decoded.eq_takeWhile (.inl ⟨short, hstop⟩), by simp⟩
    · refine ⟨⟨decoded.concat hstop, ?_, by simp⟩, fun _ => ?_⟩
      · rw [length_append, length_singleton]
        omega
      · simp only [length_append, length_singleton]
        omega
  | @rejected k mainToken hk decoded short =>
    have hkept : trim (drafts.length - k) (s.mainContext ++ s.currentToken :: drafts) =
        s.mainContext ++ s.currentToken :: drafts.take k := by
      rw [trim_append _ _ (by simp; omega), length_cons,
        show drafts.length + 1 - (drafts.length - k) = k + 1 by omega, take_succ_cons]
    have hread : s.mainContext ++ s.currentToken :: drafts.take k ++ [mainToken] =
        prompt ++ (s.generated ++ drafts.take k ++ [mainToken]) := by
      rw [List.append_assoc s.generated, ← List.append_assoc prompt, ← hcontext]
      simp
    simp only [Nat.zero_add, hk.ne, false_and, if_false, if_true, getLast?_concat,
      Nat.sub_pos_of_lt hk, hkept]
    refine ⟨⟨decoded, ?_, hread⟩, fun _ => ?_⟩
    · rw [length_append]
      exact short
    · simp only [length_append, length_singleton]
      omega

lemma SpeculativeGenerator.draftLoop_ne_nil (m : SpeculativeGenerator L) (eos : List Token) {n : ℕ}
    (hn : 1 ≤ n) (calls : ℕ) (context : List Token) (token : Token) :
    (m.draftLoop eos n calls context token).1 ≠ [] := by
  obtain ⟨n, rfl⟩ := Nat.exists_eq_add_of_le' hn
  rw [draftLoop]
  split_ifs <;> simp

/-- What every round makes smaller. -/
def SpeculativeRun.variant (maxTokens : ℕ) (s : SpeculativeRun) : ℕ :=
  if s.done then 0 else maxTokens - s.generated.length + 1

/-- **One round of the draft-model driver.** -/
lemma SpeculativeGenerator.round_ok (hdraft : 1 ≤ m.numDraft) (hs : s.Ok m eos prompt maxTokens) :
    Sum.elim (fun s' => s'.Ok m eos prompt maxTokens ∧ s'.variant maxTokens < s.variant maxTokens)
      (fun out => out = (continuation m.main.next prompt maxTokens).takeWhile (· ∉ eos))
      (m.round eos maxTokens s) := by
  rw [round]
  by_cases hrun : s.generated.length < maxTokens ∧ s.done = false
  · rw [if_pos hrun]
    have hdrafts := m.draftLoop_ne_nil eos hdraft s.draftCalls s.draftContext s.currentToken
    generalize m.draftLoop eos m.numDraft s.draftCalls s.draftContext s.currentToken = drafted
      at hdrafts
    obtain ⟨drafts, draftContext, draftCalls⟩ := drafted
    obtain ⟨hok, hgrows⟩ := verifyRound_ok hs hrun drafts draftContext draftCalls
    have hbefore : s.variant maxTokens = maxTokens - s.generated.length + 1 :=
      if_neg (by simp [hrun.2])
    simp only [if_neg hdrafts]
    refine ⟨hok, ?_⟩
    rw [variant]
    split_ifs with hdone
    · omega
    · have hlt := hgrows (by simpa using hdone)
      omega
  · rw [if_neg hrun]
    -- the output is complete at a stop token or at the limit
    by_cases hdone : s.done = true
    · rw [Ok, if_pos hdone] at hs
      exact hs
    · rw [Ok, if_neg hdone] at hs
      obtain ⟨hdecoded, hle, -⟩ := hs
      have hfull : s.generated.length = maxTokens := by
        by_contra hne
        exact hrun ⟨by omega, by simpa using hdone⟩
      exact hdecoded.eq_takeWhile (.inr hfull)

/-- **The draft-model driver is lossless.** -/
theorem SpeculativeGenerator.generate_eq (hdraft : 1 ≤ m.numDraft) {stopTokenIds : List Token}
    (hprompt : prompt ≠ []) (hmax : 1 ≤ maxTokens)
    (hseed : m.main.next prompt ∉ mergedEosTokenIds m.main.eosTokenIds stopTokenIds) {fuel : ℕ}
    (hfuel : maxTokens < fuel) :
    m.generate maxTokens stopTokenIds prompt fuel =
      some ((continuation m.main.next prompt maxTokens).takeWhile
        (· ∉ mergedEosTokenIds m.main.eosTokenIds stopTokenIds)) := by
  have hgo : ¬ (m.main.next prompt ∈ mergedEosTokenIds m.main.eosTokenIds stopTokenIds ∨
      maxTokens = 0) := not_or.mpr ⟨hseed, by omega⟩
  simp only [generate, if_neg hprompt, start, prefill_eq]
  have hfirst : Decoded m.main.next (mergedEosTokenIds m.main.eosTokenIds stopTokenIds) prompt
      [m.main.next prompt] := ⟨rfl, by simpa using hseed⟩
  split_ifs with hone
  · exact congrArg some (hfirst.eq_takeWhile (.inr (by simp; omega)))
  · obtain ⟨out, hrun, rfl⟩ := Loop.run_of_variant
      (Ok m (mergedEosTokenIds m.main.eosTokenIds stopTokenIds) prompt maxTokens)
      (variant maxTokens) (fun s hs => round_ok hdraft hs)
      (s := ⟨[m.main.next prompt], prompt, prompt, 0, m.main.next prompt, false⟩)
      ⟨hfirst, hmax, rfl⟩ (by simp [variant]; omega : _ < fuel)
    exact hrun

end Round

end Mlxcel.Speculative
