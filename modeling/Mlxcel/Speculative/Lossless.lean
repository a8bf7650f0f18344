import Mlxcel.Speculative.Classic
import Mlxcel.Speculative.DFlash

/-!
# Speculative decoding is lossless

The drafter decides how fast the drivers are and nothing else. Whatever it proposes, every driver
returns after at most `maxTokens` rounds with the greedy continuation of the target.

**Sequential parity.** The batched MTP driver gives each row what the single-row driver gives its
prompt on its own (`runBatched_eq_generate`), which is the parity that its module promises.
-/

namespace Mlxcel.Speculative

open Decode MtpGenerator MtpBatchedGenerator SpeculativeGenerator

variable {L : Type}

/-- **Speculative decoding is lossless.** For every target, drafter and draft model, the four
drivers return, and what they emit for a prompt is the target's greedy continuation, cut at the
first stop token or at `maxTokens`. The MTP and DFlash drivers keep the stop token, the draft-model
driver drops it; the caller of DFlash has emitted the first token itself. -/
theorem drivers_lossless (target : Target L) (drafter : Drafter) (hdrafter : drafter.Answers)
    (draft : ℕ → List Token → Token) (align : Bool) {blockSize numDraft maxTokens fuel : ℕ}
    (hblock : 2 ≤ blockSize) (hdraft : 1 ≤ numDraft) (hmax : 1 ≤ maxTokens)
    (hfuel : maxTokens < fuel) (stopTokenIds : List Token) (prompts : List (List Token))
    (hbatch : prompts ≠ []) (hprompts : ∀ prompt ∈ prompts, prompt ≠ [])
    (hseed : ∀ prompt ∈ prompts,
      target.next prompt ∉ mergedEosTokenIds target.eosTokenIds stopTokenIds)
    (cancel : ℕ → Bool) (hcancel : ∀ n, cancel n = false) (logprobsEnabled : Bool) :
    (∀ prompt ∈ prompts, ∃ out,
      generate ⟨target, drafter, blockSize, hblock⟩ maxTokens cancel logprobsEnabled
          stopTokenIds prompt fuel = some out ∧
        out.tokens = cut (mergedEosTokenIds target.eosTokenIds stopTokenIds)
          (continuation target.next prompt maxTokens)) ∧
    (∃ rows,
      runBatched ⟨target, drafter, blockSize, hblock⟩ maxTokens stopTokenIds
          prompts fuel = some (.ok rows) ∧
        List.Forall₂ (fun prompt row =>
          row.tokens = cut (mergedEosTokenIds target.eosTokenIds stopTokenIds)
            (continuation target.next prompt maxTokens)) prompts rows) ∧
    (∃ rows,
      DFlashBatchedGenerator.runBatched ⟨drafter, blockSize⟩ target
          (mergedEosTokenIds target.eosTokenIds stopTokenIds) maxTokens prompts
          (prompts.map target.next) fuel = some (.ok rows) ∧
        List.Forall₂ (fun prompt row =>
          target.next prompt :: row.tokens =
            cut (mergedEosTokenIds target.eosTokenIds stopTokenIds)
              (continuation target.next prompt maxTokens)) prompts rows) ∧
    ∀ prompt ∈ prompts,
      generate ⟨target, draft, numDraft, align⟩ maxTokens stopTokenIds prompt
          fuel =
        some ((continuation target.next prompt maxTokens).takeWhile
          (· ∉ mergedEosTokenIds target.eosTokenIds stopTokenIds)) := by
  refine ⟨fun prompt hprompt => ?_, ?_, ?_, fun prompt hprompt => ?_⟩
  · exact generate_eq hdrafter hcancel (hprompts prompt hprompt) hmax
      (hseed prompt hprompt) hfuel
  · exact runBatched_eq hdrafter hbatch hprompts hmax hseed hfuel
  · exact DFlashBatchedGenerator.runBatched_eq hdrafter hblock hbatch hmax hseed hfuel
  · exact generate_eq hdraft (hprompts prompt hprompt) hmax
      (hseed prompt hprompt) hfuel

/-- A target that counts the tokens it has read, and stops at five. -/
def countingTarget : Target Unit where
  next context := Int32.ofNat context.length
  logprob _ := ()
  eosTokenIds := [5]

/-- A drafter that is right about one token and wrong about the rest. -/
def guessingDrafter : Drafter where
  configuredBlockSize := some 4
  preferRequestedBlockSize := false
  bind := .ok ()
  reset := .ok ()
  setSharedKvBatched _ _ := .ok ()
  draftBlock _ bonus _ bs := .ok ((bonus + 1) :: List.replicate (bs - 1) 0 |>.take (bs - 1))
  draftBlockBatched _ bonuses _ bs :=
    .ok (bonuses.map fun bonus => (bonus + 1) :: List.replicate (bs - 1) 0 |>.take (bs - 1))

lemma guessingDrafter_answers : guessingDrafter.Answers where
  bind := rfl
  reset := rfl
  setSharedKvBatched _ _ := rfl
  draftBlock n bonus context bs := ⟨_, rfl, by simp⟩
  draftBlockBatched n bonuses contexts bs := ⟨_, rfl, by simp, by simp⟩

theorem drivers_lossless_counting :
    (∃ out, generate ⟨countingTarget, guessingDrafter, 4, by decide⟩ 9
        (fun _ => false) false [] [7] 10 = some out ∧ out.tokens = [1, 2, 3, 4, 5]) ∧
    generate ⟨countingTarget, fun _ context => Int32.ofNat context.length, 3,
      true⟩ 9 [] [7, 7] 10 = some [2, 3, 4] := by
  obtain ⟨hmtp, -, -, hclassic⟩ := drivers_lossless countingTarget guessingDrafter
    guessingDrafter_answers (fun _ context => .ofNat context.length) true
    (by decide : 2 ≤ 4) (by decide : 1 ≤ 3) (by decide : 1 ≤ 9) (by decide : 9 < 10) [] [[7], [7, 7]]
    (by decide) (by decide) (by decide) (fun _ => false) (fun _ => rfl) false
  exact ⟨hmtp [7] (by decide), hclassic [7, 7] (by decide)⟩

/-! ## Sequential parity -/

/-- Each row of a batch gets what its prompt gets in a run of its own. -/
theorem runBatched_eq_generate (target : Target L) (drafter : Drafter) (hdrafter : drafter.Answers)
    {blockSize maxTokens fuel : ℕ} (hblock : 2 ≤ blockSize) (hmax : 1 ≤ maxTokens)
    (hfuel : maxTokens < fuel) {stopTokenIds : List Token} {prompts : List (List Token)}
    (hbatch : prompts ≠ []) (hprompts : ∀ prompt ∈ prompts, prompt ≠ [])
    (hseed : ∀ prompt ∈ prompts,
      target.next prompt ∉ mergedEosTokenIds target.eosTokenIds stopTokenIds) :
    ∃ rows, runBatched ⟨target, drafter, blockSize, hblock⟩ maxTokens
        stopTokenIds prompts fuel = some (.ok rows) ∧
      List.Forall₂ (fun prompt row =>
        (generate ⟨target, drafter, blockSize, hblock⟩ maxTokens (fun _ => false) false
          stopTokenIds prompt fuel).map (·.tokens) = some row.tokens) prompts rows := by
  obtain ⟨rows, hrun, hrows⟩ :=
    runBatched_eq hdrafter hbatch hprompts hmax hseed hfuel
      (m := ⟨target, drafter, blockSize, hblock⟩)
  refine ⟨rows, hrun, ?_⟩
  rw [List.forall₂_iff_get] at hrows ⊢
  refine ⟨hrows.1, fun i hi hi' => ?_⟩
  obtain ⟨out, hout, htokens⟩ : ∃ out, generate ⟨target, drafter, blockSize, hblock⟩
      maxTokens (fun _ => false) false stopTokenIds (prompts.get ⟨i, hi⟩) fuel = some out ∧ _ :=
    generate_eq hdrafter (fun _ => rfl) (hprompts _ (List.get_mem ..)) hmax
      (hseed _ (List.get_mem ..)) hfuel
  rw [hout, Option.map_some, htokens, hrows.2 i hi hi']

end Mlxcel.Speculative
