import Mlxcel.Speculative.Walk

/-!
# The MTP drivers

`MtpGenerator::generate` drives one row, `MtpBatchedGenerator::run_batched` a batch whose rows
share every draft and verify call but accept, stop and finish on their own.

**Rows.** The parallel vectors of the batched driver (`tokens_per_row`, `finished`,
`bonus_per_row`, …) and the target's cache are one list of rows here, and each loop over the rows
one pass over that list.

**Results.** `generate_eq` and `runBatched_eq`: whatever the drafter proposes, each row gets the
target's greedy continuation up to the first stop token or the token limit.
-/

namespace Mlxcel.Speculative

open List Decode

variable {L : Type}

/-! ## The single-row driver -/

/-- The counters of `MtpRoundDiagnostics`. -/
structure MtpRoundDiagnostics where
  rounds : ℕ := 0
  proposedTokens : ℕ := 0
  acceptedDraftTokens : ℕ := 0
  emittedFromVerifyTokens : ℕ := 0
  zeroAcceptRounds : ℕ := 0
  partialAcceptRounds : ℕ := 0
  fullAcceptRounds : ℕ := 0
  deriving DecidableEq, Repr

def MtpRoundDiagnostics.recordRound (d : MtpRoundDiagnostics) (proposed accepted emitted : ℕ) :
    MtpRoundDiagnostics :=
  let zero := accepted = 0
  let full := accepted ≠ 0 ∧ proposed ≤ accepted
  let part := accepted ≠ 0 ∧ accepted < proposed
  { rounds := d.rounds + 1
    proposedTokens := d.proposedTokens + proposed
    acceptedDraftTokens := d.acceptedDraftTokens + min accepted proposed
    emittedFromVerifyTokens := d.emittedFromVerifyTokens + emitted
    zeroAcceptRounds := if zero then d.zeroAcceptRounds + 1 else d.zeroAcceptRounds
    partialAcceptRounds := if part then d.partialAcceptRounds + 1 else d.partialAcceptRounds
    fullAcceptRounds := if full then d.fullAcceptRounds + 1 else d.fullAcceptRounds }

/-- `MtpGenerator`; `new` refuses a block that leaves no room for a proposal. -/
structure MtpGenerator (L : Type) where
  target : Target L
  drafter : Drafter
  blockSize : ℕ
  two_le_blockSize : 2 ≤ blockSize

/-- The locals of `generate` between two rounds, and the target's cache. -/
structure MtpRun (L : Type) where
  emitted : List Token
  logprobs : List (Option L)
  context : List Token
  bonus : Token
  acceptLens : List ℚ
  diagnostics : MtpRoundDiagnostics

/-- What `generate` returns, with the summary it leaves in `last_acceptance`. -/
structure MtpOutput (L : Type) where
  tokens : List Token
  logprobs : List (Option L)
  lastAcceptance : Option MtpRoundDiagnostics

/-- Leaving the loop. -/
def MtpRun.output (s : MtpRun L) : MtpOutput L :=
  ⟨s.emitted, s.logprobs, some s.diagnostics⟩

namespace MtpGenerator

variable (m : MtpGenerator L) (eos : List Token) (maxTokens : ℕ) (cancel : ℕ → Bool)
  (logprobsEnabled : Bool)

/-- One record for each token of a round that goes out; nothing when none are asked for. -/
def emittedLogprobs (targetLogprobs : Option (List L)) (count : ℕ) : List (Option L) :=
  if logprobsEnabled then (range count).map fun i => targetLogprobs.bind (·[i]?) else []

/-- The round loop's body from the verify pass on. -/
def verifyRound (s : MtpRun L) (draftTokens : List Token) : MtpRun L ⊕ MtpOutput L :=
  let verifyInput := s.bonus :: draftTokens
  let targetTokens := choices m.target.next s.context verifyInput
  let targetLogprobs :=
    if logprobsEnabled then some (choices m.target.logprob s.context verifyInput) else none
  let walk := speculativeWalk draftTokens targetTokens (maxTokens - s.emitted.length)
  let (out, hitEos) := emitTokens eos maxTokens s.emitted.length walk.newTokens
  let emitted := s.emitted ++ out
  let next : MtpRun L :=
    { emitted
      logprobs := s.logprobs ++ emittedLogprobs logprobsEnabled targetLogprobs out.length
      context := verifyFinalize walk.accepted verifyInput.length (s.context ++ verifyInput)
      bonus := s.bonus
      acceptLens := s.acceptLens ++ [(walk.accepted : ℚ)]
      diagnostics :=
        s.diagnostics.recordRound draftTokens.length walk.accepted walk.newTokens.length }
  if hitEos || decide (maxTokens ≤ emitted.length) then .inr next.output
  else
    match emitted.getLast? with
    | some bonus => .inl { next with bonus }
    | none => .inr next.output

/-- The round loop's body. `cancel` is the cancellation flag as the successive rounds read it. -/
def round (s : MtpRun L) : MtpRun L ⊕ MtpOutput L :=
  if maxTokens ≤ s.emitted.length then .inr s.output
  else if cancel s.diagnostics.rounds then .inr s.output
  else
    let bs :=
      mtpBlockSize m.drafter m.blockSize s.acceptLens (maxTokens - s.emitted.length + 1)
    if bs ≤ 1 then .inr s.output
    else
      match m.drafter.draftBlock s.diagnostics.rounds s.bonus s.context bs with
      | .error _ => .inr s.output
      | .ok draftTokens => m.verifyRound eos maxTokens logprobsEnabled s draftTokens

/-- `generate`, with at most `fuel` rounds. No result: the prompt is empty, which the source
asserts against, or the rounds were not enough. -/
def generate (stopTokenIds prompt : List Token) (fuel : ℕ) : Option (MtpOutput L) :=
  if prompt = [] then none
  else
    let eosTokens := mergedEosTokenIds m.target.eosTokenIds stopTokenIds
    if maxTokens = 0 then some ⟨[], [], none⟩
    else
      let firstBonus := m.target.next prompt
      let start : MtpRun L :=
        { emitted := [firstBonus]
          logprobs := if logprobsEnabled then [some (m.target.logprob prompt)] else []
          context := prompt
          bonus := firstBonus
          acceptLens := []
          diagnostics := {} }
      if firstBonus ∈ eosTokens ∨ maxTokens = 1 then some start.output
      else Loop.run (m.round eosTokens maxTokens cancel logprobsEnabled) fuel start

end MtpGenerator

/-- The drafter answers every call with a block of the length asked for. -/
structure Drafter.Answers (drafter : Drafter) : Prop where
  bind : drafter.bind = .ok ()
  reset : drafter.reset = .ok ()
  setSharedKvBatched : ∀ n contexts, drafter.setSharedKvBatched n contexts = .ok ()
  draftBlock : ∀ n bonus context bs, ∃ drafts,
    drafter.draftBlock n bonus context bs = .ok drafts ∧ drafts.length = bs - 1
  draftBlockBatched : ∀ n bonuses contexts bs, ∃ drafts,
    drafter.draftBlockBatched n bonuses contexts bs = .ok drafts ∧
      drafts.length = bonuses.length ∧ ∀ row ∈ drafts, row.length = bs - 1

section Single

variable {m : MtpGenerator L} {eos prompt : List Token} {maxTokens : ℕ} {cancel : ℕ → Bool}
  {logprobsEnabled : Bool} {s : MtpRun L}

/-- The loop's invariant. -/
def MtpRun.Ok (m : MtpGenerator L) (eos prompt : List Token) (maxTokens : ℕ) (s : MtpRun L) :
    Prop :=
  RowOk m.target.next eos prompt maxTokens s.diagnostics.rounds s.emitted s.context s.bonus false

lemma MtpRun.Ok.pending (hs : s.Ok m eos prompt maxTokens) :
    Pending m.target.next eos prompt maxTokens s.emitted s.context s.bonus ∧
      s.diagnostics.rounds < s.emitted.length := by
  simpa [MtpRun.Ok, RowOk] using hs

lemma MtpGenerator.verifyRound_ok (m : MtpGenerator L) (logprobsEnabled : Bool)
    (hs : s.Ok m eos prompt maxTokens) (draftTokens : List Token) :
    Sum.elim (fun s' => s'.Ok m eos prompt maxTokens ∧
        s'.diagnostics.rounds = s.diagnostics.rounds + 1)
      (fun out => out.tokens = cut eos (continuation m.target.next prompt maxTokens))
      (m.verifyRound eos maxTokens logprobsEnabled s draftTokens) := by
  simp only [verifyRound, speculativeWalk_choices]
  generalize hout : emitTokens eos maxTokens s.emitted.length _ = result
  obtain ⟨out, hit⟩ := result
  have hrow := hs.advance draftTokens rfl hout
  by_cases hend : (hit || decide (maxTokens ≤ (s.emitted ++ out).length)) = true
  · rw [hend, RowOk] at hrow
    rw [if_pos hend]
    exact hrow
  · rw [Bool.eq_false_iff.mpr hend] at hrow
    obtain ⟨hpending, hrounds⟩ := hrow
    rw [if_neg hend, hpending.getLast?_seen (ne_nil_of_length_pos (by omega))]
    exact ⟨⟨hpending, hrounds⟩, rfl⟩

/-- **One round of the single-row driver.** -/
lemma MtpGenerator.round_ok (hdrafter : m.drafter.Answers) (hcancel : ∀ n, cancel n = false)
    (hs : s.Ok m eos prompt maxTokens) :
    Sum.elim (fun s' => s'.Ok m eos prompt maxTokens ∧
        maxTokens - s'.diagnostics.rounds < maxTokens - s.diagnostics.rounds)
      (fun out => out.tokens = cut eos (continuation m.target.next prompt maxTokens))
      (m.round eos maxTokens cancel logprobsEnabled s) := by
  obtain ⟨hpending, hrounds⟩ := hs.pending
  have hshort := hpending.short
  have hbs := two_le_mtpBlockSize m.drafter s.acceptLens m.two_le_blockSize
    (by omega : 2 ≤ maxTokens - s.emitted.length + 1)
  obtain ⟨drafts, hdrafts, -⟩ := hdrafter.draftBlock s.diagnostics.rounds s.bonus s.context
    (mtpBlockSize m.drafter m.blockSize s.acceptLens (maxTokens - s.emitted.length + 1))
  have hverify := m.verifyRound_ok logprobsEnabled hs drafts
  have hround : m.round eos maxTokens cancel logprobsEnabled s =
      m.verifyRound eos maxTokens logprobsEnabled s drafts := by
    rw [round, if_neg (by omega), hcancel, if_neg (by simp), if_neg (by omega), hdrafts]
  rw [hround]
  cases hnext : m.verifyRound eos maxTokens logprobsEnabled s drafts with
  | inl s' =>
    rw [hnext] at hverify
    obtain ⟨hok, hcount⟩ := hverify
    exact ⟨hok, by omega⟩
  | inr out => rwa [hnext] at hverify

/-- **The single-row MTP driver is lossless.** -/
theorem MtpGenerator.generate_eq (hdrafter : m.drafter.Answers) (hcancel : ∀ n, cancel n = false)
    {stopTokenIds : List Token} (hprompt : prompt ≠ []) (hmax : 1 ≤ maxTokens)
    (hseed : m.target.next prompt ∉ mergedEosTokenIds m.target.eosTokenIds stopTokenIds)
    {fuel : ℕ} (hfuel : maxTokens < fuel) :
    ∃ out, m.generate maxTokens cancel logprobsEnabled stopTokenIds prompt fuel = some out ∧
      out.tokens = cut (mergedEosTokenIds m.target.eosTokenIds stopTokenIds)
        (continuation m.target.next prompt maxTokens) := by
  have hrow := RowOk.seed hmax hseed
  simp only [generate, if_neg hprompt, if_neg (by omega : ¬ maxTokens = 0), hseed, false_or]
  by_cases hone : maxTokens = 1
  · rw [decide_eq_true (by omega), RowOk] at hrow
    rw [if_pos hone]
    exact ⟨_, rfl, hrow⟩
  · rw [decide_eq_false (by omega)] at hrow
    rw [if_neg hone]
    refine Loop.run_of_variant (MtpRun.Ok m _ prompt maxTokens)
      (fun s => maxTokens - s.diagnostics.rounds) (fun s hs => round_ok hdrafter hcancel hs) ?_ hfuel
    exact hrow

end Single

/-! ## The batched driver -/

structure MtpBatchedGenerator (L : Type) where
  target : Target L
  drafter : Drafter
  blockSize : ℕ
  two_le_blockSize : 2 ≤ blockSize

/-- One row of the batch, with what the target's cache has read of it. -/
structure MtpRow where
  tokens : List Token
  acceptLens : List ℕ := []
  finished : Bool
  bonus : Token
  context : List Token
  deriving DecidableEq

open MtpRow

/-- The locals of `run_batched` between two rounds; `calls` counts the blocks drafted. -/
structure MtpBatchedRun where
  rows : List MtpRow
  acceptLensForAdaptive : List ℚ
  calls : ℕ

/-- The checks on what the drafter returned. -/
def checkDrafts (batchSize bs : ℕ) (drafts : List (List Token)) : Except DrafterError Unit :=
  let returned := drafts.length
  if returned ≠ batchSize then
    .error (.draftFailed s!"MTP batched drafter returned {returned} rows for B = {batchSize}")
  else
    match drafts.findIdx? fun row => decide (row.length ≠ bs - 1) with
    | some r =>
      let produced := (drafts.getD r []).length
      let expected := bs - 1
      .error (.draftFailed (s!"MTP batched drafter row {r} produced {produced} proposals; " ++
        s!"expected bs - 1 = {expected}"))
    | none => .ok ()

namespace MtpRow

/-- The emit loop of a row; a frozen row emits nothing. -/
def emit (eos : List Token) (maxNewTokens : ℕ) (row : MtpRow) (walk : WalkResult) : MtpRow :=
  if row.finished then row
  else
    let (out, hitEos) := emitTokens eos maxNewTokens row.tokens.length walk.newTokens
    let tokens := row.tokens ++ out
    { row with
      tokens
      finished := hitEos || decide (maxNewTokens ≤ tokens.length) }

/-- The remaining budget; a frozen row has none. -/
def budget (maxNewTokens : ℕ) (row : MtpRow) : ℕ :=
  if row.finished then 0 else maxNewTokens - row.tokens.length

end MtpRow

namespace MtpBatchedGenerator

variable (m : MtpBatchedGenerator L) (eos : List Token) (maxNewTokens : ℕ)

/-- A round from the verify pass to the rollback, and the average that the block size adapts to. -/
def verifyRound (rows : List MtpRow) (drafts : List (List Token)) (bs : ℕ) :
    List MtpRow × List ℚ :=
  let verifyInput := zipWith (fun row draft => row.bonus :: draft) rows drafts
  let targetTokens :=
    zipWith (fun row input => choices m.target.next row.context input) rows verifyInput
  let budgets := rows.map (budget maxNewTokens)
  let walks := speculativeWalkBatched drafts targetTokens budgets
  let active := (rows.zip walks).filter fun row => !row.1.finished
  let average : List ℚ :=
    if active = [] then []
    else [((active.map fun row => row.2.accepted).sum : ℚ) / active.length]
  let rows := zipWith (fun row walk =>
    { row with acceptLens := row.acceptLens ++ [walk.accepted] }) rows walks
  let rows := zipWith (emit eos maxNewTokens) rows walks
  let rows := zipWith (fun row walk =>
    { row with bonus := walk.newTokens.getLast?.getD row.bonus }) rows walks
  let rows := zipWith (fun row input => { row with context := row.context ++ input })
    rows verifyInput
  let rows := zipWith (fun row walk =>
    { row with context := verifyFinalize walk.accepted bs row.context }) rows walks
  (rows, average)

/-- The round loop's body. -/
def round (s : MtpBatchedRun) : MtpBatchedRun ⊕ Except DrafterError (List MtpRow) :=
  if s.rows.all (·.finished) then .inr (.ok s.rows)
  else
    let bs := mtpBlockSize m.drafter m.blockSize s.acceptLensForAdaptive
      (remainingMin maxNewTokens (s.rows.map fun row => (row.finished, row.tokens.length)))
    if bs ≤ 1 then .inr (.ok s.rows)
    else
      match m.drafter.draftBlockBatched s.calls (s.rows.map (·.bonus)) (s.rows.map (·.context))
        bs with
      | .error e => .inr (.error e)
      | .ok drafts =>
        match checkDrafts s.rows.length bs drafts with
        | .error e => .inr (.error e)
        | .ok () =>
          let (rows, average) := m.verifyRound eos maxNewTokens s.rows drafts bs
          if rows.all (·.finished) then .inr (.ok rows)
          else
            match m.drafter.setSharedKvBatched (s.calls + 1) (rows.map (·.context)) with
            | .error e => .inr (.error e)
            | .ok () => .inl
              { rows
                acceptLensForAdaptive := s.acceptLensForAdaptive ++ average
                calls := s.calls + 1 }

/-- The seed of a row: the target read the prompt and chose the first token. -/
def seedRow (prompt : List Token) : MtpRow :=
  let bonus := m.target.next prompt
  { tokens := [bonus]
    finished := decide (bonus ∈ eos ∨ maxNewTokens ≤ 1)
    bonus
    context := prompt }

/-- `run_batched`, with at most `fuel` rounds; the rows that it returns carry `tokens` and
`accept_lens`. -/
def runBatched (stopTokenIds : List Token) (prompts : List (List Token)) (fuel : ℕ) :
    Option (Except DrafterError (List MtpRow)) :=
  if prompts = [] then
    some (.error (.draftFailed "MTP batched round loop requires B >= 1; got prompts = []"))
  else
    match prompts.findIdx? (· = []) with
    | some r => some (.error (.draftFailed
        s!"MTP batched round loop: prompt row {r} must be non-empty"))
    | none =>
      let eosTokens := mergedEosTokenIds m.target.eosTokenIds stopTokenIds
      let rows := prompts.map (m.seedRow eosTokens maxNewTokens)
      if rows.all (·.finished) then some (.ok rows)
      else
        match m.drafter.setSharedKvBatched 0 (rows.map (·.context)) with
        | .error e => some (.error e)
        | .ok () => Loop.run (m.round eosTokens maxNewTokens) fuel
          { rows, acceptLensForAdaptive := [], calls := 0 }

end MtpBatchedGenerator

section Batched

variable {m : MtpBatchedGenerator L} {eos : List Token} {maxNewTokens : ℕ}

/-- What a round does to one row. -/
def MtpRow.advance (next : List Token → Token) (eos : List Token) (maxNewTokens bs : ℕ)
    (row : MtpRow) (draft : List Token) : MtpRow :=
  let walk := speculativeWalk draft (choices next row.context (row.bonus :: draft))
    (row.budget maxNewTokens)
  let row' :=
    emit eos maxNewTokens { row with acceptLens := row.acceptLens ++ [walk.accepted] } walk
  { row' with
    bonus := walk.newTokens.getLast?.getD row'.bonus
    context := verifyFinalize walk.accepted bs (row'.context ++ row.bonus :: draft) }

/-- The rows of a batch do not touch each other. -/
lemma MtpBatchedGenerator.verifyRound_rows {rows : List MtpRow} {drafts : List (List Token)} (bs : ℕ)
    (hlen : drafts.length = rows.length) : (m.verifyRound eos maxNewTokens rows drafts bs).1 =
      zipWith (advance m.target.next eos maxNewTokens bs) rows drafts := by
  simp only [verifyRound, speculativeWalkBatched]
  induction rows generalizing drafts with
  | nil => simp
  | cons row rows ih =>
    cases drafts with
    | nil => simp at hlen
    | cons draft drafts =>
      have htail := ih (by simpa using hlen : drafts.length = rows.length)
      simp only [map_cons, zipWith_cons_cons, zip_cons_cons, htail]
      rfl

/-- A row after `n` rounds. -/
def MtpRow.Ok (next : List Token → Token) (eos : List Token) (maxNewTokens n : ℕ)
    (prompt : List Token) (row : MtpRow) : Prop :=
  RowOk next eos prompt maxNewTokens n row.tokens row.context row.bonus row.finished

/-- **One round of a row.** A frozen row keeps its answer, whatever it is fed. -/
lemma MtpRow.Ok.advance {next : List Token → Token} {prompt : List Token} {n bs : ℕ} {row : MtpRow}
    {draft : List Token} (hrow : row.Ok next eos maxNewTokens n prompt)
    (hbs : draft.length + 1 = bs) :
    (row.advance next eos maxNewTokens bs draft).Ok next eos maxNewTokens (n + 1) prompt := by
  subst hbs
  simp only [MtpRow.advance, speculativeWalk_choices]
  cases hfinished : row.finished with
  | true =>
    simpa [Ok, RowOk, emit, hfinished] using hrow
  | false =>
    rw [Ok, hfinished] at hrow
    have hbudget : row.budget maxNewTokens = maxNewTokens - row.tokens.length := by
      simp [budget, hfinished]
    have hnext := hrow.advance draft rfl rfl
    rw [← hbudget] at hnext
    simpa [Ok, emit] using hnext

/-- The batch after `s.calls` rounds. -/
def MtpBatchedRun.Ok (m : MtpBatchedGenerator L) (eos : List Token) (maxNewTokens : ℕ)
    (prompts : List (List Token)) (s : MtpBatchedRun) : Prop :=
  Forall₂ (MtpRow.Ok m.target.next eos maxNewTokens s.calls) prompts s.rows

variable {prompts : List (List Token)} {s : MtpBatchedRun}

lemma checkDrafts_eq_ok {batchSize bs : ℕ} {drafts : List (List Token)}
    (hlen : drafts.length = batchSize) (hrows : ∀ row ∈ drafts, row.length = bs - 1) :
    checkDrafts batchSize bs drafts = .ok () := by
  have hnone : (drafts.findIdx? fun row => decide (row.length ≠ bs - 1)) = none := by
    simpa [findIdx?_eq_none_iff] using hrows
  simp only [checkDrafts, hnone, if_neg (not_not.mpr hlen)]

lemma MtpBatchedGenerator.round_ok (hdrafter : m.drafter.Answers)
    (hs : s.Ok m eos maxNewTokens prompts) :
    Sum.elim (fun s' => s'.Ok m eos maxNewTokens prompts ∧
        maxNewTokens - s'.calls < maxNewTokens - s.calls)
      (fun result => ∃ rows, result = .ok rows ∧ Forall₂ (fun prompt row =>
        row.tokens = cut eos (continuation m.target.next prompt maxNewTokens)) prompts rows)
      (m.round eos maxNewTokens s) := by
  rw [round]
  by_cases hall : s.rows.all (·.finished) = true
  · rw [if_pos hall]
    exact ⟨s.rows, rfl, forall₂_of_all (hs.imp fun _ _ hrow => hrow.answer) hall⟩
  have hactive : ∃ row ∈ s.rows, row.finished = false := by simpa using hall
  have hremaining : 2 ≤ remainingMin maxNewTokens
      (s.rows.map fun row => (row.finished, row.tokens.length)) := by
    refine two_le_remainingMin (by simpa using hactive) ?_
    simp only [mem_map, forall_exists_index, and_imp, forall_apply_eq_imp_iff₂]
    intro row hrow hrun
    obtain ⟨-, -, hshort⟩ := rounds_lt_of_active hs hrow hrun
    exact hshort
  have hbs := two_le_mtpBlockSize m.drafter s.acceptLensForAdaptive m.two_le_blockSize hremaining
  rw [if_neg hall]
  generalize mtpBlockSize m.drafter m.blockSize s.acceptLensForAdaptive _ = bs at hbs ⊢
  obtain ⟨drafts, hdrafts, hlen, hwidth⟩ := hdrafter.draftBlockBatched s.calls
    (s.rows.map (·.bonus)) (s.rows.map (·.context)) bs
  rw [length_map] at hlen
  have hrows : Forall₂ (Ok m.target.next eos maxNewTokens (s.calls + 1)) prompts
      (m.verifyRound eos maxNewTokens s.rows drafts bs).1 := by
    rw [verifyRound_rows bs hlen]
    refine forall₂_zipWith hs hlen fun prompt row draft hdraft hrow => hrow.advance ?_
    rw [hwidth draft hdraft]
    omega
  simp only [if_neg (by omega : ¬ bs ≤ 1), hdrafts, checkDrafts_eq_ok hlen hwidth,
    hdrafter.setSharedKvBatched]
  by_cases hdone : (m.verifyRound eos maxNewTokens s.rows drafts bs).1.all (·.finished) = true
  · rw [if_pos hdone]
    exact ⟨_, rfl, forall₂_of_all (hrows.imp fun _ _ hrow => hrow.answer) hdone⟩
  · rw [if_neg hdone]
    obtain ⟨row, hrow, hrun⟩ := hactive
    obtain ⟨prompt, hcalls, hshort⟩ := rounds_lt_of_active hs hrow hrun
    exact ⟨hrows, by simp only; omega⟩

/-- **The batched MTP driver is lossless**, row by row. -/
theorem MtpBatchedGenerator.runBatched_eq (hdrafter : m.drafter.Answers)
    {stopTokenIds : List Token} (hbatch : prompts ≠ []) (hprompts : ∀ prompt ∈ prompts, prompt ≠ [])
    (hmax : 1 ≤ maxNewTokens)
    (hseed : ∀ prompt ∈ prompts,
      m.target.next prompt ∉ mergedEosTokenIds m.target.eosTokenIds stopTokenIds)
    {fuel : ℕ} (hfuel : maxNewTokens < fuel) :
    ∃ rows, m.runBatched maxNewTokens stopTokenIds prompts fuel = some (.ok rows) ∧
      Forall₂ (fun prompt row =>
        row.tokens = cut (mergedEosTokenIds m.target.eosTokenIds stopTokenIds)
          (continuation m.target.next prompt maxNewTokens)) prompts rows := by
  have hnone : prompts.findIdx? (· = []) = none := by
    simpa [findIdx?_eq_none_iff] using hprompts
  have hrows : Forall₂ (Ok m.target.next
      (mergedEosTokenIds m.target.eosTokenIds stopTokenIds) maxNewTokens 0) prompts
      (prompts.map (m.seedRow (mergedEosTokenIds m.target.eosTokenIds stopTokenIds)
        maxNewTokens)) := by
    rw [forall₂_map_right_iff, forall₂_same]
    intro prompt hprompt
    have hrow := RowOk.seed hmax (hseed prompt hprompt)
    simpa [Ok, seedRow, hseed prompt hprompt] using hrow
  simp only [runBatched, if_neg hbatch, hnone, hdrafter.setSharedKvBatched]
  by_cases hall : (prompts.map (m.seedRow (mergedEosTokenIds m.target.eosTokenIds stopTokenIds)
      maxNewTokens)).all (·.finished) = true
  · rw [if_pos hall]
    exact ⟨_, rfl, forall₂_of_all (hrows.imp fun _ _ hrow => hrow.answer) hall⟩
  · rw [if_neg hall]
    obtain ⟨result, hrun, rows, rfl, hanswers⟩ := Loop.run_of_variant
      (MtpBatchedRun.Ok m _ maxNewTokens prompts) (fun s => maxNewTokens - s.calls)
      (fun s hs => round_ok hdrafter hs) (s := ⟨_, [], 0⟩) hrows hfuel
    exact ⟨rows, hrun, hanswers⟩

end Batched

end Mlxcel.Speculative
