import Mlxcel.Batch.Intake

/-!
# Prefill

The single, chunked, batched and speculative ways through the prompt: `execute_prefill` with its
admission gate and its preemption, `execute_batched_prefill` with the cohorts of
`batch/prefill_cohort.rs`, the bursts of `batch/speculative_burst.rs`, and `finish_prefill`, in which
the first three meet.
-/

namespace Mlxcel.Batch

open MachineInt

def naTileSize : ℕ := 32

def alignToNaTile (len : ℕ) : ℕ := divCeil len naTileSize * naTileSize

def kvarnPaddingAbort : String :=
  "kvarn cache cannot strip prefill padding: " ++
  "quantized tiles already hold padded rows; aborting sequence to prevent " ++
  "silent cache desync (avoid mixed-length batching and NA-aligned prefill " ++
  "on kvarn sessions — finalize-cap-at-true-length (#36) keeps padded rows " ++
  "in fp16 tail, but this path is uncapped)"

/-- `next_chunked_prefill_range`: the end of the chunk that starts at `offset`. -/
def nextChunkedPrefillEnd (promptLen offset chunkSize : ℕ) : Option ℕ :=
  if chunkSize = 0 ∨ promptLen ≤ offset then none else some (min (offset + chunkSize) promptLen)

namespace SequenceInfo

def beginPrefill (seq : SequenceInfo) : Except String SequenceInfo :=
  (seq.state.transitionTo .prefilling).map fun state => { seq with state := state }

/-- The fields that `finish_prefill` stores for the decode steps. -/
def withFirstToken (seq : SequenceInfo) (eos : List Token) (first : Token)
    (thinking : ThinkingState) : SequenceInfo :=
  let history := initialTokenHistory seq.promptTokens seq.sampling.needsTokenHistory
  { seq with
    thinking := thinking
    generatedTokens := seq.generatedTokens ++ [first]
    mergedEos := eos
    tokenHistory := if seq.sampling.needsTokenHistory then history ++ [first] else history }

/-- The result of a sequence that has given `tokens`. -/
def result (seq : SequenceInfo) (tokens : List Token) : GenerationResult :=
  buildGenerationResult tokens seq.promptTokens.length seq.maxTokens seq.alreadyCachedTokens

end SequenceInfo

namespace Scheduler

variable (s : Scheduler) (w : World) (seq : SequenceInfo)

/-- `active_batch.add`, after which a sequence that found no room is dropped. -/
def activate : Scheduler :=
  match s.active.add seq with
  | some active => { s with active := active }
  | none => s

/-- The event for a committed token, if the streaming decoder releases text. -/
def sendToken (token : Token) (logprobs : Bool) : Scheduler :=
  match w.text seq token with
  | none => s
  | some text =>
    if logprobs && seq.logprobs && w.logprob seq token then
      s.send seq.channel (.tokenWithLogprobs text)
    else s.send seq.channel (.token text)

/-- How a sequence leaves after its terminal event: its cache is offered to the store, its context
and its slot are given up. -/
def settleSequence (tokens : List Token) (healthy : Bool) : Scheduler :=
  ((s.donateFinishedSequenceCache w seq.seqId seq.promptTokens tokens healthy).forget
    seq.seqId).releaseSequenceCaches seq.seqId

/-- How a sequence with a result ends. -/
def completeSequence (tokens : List Token) : Scheduler :=
  (s.send seq.channel (.done (seq.result tokens))).settleSequence w seq tokens true

/-- How a structured-output failure ends a prefill. -/
def failStructured (msg : String) : Scheduler :=
  ((s.send seq.channel (.error ("structured output: " ++ msg))).forget
    seq.seqId).releaseSequenceCaches seq.seqId

/-- The end of an orphaned prefill. -/
def finishOrphan : Scheduler :=
  let s := s.drainPrefillCoalescing w (s.cfg.hashTokens seq.promptTokens)
  { s with orphanedPrefillCount := s.orphanedPrefillCount - 1 }.activate
    (seq.transition (.finished .cancelled))

/-- `finish_prefill` from the first committed token on. -/
def commitFirstToken (sampled first : Token) (thinking : ThinkingState) : Scheduler :=
  let eos := mergeTokenIds s.cfg.modelEos seq.sampling.stopTokenIds
  if first ∈ eos then
    s.completeSequence w ({ seq with thinking := thinking }.transition (.finished .stop)) []
  else
    let seq := seq.withFirstToken eos first thinking
    let s := s.sendToken w seq first (first == sampled)
    if seq.maxTokens ≤ seq.generatedTokens.length then
      s.completeSequence w (seq.transition (.finished .length)) seq.generatedTokens
    else
      match seq.state.transitionTo .decoding with
      | .error err => s.abortSequence w seq err
      | .ok state => s.activate { seq with state := state }

def finishPrefill : Scheduler :=
  if seq.orphaned then s.finishOrphan w seq
  else
    match if seq.structured then w.maskError seq else none with
    | some msg => s.failStructured seq msg
    | none =>
      let sampled := w.sample seq
      match if seq.structured then w.consumeError seq sampled else none with
      | some msg => s.failStructured seq msg
      | none =>
        let (first, thinking) := seq.thinking.applyThinkingBudget sampled
        s.commitFirstToken w seq sampled first thinking

/-! ## One sequence at a time -/

/-- The padding of a forward pass of `len` tokens. -/
def paddingOf (cfg : Config) (len : ℕ) : ℕ :=
  if cfg.shouldAlignPrefill then alignToNaTile len - len else 0

/-- A forward pass over `tokens` and padding, and the removal of the padding. It is an error when a
cache cannot give the padding back. -/
def paddedForward (id : SequenceId) (tokens : List Token) (padding : ℕ) :
    Except Scheduler Scheduler :=
  let s := s.forward [(id, tokens ++ List.replicate padding 0)]
  if 0 < padding && w.paddingTrimWouldCorrupt id then .error s else .ok (s.trimEnd id padding)

/-- The error of `prepared_embedding_refs`. -/
def embeddingError (w : World) (seq : SequenceInfo) : Option String :=
  if seq.vlmEmbeddings then w.embeddingError seq else none

/-- `finish_prefill` is the last call of `execute_full_prefill` and of a chunked prefill. They give
the sequence that they call it on, and their callers make the call. -/
def finishWith : Scheduler × Option SequenceInfo → Scheduler
  | (s, none) => s
  | (s, some seq) => s.finishPrefill w seq

def executeFullPrefill : Scheduler × Option SequenceInfo :=
  let suffix := seq.promptTokens.drop seq.prefillStartOffset
  let padding := if seq.vlmEmbeddings then 0 else paddingOf s.cfg suffix.length
  if (s.cacheSet? seq.seqId).isNone then
    (s.abortSequence w seq "Cache not found for sequence during prefill", none)
  else
    match embeddingError w seq with
    | some err => (s.abortSequence w seq err, none)
    | none =>
      match s.paddedForward w seq.seqId suffix padding with
      | .error s => (s.abortSequence w seq kvarnPaddingAbort, none)
      | .ok s =>
        (s.enforceMaxKvSizeFor seq.seqId,
          some { seq with prefillOffset := seq.prefillStartOffset + suffix.length })

/-- One chunk of a chunked prefill, from `offset` to `stop`. -/
def executeChunk (offset stop : ℕ) : Scheduler × Option SequenceInfo :=
  let chunk := (seq.promptTokens.drop offset).take (stop - offset)
  match s.paddedForward w seq.seqId chunk (paddingOf s.cfg chunk.length) with
  | .error s => (s.abortSequence w seq kvarnPaddingAbort, none)
  | .ok s =>
    let s := s.enforceMaxKvSizeFor seq.seqId
    let seq := { seq with prefillOffset := stop }
    if seq.promptTokens.length ≤ stop then (s, some seq)
    else ({ s with chunked := some seq }, none)

def startChunkedPrefill : Scheduler × Option SequenceInfo :=
  match nextChunkedPrefillEnd seq.promptTokens.length seq.prefillStartOffset
      s.cfg.prefillChunkSize with
  | none => (s.abortSequence w seq "Chunked prefill start had no suffix tokens to process", none)
  | some stop =>
    if (s.cacheSet? seq.seqId).isNone then
      (s.abortSequence w seq "Cache not found for sequence during chunked prefill", none)
    else
      match embeddingError w seq with
      | some err => (s.abortSequence w seq err, none)
      | none => s.executeChunk w seq seq.prefillStartOffset stop

def continueChunkedPrefill : Scheduler × Option SequenceInfo :=
  match s.chunked with
  | none => (s, none)
  | some seq =>
    let s := { s with chunked := none }
    match nextChunkedPrefillEnd seq.promptTokens.length seq.prefillOffset s.cfg.prefillChunkSize with
    | none =>
      (s.abortSequence w seq "Chunked prefill continuation had no remaining tokens to process",
        none)
    | some stop =>
      if (s.cacheSet? seq.seqId).isNone then
        (s.abortSequence w seq "Cache not found during chunked prefill continuation", none)
      else s.executeChunk w seq seq.prefillOffset stop

/-! ## Preemption and the block budget -/

/-- The fields that preemption resets. The thinking state is not among them. -/
def resetForPrefill (id : SequenceId) : SequenceInfo :=
  { seq with
    seqId := id
    generatedTokens := []
    tokenHistory := []
    mergedEos := []
    prefillOffset := 0
    prefillStartOffset := 0
    alreadyCachedTokens := 0 }

/-- The second half of `try_evict_for_preemption`: the victim loses its slot, gets a new one and goes
back to the queue. -/
def requeueVictim (victim : SequenceInfo) : Scheduler :=
  let s := s.releaseSequenceCaches victim.seqId
  match s.allocateSequenceState with
  | .error err => s.send victim.channel (.error ("Preemption re-queue failed: " ++ err))
  | .ok (newId, s) =>
    match victim.state.transitionTo .queued with
    | .error err =>
      (s.releaseSequenceCaches newId).send victim.channel
        (.error ("Eviction state error: " ++ err))
    | .ok state =>
      let victim := { resetForPrefill victim newId with state := state }
      let s := s.note (.bound victim.channel newId)
      match s.queue.enqueue victim with
      | some queue => { s with queue := queue }
      | none =>
        (s.releaseSequenceCaches newId).send victim.channel
          (.error "Preemption re-queue failed: prefill queue full")

/-- `try_evict_for_preemption`; `false` when there was no victim. -/
def tryEvictForPreemption : Scheduler × Bool :=
  match selectEvictionVictim s.cfg.preemptionPolicy s.active with
  | none => (s, false)
  | some victimId =>
    match s.active.remove victimId with
    | none => (s, false)
    | some (victim, active) => ({ s with active := active }.requeueVictim victim, true)

def estimatePrefillBlocks (promptLen : ℕ) : ℕ :=
  if s.cfg.backend = .pagedKvCache ∧ 0 < s.cfg.blockSize then
    divCeil promptLen s.cfg.blockSize * s.cfg.numLayers
  else 0

/-- Whether `need` blocks can be acquired. -/
def hasRoom (need : ℕ) : Bool :=
  match s.freePagedBlockBudget with
  | none => true
  | some free => need ≤ free

/-- `evict_one_lru` and the release of its pins. -/
def evictOneLru : Scheduler :=
  { s with store := s.store.eraseIdx (w.oldest s.store % s.store.length) }.drainStorePagedReleases

/-- The first loop of `reclaim_paged_blocks`; every round takes one of the store's entries. -/
def evictUntilRoom (s : Scheduler) (w : World) (need : ℕ) : ℕ → Scheduler
  | 0 => s
  | rounds + 1 =>
    if s.hasRoom need || s.store.isEmpty then s
    else (s.evictOneLru w).evictUntilRoom w need rounds

/-- The second loop; every round takes one of the active sequences. -/
def preemptUntilRoom (s : Scheduler) (need : ℕ) : ℕ → Scheduler
  | 0 => s
  | rounds + 1 =>
    if s.hasRoom need then s
    else
      match s.tryEvictForPreemption with
      | (s, true) => s.preemptUntilRoom need rounds
      | (s, false) => s

def reclaimPagedBlocks (need : ℕ) : Scheduler :=
  let s := if s.cfg.promptCache then s.evictUntilRoom w need s.store.length else s
  s.preemptUntilRoom need (s.active.len + 1)

/-- `admit_paged_prefill`; `none` when the sequence was deferred or rejected. -/
def admitPagedPrefill : Scheduler × Option SequenceInfo :=
  match s.cfg.pagedBlockBudget with
  | none => (s, some seq)
  | some total =>
    let need := s.estimatePrefillBlocks seq.promptTokens.length
    if need = 0 then (s, some seq)
    else if total < need then
      (s.abortSequence w seq
        s!"prompt needs {need} KV blocks, exceeding the {total}-block KV cache budget", none)
    else if s.hasRoom need then (s, some seq)
    else
      let s := s.reclaimPagedBlocks w need
      if s.hasRoom need then (s, some seq)
      else
        match s.queue.enqueue seq with
        | some queue => ({ s with queue := queue }, none)
        | none =>
          (((s.forget seq.seqId).releaseSequenceCaches seq.seqId).send seq.channel
            (.error "Server busy: prefill queue full"), none)

/-! ## Speculative bursts -/

def shouldBurstForSequence (dispatch : SpeculativeDispatch) (seq : SequenceInfo) : Bool :=
  dispatch.isKindSpecific && !(seq.vlmEmbeddings || seq.hasImages || seq.hasAudio) &&
    !seq.structured && seq.prefillStartOffset == 0

def samplingConfigEq (a b : SamplingConfig) : Bool :=
  a.params == b.params && a.stopTokenIds == b.stopTokenIds && !a.hasTokenBias && !b.hasTokenBias &&
    !a.needsTokenHistory && !b.needsTokenHistory

/-- What the window of a batched burst is collected by. -/
def joinsWindow (cfg : Config) (head candidate : SequenceInfo) : Bool :=
  (cfg.mtpBatchedRaggedWindowEnabled ||
      candidate.promptTokens.length == head.promptTokens.length) &&
    candidate.maxTokens == head.maxTokens && samplingConfigEq candidate.sampling head.sampling &&
    shouldBurstForSequence cfg.speculativeDispatch candidate && !candidate.logprobs

/-- The loop of `finalize_burst_success`: the sequence and the events after its tokens. -/
def streamBurst (w : World) (eos : List Token) (maxTokens : ℕ) :
    Scheduler → SequenceInfo → List Token → Scheduler × SequenceInfo
  | s, seq, [] => (s, seq)
  | s, seq, token :: tokens =>
    if maxTokens ≤ seq.generatedTokens.length then (s, seq)
    else
      let (final, thinking) := seq.thinking.applyThinkingBudget token
      let seq := { seq with thinking := thinking }
      if final ∈ eos then (s, seq)
      else
        let seq := { seq with generatedTokens := seq.generatedTokens ++ [final] }
        streamBurst w eos maxTokens (s.sendToken w seq final (final == token)) seq tokens

/-- `finalize_burst_success`. The row's state was fed by the round loop. -/
def finalizeBurstSuccess (tokens fed : List Token) : Scheduler × SequenceInfo :=
  let s := s.modifySet seq.seqId fun set => { set with tokens := fed }
  let eos := mergeTokenIds s.cfg.modelEos seq.sampling.stopTokenIds
  let (s, seq) := streamBurst w eos (max seq.maxTokens 1) s (seq.transition .prefilling) tokens
  (s.send seq.channel (.done (seq.result seq.generatedTokens)), seq)

/-- All rows of a burst are finalized before the first of them is settled. -/
def finalizeRows (w : World) (tokens fed : SequenceInfo → List Token) :
    Scheduler → List SequenceInfo → Scheduler × List SequenceInfo
  | s, [] => (s, [])
  | s, seq :: seqs =>
    let (s, row) := s.finalizeBurstSuccess w seq (tokens seq) (fed seq)
    let (s, rows) := finalizeRows w tokens fed s seqs
    (s, row :: rows)

/-- The scheduler's part of a finished burst. -/
def settleRows (rows : List SequenceInfo) (healthy : Bool) : Scheduler :=
  rows.foldl (fun s row => s.settleSequence w row row.generatedTokens healthy) s

def emitErrorAndFinalize (msg : String) : Scheduler :=
  s.send seq.channel (.error ("Speculative burst: " ++ msg))

/-- The siblings of a declined window go back to the queue. -/
def requeueSiblings (siblings : List SequenceInfo) (error : String) : Scheduler :=
  siblings.foldl (fun s seq =>
    match s.queue.enqueue seq with
    | some queue => { s with queue := queue }
    | none => (s.forget seq.seqId).abortSequence w seq error) s

/-- `try_speculative_burst` on a collected window. -/
def runBurst (head : SequenceInfo) (siblings : List SequenceInfo) :
    Scheduler × Option SequenceInfo :=
  if siblings = [] && s.cfg.speculativeDispatch == .mtp && !w.mtpB1ShouldRun then (s, some head)
  else if siblings ≠ [] && s.cfg.speculativeDispatch == .mtp && !s.cfg.mtpBatchedBurstEnabled then
    (s.requeueSiblings w siblings "MTP batched speculative burst declined and prefill queue full",
      some head)
  else
    match w.burst (head :: siblings) with
    | .declined =>
      (s.requeueSiblings w siblings "speculative burst declined and prefill queue full", some head)
    | .failed msg =>
      let rows := head :: siblings
      ((rows.foldl (fun s seq => s.emitErrorAndFinalize seq msg) s).settleRows w rows false, none)
    | .produced tokens fed =>
      let (s, rows) := finalizeRows w tokens fed s (head :: siblings)
      (s.settleRows w rows true, none)

/-- `try_speculative_burst`: `some` sequence goes on through the classic path. -/
def trySpeculativeBurst : Scheduler × Option SequenceInfo :=
  if !shouldBurstForSequence s.cfg.speculativeDispatch seq then (s, some seq)
  else if 1 < s.active.maxSize && !seq.logprobs then
    let (siblings, queue) :=
      s.queue.drainMatchingWindow seq.priority (s.active.maxSize - 1) (joinsWindow s.cfg seq)
    { s with queue := queue }.runBurst w seq siblings
  else s.runBurst w seq []

/-! ## `execute_prefill` -/

/-- Arming of `prefill_in_progress`. -/
def arm (hash : UInt64) : Scheduler :=
  if s.cfg.decouplePrefillOnDisconnect then
    { s with prefillInProgress := s.prefillInProgress.insert hash (s.parked hash) }
  else s

/-- The classic path of `execute_prefill`. -/
def prefillSequence : Scheduler × Option SequenceInfo :=
  match seq.beginPrefill with
  | .error err => (s.abortSequence w seq err, none)
  | .ok seq =>
    let s := s.arm (s.cfg.hashTokens seq.promptTokens)
    if 0 < s.cfg.prefillChunkSize && s.cfg.prefillChunkSize < seq.promptTokens.length &&
        !seq.vlmEmbeddings then
      s.startChunkedPrefill w seq
    else s.executeFullPrefill w seq

/-- `execute_prefill` from the dequeued sequence on. -/
def prefillDequeued : Scheduler × Option SequenceInfo :=
  match s.admitPagedPrefill w seq with
  | (s, none) => (s, none)
  | (s, some seq) =>
    match s.trySpeculativeBurst w seq with
    | (s, none) => (s, none)
    | (s, some seq) => s.prefillSequence w seq

/-- `execute_prefill` when no chunked prefill is in progress. -/
def prefillNext : Scheduler × Option SequenceInfo :=
  match s.queue.dequeue with
  | none => (s, none)
  | some (seq, queue) => { s with queue := queue }.prefillDequeued w seq

/-- `execute_prefill` up to `finish_prefill`. -/
def executePrefill : Scheduler × Option SequenceInfo :=
  if s.chunked.isSome then s.continueChunkedPrefill w
  else if s.active.isFull && s.cfg.enablePreemption then
    match s.tryEvictForPreemption with
    | (s, false) => (s, none)
    | (s, true) => s.prefillNext w
  else s.prefillNext w

/-! ## `execute_batched_prefill` -/

inductive PrefillCohortKind
  | batchedCold
  | sequential
  deriving DecidableEq, Repr

/-- The rows are the members themselves, not their indices. -/
structure PrefillCohort where
  kind : PrefillCohortKind
  members : List SequenceInfo

/-- A row of the padded batched path has no history and no embeddings. -/
def isCold : Bool := !seq.vlmEmbeddings && seq.prefillStartOffset == 0

def allEqualLen (seqs : List SequenceInfo) : Bool :=
  match seqs with
  | [] => true
  | first :: _ => seqs.all fun seq => seq.promptTokens.length == first.promptTokens.length

def flushSequential (pending : List SequenceInfo) : List PrefillCohort :=
  if pending = [] then [] else [⟨.sequential, pending⟩]

/-- A maximal run of cold rows becomes a batch or joins the pending rows. -/
def closeRun (canPad : Bool) (pending run : List SequenceInfo) :
    List PrefillCohort × List SequenceInfo :=
  if 2 ≤ run.length && (canPad || allEqualLen run) then
    (flushSequential pending ++ [⟨.batchedCold, run⟩], [])
  else ([], pending ++ run)

/-- The loop of `plan_prefill_cohorts`. -/
def planCohorts (canPad : Bool) :
    List SequenceInfo → List SequenceInfo → List SequenceInfo → List PrefillCohort
  | [], pending, run =>
    let (cohorts, pending) := closeRun canPad pending run
    cohorts ++ flushSequential pending
  | seq :: seqs, pending, run =>
    if isCold seq then planCohorts canPad seqs pending (run ++ [seq])
    else
      let (cohorts, pending) := closeRun canPad pending run
      cohorts ++ planCohorts canPad seqs (pending ++ [seq]) []

def planPrefillCohorts (canBatch canPad : Bool) (seqs : List SequenceInfo) : List PrefillCohort :=
  if canBatch then planCohorts canPad seqs [] [] else flushSequential seqs

/-- `begin_prefill` and `execute_full_prefill`. -/
def prefillWhole : Scheduler :=
  match seq.beginPrefill with
  | .error err => s.abortSequence w seq err
  | .ok seq => finishWith w (s.executeFullPrefill w seq)

/-- A row of the padded forward, whose padding is `padding`. -/
def finishBatchedRow (paddedLen : ℕ) : Scheduler :=
  let padding := paddedLen - seq.promptTokens.length
  if 0 < padding && w.paddingTrimWouldCorrupt seq.seqId then
    s.abortSequence w seq kvarnPaddingAbort
  else
    (s.trimEnd seq.seqId padding).finishPrefill w
      { seq with prefillOffset := seq.promptTokens.length }

/-- `begin_prefill` with a refusal that is only logged. -/
def beginOrKeep : SequenceInfo :=
  match seq.beginPrefill with
  | .ok seq => seq
  | .error _ => seq

def runPaddedBatchedPrefill (seqs : List SequenceInfo) : Scheduler :=
  match seqs with
  | [] => s
  | [seq] => s.prefillWhole w seq
  | _ =>
    let seqs := seqs.map beginOrKeep
    let maxLen := (seqs.map (·.promptTokens.length)).foldl max 0
    let paddedLen :=
      if s.cfg.supportsPaddedPrefill && s.cfg.shouldAlignPrefill then alignToNaTile maxLen
      else maxLen
    if !s.cfg.supportsPaddedPrefill && seqs.any (fun seq => seq.promptTokens.length != maxLen) then
      seqs.foldl (fun s seq => finishWith w (s.executeFullPrefill w seq)) s
    else if seqs.any fun seq => (s.cacheSet? seq.seqId).isNone then
      seqs.foldl (fun s seq => finishWith w (s.executeFullPrefill w seq)) s
    else
      let rows := seqs.map fun seq =>
        (seq.seqId,
          seq.promptTokens ++ List.replicate (paddedLen - seq.promptTokens.length) (0 : Token))
      seqs.foldl (fun s seq => s.finishBatchedRow w seq paddedLen) (s.forward rows)

def runCohort (cohort : PrefillCohort) : Scheduler :=
  match cohort.kind with
  | .batchedCold => s.runPaddedBatchedPrefill w cohort.members
  | .sequential => cohort.members.foldl (fun s seq => s.prefillWhole w seq) s

def executeBatchedPrefill : Scheduler :=
  let (seqs, queue) := s.queue.dequeueMany (min s.cfg.maxBatchPrefill s.queue.len)
  (planPrefillCohorts s.cfg.supportsBatchedPrefill s.cfg.supportsPaddedPrefill seqs).foldl
    (fun s cohort => s.runCohort w cohort) { s with queue := queue }

end Scheduler

end Mlxcel.Batch
