import Mlxcel.Batch.Prefill

/-!
# Decoding, cleaning up, and the loop

One decode step of the active batch, the end of finished and cancelled sequences
(`finalize_completed`), and one round of `BatchScheduler::run` without shutdown.
-/

namespace Mlxcel.Batch

/-- A committed token joins the output, and the history if penalties need it. -/
def SequenceInfo.pushToken (seq : SequenceInfo) (token : Token) : SequenceInfo :=
  { seq with
    generatedTokens := seq.generatedTokens ++ [token]
    tokenHistory :=
      if seq.sampling.needsTokenHistory then seq.tokenHistory ++ [token] else seq.tokenHistory }

namespace Scheduler

/-! ## Decoding -/

variable (s : Scheduler) (seq : SequenceInfo) (w : World) (ids : List SequenceId)

/-- `abort_sequence_with_error`: the error event is sent and the sequence stays in the batch as
finished. -/
def abortSequenceWithError (msg : String) : Scheduler :=
  let s := s.send seq.channel (.error ("structured output: " ++ msg))
  { s with active := s.active.modify seq.seqId fun seq =>
      seq.transition (.finished (.error msg)) }

/-- What a decode step does with a committed token. -/
def commitToken (seq : SequenceInfo) (token : Token) (logprobs : Bool) : Scheduler :=
  if token ∈ seq.mergedEos then
    { s with active := s.active.modify seq.seqId fun seq => seq.transition (.finished .stop) }
  else
    let s := { s with active := s.active.modify seq.seqId fun seq => seq.pushToken token }
    let s := s.sendToken w (seq.pushToken token) token logprobs
    if seq.maxTokens ≤ (seq.pushToken token).generatedTokens.length then
      { s with active := s.active.modify seq.seqId fun seq => seq.transition (.finished .length) }
    else s

/-- One row of a decode step behind the forward pass. `execute_batched_decode` and
`decode_single_step` do the same here. -/
def sampleRow (id : SequenceId) : Scheduler :=
  match s.active.get id with
  | none => s
  | some seq =>
    match if seq.structured then w.maskError seq else none with
    | some msg => s.abortSequenceWithError seq msg
    | none =>
      let sampled := w.sample seq
      let (token, thinking) := seq.thinking.applyThinkingBudget sampled
      let s := { s with active := s.active.modify id fun seq => { seq with thinking := thinking } }
      match if seq.structured then w.consumeError seq sampled else none with
      | some msg => s.abortSequenceWithError seq msg
      | none => s.commitToken w { seq with thinking := thinking } token (token == sampled)

def lastToken : Token := seq.generatedTokens.getLast?.getD 0

def decodeSingleStep (id : SequenceId) : Scheduler :=
  match s.active.get id with
  | none => s
  | some seq =>
    let s := s.enforceMaxKvSizeFor id
    if (s.cacheSet? id).isNone then s
    else (s.forward [(id, [lastToken seq])]).sampleRow w id

def rowSupportsFusedBatch : Bool :=
  !seq.sampling.needsTokenHistory && !seq.sampling.hasTokenBias && !seq.structured &&
    seq.thinking.isDisabled && !seq.logprobs

/-- `batched_decode_fused_params`: whether one dispatch samples all rows. -/
def batchedDecodeFuses (seqs : List SequenceInfo) : Bool :=
  match seqs with
  | [] => false
  | first :: _ => seqs.all fun seq =>
    rowSupportsFusedBatch seq && seq.sampling.params == first.sampling.params

def applyFusedDecodeTokens : Scheduler :=
  ids.foldl (fun s id =>
    match s.active.get id with
    | none => s
    | some seq => s.commitToken w seq (w.sample seq) false) s

def executeBatchedDecode : Scheduler :=
  let s := ids.foldl enforceMaxKvSizeFor s
  let seqs := ids.filterMap s.active.get
  if seqs.length < ids.length then
    (ids.drop (ids.takeWhile fun id => (s.active.get id).isSome).length).foldl
      (fun s id => s.decodeSingleStep w id) s
  else if ids.any fun id => (s.cacheSet? id).isNone then s
  else
    let s := s.forward (seqs.map fun seq => (seq.seqId, [lastToken seq]))
    if batchedDecodeFuses seqs then s.applyFusedDecodeTokens w ids
    else ids.foldl (fun s id => s.sampleRow w id) s

def executeDecodeStep : Scheduler :=
  if ids.length ≤ 1 || !s.cfg.supportsBatching then
    ids.foldl (fun s id => s.decodeSingleStep w id) s
  else s.executeBatchedDecode w ids

/-! ## Completion and cleanup -/

/-- The first pass of `finalize_completed`. -/
def cancelActive : Scheduler :=
  { s with active := { s.active with
      sequences := s.active.sequences.map fun seq =>
        if !seq.state.isFinished && w.cancelled seq.channel && !seq.orphaned then
          seq.transition (.finished .cancelled)
        else seq } }

/-- A chunked prefill whose client is gone is orphaned or cancelled. -/
def cancelChunked : Scheduler :=
  match s.chunked with
  | none => s
  | some seq =>
    if !w.cancelled seq.channel then s
    else if shouldOrphanPrefill s.cfg.decouplePrefillOnDisconnect seq.promptTokens.length
        s.cfg.decouplePrefillMinTokens s.orphanedPrefillCount s.cfg.maxOrphanedPrefills then
      { s.send seq.channel (.error
          "Request cancelled: client disconnected (prefill orphaned, will donate)") with
        chunked := some { seq with orphaned := true }
        orphanedPrefillCount := s.orphanedPrefillCount + 1 }
    else
      let s := { s with chunked := none }.send seq.channel
        (.error "Request cancelled: client disconnected")
      ((s.drainPrefillCoalescing w (s.cfg.hashTokens seq.promptTokens)).forget
        seq.seqId).releaseSequenceCaches seq.seqId

/-- The end of a queued sequence whose client is gone. -/
def cancelQueued : Scheduler :=
  ((s.send seq.channel (.error "Request cancelled: client disconnected")).forget
    seq.seqId).releaseSequenceCaches seq.seqId

def cancelQueuedDisconnected : Scheduler :=
  let (drained, queue) := s.queue.drainCancelled fun seq => w.cancelled seq.channel
  drained.foldl cancelQueued { s with queue := queue }

/-- The finishes after which a cache is donated. -/
def isHealthy : SequenceState → Bool
  | .finished .stop => true
  | .finished .length => true
  | .finished .cancelled => true
  | _ => false

/-- One finished sequence of the active batch. -/
def finalizeSequence (id : SequenceId) : Scheduler :=
  match s.active.remove id with
  | none => s
  | some (seq, active) =>
    ({ s with active := active }.send seq.channel
      (.done (seq.result seq.generatedTokens))).settleSequence w seq seq.generatedTokens
        (isHealthy seq.state)

/-- What `finalize_completed` does before it looks at finished sequences. -/
def cancelDisconnected : Scheduler :=
  ((s.cancelActive w).cancelChunked w).cancelQueuedDisconnected w

/-- The ids of the finished sequences in the active batch. -/
def finishedIds : List SequenceId :=
  (s.active.sequences.filter fun seq => seq.state.isFinished).map (·.seqId)

def finalizeCompleted : Scheduler :=
  let s := s.cancelDisconnected w
  s.finishedIds.foldl (fun s id => s.finalizeSequence w id) s

/-! ## The loop -/

def shouldPreempt : Bool :=
  if !s.cfg.enablePreemption || !s.active.isFull then false
  else
    match s.queue.peekPriority with
    | none => false
    | some waiting => s.active.iterMinPriority.getD RequestPriority.high.rank < waiting.rank

inductive BatchSchedulerAction
  | prefill
  | decode (ids : List SequenceId)
  | idle
  deriving DecidableEq, Repr

def decideAction : BatchSchedulerAction :=
  if s.chunked.isSome then
    if !s.active.isEmpty then .decode s.active.sequenceIds else .prefill
  else if s.active.isEmpty && s.queue.isEmpty then .idle
  else if !s.active.isEmpty then
    if s.shouldPreempt then .prefill
    else if !s.active.isFull && !s.queue.isEmpty then .prefill
    else .decode s.active.sequenceIds
  else .prefill

/-- Whether a prefill action takes a window of the queue. -/
def prefillsWindow : Bool :=
  1 < s.cfg.maxBatchPrefill && 2 ≤ s.queue.len && s.chunked.isNone

/-- The start of a tick: the iteration order of the active batch, and all pending requests. -/
def drainIncomingRequests : Scheduler :=
  w.arrivals.foldl (fun s payload => s.arrive w payload)
    { s with active := { s.active with sequences := w.order s.active.sequences } }

/-- The action of a tick. A `recv` that gets nothing has not returned. -/
def execute : Scheduler :=
  match s.decideAction with
  | .prefill =>
    if s.prefillsWindow then s.executeBatchedPrefill w else finishWith w (s.executePrefill w)
  | .decode ids => s.executeDecodeStep w ids
  | .idle =>
    match w.received with
    | some payload => s.arrive w payload
    | none => s

/-- One round of the loop of `run`. -/
def tick : Scheduler :=
  ((s.drainIncomingRequests w).execute w).finalizeCompleted w

/-- The scheduler after some rounds. -/
def run (cfg : Config) (ws : List World) : Scheduler := ws.foldl tick (init cfg)

end Scheduler

end Mlxcel.Batch
