import Mathlib.Data.List.Dedup
import Mlxcel.Lib.AssocMap
import Mlxcel.Lib.Guarded
import Mlxcel.Batch.Sequence

/-!
# The state of the batch scheduler

`batch/scheduler.rs`: the fields of `BatchScheduler` and the operations on them that every path of
the loop shares.

**What a cache is.**  The state of a sequence, in the pool or owned by the model, is the list of the
tokens that forward passes have fed to it. On a paged backend it also has a block table. All layers
are fed alike, so a table has one entry for each block position and a position counts once for every
layer. Blocks have fresh names; a block is live as long as somebody holds its name.

**What is left open.**  `World` is what a tick does not decide itself: arrivals, disconnects,
sampled tokens, answers of the prompt-cache store, of the structured-output matcher and of the
speculative drivers. The store is a list of entries; which entry a lookup finds and what an insertion
throws out is the world's choice, within what the store's contract allows.

**The log.**  `log` is not in the code. It records the events that are sent, where requests get and
lose their slots and where they enter the queue, latest first.
-/

namespace Mlxcel.Batch

open MachineInt

/-- The namespace of a prompt-cache key: model, adapter, template, session and media. -/
abbrev Bucket := ℕ

abbrev BlockId := ℕ

inductive SequenceStateBackend
  | denseKvCache
  | pagedKvCache
  | modelOwned
  deriving DecidableEq, Repr

inductive SpeculativeDispatch
  | disabled
  | classic
  | mtp
  | dflash
  deriving DecidableEq, Repr

def SpeculativeDispatch.isKindSpecific : SpeculativeDispatch → Bool
  | .mtp => true
  | .dflash => true
  | _ => false

/-- What a scheduler is built with: its options, the tokenizer and what it asks of the model. The
two clamps of `with_config` are fields. -/
structure Config where
  maxBatchSize : ℕ
  maxBatchSize_pos : 0 < maxBatchSize
  maxBatchPrefill : ℕ := 1
  maxBatchPrefill_pos : 0 < maxBatchPrefill := by decide
  maxQueueDepth : ℕ := 1024
  prefillChunkSize : ℕ := 0
  enablePreemption : Bool := false
  preemptionPolicy : PreemptionPolicy := .longestFirst
  decouplePrefillOnDisconnect : Bool := false
  decouplePrefillMinTokens : ℕ := 8192
  maxOrphanedPrefills : ℕ := 2
  pagedBlockBudget : Option ℕ := none
  maxKvSize : Option ℕ := none
  enableVlmPrefixCache : Bool := false
  promptCache : Bool := false
  minPrefixTokens : ℕ := 0
  configEos : List Token := []
  hasTokenBias : Bool := false
  thinkingTokenIds : Option ThinkingTokenIds := none
  reasoningBudget : Option ℕ := none
  speculativeDispatch : SpeculativeDispatch := .disabled
  mtpBatchedBurstEnabled : Bool := false
  mtpBatchedRaggedWindowEnabled : Bool := false
  encodeRenderedPrompt : String → Except String (List Token)
  hashTokens : List Token → UInt64
  backend : SequenceStateBackend := .denseKvCache
  blockSize : ℕ := 32
  numLayers : ℕ := 1
  supportsBatching : Bool := true
  supportsBatchedPrefill : Bool := true
  supportsPaddedPrefill : Bool := true
  supportsSnapshotReuse : Bool := false
  prefillAlignment : ℕ := 1
  shouldAlignPrefill : Bool := false
  modelEos : List Token := []

/-- What a client asks for. `reasoningBudget` is `none` when the server default is inherited. -/
structure Payload where
  prompt : String
  maxTokens : ℕ
  sampling : SamplingConfig := {}
  priority : RequestPriority := .normal
  logprobs : Bool := false
  reasoningBudget : Option (Option ℕ) := none
  thinkingEnterBlockOnStart : Bool := false
  promptCacheCtx : Option Bucket := none
  structured : Bool := false
  hasImages : Bool := false
  hasAudio : Bool := false
  hasVideos : Bool := false
  deriving DecidableEq, Repr

/-- `ModelRequest::Generate`. -/
structure Request extends Payload where
  channel : Channel
  deriving DecidableEq, Repr

def Payload.isMultimodal (p : Payload) : Bool := p.hasImages || p.hasAudio || p.hasVideos

/-- `tokens` are those that the text was decoded from. -/
structure GenerationResult where
  tokens : List Token
  promptTokens : ℕ
  completionTokens : ℕ
  finishReason : String
  cachedTokens : ℕ
  deriving DecidableEq, Repr

/-- `build_generation_result_with_cache`. -/
def buildGenerationResult (tokens : List Token) (promptTokens maxTokens cachedTokens : ℕ) :
    GenerationResult where
  tokens := tokens
  promptTokens := promptTokens
  completionTokens := tokens.length
  finishReason := if maxTokens ≤ tokens.length then "length" else "stop"
  cachedTokens := cachedTokens

inductive GenerateEvent
  | token (text : String)
  | tokenWithLogprobs (text : String)
  | done (result : GenerationResult)
  | error (msg : String)
  deriving DecidableEq, Repr

def GenerateEvent.isTerminal : GenerateEvent → Bool
  | .done _ => true
  | .error _ => true
  | _ => false

/-- What the log records. -/
inductive Effect
  | sent (ch : Channel) (ev : GenerateEvent)
  | bound (ch : Channel) (id : SequenceId)
  | entered (ch : Channel)
  | freed (id : SequenceId)
  deriving DecidableEq, Repr

/-! ## Cache pool and prompt-cache store -/

/-- `SequenceCacheSet`. `trimmed` tokens have been cut off the front by `--max-kv-size`. -/
structure CacheSet where
  seqId : SequenceId
  backend : SequenceStateBackend
  tokens : List Token
  trimmed : ℕ
  blocks : List BlockId
  deriving DecidableEq, Repr

/-- Table positions that a cache set lacks for `n` more tokens. -/
def CacheSet.newPositions (set : CacheSet) (blockSize n : ℕ) : ℕ :=
  if set.backend = .pagedKvCache then
    divCeil (set.tokens.length + n) blockSize - set.blocks.length
  else 0

structure CachePool where
  nextId : SequenceId
  nextBlock : BlockId
  active : List CacheSet
  maxSequences : ℕ
  deriving DecidableEq, Repr

inductive EntryKind
  | dense
  | paged
  | snapshot
  deriving DecidableEq, Repr

/-- `CacheEntry` and `ModelSnapshotEntry`: the tokens of the key, the tokens that the state was fed,
and the blocks that are pinned. -/
structure CacheEntry where
  kind : EntryKind
  bucket : Bucket
  tokens : List Token
  state : List Token
  blocks : List BlockId
  deriving DecidableEq, Repr

/-- A burst gives every row the tokens that were drawn and the tokens that its state was fed. -/
inductive BurstOutcome
  | declined
  | failed (msg : String)
  | produced (tokens fed : SequenceInfo → List Token)

/-- What one tick does not decide itself. -/
structure World where
  arrivals : List Payload := []
  /-- What a blocking `recv` gets when there is nothing to do. -/
  received : Option Payload := none
  order : List SequenceInfo → List SequenceInfo := id
  order_perm : ∀ l, (order l).Perm l := by exact fun l => List.Perm.refl l
  cancelled : Channel → Bool := fun _ => false
  sample : SequenceInfo → Token := fun _ => 0
  /-- The text that the streaming decoder releases for a token. -/
  text : SequenceInfo → Token → Option String := fun _ _ => none
  /-- Whether log probabilities were computed for a token. -/
  logprob : SequenceInfo → Token → Bool := fun _ _ => false
  maskError : SequenceInfo → Option String := fun _ => none
  consumeError : SequenceInfo → Token → Option String := fun _ _ => none
  prepareVlm : Request → List Token → Except String (List Token × Bool) :=
    fun _ tokens => .ok (tokens, false)
  embeddingError : SequenceInfo → Option String := fun _ => none
  paddingTrimWouldCorrupt : SequenceId → Bool := fun _ => false
  burst : List SequenceInfo → BurstOutcome := fun _ => .declined
  mtpB1ShouldRun : Bool := true
  /-- The entry that a lookup finds and the length of its match. -/
  probe : List CacheEntry → Bucket → List Token → Option (CacheEntry × ℕ) := fun _ _ _ => none
  probeSnapshot : List CacheEntry → Bucket → List Token → Option CacheEntry := fun _ _ _ => none
  /-- What a lookup leaves in the store. -/
  sweep : CacheEntry → Bool := fun _ => true
  restoreFails : Bool := false
  truncateFails : Bool := false
  layersAgree : SequenceId → Bool := fun _ => true
  /-- What an insertion leaves in the store, the new entry included. -/
  keep : CacheEntry → Bool := fun _ => true
  /-- Which entry is the oldest. -/
  oldest : List CacheEntry → ℕ := fun _ => 0

/-! ## The scheduler -/

/-- `BatchScheduler`. -/
structure Scheduler where
  cfg : Config
  pool : CachePool
  queue : PrefillQueue
  active : ActiveBatch
  chunked : Option SequenceInfo
  promptCacheSeqCtx : SequenceId → Option Bucket
  donationInProgress : AList fun _ : UInt64 => List Request
  prefillInProgress : AList fun _ : UInt64 => List Request
  orphanedPrefillCount : ℕ
  store : List CacheEntry
  /-- Pins of entries that the store has dropped and the pool has not taken back. -/
  pendingReleases : List BlockId
  nextChannel : Channel
  log : List Effect

namespace Scheduler

def init (cfg : Config) : Scheduler where
  cfg := cfg
  pool := ⟨0, 0, [], cfg.maxBatchSize + cfg.maxQueueDepth⟩
  queue := .withCapacity cfg.maxQueueDepth
  active := ⟨[], cfg.maxBatchSize⟩
  chunked := none
  promptCacheSeqCtx := fun _ => none
  donationInProgress := ∅
  prefillInProgress := ∅
  orphanedPrefillCount := 0
  store := []
  pendingReleases := []
  nextChannel := 0
  log := []

variable (s : Scheduler) (id : SequenceId)

/-- The sequences of all requests that are being served. -/
def live : List SequenceInfo :=
  s.queue.all ++ s.active.sequences ++ s.chunked.toList

def note (e : Effect) : Scheduler := { s with log := e :: s.log }

def send (ch : Channel) (ev : GenerateEvent) : Scheduler := s.note (.sent ch ev)

/-- `prompt_cache_seq_ctx.remove`. -/
def forget : Scheduler :=
  { s with promptCacheSeqCtx := Function.update s.promptCacheSeqCtx id none }

def cacheSet? : Option CacheSet :=
  s.pool.active.find? (·.seqId == id)

/-- A slot leaves the pool's active map. -/
def dropSlot : Scheduler :=
  if (s.cacheSet? id).isSome then
    { s with
      pool := { s.pool with active := s.pool.active.eraseP (·.seqId == id) }
      log := .freed id :: s.log }
  else s

/-- `release_sequence_caches`: nothing happens to an id that is not active. -/
def releaseSequenceCaches : Scheduler := s.dropSlot id

/-- A new slot in the pool's active map. -/
def insertSlot (tokens : List Token) (blocks : List BlockId) : Scheduler :=
  { s with
    pool := { s.pool with
      nextId := s.pool.nextId + 1
      active := ⟨s.pool.nextId, s.cfg.backend, tokens, 0, blocks⟩ :: s.pool.active } }

/-- `allocate_sequence_state`: only dense caches are limited in number. -/
def allocateSequenceState : Except String (SequenceId × Scheduler) :=
  if s.cfg.backend = .denseKvCache ∧ s.pool.maxSequences ≤ s.pool.active.length then
    let capacity := s.pool.maxSequences
    .error s!"CachePool: max capacity ({capacity}) reached, cannot allocate new sequence"
  else .ok (s.pool.nextId, s.insertSlot [] [])

/-! ### Blocks -/

def heldBlocks : List BlockId :=
  s.pool.active.flatMap (·.blocks) ++ s.store.flatMap (·.blocks) ++ s.pendingReleases

def liveBlockCount : ℕ := s.cfg.numLayers * s.heldBlocks.dedup.length

def freePagedBlockBudget : Option ℕ :=
  s.cfg.pagedBlockBudget.map (· - s.liveBlockCount)

def modifySet (f : CacheSet → CacheSet) : Scheduler :=
  { s with pool := { s.pool with
      active := s.pool.active.map fun set => if set.seqId = id then f set else set } }

/-- One row of a forward pass. -/
def feed (tokens : List Token) : Scheduler :=
  match s.cacheSet? id with
  | none => s
  | some set =>
    let more := set.newPositions s.cfg.blockSize tokens.length
    let s := s.modifySet id fun set =>
      { set with
        tokens := set.tokens ++ tokens
        blocks := set.blocks ++ List.range' s.pool.nextBlock more }
    { s with pool := { s.pool with nextBlock := s.pool.nextBlock + more } }

/-- A forward pass of the model over the given rows. -/
def forward (rows : List (SequenceId × List Token)) : Scheduler :=
  rows.foldl (fun s row => s.feed row.1 row.2) s

/-- `KVCache::trim` on every layer: tokens leave at the end, and blocks behind them. -/
def trimEnd (n : ℕ) : Scheduler :=
  s.modifySet id fun set =>
    let tokens := set.tokens.take (set.tokens.length - n)
    { set with tokens := tokens, blocks := set.blocks.take (divCeil tokens.length s.cfg.blockSize) }

/-- `enforce_max_kv_size_for`: only dense caches can be cut at the front. -/
def enforceMaxKvSizeFor : Scheduler :=
  match s.cfg.maxKvSize with
  | none => s
  | some max =>
    s.modifySet id fun set =>
      if set.backend = .denseKvCache then
        { set with trimmed := Nat.max set.trimmed (set.tokens.length - max) }
      else set

end Scheduler

end Mlxcel.Batch
