import Mlxcel.Batch.State

/-!
# Intake, coalescing and donation

How a request gets a cache slot and a place in the prefill queue (`enqueue_request`), how requests
for a prompt that is being prefilled wait for it (`prefill_in_progress`, `donation_in_progress`,
`drain_prefill_coalescing`), and how a finished sequence gives its cache to the prompt-cache store
(`donate_finished_sequence_cache`).
-/

namespace Mlxcel.Batch

/-! ## Pure decisions -/

def vlmPrefixSharingAllowed (enabled isMultimodal hasVideos : Bool) : Bool :=
  enabled && isMultimodal && !hasVideos

def reusablePrefixLen (rawMatched stateLen requestLen alignment minPrefix : ℕ) : Option ℕ :=
  if requestLen = 0 then none
  else
    let candidate := min (min rawMatched stateLen) (requestLen - 1)
    let floored := candidate / max alignment 1 * max alignment 1
    if floored < max minPrefix 1 then none else some floored

def adoptionLeavesTokenForLogits (adoptedLen requestLen : ℕ) : Bool := adoptedLen < requestLen

/-- Whether the pool's block floor keeps the model's alignment. -/
def alignmentsCompatible (alignment blockSize : ℕ) : Bool :=
  alignment ≤ 1 || blockSize % alignment == 0 || alignment % blockSize == 0

def shouldOrphanPrefill (flagOn : Bool) (promptLen minTokens orphanedCount maxOrphaned : ℕ) :
    Bool :=
  flagOn && minTokens ≤ promptLen && orphanedCount < maxOrphaned

namespace Scheduler

/-! ## The prompt-cache store -/

variable (s : Scheduler) (w : World) (entry : CacheEntry) (id : SequenceId) (bucket : Bucket)
  (tokens : List Token)

/-- The store drops entries; the pins of the dropped ones wait for the pool. -/
def shrinkStore (keep : CacheEntry → Bool) : Scheduler :=
  { s with
    store := s.store.filter keep
    pendingReleases := s.pendingReleases ++ (s.store.filter fun e => !keep e).flatMap (·.blocks) }

def drainStorePagedReleases : Scheduler := { s with pendingReleases := [] }

/-- `insert` and `insert_snapshot`: the new entry may be declined, others may be evicted. -/
def insertEntry : Scheduler :=
  { s with store := entry :: s.store }.shrinkStore w.keep

/-- `lookup_snapshot_prefix`: the tokens of the entry are a prefix of the request's. -/
def lookupSnapshotPrefix : Option CacheEntry :=
  (w.probeSnapshot s.store bucket tokens).filter fun e =>
    e ∈ s.store && e.kind == .snapshot && e.bucket == bucket && e.tokens.isPrefixOf tokens

/-- `lookup_longest_prefix`: the entry and the request agree on the matched length. -/
def lookupLongestPrefix : Option (CacheEntry × ℕ) :=
  (w.probe s.store bucket tokens).filter fun found =>
    found.1 ∈ s.store && found.1.kind != .snapshot && found.1.bucket == bucket &&
      found.2 ≤ found.1.tokens.length && (found.1.tokens.take found.2).isPrefixOf tokens

/-- `CachePool::adopt` and `adopt_paged`. -/
def adopt (blocks : List BlockId) : Scheduler × Option SequenceId :=
  if s.pool.maxSequences ≤ s.pool.active.length then (s, none)
  else (s.insertSlot tokens blocks, some s.pool.nextId)

/-- The snapshot arm of `try_adopt_cached_prefix`: a snapshot is restored whole or not at all. -/
def adoptSnapshot : Scheduler × Option (SequenceId × ℕ) :=
  let matched := entry.tokens.length
  let alignment := max s.cfg.prefillAlignment 1
  if tokens.length ≤ matched || (1 < alignment && matched % alignment != 0) then (s, none)
  else
    match s.allocateSequenceState with
    | .error _ => (s, none)
    | .ok (id, s) =>
      if w.restoreFails then (s.releaseSequenceCaches id, none)
      else (s.modifySet id fun set => { set with tokens := entry.state }, some (id, matched))

/-- A paged entry is cloned: whole blocks are shared and the entry stays. -/
def adoptPagedEntry (matched : ℕ) : Scheduler × Option (SequenceId × ℕ) :=
  let alignment := max s.cfg.prefillAlignment 1
  let blockSize := max s.cfg.blockSize 1
  let adoptable := min matched entry.state.length / blockSize * blockSize
  if s.cfg.backend != .pagedKvCache then (s, none)
  else if !alignmentsCompatible alignment blockSize then (s, none)
  else if adoptable < max s.cfg.minPrefixTokens 1 then (s, none)
  else
    let (s, id) := s.adopt (entry.state.take adoptable) (entry.blocks.take (adoptable / blockSize))
    (s, id.map (·, adoptable))

/-- A dense entry is taken out of the store and cut to the matched length. -/
def adoptDenseEntry (matched : ℕ) : Scheduler × Option (SequenceId × ℕ) :=
  let s := { s with store := s.store.erase entry }
  if s.cfg.backend = .pagedKvCache then (s, none)
  else if matched < entry.state.length && w.truncateFails then (s, none)
  else
    let (s, id) := s.adopt (entry.state.take matched) []
    (s, id.map (·, matched))

/-- `try_adopt_cached_prefix` without the cold store. -/
def tryAdoptCachedPrefix (requireWholeEntry : Bool) : Scheduler × Option (SequenceId × ℕ) :=
  if !s.cfg.promptCache then (s, none)
  else
    let s := s.drainStorePagedReleases.shrinkStore w.sweep
    match if s.cfg.supportsSnapshotReuse then s.lookupSnapshotPrefix w bucket tokens else none with
    | some entry => s.adoptSnapshot w entry tokens
    | none =>
      match s.lookupLongestPrefix w bucket tokens with
      | none => (s, none)
      | some (entry, raw) =>
        if entry.state = [] then (s, none)
        else
          match reusablePrefixLen raw entry.state.length tokens.length s.cfg.prefillAlignment
              s.cfg.minPrefixTokens with
          | none => (s, none)
          | some matched =>
            if requireWholeEntry && matched != entry.tokens.length then (s, none)
            else if entry.kind = .paged then s.adoptPagedEntry entry matched
            else s.adoptDenseEntry w entry matched

/-! ## `enqueue_request` -/

/-- The adopted prefix of a request, unless nothing would be left to compute logits from. -/
def adoptPrefixFor (ctx : Option Bucket) (tokens : List Token)
    (isMultimodal : Bool) : Scheduler × Option (SequenceId × ℕ) :=
  match ctx with
  | none => (s, none)
  | some bucket =>
    match s.tryAdoptCachedPrefix w bucket tokens isMultimodal with
    | (s, none) => (s, none)
    | (s, some (id, n)) =>
      if adoptionLeavesTokenForLogits n tokens.length then (s, some (id, n))
      else (s.releaseSequenceCaches id, none)

/-- A slot for a request: an adopted one, or a new one. -/
def takeSlotFor (ctx : Option Bucket) (tokens : List Token)
    (isMultimodal : Bool) : Scheduler × Except String (SequenceId × ℕ) :=
  match s.adoptPrefixFor w ctx tokens isMultimodal with
  | (s, some slot) => (s, .ok slot)
  | (s, none) =>
    match s.allocateSequenceState with
    | .error err => (s, .error err)
    | .ok (id, s) => (s, .ok (id, 0))

/-- The `SequenceInfo` of a request that has its slot. -/
def sequenceOf (cfg : Config) (req : Request) (id : SequenceId) (start : ℕ)
    (promptTokens : List Token) (vlmEmbeddings : Bool) : SequenceInfo where
  seqId := id
  state := .queued
  promptTokens := promptTokens
  sampling := { req.sampling with
    stopTokenIds := mergeTokenIds req.sampling.stopTokenIds cfg.configEos
    hasTokenBias := req.sampling.hasTokenBias || cfg.hasTokenBias }
  maxTokens := req.maxTokens
  priority := req.priority
  logprobs := req.logprobs
  vlmEmbeddings := vlmEmbeddings
  hasImages := req.hasImages
  hasAudio := req.hasAudio
  generatedTokens := []
  tokenHistory := []
  mergedEos := []
  prefillOffset := 0
  prefillStartOffset := start
  alreadyCachedTokens := start
  thinking :=
    if cfg.thinkingTokenIds.isSome then
      .new cfg.thinkingTokenIds (req.reasoningBudget.getD cfg.reasoningBudget)
        req.thinkingEnterBlockOnStart
    else .disabled
  structured := req.structured
  channel := req.channel
  orphaned := false

/-- A sequence enters the prefill queue, or its request is turned down. -/
def enqueueSequence (seq : SequenceInfo) : Scheduler :=
  match s.queue.enqueue seq with
  | some queue => { s with queue := queue }.note (.entered seq.channel)
  | none =>
    ((s.forget seq.seqId).releaseSequenceCaches seq.seqId).send seq.channel
      (.error "Server busy: prefill queue full")

/-- `prompt_cache_seq_ctx.insert`. -/
def remember : Option Bucket → Scheduler
  | none => s
  | some bucket =>
    { s with promptCacheSeqCtx := Function.update s.promptCacheSeqCtx id (some bucket) }

/-- The second half of `enqueue_request`, from the bound slot on. -/
def bindRequest (req : Request) (prepared : Option Bool)
    (sharing : Bool) (tokens : List Token) (id : SequenceId) (start : ℕ) : Scheduler :=
  match
    match prepared with
    | some embeddings => Except.ok (tokens, if 0 < start then false else embeddings)
    | none => w.prepareVlm req tokens
  with
  | .error err =>
    ((s.forget id).releaseSequenceCaches id).send req.channel (.error err)
  | .ok (tokens, embeddings) =>
    let s :=
      if s.cfg.promptCache && (!req.isMultimodal || sharing) then s.remember id req.promptCacheCtx
      else s
    (s.note (.bound req.channel id)).enqueueSequence
      (sequenceOf s.cfg req id start tokens embeddings)

/-- The part of `enqueue_request` behind the park checks. -/
def admitRequest (req : Request) (tokens : List Token) : Scheduler :=
  let sharing :=
    vlmPrefixSharingAllowed s.cfg.enableVlmPrefixCache req.isMultimodal req.hasVideos
  match if sharing then (w.prepareVlm req tokens).map some else .ok none with
  | .error err => s.send req.channel (.error err)
  | .ok prepared =>
    let tokens := (prepared.map Prod.fst).getD tokens
    let ctx := if req.isMultimodal && !sharing then none else req.promptCacheCtx
    match s.takeSlotFor w ctx tokens req.isMultimodal with
    | (s, .error err) => s.send req.channel (.error ("Server busy: " ++ err))
    | (s, .ok (id, start)) => s.bindRequest w req (prepared.map Prod.snd) sharing tokens id start

/-- `enqueue_request`: the guards, the two maps in which a request can wait, and admission. -/
def enqueueRequest (req : Request) : Scheduler :=
  match s.cfg.encodeRenderedPrompt req.prompt with
  | .error err => s.send req.channel (.error ("Tokenization error: " ++ err))
  | .ok tokens =>
    let hash := s.cfg.hashTokens tokens
    if tokens.isEmpty && !req.isMultimodal then
      s.send req.channel (.error "Empty prompt: request has no input tokens to process")
    else
      match s.donationInProgress.lookup hash, s.prefillInProgress.lookup hash with
      | some waiting, _ =>
        { s with donationInProgress := s.donationInProgress.insert hash (waiting ++ [req]) }
      | none, some waiting =>
        if s.cfg.decouplePrefillOnDisconnect then
          { s with prefillInProgress := s.prefillInProgress.insert hash (waiting ++ [req]) }
        else s.admitRequest w req tokens
      | none, none => s.admitRequest w req tokens

/-- `handle_incoming` on requests that are sent in again. -/
def handleIncoming (reqs : List Request) : Scheduler :=
  reqs.foldl (fun s req => s.enqueueRequest w req) s

/-- A request arrives over a channel of its own. -/
def arrive (payload : Payload) : Scheduler :=
  { s with nextChannel := s.nextChannel + 1 }.enqueueRequest w ⟨payload, s.nextChannel⟩

/-! ## Coalescing and donation -/

/-- `drain_prefill_coalescing` without shutdown. A healthy end and an error hand the waiting
requests to `handle_incoming` in the same order: promoting a leader means that it goes first. -/
def drainPrefillCoalescing (hash : UInt64) : Scheduler :=
  match s.prefillInProgress.lookup hash with
  | none => s
  | some waiters =>
    { s with prefillInProgress := s.prefillInProgress.erase hash }.handleIncoming w waiters

/-- The requests that wait for a prompt. -/
def parked (hash : UInt64) : List Request :=
  (s.prefillInProgress.lookup hash).getD []

/-- The end of `donate_finished_sequence_cache`: insertion under the tokens that the state covers,
then both maps of waiting requests are emptied. -/
def publishDonation (promptHash : UInt64) : Scheduler :=
  let waiting := (s.donationInProgress.lookup promptHash).getD []
  let s := (s.insertEntry w entry).drainStorePagedReleases
  let s := { s with donationInProgress := s.donationInProgress.erase promptHash }
  (s.handleIncoming w waiting).drainPrefillCoalescing w promptHash

/-- The detached cache of a sequence, if its backend can give one away. -/
def detachable? : Option (EntryKind × CacheSet) :=
  match s.cacheSet? id with
  | none => none
  | some set =>
    match set.backend with
    | .modelOwned => none
    | .denseKvCache => if 0 < set.trimmed then none else some (.dense, set)
    | .pagedKvCache =>
      if tokens.length < s.cfg.minPrefixTokens then none else some (.paged, set)

/-- The snapshot arm of `donate_finished_sequence_cache`. -/
def donateSnapshot : Scheduler :=
  if tokens.length < s.cfg.minPrefixTokens then s
  else
    match s.cacheSet? id with
    | none => s
    | some set =>
      if set.tokens = [] then s
      else s.insertEntry w ⟨.snapshot, bucket, tokens, set.tokens, []⟩

/-- The arm of `donate_finished_sequence_cache` for dense and paged caches. -/
def donateDetached (promptTokens tokens : List Token) : Scheduler :=
  match s.detachable? id tokens with
  | none => s
  | some (kind, set) =>
    let s := s.dropSlot id
    if set.tokens = [] || (kind == .dense && !w.layersAgree id) ||
        tokens.length < set.tokens.length then s
    else
      s.publishDonation w ⟨kind, bucket, tokens.take set.tokens.length, set.tokens, set.blocks⟩
        (s.cfg.hashTokens promptTokens)

def donateFinishedSequenceCache
    (promptTokens generatedTokens : List Token) (healthyFinish : Bool) : Scheduler :=
  if !healthyFinish || !s.cfg.promptCache then s
  else
    match s.promptCacheSeqCtx id with
    | none => s
    | some bucket =>
      let s := s.forget id
      let tokens := promptTokens ++ generatedTokens
      if s.cfg.supportsSnapshotReuse then s.donateSnapshot w id bucket tokens
      else s.donateDetached w id bucket promptTokens tokens

def abortSequence (seq : SequenceInfo) (error : String) : Scheduler :=
  (((s.drainPrefillCoalescing w (s.cfg.hashTokens seq.promptTokens)).send seq.channel
    (.error error)).forget seq.seqId).releaseSequenceCaches seq.seqId

end Scheduler

end Mlxcel.Batch
