import Mlxcel.Paged.Storage

/-!
# Sequences, detached sets and their pool

`CachePool` has the active sequences and the block pool that they share. A paged sequence can be
detached into a set that pins its blocks, and a set can be adopted as a new sequence, cloned,
trimmed or released. The functions are those of `cache.rs` and `paged_detach.rs`.

A dense sequence and one that its model owns have no block table. The per-layer caches of a
sequence are not modelled, except that a clone fails if they carry tensors: whether they do is an
argument. Neither are the lengths, offsets, times and byte counts that a set carries along.
-/

namespace Mlxcel.Paged

variable {τ : Type}

abbrev SequenceId := ℕ

inductive SequenceStateBackend
  | denseKvCache
  | pagedKvCache
  | modelOwned
deriving DecidableEq

structure SequenceStateLayout where
  backend : SequenceStateBackend
  pagedLayout : Option PagedKvLayout

structure SequenceCacheSet where
  backend : SequenceStateBackend
  paged : Option PagedSequenceState
  pagedLayout : Option PagedKvLayout

/-- A detached paged sequence. The pins are gone once it was adopted or released. -/
structure DetachedPagedCacheSet where
  pagedState : PagedSequenceState
  pagedLayout : PagedKvLayout
  backend : SequenceStateBackend
  retainedBlocks : Option (List PagedBlockId)

def DetachedPagedCacheSet.seqLen (set : DetachedPagedCacheSet) : ℕ :=
  set.pagedState.layers.head?.elim 0 PagedLayerState.visibleLen

/-- The ids of all layers in the order of the table. -/
def PagedSequenceState.blockIds (state : PagedSequenceState) : List PagedBlockId :=
  state.layers.flatMap PagedLayerState.blockIds

structure CachePool (τ : Type) where
  nextId : SequenceId
  active : AList fun _ : SequenceId => SequenceCacheSet
  maxSequences : ℕ
  pagedPool : Option (PagedBlockPool τ)
  pagedBlockBudget : Option ℕ

namespace CachePool

def new (maxSequences : ℕ) : CachePool τ := ⟨0, ∅, maxSequences, none, none⟩

/-! ## Active sequences -/

variable (c : CachePool τ) (set : DetachedPagedCacheSet) (id : SequenceId)

def setPagedBlockBudget (maxBlocks : Option ℕ) : CachePool τ :=
  { c with
    pagedBlockBudget := maxBlocks
    pagedPool := c.pagedPool.map fun pool => { pool with blockBudget := maxBlocks } }

def ensurePagedPool (layout : PagedKvLayout) : Except Fault Unit × CachePool τ :=
  match c.pagedPool with
  | some pool => (if pool.layout ≠ layout then .error .layoutMismatch else .ok (), c)
  | none =>
    (.ok (), { c with
      pagedPool := some { PagedBlockPool.new layout with blockBudget := c.pagedBlockBudget } })

/-- `allocate_with_layout` for the layout in effect: the override, or that of the model. -/
def allocateWithLayout (layout : SequenceStateLayout) : Except Fault SequenceId × CachePool τ :=
  if layout.backend = .denseKvCache ∧ c.maxSequences ≤ c.active.entries.length then
    (.error (.maxCapacity c.maxSequences), c)
  else
    let id := c.nextId
    let c := { c with nextId := c.nextId + 1 }
    match layout.backend, layout.pagedLayout with
    | .denseKvCache, _ =>
      (.ok id, { c with active := c.active.insert id ⟨.denseKvCache, none, none⟩ })
    | .modelOwned, _ => (.ok id, { c with active := c.active.insert id ⟨.modelOwned, none, none⟩ })
    | .pagedKvCache, none => (.error .noPagedLayout, c)
    | .pagedKvCache, some pagedLayout =>
      match c.ensurePagedPool pagedLayout with
      | (.error fault, c) => (.error fault, c)
      | (.ok (), c) =>
        let sequence : SequenceCacheSet :=
          ⟨.pagedKvCache, some (PagedSequenceState.new pagedLayout), some pagedLayout⟩
        (.ok id, { c with active := c.active.insert id sequence })

/-- Run `f` on the pool and the block table of a sequence. -/
def withPoolAndState {α : Type} (c : CachePool τ) (id : SequenceId)
    (f : PagedBlockPool τ → PagedSequenceState →
      Except Fault α × PagedBlockPool τ × PagedSequenceState) : Except Fault α × CachePool τ :=
  match c.pagedPool with
  | none => (.error .notInitialized, c)
  | some pool =>
    match c.active.lookup id with
    | none => (.error (.sequenceNotFound id), c)
    | some sequence =>
      match sequence.paged with
      | none => (.error (.notPaged id), c)
      | some state =>
        let out := f pool state
        (out.1, { c with
          pagedPool := some out.2.1
          active := c.active.insert id { sequence with paged := some out.2.2 } })

/-- A call on the tables of a sequence finds them, or fails without a change. -/
lemma withPoolAndState_cases {α : Type}
    (f : PagedBlockPool τ → PagedSequenceState →
      Except Fault α × PagedBlockPool τ × PagedSequenceState) :
    (∃ fault, c.withPoolAndState id f = (.error fault, c)) ∨
      ∃ pool s state, c.pagedPool = some pool ∧ c.active.lookup id = some s ∧
        s.paged = some state ∧ c.withPoolAndState id f = ((f pool state).1, { c with
          pagedPool := some (f pool state).2.1
          active := c.active.insert id { s with paged := some (f pool state).2.2 } }) := by
  rw [withPoolAndState]
  split
  · exact .inl ⟨_, rfl⟩
  · rename_i pool hpool
    split
    · exact .inl ⟨_, rfl⟩
    · rename_i s hs
      split
      · exact .inl ⟨_, rfl⟩
      · rename_i state hstate
        exact .inr ⟨pool, s, state, hpool, hs, hstate, rfl⟩

def appendPagedTokens (layerIdx tokenCount : ℕ) : Except Fault Unit × CachePool τ :=
  c.withPoolAndState id fun pool state => pool.appendTokens state layerIdx tokenCount

def trimPagedTokens (layerIdx tokenCount : ℕ) : Except Fault ℕ × CachePool τ :=
  c.withPoolAndState id fun pool state => pool.trimTokens state layerIdx tokenCount

def rewindPagedTokens (layerIdx tokenCount : ℕ) : Except Fault ℕ × CachePool τ :=
  c.withPoolAndState id fun pool state => pool.rewindTokens state layerIdx tokenCount

/-- A pool-backed cache of the sequence writes keys and values. -/
def writePrefill [Zero τ] (c : CachePool τ) (id : SequenceId) (layerIdx : ℕ)
    (kPrefill vPrefill : MlxArray τ) : Except Fault Unit × CachePool τ :=
  c.withPoolAndState id fun pool state => pool.writePrefill state layerIdx kPrefill vPrefill

/-- Failures to release are ignored. -/
def release : CachePool τ :=
  match c.active.lookup id with
  | none => c
  | some sequence =>
    let c := { c with active := c.active.erase id }
    match c.pagedPool, sequence.paged with
    | some pool, some state => { c with pagedPool := some (pool.releaseSequence state).2.1 }
    | _, _ => c

/-! ## Detached sets -/

/-- Retain the blocks in order, up to the first that fails, which is returned with the number of
those before it. -/
def retainAll (pool : PagedBlockPool τ) :
    List PagedBlockId → Option (ℕ × PagedBlockId) × PagedBlockPool τ
  | [] => (none, pool)
  | block :: blocks =>
    match pool.retainBlock block with
    | (.ok (), pool) =>
      let rest := retainAll pool blocks
      (rest.1.map fun failed => (failed.1 + 1, failed.2), rest.2)
    | (.error _, pool) => (some (0, block), pool)

/-- Release the blocks in order and count the failures. -/
def releaseAll (pool : PagedBlockPool τ) : List PagedBlockId → ℕ × PagedBlockPool τ
  | [] => (0, pool)
  | block :: blocks =>
    match pool.releaseBlock block with
    | (.ok (), pool) => releaseAll pool blocks
    | (.error _, pool) =>
      let rest := releaseAll pool blocks
      (rest.1 + 1, rest.2)

/-- Pin the blocks of a set that is being detached. On a failure the pins before the first
occurrence of the failed block are taken back. -/
def pinBlocks (pool : PagedBlockPool τ) (retained : List PagedBlockId) : Bool × PagedBlockPool τ :=
  match retainAll pool retained with
  | (none, pool) => (true, pool)
  | (some (_, failed), pool) =>
    (false, (releaseAll pool (retained.takeWhile (· ≠ failed)).reverse).2)

def detachPaged : Option DetachedPagedCacheSet × CachePool τ :=
  match c.active.lookup id with
  | none => (none, c)
  | some sequence =>
    match sequence.paged, sequence.pagedLayout with
    | some pagedState, some pagedLayout =>
      if sequence.backend ≠ .pagedKvCache then (none, c)
      else
        let retained := pagedState.blockIds
        let set : DetachedPagedCacheSet :=
          ⟨pagedState, pagedLayout, sequence.backend, some retained⟩
        match c.pagedPool with
        | none => (some set, { c with active := c.active.erase id })
        | some pool =>
          match pinBlocks pool retained with
          | (true, pool) =>
            (some set, { c with pagedPool := some pool, active := c.active.erase id })
          | (false, pool) =>
            (none, { c with
              pagedPool := some pool
              active := (c.active.erase id).insert id sequence })
    | _, _ => (none, c)

/-- Release the pins of a set and the blocks of its table. -/
def releaseDetachedPaged : Except Fault Unit × CachePool τ :=
  match set.retainedBlocks with
  | none => (.ok (), c)
  | some blocks =>
    match c.pagedPool with
    | none => (.error .notInitialized, c)
    | some pool =>
      let out := releaseAll pool (blocks ++ set.pagedState.blockIds)
      (if out.1 = 0 then .ok () else .error (.releaseFailed out.1),
        { c with pagedPool := some out.2 })

/-- A set that cannot be adopted is left to the caller. -/
def adoptPagedPreserving : Except Fault SequenceId × CachePool τ :=
  if set.backend ≠ .pagedKvCache then (.error .expectedPagedBackend, c)
  else if ∃ pool ∈ c.pagedPool, pool.layout ≠ set.pagedLayout then (.error .layoutMismatch, c)
  else if c.maxSequences ≤ c.active.entries.length then (.error (.maxCapacity c.maxSequences), c)
  else
    let pool := c.pagedPool.getD (PagedBlockPool.new set.pagedLayout)
    let pool := (releaseAll pool (set.retainedBlocks.getD [])).2
    (.ok c.nextId, { c with
      nextId := c.nextId + 1
      pagedPool := some pool
      active := c.active.insert c.nextId ⟨set.backend, some set.pagedState, some set.pagedLayout⟩ })

/-- A set that cannot be adopted is released. -/
def adoptPaged : Except Fault SequenceId × CachePool τ :=
  match c.adoptPagedPreserving set with
  | (.ok id, c) => (.ok id, c)
  | (.error fault, c) => (.error fault, (c.releaseDetachedPaged set).2)

/-- The table of a clone: the first blocks of each layer, at a length that fills them. It unwinds
if a table is too short. -/
def prefixState (targetTokens : ℕ) : Option PagedSequenceState :=
  let keepBlocks := targetTokens / set.pagedLayout.blockSize
  let layers := set.pagedState.layers
  if set.pagedLayout.numLayers < layers.length ∨ ∃ l ∈ layers, l.blockIds.length < keepBlocks then
    none
  else
    some ⟨set.pagedLayout.blockSize,
      layers.map (fun l => ⟨l.blockIds.take keepBlocks, targetTokens, 0⟩) ++
        List.replicate (set.pagedLayout.numLayers - layers.length) PagedLayerState.new⟩

/-- A set of the first tokens of `set` that shares its blocks, each of them pinned twice.
`bareHandles` says that the dense handles of the set carry no tensors. -/
def cloneDetachedPagedPrefix (targetTokens : ℕ)
    (bareHandles : Bool) : Except Fault DetachedPagedCacheSet × CachePool τ :=
  let blockSize := set.pagedLayout.blockSize
  if set.backend ≠ .pagedKvCache then (.error .expectedPagedBackend, c)
  else if set.pagedLayout.isTurboMode then (.error .turboUnsupported, c)
  else if targetTokens = 0 ∨ targetTokens % blockSize ≠ 0 then
    (.error (.badTarget targetTokens blockSize), c)
  else if set.seqLen < targetTokens then (.error (.targetExceeds targetTokens set.seqLen), c)
  else if ∃ l ∈ set.pagedState.layers, l.logicalStart ≠ 0 then (.error .slidingWindow, c)
  else if set.retainedBlocks = none then (.error .noPins, c)
  else
    match c.pagedPool with
    | none => (.error .notInitialized, c)
    | some pool =>
      if bareHandles = false then (.error .handlesCarryTensors, c)
      else
        match prefixState set targetTokens with
        | none => (.error .panicked, c)
        | some pagedState =>
          let pins := pagedState.blockIds.flatMap fun block => [block, block]
          match retainAll pool pins with
          | (some (n, failed), pool) =>
            (.error (.pinFailed failed), { c with
              pagedPool := some (releaseAll pool (pins.take n).reverse).2 })
          | (none, pool) =>
            (.ok ⟨pagedState, set.pagedLayout, set.backend, some pagedState.blockIds⟩,
              { c with pagedPool := some pool })

/-- The blocks that a trim pops off the tables, in its order. -/
def poppedBlocks (layers : List PagedLayerState) (keepBlocks : ℕ) : List PagedBlockId :=
  layers.flatMap fun l => (l.blockIds.drop keepBlocks).reverse

/-- Trim a set to its first tokens and release both references to each block that it drops. -/
def trimDetachedPagedTo (targetTokens : ℕ) :
    Except Fault Unit × CachePool τ × DetachedPagedCacheSet :=
  let blockSize := set.pagedLayout.blockSize
  if set.backend ≠ .pagedKvCache then (.error .expectedPagedBackend, c, set)
  else if set.pagedLayout.isTurboMode then (.error .turboUnsupported, c, set)
  else if targetTokens % blockSize ≠ 0 then (.error (.badTarget targetTokens blockSize), c, set)
  else if set.seqLen < targetTokens then (.error (.targetExceeds targetTokens set.seqLen), c, set)
  else if ∃ l ∈ set.pagedState.layers, l.logicalStart ≠ 0 then (.error .slidingWindow, c, set)
  else if targetTokens = set.seqLen then (.ok (), c, set)
  else
    match set.retainedBlocks, c.pagedPool with
    | none, _ => (.error .noPins, c, set)
    | some _, none => (.error .notInitialized, c, set)
    | some retained, some pool =>
      let keepBlocks := targetTokens / blockSize
      let layers := set.pagedState.layers
      let dropped := poppedBlocks layers keepBlocks
      let out := releaseAll pool (dropped.flatMap fun block => [block, block])
      (if out.1 = 0 then .ok () else .error (.releaseFailed out.1),
        { c with pagedPool := some out.2 },
        { set with
          pagedState := { set.pagedState with
            layers := layers.map fun l =>
              { l with blockIds := l.blockIds.take keepBlocks, len := targetTokens } }
          retainedBlocks := some (retained.filter fun block => block ∉ dropped) })

end CachePool

/-! ## Runs -/

/-- A cache pool with the detached sets that its clients hold. -/
structure World (τ : Type) where
  cache : CachePool τ
  detached : AList fun _ : ℕ => DetachedPagedCacheSet
  nextHandle : ℕ

/-- A call on the cache pool. A set is named by a handle. -/
inductive Op (τ : Type)
  | setPagedBlockBudget (maxBlocks : Option ℕ)
  | allocateWithLayout (layout : SequenceStateLayout)
  | appendPagedTokens (id : SequenceId) (layerIdx tokenCount : ℕ)
  | trimPagedTokens (id : SequenceId) (layerIdx tokenCount : ℕ)
  | rewindPagedTokens (id : SequenceId) (layerIdx tokenCount : ℕ)
  | writePrefill (id : SequenceId) (layerIdx : ℕ) (kPrefill vPrefill : MlxArray τ)
  | release (id : SequenceId)
  | detachPaged (id : SequenceId)
  | adoptPaged (handle : ℕ)
  | cloneDetachedPagedPrefix (handle targetTokens : ℕ) (bareHandles : Bool)
  | trimDetachedPagedTo (handle targetTokens : ℕ)
  | releaseDetachedPaged (handle : ℕ)

namespace World

def init (maxSequences : ℕ) : World τ := ⟨CachePool.new maxSequences, ∅, 0⟩

/-- The world with another cache pool and one more set. -/
def addDetached (w : World τ) (cache : CachePool τ) (set : DetachedPagedCacheSet) : World τ :=
  { cache, detached := w.detached.insert w.nextHandle set, nextHandle := w.nextHandle + 1 }

def isOk {α : Type} : Except Fault α → Bool
  | .ok _ => true
  | .error _ => false

/-- One call, with whether it succeeded. -/
def step [Zero τ] (w : World τ) : Op τ → Bool × World τ
  | .setPagedBlockBudget maxBlocks =>
    (true, { w with cache := w.cache.setPagedBlockBudget maxBlocks })
  | .allocateWithLayout layout =>
    let out := w.cache.allocateWithLayout layout
    (isOk out.1, { w with cache := out.2 })
  | .appendPagedTokens id layerIdx tokenCount =>
    let out := w.cache.appendPagedTokens id layerIdx tokenCount
    (isOk out.1, { w with cache := out.2 })
  | .trimPagedTokens id layerIdx tokenCount =>
    let out := w.cache.trimPagedTokens id layerIdx tokenCount
    (isOk out.1, { w with cache := out.2 })
  | .rewindPagedTokens id layerIdx tokenCount =>
    let out := w.cache.rewindPagedTokens id layerIdx tokenCount
    (isOk out.1, { w with cache := out.2 })
  | .writePrefill id layerIdx kPrefill vPrefill =>
    let out := w.cache.writePrefill id layerIdx kPrefill vPrefill
    (isOk out.1, { w with cache := out.2 })
  | .release id => (true, { w with cache := w.cache.release id })
  | .detachPaged id =>
    match w.cache.detachPaged id with
    | (some set, cache) => (true, w.addDetached cache set)
    | (none, cache) => (false, { w with cache })
  | .adoptPaged handle =>
    match w.detached.lookup handle with
    | none => (false, w)
    | some set =>
      let out := w.cache.adoptPaged set
      (isOk out.1, { w with cache := out.2, detached := w.detached.erase handle })
  | .cloneDetachedPagedPrefix handle targetTokens bareHandles =>
    match w.detached.lookup handle with
    | none => (false, w)
    | some set =>
      match w.cache.cloneDetachedPagedPrefix set targetTokens bareHandles with
      | (.ok clone, cache) => (true, w.addDetached cache clone)
      | (.error _, cache) => (false, { w with cache })
  | .trimDetachedPagedTo handle targetTokens =>
    match w.detached.lookup handle with
    | none => (false, w)
    | some set =>
      let out := w.cache.trimDetachedPagedTo set targetTokens
      (isOk out.1, { w with cache := out.2.1, detached := w.detached.insert handle out.2.2 })
  | .releaseDetachedPaged handle =>
    match w.detached.lookup handle with
    | none => (false, w)
    | some set =>
      let out := w.cache.releaseDetachedPaged set
      (isOk out.1, { w with cache := out.2, detached := w.detached.erase handle })

/-- The world after a sequence of calls on a new cache pool. -/
def run [Zero τ] (maxSequences : ℕ) (ops : List (Op τ)) : World τ :=
  ops.foldl (fun w op => (w.step op).2) (init maxSequences)

end World

end Mlxcel.Paged
