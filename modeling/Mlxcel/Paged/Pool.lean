import Mlxcel.Lib.Guarded
import Mathlib.Data.List.AList
import Mathlib.Algebra.Order.Floor.Div

/-!
# The paged block pool

`PagedBlockPool` hands out blocks of a fixed number of tokens. A sequence has a table of block ids
for each layer, a block counts the references to it, and a block that was written has a row in the
slabs of its layer. The functions are those of `paged.rs`. A function that fails keeps what it
changed before, so each returns the new state next to its result.

**Tensors.** An array is its shape, its type and the list of its tokens: a token is everything that
the array has at one position of the token axis. Slicing, updating, taking, concatenating and
reshaping are the operations on lists.

**Stacks.** The free lists and the free rows are vectors that are pushed and popped at their end.
Here they are lists with the end first. Block tables are lists in the order of the table.

**Layers.** The vectors with one component for each layer are one function from layers.

The side tables of the `Turbo4` modes, the byte accounting and the count of growth episodes are not
modelled; no function here reads them.
-/

namespace Mlxcel.Paged

open MachineInt

abbrev PagedBlockId := ℕ

inductive KVCacheMode
  | fp16
  | int8
  | turbo4Asym
  | turbo3Asym
  | turbo4
  | turbo4Delegated
  | kvarN8
deriving DecidableEq

/-- The layout of a pool, as its constructors check it. -/
structure PagedKvLayout where
  numLayers : ℕ
  blockSize : ℕ
  bytesPerBlock : List ℕ
  cacheMode : KVCacheMode
  turboSidecarBytesPerBlock : List ℕ
  blockSize_pos : 0 < blockSize
  numLayers_eq : numLayers = bytesPerBlock.length
  numLayers_pos : 0 < numLayers
deriving DecidableEq

def PagedKvLayout.isTurboMode (layout : PagedKvLayout) : Bool :=
  match layout.cacheMode with
  | .turbo4Asym | .turbo4 | .turbo4Delegated => true
  | _ => false

/-- Why a call did not return a value. All but the last are returned errors; after `panicked` the
call unwinds. -/
inductive Fault
  | layerOutOfRange (layer numLayers : ℕ)
  | unknownBlock (block : PagedBlockId)
  | retainReleased (block : PagedBlockId)
  | alreadyReleased (block : PagedBlockId)
  | budgetExhausted (allocated max : ℕ)
  | batchDim (shape : List ℕ)
  | badShape (shape : List ℕ)
  | shapeMismatch (k v : List ℕ)
  | dtypeMismatch (k v : ℕ)
  | geometryMismatch (k v : ℕ × ℕ × ℕ)
  | poolGeometry (layer : ℕ) (expected got : ℕ × ℕ × ℕ)
  | slotRange (slotStart : ℕ) (stop blockSize : ℤ)
  | noPoolTensors (layer : ℕ)
  | noPoolSlabs (layer : ℕ)
  | noPoolRow (block : PagedBlockId) (layer : ℕ)
  | lenExceedsBlocks (layer : ℕ) (len blocks blockSize : ℤ)
  | notInitialized
  | sequenceNotFound (id : ℕ)
  | notPaged (id : ℕ)
  | maxCapacity (max : ℕ)
  | noPagedLayout
  | layoutMismatch
  | expectedPagedBackend
  | turboUnsupported
  | badTarget (target blockSize : ℕ)
  | targetExceeds (target seqLen : ℕ)
  | slidingWindow
  | noPins
  | handlesCarryTensors
  | pinFailed (block : PagedBlockId)
  | releaseFailed (failed : ℕ)
  | panicked
deriving DecidableEq

/-! ## Tensors -/

/-- The size of the token axis of `[1, n_kv_heads, n_tokens, head_dim]` and of
`[n_tokens, n_kv_heads, head_dim]`. -/
def tokenDim : List ℕ → Option ℕ
  | [_, _, n, _] => some n
  | [n, _, _] => some n
  | _ => none

structure MlxArray (τ : Type) where
  shape : List ℕ
  dtype : ℕ
  tokens : List τ
  length_eq : ∀ n ∈ tokenDim shape, tokens.length = n

variable {τ : Type}

/-- The tokens from `start` to before `stop`. -/
def sliceTokens (start stop : ℤ) (tokens : List τ) : List τ :=
  (tokens.drop start.toNat).take (stop.toNat - start.toNat)

/-- The window `[.., start..stop, ..]` of an array `[1, n_kv_heads, n_tokens, head_dim]`. -/
def MlxArray.slice (a : MlxArray τ) (nKvHeads headDim : ℕ) (start stop : ℤ) : MlxArray τ where
  shape := [1, nKvHeads, (sliceTokens start stop a.tokens).length, headDim]
  dtype := a.dtype
  tokens := sliceTokens start stop a.tokens
  length_eq := by simp [tokenDim]

/-- A row of a slab as an array `[block_size, n_kv_heads, head_dim]`. -/
def MlxArray.ofRow (nKvHeads headDim dtype : ℕ) (row : List τ) : MlxArray τ where
  shape := [row.length, nKvHeads, headDim]
  dtype := dtype
  tokens := row
  length_eq := by simp [tokenDim]

/-- The slots of a block that an array is for, with `(n_slots, n_kv_heads, head_dim)`. -/
def normalizeBlockForLayoutA (block : MlxArray τ) : Except Fault (List τ × ℕ × ℕ × ℕ) :=
  match block.shape with
  | [batch, nKvHeads, nSlots, headDim] =>
    if batch ≠ 1 then .error (.batchDim block.shape)
    else .ok (block.tokens, nSlots, nKvHeads, headDim)
  | [nSlots, nKvHeads, headDim] => .ok (block.tokens, nSlots, nKvHeads, headDim)
  | shape => .error (.badShape shape)

/-- A slab is a list of rows, and a row a list of slots. -/
abbrev Slab (τ : Type) := List (List τ)

/-- The row with other slots from `start` on. -/
def updateSlots (row : List τ) (start : ℕ) (slots : List τ) : List τ :=
  row.mapIdx fun i old => if start ≤ i then slots.getD (i - start) old else old

/-- `slice_update` of the slots of one row. -/
def Slab.update (slab : Slab τ) (row start : ℕ) (slots : List τ) : Slab τ :=
  slab.modify row fun old => updateSlots old start slots

/-! ## State -/

/-- The block table of one layer of a sequence. -/
structure PagedLayerState where
  blockIds : List PagedBlockId
  len : ℕ
  logicalStart : ℕ
deriving DecidableEq

def PagedLayerState.new : PagedLayerState := ⟨[], 0, 0⟩

def PagedLayerState.visibleLen (layer : PagedLayerState) : ℕ := layer.len - layer.logicalStart

structure PagedSequenceState where
  blockSize : ℕ
  layers : List PagedLayerState
deriving DecidableEq

def PagedSequenceState.new (layout : PagedKvLayout) : PagedSequenceState :=
  ⟨layout.blockSize, List.replicate layout.numLayers PagedLayerState.new⟩

def PagedSequenceState.setLayer (state : PagedSequenceState) (layerIdx : ℕ)
    (layer : PagedLayerState) : PagedSequenceState :=
  { state with layers := state.layers.set layerIdx layer }

structure PagedBlockRecord where
  layerIdx : ℕ
  refcount : ℕ
deriving DecidableEq

structure PagedPoolMeta where
  nKvHeads : ℕ
  headDim : ℕ
  dtype : ℕ
  capacityBlocks : ℕ
deriving DecidableEq

/-- What the pool has for one layer. -/
structure LayerPool (τ : Type) where
  freeList : List PagedBlockId
  poolK : List (Slab τ)
  poolV : List (Slab τ)
  poolMeta : Option PagedPoolMeta
  blockRows : AList fun _ : PagedBlockId => ℕ
  freeRows : List ℕ
  nextRow : ℕ

structure PagedBlockPool (τ : Type) where
  layout : PagedKvLayout
  nextBlockId : PagedBlockId
  blocks : AList fun _ : PagedBlockId => PagedBlockRecord
  layers : ℕ → LayerPool τ
  blockBudget : Option ℕ

def poolSlabBlocks : ℕ := 32

def u32Max : ℕ := 2 ^ 32 - 1

namespace PagedBlockPool

def new (layout : PagedKvLayout) : PagedBlockPool τ :=
  { layout, nextBlockId := 0, blocks := ∅, blockBudget := none
    layers := fun _ => ⟨[], [], [], none, ∅, [], 0⟩ }

variable (pool : PagedBlockPool τ) (state : PagedSequenceState)

/-- The pool with another state of one layer. -/
def setLayer (layerIdx : ℕ) (layer : LayerPool τ) : PagedBlockPool τ :=
  { pool with layers := Function.update pool.layers layerIdx layer }

/-! ## References -/

def refcount (pool : PagedBlockPool τ) (block : PagedBlockId) : ℕ :=
  (pool.blocks.lookup block).elim 0 PagedBlockRecord.refcount

def acquireBlock (layerIdx : ℕ) : Except Fault PagedBlockId × PagedBlockPool τ :=
  if pool.layout.numLayers ≤ layerIdx then
    (.error (.layerOutOfRange layerIdx pool.layout.numLayers), pool)
  else
    match (pool.layers layerIdx).freeList with
    | block :: freeList =>
      let pool := pool.setLayer layerIdx { pool.layers layerIdx with freeList }
      match pool.blocks.lookup block with
      | none => (.error .panicked, pool)
      | some record =>
        (.ok block,
          { pool with blocks := pool.blocks.insert block { record with refcount := 1 } })
    | [] =>
      if ∃ max ∈ pool.blockBudget, max ≤ pool.blocks.entries.length then
        (.error (.budgetExhausted pool.blocks.entries.length (pool.blockBudget.getD 0)), pool)
      else
        (.ok pool.nextBlockId,
          { pool with
            nextBlockId := pool.nextBlockId + 1
            blocks := pool.blocks.insert pool.nextBlockId ⟨layerIdx, 1⟩ })

def retainBlock (block : PagedBlockId) : Except Fault Unit × PagedBlockPool τ :=
  match pool.blocks.lookup block with
  | none => (.error (.unknownBlock block), pool)
  | some record =>
    if record.refcount = 0 then (.error (.retainReleased block), pool)
    else
      (.ok (), { pool with
        blocks := pool.blocks.insert block
          { record with refcount := min (record.refcount + 1) u32Max } })

/-- The last reference frees the row of the block, if it has one, and the block itself. -/
def freeBlock (layer : LayerPool τ) (block : PagedBlockId) : LayerPool τ :=
  { layer with
    blockRows := layer.blockRows.erase block
    freeRows := (layer.blockRows.lookup block).toList ++ layer.freeRows
    freeList := block :: layer.freeList }

def releaseBlock (block : PagedBlockId) : Except Fault Unit × PagedBlockPool τ :=
  match pool.blocks.lookup block with
  | none => (.error (.unknownBlock block), pool)
  | some record =>
    if record.refcount = 0 then (.error (.alreadyReleased block), pool)
    else
      let pool := { pool with
        blocks := pool.blocks.insert block { record with refcount := record.refcount - 1 } }
      if 1 < record.refcount then (.ok (), pool)
      else
        (.ok (), pool.setLayer record.layerIdx (freeBlock (pool.layers record.layerIdx) block))

/-! ## Sequences -/

/-- Acquire `n` blocks for the end of a table. -/
def acquireBlocks (layerIdx : ℕ) : ℕ → PagedBlockPool τ → List PagedBlockId →
      Except Fault Unit × PagedBlockPool τ × List PagedBlockId
  | 0, pool, blockIds => (.ok (), pool, blockIds)
  | n + 1, pool, blockIds =>
    match pool.acquireBlock layerIdx with
    | (.ok block, pool) => acquireBlocks layerIdx n pool (blockIds ++ [block])
    | (.error fault, pool) => (.error fault, pool, blockIds)

def appendTokens
    (layerIdx tokenCount : ℕ) : Except Fault Unit × PagedBlockPool τ × PagedSequenceState :=
  match state.layers[layerIdx]? with
  | none => (.error (.layerOutOfRange layerIdx state.layers.length), pool, state)
  | some layer =>
    if tokenCount = 0 then (.ok (), pool, state)
    else
      let newLen := (layer.len + tokenCount) % 2 ^ 64
      let requiredBlocks := newLen ⌈/⌉ pool.layout.blockSize
      match acquireBlocks layerIdx (requiredBlocks - layer.blockIds.length) pool
          layer.blockIds with
      | (.ok (), pool, blockIds) =>
        (.ok (), pool, state.setLayer layerIdx { layer with blockIds, len := newLen })
      | (.error fault, pool, blockIds) =>
        (.error fault, pool, state.setLayer layerIdx { layer with blockIds })

/-- Release `n` blocks from the end of a table. -/
def releaseTail : ℕ → PagedBlockPool τ → List PagedBlockId →
      Except Fault Unit × PagedBlockPool τ × List PagedBlockId
  | 0, pool, blockIds => (.ok (), pool, blockIds)
  | n + 1, pool, blockIds =>
    match blockIds.getLast? with
    | none => (.ok (), pool, blockIds)
    | some block =>
      match pool.releaseBlock block with
      | (.ok (), pool) => releaseTail n pool blockIds.dropLast
      | (.error fault, pool) => (.error fault, pool, blockIds.dropLast)

def trimTokens (layerIdx tokenCount : ℕ) : Except Fault ℕ × PagedBlockPool τ × PagedSequenceState :=
  match state.layers[layerIdx]? with
  | none => (.error (.layerOutOfRange layerIdx state.layers.length), pool, state)
  | some layer =>
    let trimmed := min tokenCount (layer.len - min layer.logicalStart layer.len)
    if tokenCount = 0 ∨ layer.len = 0 ∨ trimmed = 0 then (.ok 0, pool, state)
    else
      let layer :=
        if layer.len - trimmed = layer.logicalStart then
          { layer with len := 0, logicalStart := 0 }
        else { layer with len := layer.len - trimmed }
      let requiredBlocks := layer.len ⌈/⌉ pool.layout.blockSize
      match releaseTail (layer.blockIds.length - requiredBlocks) pool layer.blockIds with
      | (.ok (), pool, blockIds) =>
        (.ok trimmed, pool, state.setLayer layerIdx { layer with blockIds })
      | (.error fault, pool, blockIds) =>
        (.error fault, pool, state.setLayer layerIdx { layer with blockIds })

def rewindTokens
    (layerIdx tokenCount : ℕ) : Except Fault ℕ × PagedBlockPool τ × PagedSequenceState :=
  pool.trimTokens state layerIdx tokenCount

/-- Release the tables of the layers one after another. -/
def releaseLayers (pool : PagedBlockPool τ) :
    List PagedLayerState → Except Fault Unit × PagedBlockPool τ × List PagedLayerState
  | [] => (.ok (), pool, [])
  | layer :: layers =>
    match releaseTail layer.blockIds.length pool layer.blockIds with
    | (.ok (), pool, _) =>
      let rest := releaseLayers pool layers
      (rest.1, rest.2.1, PagedLayerState.new :: rest.2.2)
    | (.error fault, pool, blockIds) =>
      (.error fault, pool, { layer with blockIds } :: layers)

def releaseSequence : Except Fault Unit × PagedBlockPool τ × PagedSequenceState :=
  let out := pool.releaseLayers state.layers
  (out.1, out.2.1, { state with layers := out.2.2 })

end PagedBlockPool

end Mlxcel.Paged
