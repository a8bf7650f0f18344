import Mlxcel.Paged.Pool

/-!
# The storage of the paged block pool

The keys and values of a block are a row in the slabs of its layer. A block gets its row when it is
first written, and gives it back with its last reference. A write into a block that others share
goes to a copy.

`write_prefill` and `gather_visible` compute positions with integers of 32 bits. The casts are
those of the source, and what overflows wraps around as in a release build.
-/

namespace Mlxcel.Paged

open MachineInt

variable {τ : Type}

namespace PagedBlockPool

section Rows

variable [Zero τ]

variable (pool : PagedBlockPool τ)

/-- A slab of zeros. -/
def zeros : Slab τ :=
  List.replicate poolSlabBlocks (List.replicate (asI32 pool.layout.blockSize).toNat 0)

/-- A layer with more slabs of zeros. -/
def growLayer (layerIdx slabs : ℕ) (poolMeta : PagedPoolMeta) : PagedBlockPool τ :=
  let layer := pool.layers layerIdx
  pool.setLayer layerIdx { layer with
    poolK := layer.poolK ++ List.replicate slabs pool.zeros
    poolV := layer.poolV ++ List.replicate slabs pool.zeros
    poolMeta := some poolMeta }

/-- The first slabs of a layer. An array with a negative dimension cannot be made. -/
def createLayerPool (layerIdx minCapacityBlocks nKvHeads headDim dtype : ℕ) :
    Except Fault Unit × PagedBlockPool τ :=
  if asI32 pool.layout.blockSize < 0 then (.error .panicked, pool)
  else
    let slabs := max 1 (minCapacityBlocks ⌈/⌉ poolSlabBlocks)
    (.ok (), pool.growLayer layerIdx slabs
      ⟨nKvHeads, headDim, dtype, slabs * poolSlabBlocks⟩)

def ensureLayerCapacity (layerIdx minCapacity : ℕ) : Except Fault Unit × PagedBlockPool τ :=
  match (pool.layers layerIdx).poolMeta with
  | none => (.error (.noPoolSlabs layerIdx), pool)
  | some poolMeta =>
    if minCapacity ≤ poolMeta.capacityBlocks then (.ok (), pool)
    else
      let targetSlabs := minCapacity ⌈/⌉ poolSlabBlocks
      (.ok (), pool.growLayer layerIdx (targetSlabs - (pool.layers layerIdx).poolK.length)
        { poolMeta with capacityBlocks := targetSlabs * poolSlabBlocks })

/-- The row that a block without one gets. -/
def takeRow (layer : LayerPool τ) : ℕ × LayerPool τ :=
  match layer.freeRows with
  | row :: freeRows => (row, { layer with freeRows })
  | [] => (layer.nextRow, { layer with nextRow := layer.nextRow + 1 })

def assignRow (block : PagedBlockId) (layerIdx : ℕ) : Except Fault ℕ × PagedBlockPool τ :=
  match (pool.layers layerIdx).blockRows.lookup block with
  | some row => (.ok row, pool)
  | none =>
    let taken := takeRow (pool.layers layerIdx)
    let pool := pool.setLayer layerIdx taken.2
    let capacity := ((pool.layers layerIdx).poolMeta.elim 0 PagedPoolMeta.capacityBlocks)
    match if capacity ≤ taken.1 then pool.ensureLayerCapacity layerIdx (taken.1 + 1)
        else (.ok (), pool) with
    | (.error fault, pool) => (.error fault, pool)
    | (.ok (), pool) =>
      let layer := pool.layers layerIdx
      (.ok taken.1, pool.setLayer layerIdx
        { layer with blockRows := layer.blockRows.insert block taken.1 })

/-- The update of a row, which unwinds if the row has no slab. -/
def updateRow (layerIdx row slotStart : ℕ) (k v : List τ) : Except Fault Unit × PagedBlockPool τ :=
  let layer := pool.layers layerIdx
  let slab := row / poolSlabBlocks
  if layer.poolK.length ≤ slab ∨ layer.poolV.length ≤ slab then (.error .panicked, pool)
  else
    (.ok (), pool.setLayer layerIdx { layer with
      poolK := layer.poolK.modify slab fun s => Slab.update s (row % poolSlabBlocks) slotStart k
      poolV := layer.poolV.modify slab fun s => Slab.update s (row % poolSlabBlocks) slotStart v })

/-- The geometry of a layer is that of its first write. -/
def captureMeta (layerIdx nKvHeads headDim dtype : ℕ) : Except Fault Unit × PagedBlockPool τ :=
  match (pool.layers layerIdx).poolMeta with
  | some poolMeta =>
    if poolMeta.nKvHeads ≠ nKvHeads ∨ poolMeta.headDim ≠ headDim ∨ poolMeta.dtype ≠ dtype then
      (.error (.poolGeometry layerIdx (poolMeta.nKvHeads, poolMeta.headDim, poolMeta.dtype)
        (nKvHeads, headDim, dtype)), pool)
    else (.ok (), pool)
  | none => pool.createLayerPool layerIdx poolSlabBlocks nKvHeads headDim dtype

def writeBlock (block : PagedBlockId) (layerIdx slotStart : ℕ)
    (kBlock vBlock : MlxArray τ) : Except Fault Unit × PagedBlockPool τ :=
  if pool.layout.numLayers ≤ layerIdx then
    (.error (.layerOutOfRange layerIdx pool.layout.numLayers), pool)
  else if pool.blocks.lookup block = none then (.error (.unknownBlock block), pool)
  else
    match normalizeBlockForLayoutA kBlock, normalizeBlockForLayoutA vBlock with
    | .error fault, _ => (.error fault, pool)
    | .ok _, .error fault => (.error fault, pool)
    | .ok (k, nSlots, nKvHeads, headDim), .ok (v, vGeom) =>
      let stop := asI32 (asI32 slotStart + nSlots)
      if (nSlots, nKvHeads, headDim) ≠ vGeom then
        (.error (.geometryMismatch (nSlots, nKvHeads, headDim) vGeom), pool)
      else if kBlock.dtype ≠ vBlock.dtype then
        (.error (.dtypeMismatch kBlock.dtype vBlock.dtype), pool)
      else if nSlots = 0 ∨ asI32 pool.layout.blockSize < stop then
        (.error (.slotRange slotStart stop (asI32 pool.layout.blockSize)), pool)
      else
        match pool.captureMeta layerIdx nKvHeads headDim kBlock.dtype with
        | (.error fault, pool) => (.error fault, pool)
        | (.ok (), pool) =>
          match pool.assignRow block layerIdx with
          | (.error fault, pool) => (.error fault, pool)
          | (.ok row, pool) => pool.updateRow layerIdx row slotStart k v

/-- The row of a block in the slabs. -/
def rowOf (slabs : List (Slab τ)) (row : ℕ) : Option (List τ) :=
  slabs[row / poolSlabBlocks]?.bind fun slab => slab[row % poolSlabBlocks]?

/-- A copy of a block for a writer, who gives up a reference to the original. -/
def copyOnWriteBlock (layerIdx : ℕ) (src : PagedBlockId) :
    Except Fault PagedBlockId × PagedBlockPool τ :=
  match (pool.layers layerIdx).poolMeta, (pool.layers layerIdx).blockRows.lookup src with
  | none, _ => (.error (.noPoolTensors layerIdx), pool)
  | some _, none => (.error (.noPoolRow src layerIdx), pool)
  | some poolMeta, some srcRow =>
    match rowOf (pool.layers layerIdx).poolK srcRow, rowOf (pool.layers layerIdx).poolV srcRow with
    | some kRow, some vRow =>
      match pool.acquireBlock layerIdx with
      | (.error fault, pool) => (.error fault, pool)
      | (.ok fresh, pool) =>
        match pool.writeBlock fresh layerIdx 0
            (.ofRow poolMeta.nKvHeads poolMeta.headDim poolMeta.dtype kRow)
            (.ofRow poolMeta.nKvHeads poolMeta.headDim poolMeta.dtype vRow) with
        | (.error fault, pool) => (.error fault, pool)
        | (.ok (), pool) =>
          match pool.releaseBlock src with
          | (.error fault, pool) => (.error fault, pool)
          | (.ok (), pool) => (.ok fresh, pool)
    | _, _ => (.error .panicked, pool)

/-- The capacity that the blocks `blockIds` of a span need, allocated at once. -/
def presizeForSpan (layerIdx : ℕ) (blockIds : List PagedBlockId)
    (nKvHeads headDim dtype : ℕ) : Except Fault Unit × PagedBlockPool τ :=
  let layer := pool.layers layerIdx
  let unassigned := (blockIds.filter fun block => layer.blockRows.lookup block = none).length
  let minted := unassigned - layer.freeRows.length
  if minted = 0 then (.ok (), pool)
  else
    match layer.poolMeta with
    | some poolMeta =>
      if layer.nextRow + minted ≤ poolMeta.capacityBlocks then (.ok (), pool)
      else pool.ensureLayerCapacity layerIdx (layer.nextRow + minted)
    | none => pool.createLayerPool layerIdx (layer.nextRow + minted) nKvHeads headDim dtype

end Rows

/-! ## Prefill -/

/-- The part of a prefill that falls into one block. -/
structure Window where
  slotStart : ℕ
  tokStart : ℤ
  tokEnd : ℤ

/-- The part of the positions from `firstAbs` to before `lastAbs` that falls into the block at
`blockIndex`, if there is one. -/
def window (firstAbs lastAbs blockSize : ℤ) (blockIndex : ℕ) : Option Window :=
  let blockStartAbs := asI32 (asI32 blockIndex * blockSize)
  let absBegin := max firstAbs blockStartAbs
  let absEnd := min lastAbs (asI32 (blockStartAbs + blockSize))
  let nSlots := asI32 (absEnd - absBegin)
  if nSlots ≤ 0 then none
  else
    some { slotStart := asUsize (asI32 (absBegin - blockStartAbs))
           tokStart := asI32 (absBegin - firstAbs)
           tokEnd := asI32 (asI32 (absBegin - firstAbs) + nSlots) }

/-- Division of integers of 32 bits, which unwinds for a zero divisor and on overflow. -/
def divI32 (a b : ℤ) : Option ℤ :=
  if b = 0 ∨ (a = -(2 ^ 31) ∧ b = -1) then none else some (a.tdiv b)

/-- The first and the last block of the positions from `firstAbs` to before `lastAbs`. -/
def spanBlocks (firstAbs lastAbs blockSize : ℤ) : Option (ℕ × ℕ) :=
  match divI32 firstAbs blockSize, divI32 (asI32 (lastAbs - 1)) blockSize with
  | some first, some last => some (asUsize first, asUsize last)
  | _, _ => none

/-- The windows of the blocks from `first` to `last`. -/
def spanWindows (firstAbs lastAbs blockSize : ℤ) (first last : ℕ) : List (ℕ × Window) :=
  (List.range' first (last + 1 - first)).filterMap fun blockIndex =>
    (window firstAbs lastAbs blockSize blockIndex).map fun w => (blockIndex, w)

section Prefill

variable [Zero τ]

variable (pool : PagedBlockPool τ) (state : PagedSequenceState)

/-- One block of a prefill: a shared block is copied first, and the table then has the copy. -/
def writeWindow (layerIdx nKvHeads headDim : ℕ) (k v : MlxArray τ) (blockIndex : ℕ) (w : Window) :
    Except Fault Unit × PagedBlockPool τ × PagedSequenceState :=
  match state.layers[layerIdx]? with
  | none => (.error .panicked, pool, state)
  | some layer =>
    match layer.blockIds[blockIndex]? with
    | none => (.error .panicked, pool, state)
    | some block =>
      let kSlice := k.slice nKvHeads headDim w.tokStart w.tokEnd
      let vSlice := v.slice nKvHeads headDim w.tokStart w.tokEnd
      if 1 < pool.refcount block then
        match pool.copyOnWriteBlock layerIdx block with
        | (.error fault, pool) => (.error fault, pool, state)
        | (.ok fresh, pool) =>
          let state := state.setLayer layerIdx
            { layer with blockIds := layer.blockIds.set blockIndex fresh }
          let written := pool.writeBlock fresh layerIdx w.slotStart kSlice vSlice
          (written.1, written.2, state)
      else
        let written := pool.writeBlock block layerIdx w.slotStart kSlice vSlice
        (written.1, written.2, state)

/-- The blocks of a prefill, one after another. -/
def writeWindows (layerIdx nKvHeads headDim : ℕ) (k v : MlxArray τ) :
    List (ℕ × Window) → PagedBlockPool τ → PagedSequenceState →
      Except Fault Unit × PagedBlockPool τ × PagedSequenceState
  | [], pool, state => (.ok (), pool, state)
  | (blockIndex, w) :: windows, pool, state =>
    match pool.writeWindow state layerIdx nKvHeads headDim k v blockIndex w with
    | (.error fault, pool, state) => (.error fault, pool, state)
    | (.ok (), pool, state) => writeWindows layerIdx nKvHeads headDim k v windows pool state

/-- The writes of a prefill into a table that was extended for it. -/
def writeSpan (layerIdx nKvHeads headDim : ℕ) (firstAbs lastAbs : ℤ) (k v : MlxArray τ) :
    Except Fault Unit × PagedBlockPool τ × PagedSequenceState :=
  let blockSize := asI32 pool.layout.blockSize
  match spanBlocks firstAbs lastAbs blockSize, state.layers[layerIdx]? with
  | some (first, last), some layer =>
    -- The span is walked for its capacity first, and an index past the table unwinds there.
    if first ≤ last ∧ layer.blockIds.length ≤ last then (.error .panicked, pool, state)
    else
      let span := (layer.blockIds.drop first).take (last + 1 - first)
      match pool.presizeForSpan layerIdx span nKvHeads headDim k.dtype with
      | (.error fault, pool) => (.error fault, pool, state)
      | (.ok (), pool) =>
        writeWindows layerIdx nKvHeads headDim k v
          (spanWindows firstAbs lastAbs blockSize first last) pool state
  | _, _ => (.error .panicked, pool, state)

def writePrefill (layerIdx : ℕ) (kPrefill vPrefill : MlxArray τ) :
    Except Fault Unit × PagedBlockPool τ × PagedSequenceState :=
  if pool.layout.numLayers ≤ layerIdx then
    (.error (.layerOutOfRange layerIdx pool.layout.numLayers), pool, state)
  else
    match kPrefill.shape with
    | [batch, nKvHeads, nNew, headDim] =>
      if batch ≠ 1 then (.error (.batchDim kPrefill.shape), pool, state)
      else if vPrefill.shape ≠ kPrefill.shape then
        (.error (.shapeMismatch kPrefill.shape vPrefill.shape), pool, state)
      else if kPrefill.dtype ≠ vPrefill.dtype then
        (.error (.dtypeMismatch kPrefill.dtype vPrefill.dtype), pool, state)
      else if nNew = 0 then (.ok (), pool, state)
      else
        match state.layers[layerIdx]? with
        | none => (.error (.layerOutOfRange layerIdx state.layers.length), pool, state)
        | some layer =>
          let firstAbs := asI32 layer.len
          match pool.appendTokens state layerIdx nNew with
          | (.error fault, pool, state) => (.error fault, pool, state)
          | (.ok (), pool, state) =>
            pool.writeSpan state layerIdx nKvHeads headDim firstAbs
              (asI32 (firstAbs + nNew)) kPrefill vPrefill
    | shape => (.error (.badShape shape), pool, state)

end Prefill

/-! ## Reading -/

/-- The rows in order, taken from one slab as long as they are in the same one. -/
def gatherRows (slabs : List (Slab τ)) (rows : List ℕ) : Slab τ :=
  (rows.splitBy fun a b => a / poolSlabBlocks == b / poolSlabBlocks).flatMap fun run =>
    let slab := slabs.getD (run.headD 0 / poolSlabBlocks) []
    run.map fun row => slab.getD (row % poolSlabBlocks) []

/-- The visible keys and values of a layer, or `none` if it has none. -/
def gatherVisible (pool : PagedBlockPool τ) (state : PagedSequenceState) (layerIdx : ℕ) :
    Except Fault (Option (List τ × List τ)) :=
  match state.layers[layerIdx]? with
  | none => .error (.layerOutOfRange layerIdx state.layers.length)
  | some layer =>
    let store := pool.layers layerIdx
    if layer.visibleLen = 0 ∨ layer.blockIds = [] then .ok none
    else if store.poolMeta = none ∨ store.poolK = [] ∨ store.poolV = [] then .ok none
    else
      match layer.blockIds.find? fun block => store.blockRows.lookup block = none with
      | some block => .error (.noPoolRow block layerIdx)
      | none =>
        let rows := layer.blockIds.filterMap store.blockRows.lookup
        let blockSize := asI32 pool.layout.blockSize
        let nBlocks := asI32 rows.length
        let len := asI32 layer.len
        if asI32 (nBlocks * blockSize) < len then
          .error (.lenExceedsBlocks layerIdx len nBlocks blockSize)
        else
          let gather := fun slabs : List (Slab τ) =>
            sliceTokens (asI32 layer.logicalStart) len (gatherRows slabs rows).flatten
          .ok (some (gather store.poolK, gather store.poolV))

end PagedBlockPool

end Mlxcel.Paged
