import Mlxcel.Paged.CachePool
import Mlxcel.Lib.AssocMap
import Mlxcel.Lib.Fallible

/-!
# The payload of a handoff

A prefill node hands a sequence over to a decode node as a `SerializableCacheState`: the block table
of the sequence and the contents of its blocks under the ids of the sender. The types and the gate
`validatePagedPayload` follow `kv_cache_serde/types.rs` and `deserialize.rs`.

**Errors.** An error of `anyhow` is its message under the contexts that were put around it, the
outermost first.

**Tensors.** `Mlx` are the two calls of the array library that the handoff rests on: the bytes of an
array, and the array of some bytes.

The main result is `validatePagedPayload_eq_ok`: it says exactly which payloads pass the gate.
-/

namespace Mlxcel.Handoff

open List Paged AssocMap Fallible Option

/-! ## Payloads -/

structure RawTensorData where
  data : List UInt8
  shape : List ℤ
  dtype : ℤ
deriving DecidableEq

/-- The contents of one block, under the id that it has at the sender. -/
structure SerializablePagedBlock where
  blockId : ℕ
  layerIdx : ℕ
  keys : RawTensorData
  values : RawTensorData
deriving DecidableEq

open SerializablePagedBlock

structure SerializablePagedLayerState where
  blockIds : List ℕ
  len : ℕ
  logicalStart : ℕ
deriving DecidableEq

structure SerializablePagedSequenceState where
  blockSize : ℕ
  bytesPerBlock : List ℕ
  layers : List SerializablePagedLayerState
deriving DecidableEq

/-- The fields for paged sequences. The dense entries and the metadata take no part in a paged
restore. -/
structure SerializableCacheState where
  sequenceBackend : SequenceStateBackend
  pagedState : Option SerializablePagedSequenceState
  pagedBlocks : List SerializablePagedBlock
deriving DecidableEq

structure CacheIngestLimits where
  maxPagedBlocks : ℕ
  maxBlockSlabBytes : ℕ
deriving DecidableEq

def CacheIngestLimits.default : CacheIngestLimits := ⟨2 ^ 20, 64 * 2 ^ 20⟩

structure ExpectedBlockGeometry where
  numLayers : ℕ
  blockSize : ℕ
  nKvHeads : ℤ
  headDim : ℤ
  dtype : ℤ
deriving DecidableEq

def ExpectedBlockGeometry.slabShape (g : ExpectedBlockGeometry) : List ℤ :=
  [MachineInt.asI32 g.blockSize, g.nKvHeads, g.headDim]

/-- A call that can fail with an error of `anyhow`. -/
abbrev Checked := Except (List String)

def bail {α : Type} (text : String) : Checked α := .error [text]

def context {α : Type} (text : String) : Checked α → Checked α
  | .ok a => .ok a
  | .error chain => .error (text :: chain)

/-! ## Tensors -/

def mlxDtypeElementSize (dtype : ℤ) : Checked ℕ :=
  if dtype ∈ [0, 1, 5] then pure 1
  else if dtype ∈ [2, 6, 9, 12] then pure 2
  else if dtype ∈ [3, 7, 10] then pure 4
  else if dtype ∈ [4, 8, 11, 13] then pure 8
  else bail s!"unknown MLX dtype code: {dtype}"

def checkedMul (a b : ℕ) (text : String) : Checked ℕ :=
  if a * b < 2 ^ 64 then pure (a * b) else bail text

def validateRawTensor (tensor : RawTensorData) : Checked Unit := do
  match tensor.shape.zipIdx.find? fun dim => dim.1 < 0 with
  | some (dim, i) => bail s!"invalid shape dimension at axis {i}: {dim} (must be non-negative)"
  | none => pure ()
  let elementSize ← mlxDtypeElementSize tensor.dtype
  let numElements ← tensor.shape.foldlM
    (fun acc dim => checkedMul acc dim.toNat "shape overflow computing total elements") 1
  let expectedBytes ← checkedMul numElements elementSize "byte count overflow for tensor"
  if tensor.data.length ≠ expectedBytes then
    bail (s!"tensor data size mismatch: shape {tensor.shape} with dtype {tensor.dtype} expects " ++
      s!"{expectedBytes} bytes, got {tensor.data.length}")

/-- The array library. -/
structure Mlx (τ : Type) where
  fromBytes : List UInt8 → List ℤ → ℤ → Option (MlxArray τ)

def reconstructMlxArray {τ : Type} (mlx : Mlx τ) (tensor : RawTensorData) :
    Checked (MlxArray τ) := do
  validateRawTensor tensor
  match mlx.fromBytes tensor.data tensor.shape tensor.dtype with
  | some array => pure array
  | none => bail "failed to construct validated MLX tensor"

/-! ## The block table -/

namespace SerializablePagedSequenceState

variable (s : SerializablePagedSequenceState)

def checkLayout : Checked Unit :=
  if s.blockSize = 0 then bail "PagedKvLayout: block_size must be > 0"
  else if s.bytesPerBlock = [] then bail "PagedKvLayout: bytes_per_block must not be empty"
  else
    match s.bytesPerBlock.zipIdx.find? fun b => b.1 = 0 ∨ b.1 % s.blockSize ≠ 0 with
    | some (bytes, layerIdx) =>
      bail (s!"PagedKvLayout: layer {layerIdx} bytes_per_block ({bytes}) must be a positive " ++
        s!"multiple of block_size ({s.blockSize})")
    | none => pure ()

def validateLayer (layer : SerializablePagedLayerState) (layerIdx : ℕ) : Checked Unit :=
  let requiredBlocks := layer.len ⌈/⌉ s.blockSize
  if layer.len < layer.logicalStart then
    bail (s!"paged layer {layerIdx} logical_start {layer.logicalStart} exceeds len {layer.len}")
  else if layer.blockIds.length < requiredBlocks then
    bail (s!"paged layer {layerIdx} has {layer.blockIds.length} blocks for length {layer.len}, " ++
      s!"requires at least {requiredBlocks}")
  else pure ()

def validate : Checked Unit := do
  s.checkLayout
  if s.layers.length ≠ s.bytesPerBlock.length then
    bail (s!"paged sequence layer count mismatch: state has {s.layers.length}, layout has " ++
      s!"{s.bytesPerBlock.length}")
  s.layers.zipIdx.forM fun layer => s.validateLayer layer.1 layer.2

def toRuntime : Checked PagedSequenceState := do
  s.validate
  return ⟨s.blockSize, s.layers.map fun layer =>
    ⟨layer.blockIds, layer.len, min layer.logicalStart layer.len⟩⟩

end SerializablePagedSequenceState

/-! ## The gate -/

/-- The two slabs of a block with their names. -/
def SerializablePagedBlock.slabs (block : SerializablePagedBlock) : List (String × RawTensorData) :=
  [("keys", block.keys), ("values", block.values)]

def checkSlabBytes (limits : CacheIngestLimits) (i : ℕ) (name : String) (slab : RawTensorData) :
    Checked Unit :=
  if limits.maxBlockSlabBytes < slab.data.length then
    bail (s!"paged block {i} {name} slab is {slab.data.length} bytes, exceeds limit " ++
      s!"{limits.maxBlockSlabBytes}")
  else pure ()

def checkLayerRange (numLayers : Option ℕ) (i layerIdx : ℕ) : Checked Unit :=
  match numLayers with
  | none => pure ()
  | some n =>
    if n ≤ layerIdx then
      bail s!"paged block {i} layer_idx {layerIdx} out of range for {n} layers"
    else pure ()

def checkGeometry (g : ExpectedBlockGeometry) (i : ℕ) (name : String) (slab : RawTensorData) :
    Checked Unit :=
  if slab.shape ≠ g.slabShape then
    bail (s!"paged block {i} {name} shape {slab.shape} does not match decode model geometry " ++
      s!"{g.slabShape}")
  else if slab.dtype ≠ g.dtype then
    bail (s!"paged block {i} {name} dtype {slab.dtype} does not match decode model dtype " ++
      s!"{g.dtype}")
  else pure ()

/-- The checks of one block that need no other block. -/
def checkBlock (limits : CacheIngestLimits) (expected : Option ExpectedBlockGeometry)
    (numLayers : Option ℕ) (i : ℕ) (block : SerializablePagedBlock) : Checked Unit := do
  block.slabs.forM fun slab => checkSlabBytes limits i slab.1 slab.2
  checkLayerRange numLayers i block.layerIdx
  match expected with
  | none => pure ()
  | some g => block.slabs.forM fun slab => checkGeometry g i slab.1 slab.2

/-- Which layer the contents of an id are for. -/
abbrev BlockLayers := AList fun _ : ℕ => ℕ

/-- No other layer had contents under the id of the block. -/
def checkSupplied (blockLayer : BlockLayers) (block : SerializablePagedBlock) : Checked Unit :=
  match blockLayer.lookup block.blockId with
  | some prev =>
    if prev ≠ block.layerIdx then
      bail (s!"paged block id {block.blockId} supplied for both layer {prev} and layer " ++
        s!"{block.layerIdx} (block ids are layer-unique)")
    else pure ()
  | none => pure ()

/-- The loop over the blocks, from the block with number `i` on. -/
def checkBlocks (limits : CacheIngestLimits) (expected : Option ExpectedBlockGeometry)
    (numLayers : Option ℕ) : ℕ → List SerializablePagedBlock → BlockLayers → Checked BlockLayers
  | _, [], blockLayer => pure blockLayer
  | i, block :: blocks, blockLayer => do
    checkBlock limits expected numLayers i block
    checkSupplied blockLayer block
    checkBlocks limits expected numLayers (i + 1) blocks
      (blockLayer.insert block.blockId block.layerIdx)

def checkReference (blockLayer : BlockLayers) (layerIdx blockId : ℕ) : Checked Unit :=
  match blockLayer.lookup blockId with
  | some l =>
    if l = layerIdx then pure ()
    else bail (s!"block {blockId} is referenced by layer {layerIdx} but its transferred " ++
      s!"contents declare layer {l}")
  | none => bail s!"block {blockId} referenced by layer {layerIdx} has no transferred contents"

def SerializablePagedSequenceState.referenced (s : SerializablePagedSequenceState) : List ℕ :=
  s.layers.flatMap SerializablePagedLayerState.blockIds

def checkReferenced (referenced : List ℕ) (block : SerializablePagedBlock) : Checked Unit :=
  if block.blockId ∈ referenced then pure ()
  else bail (s!"paged block id {block.blockId} has transferred contents but is not referenced by " ++
    "any layer table")

/-- The cross-check of the block table with the contents. -/
def checkTable (blocks : List SerializablePagedBlock) (blockLayer : BlockLayers)
    (pagedState : SerializablePagedSequenceState) : Checked Unit := do
  let hasBlocks := !blocks.isEmpty
  if hasBlocks then
    pagedState.layers.zipIdx.forM fun layer =>
      layer.1.blockIds.forM fun blockId => checkReference blockLayer layer.2 blockId
  let referencedCount := pagedState.referenced.length
  if referencedCount = 0 then
    bail ("paged handoff carries an empty block table; a cross-node decode handoff must carry a " ++
      "prefilled sequence")
  if !hasBlocks then
    bail (s!"paged handoff references {referencedCount} blocks but carries no block contents; " ++
      "metadata-only paged restore is invalid on a fresh decode pool")
  blocks.forM (checkReferenced pagedState.referenced)

def SerializableCacheState.isPaged (state : SerializableCacheState) : Bool :=
  state.sequenceBackend = .pagedKvCache || state.pagedState.isSome || !state.pagedBlocks.isEmpty

def validatePagedPayload (state : SerializableCacheState) (limits : CacheIngestLimits)
    (expected : Option ExpectedBlockGeometry) : Checked Unit :=
  if state.isPaged = false then pure ()
  else if limits.maxPagedBlocks < state.pagedBlocks.length then
    bail (s!"paged handoff carries {state.pagedBlocks.length} blocks, exceeds limit " ++
      s!"{limits.maxPagedBlocks}")
  else do
    let numLayers := (expected.map ExpectedBlockGeometry.numLayers).or
      (state.pagedState.map fun s => s.layers.length)
    let blockLayer ← checkBlocks limits expected numLayers 0 state.pagedBlocks ∅
    match state.pagedState with
    | none => bail "paged sequence payload is missing paged_state metadata"
    | some pagedState => checkTable state.pagedBlocks blockLayer pagedState

/-! ## What passes the gate -/

@[simp] lemma bail_ne_ok {α : Type} {text : String} {a : α} : bail text ≠ .ok a := by
  simp [bail]

section Block

variable {limits : CacheIngestLimits} {expected : Option ExpectedBlockGeometry}
  {numLayers : Option ℕ}

variable {i : ℕ} {name : String} {slab : RawTensorData}

lemma checkSlabBytes_eq_ok :
    checkSlabBytes limits i name slab = .ok () ↔ slab.data.length ≤ limits.maxBlockSlabBytes := by
  rw [checkSlabBytes]
  split_ifs with h
  · simp [Nat.not_le.mpr h]
  · simp [Nat.not_lt.mp h]

lemma checkLayerRange_eq_ok {i layerIdx : ℕ} :
    checkLayerRange numLayers i layerIdx = .ok () ↔ ∀ n ∈ numLayers, layerIdx < n := by
  cases numLayers with
  | none => simp [checkLayerRange]
  | some n =>
    simp only [checkLayerRange]
    split_ifs with h
    · simp [Nat.not_lt.mpr h]
    · simp [Nat.lt_of_not_le h]

lemma checkGeometry_eq_ok {g : ExpectedBlockGeometry} :
    checkGeometry g i name slab = .ok () ↔ slab.shape = g.slabShape ∧ slab.dtype = g.dtype := by
  rw [checkGeometry]
  split_ifs with hshape hdtype
  · simp [hshape]
  · simp [hdtype]
  · simp [not_not.mp hshape, not_not.mp hdtype]

/-- A block within the limits that has the geometry of the decode model, where that is known. -/
structure SerializablePagedBlock.Fits (limits : CacheIngestLimits)
    (expected : Option ExpectedBlockGeometry) (numLayers : Option ℕ)
    (block : SerializablePagedBlock) : Prop where
  bytes_le : ∀ slab ∈ block.slabs, slab.2.data.length ≤ limits.maxBlockSlabBytes
  layer_lt : ∀ n ∈ numLayers, block.layerIdx < n
  geometry : ∀ g ∈ expected, ∀ slab ∈ block.slabs,
    slab.2.shape = g.slabShape ∧ slab.2.dtype = g.dtype

variable {block : SerializablePagedBlock}

lemma checkBlock_eq_ok :
    checkBlock limits expected numLayers i block = .ok () ↔
      block.Fits limits expected numLayers := by
  simp only [checkBlock, check_bind_eq_ok, forM_eq_ok, checkSlabBytes_eq_ok,
    checkLayerRange_eq_ok]
  cases expected with
  | none =>
    constructor
    · rintro ⟨hbytes, hlayer, _⟩
      exact ⟨hbytes, hlayer, by simp⟩
    · intro h
      exact ⟨h.bytes_le, h.layer_lt, rfl⟩
  | some g =>
    simp only [forM_eq_ok, checkGeometry_eq_ok]
    constructor
    · rintro ⟨hbytes, hlayer, hgeometry⟩
      refine ⟨hbytes, hlayer, ?_⟩
      intro g' hg'
      rw [mem_some_iff] at hg'
      exact hg' ▸ hgeometry
    · intro h
      exact ⟨h.bytes_le, h.layer_lt, h.geometry g rfl⟩

/-- The two blocks do not give one id to different layers. -/
def SerializablePagedBlock.Agrees (b b' : SerializablePagedBlock) : Prop :=
  b.blockId = b'.blockId → b.layerIdx = b'.layerIdx

instance : Std.Symm Agrees := ⟨fun _ _ h hid => (h hid.symm).symm⟩

/-- The map that the loop over the blocks builds. -/
def blockLayers (blocks : List SerializablePagedBlock) (m : BlockLayers) : BlockLayers :=
  blocks.foldl (fun m b => m.insert b.blockId b.layerIdx) m

lemma checkSupplied_eq_ok {m : BlockLayers} :
    checkSupplied m block = .ok () ↔ ∀ l ∈ m.lookup block.blockId, l = block.layerIdx := by
  rw [checkSupplied]
  cases m.lookup block.blockId with
  | none => simp
  | some prev =>
    simp only
    split_ifs with h
    · simp [h]
    · simp [not_not.mp h]

variable {blocks : List SerializablePagedBlock}

lemma checkBlocks_eq_ok {m m' : BlockLayers} :
    checkBlocks limits expected numLayers i blocks m = .ok m' ↔
      (∀ b ∈ blocks, b.Fits limits expected numLayers) ∧
      (∀ b ∈ blocks, ∀ l ∈ m.lookup b.blockId, l = b.layerIdx) ∧
      blocks.Pairwise Agrees ∧ m' = blockLayers blocks m := by
  induction blocks generalizing i m with
  | nil =>
    rw [checkBlocks, pure_eq_ok]
    simp [blockLayers, eq_comm]
  | cons b blocks ih =>
    simp only [checkBlocks, check_bind_eq_ok, checkBlock_eq_ok, checkSupplied_eq_ok, ih,
      forall_mem_cons, pairwise_cons]
    constructor
    · rintro ⟨hfits, hb, hblocks, hinsert, hpairwise, hm'⟩
      refine ⟨⟨hfits, hblocks⟩, ⟨hb, ?_⟩, ⟨?_, hpairwise⟩, hm'⟩
      · intro b' hb' l hl
        by_cases heq : b'.blockId = b.blockId
        · have hsame := hinsert b' hb' b.layerIdx (by rw [heq, AList.lookup_insert]; rfl)
          rw [heq] at hl
          exact (hb l hl).trans hsame
        · exact hinsert b' hb' l (by rwa [AList.lookup_insert_ne heq])
      · intro b' hb' heq
        exact hinsert b' hb' b.layerIdx (by rw [← heq, AList.lookup_insert]; rfl)
    · rintro ⟨⟨hfits, hblocks⟩, ⟨hb, hrest⟩, ⟨hagrees, hpairwise⟩, hm'⟩
      refine ⟨hfits, hb, hblocks, ?_, hpairwise, hm'⟩
      intro b' hb' l hl
      rw [lookup_insert_eq] at hl
      split_ifs at hl with heq
      · rw [← mem_some_iff.mp hl]
        exact hagrees b' hb' heq.symm
      · exact hrest b' hb' l hl

/-- The map has the layers of the blocks, if no two of them disagree. -/
lemma lookup_blockLayers (h : blocks.Pairwise Agrees) {id l : ℕ} :
    (blockLayers blocks ∅).lookup id = some l ↔ ∃ b ∈ blocks, b.blockId = id ∧ b.layerIdx = l := by
  constructor
  · intro hlookup
    rcases lookup_foldl_insert_eq_some _ _ hlookup with hb | hempty
    · exact hb
    · simp at hempty
  · rintro ⟨b, hb, rfl, rfl⟩
    rcases exists_lookup_foldl_insert blockId
      layerIdx ∅ hb with ⟨b', hb', hid, hlookup⟩
    have hagrees : b'.Agrees b := Pairwise.forall_of_forall (fun _ _ _ => rfl) h hb' hb
    rw [← hagrees hid]
    exact hlookup

end Block

/-- **What the gate lets through**: contents within the limits, with one layer for each id, and a
block table that refers to all of them and to nothing else. -/
structure Admitted (limits : CacheIngestLimits) (expected : Option ExpectedBlockGeometry)
    (blocks : List SerializablePagedBlock) (pagedState : SerializablePagedSequenceState) : Prop where
  count_le : blocks.length ≤ limits.maxPagedBlocks
  fits : ∀ b ∈ blocks, b.Fits limits expected
    ((expected.map ExpectedBlockGeometry.numLayers).or (some pagedState.layers.length))
  agrees : blocks.Pairwise Agrees
  backed : ∀ {l layer}, pagedState.layers[l]? = some layer → ∀ id ∈ layer.blockIds,
    ∃ b ∈ blocks, b.blockId = id ∧ b.layerIdx = l
  referenced : ∀ b ∈ blocks, b.blockId ∈ pagedState.referenced
  nonempty : blocks ≠ []

variable {m : BlockLayers}

lemma checkReference_eq_ok {l id : ℕ} :
    checkReference m l id = .ok () ↔ m.lookup id = some l := by
  rw [checkReference]
  cases m.lookup id with
  | none => simp
  | some l' =>
    simp only
    split_ifs with h
    · simp [h]
    · simp [h]

lemma checkReferenced_eq_ok {referenced : List ℕ} {b : SerializablePagedBlock} :
    checkReferenced referenced b = .ok () ↔ b.blockId ∈ referenced := by
  rw [checkReferenced]
  split_ifs with h
  · simp [h]
  · simp [h]

lemma checkTable_eq_ok {blocks : List SerializablePagedBlock}
    {pagedState : SerializablePagedSequenceState} :
    checkTable blocks m pagedState = .ok () ↔
      (∀ {l layer}, pagedState.layers[l]? = some layer →
        ∀ id ∈ layer.blockIds, m.lookup id = some l) ∧
      (∀ b ∈ blocks, b.blockId ∈ pagedState.referenced) ∧ blocks ≠ [] := by
  cases blocks with
  | nil =>
    -- without contents both an empty and a filled table are refused
    simp only [checkTable]
    by_cases hempty : pagedState.referenced.length = 0
    · simp [hempty, bind, Except.bind, bail]
    · simp [hempty]
  | cons b blocks =>
    have hreferenced : (∀ b' ∈ b :: blocks, b'.blockId ∈ pagedState.referenced) →
        pagedState.referenced.length ≠ 0 := by
      intro h hzero
      have hmem := h b mem_cons_self
      rw [length_eq_zero_iff.mp hzero] at hmem
      exact absurd hmem not_mem_nil
    have hloop : (pagedState.layers.zipIdx.forM fun layer => layer.1.blockIds.forM fun blockId =>
        checkReference m layer.2 blockId) = .ok () ↔
        ∀ {l layer}, pagedState.layers[l]? = some layer →
          ∀ id ∈ layer.blockIds, m.lookup id = some l := by
      simp only [forM_eq_ok, checkReference_eq_ok]
      constructor
      · intro h l layer hlayer
        exact h (layer, l) (mem_zipIdx_iff_getElem?.mpr hlayer)
      · rintro h ⟨layer, l⟩ hmem
        exact h (mem_zipIdx_iff_getElem?.mp hmem)
    simp only [checkTable, isEmpty_cons, Bool.not_false, if_true, check_bind_eq_ok, hloop,
      Bool.not_true, Bool.false_eq_true, if_false]
    refine and_congr_right fun _ => ?_
    split_ifs with hzero
    · simp only [check_bind_eq_ok, bail_ne_ok, false_and, false_iff, not_and]
      exact fun h => absurd hzero (hreferenced h)
    · simp only [forM_eq_ok, checkReferenced_eq_ok, ne_eq, reduceCtorEq, not_false_iff, and_true]

theorem validatePagedPayload_eq_ok {state : SerializableCacheState} {limits : CacheIngestLimits}
    {expected : Option ExpectedBlockGeometry} :
    validatePagedPayload state limits expected = .ok () ↔ state.isPaged = false ∨
      ∃ pagedState, state.pagedState = some pagedState ∧
        Admitted limits expected state.pagedBlocks pagedState := by
  rw [validatePagedPayload]
  by_cases hpaged : state.isPaged = false
  · simp [hpaged]
  rw [or_iff_right hpaged]
  split_ifs with hcount
  · simp only [bail_ne_ok, false_iff, not_exists, not_and]
    intro pagedState _ h
    exact absurd h.count_le (Nat.not_le.mpr hcount)
  simp only [bind_eq_ok, checkBlocks_eq_ok]
  cases hstate : state.pagedState with
  | none => simp
  | some pagedState =>
    simp only [checkTable_eq_ok, some.injEq, exists_eq_left']
    constructor
    · rintro ⟨m, ⟨hfits, _, hagrees, rfl⟩, hbacked, hreferenced, hne⟩
      refine ⟨Nat.not_lt.mp hcount, hfits, hagrees, ?_, hreferenced, hne⟩
      intro l layer hlayer id hid
      exact (lookup_blockLayers hagrees).mp (hbacked hlayer id hid)
    · intro h
      refine ⟨_, ⟨h.fits, ?_, h.agrees, rfl⟩, ?_, h.referenced, h.nonempty⟩
      · intro b _ l hl
        simp at hl
      · intro l layer hlayer id hid
        exact (lookup_blockLayers h.agrees).mpr (h.backed hlayer id hid)

end Mlxcel.Handoff
