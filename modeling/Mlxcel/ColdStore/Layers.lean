import Mlxcel.ColdStore.Manifest

/-!
# The layers of a block

The state of one layer is a file of its own. `readKvCache` decodes such a file, and
`mergeLayerAcrossBlocks` joins the layers that the blocks of a manifest have at one index.

**MLX.** Arrays belong to the MLX library, and `Mlx` is what the store asks of it: the shape of an
array, an array from bytes, a full slice and a concatenation along axis 2. A concatenation whose
shapes do not fit is a C++ exception that no caller catches: the process ends, which is modelled as
a panic. So is the index `shape[2]` of an array of lower rank. That a payload cannot be allocated is
not modelled.
-/

namespace Mlxcel.ColdStore

open Delimited

/-- The operations of MLX on its arrays `A`. -/
structure Mlx (A : Type) where
  shape : A → List Int32
  fromBytes : List UInt8 → List Int32 → Int32 → Except String A
  /-- The full range along axis 2, as an array of its own. -/
  slice : A → A
  /-- Along axis 2, unless MLX refuses. -/
  concatenate : A → A → Option A
  shape_slice : ∀ a, shape (slice a) = shape a
  rank_concatenate : ∀ a b c, concatenate a b = some c → 2 < (shape c).length

/-- The optional arrays of a layer, in the order of the file. -/
inductive TensorField
  | keys | values | keyScales | valScales | vPacked | vNorms | vRescale | kPacked | kNorms | m3IdxK
  | kvarnSinkK | kvarnSinkV | kvarnTailK | kvarnTailV | kvarnHistK | kvarnHistV | kvarnKScale
  | kvarnKZp | kvarnKSRow | kvarnKSCol | kvarnVScale | kvarnVZp | kvarnVSRow | kvarnVSCol
deriving DecidableEq, Repr

inductive DelegatedFp16SidecarPolicy
  | predecode | lazy
deriving DecidableEq, Repr

structure DetachedKVCache (A : Type) where
  tensor : TensorField → Option A
  offset : Int32
  step : Int32
  mode : KVCacheMode
  turboSeed : ℕ
  coldOffset : Int32
  hotThreshold : Int32
  delegatedFp16FastPath : Bool
  delegatedFp16SidecarPolicy : DelegatedFp16SidecarPolicy
  m3IdxOffset : Int32
  kvarnVBits : ℕ

variable {A : Type} (mlx : Mlx A)

/-! ## Reading a layer -/

def maxSerializedTensorRank : ℕ := 32

/-- The size of an element, for the types that a file may hold. -/
def itemSize (dt : Int32) : Option ℕ :=
  if dt = 1 ∨ dt = 5 then some 1
  else if dt = 9 ∨ dt = 12 then some 2
  else if dt = 3 ∨ dt = 7 ∨ dt = 10 then some 4
  else none

/-- An error in case of `c`. -/
def refuse (c : Prop) [Decidable c] (detail : String) : Outcome Unit :=
  if c then throw (invalidData detail) else pure ()

def validateArrayMetadata (byteLen : ℕ) (dt : Int32) (shape : List Int32) : Outcome ℕ :=
  match itemSize dt with
  | none => throw (invalidData s!"unsupported dtype: {dt}")
  | some size => do
    let elementCount ← shape.foldlM (fun count dim => do
      refuse (dim < 0) s!"negative tensor dimension: {dim}"
      refuse (2 ^ 64 ≤ count * dim.toInt.toNat) "tensor element count overflow"
      return count * dim.toInt.toNat) 1
    refuse (2 ^ 64 ≤ elementCount * size) "tensor byte length overflow"
    refuse (byteLen ≠ elementCount * size) (s!"tensor byte length mismatch: dtype {dt}, shape " ++
      s!"{shape}, expected {elementCount * size}, got {byteLen}")
    return size

def arrayFromRawBytes (bytes : List UInt8) (dt : Int32) (shape : List Int32) : Outcome A := do
  let _ ← validateArrayMetadata bytes.length dt shape
  match mlx.fromBytes bytes shape dt with
  | .ok a => return a
  | .error e => throw (.err (.io .other e))

def readU8 : Reader ℕ := do return leNat (← readExact 1)

def readArray : Reader A := do
  let dt ← readI32
  let ndim ← readI32
  let _ ← refuse (ndim < 0) "negative tensor rank"
  let _ ← refuse (maxSerializedTensorRank < ndim.toInt.toNat)
    s!"tensor rank {ndim} exceeds limit {maxSerializedTensorRank}"
  let shape ← readMany readI32 ndim.toInt.toNat
  let byteLen ← readU64
  let _ ← validateArrayMetadata byteLen dt shape
  let _ ← refuse (2 ^ 63 ≤ byteLen) s!"cannot allocate {byteLen}-byte tensor payload"
  let bytes ← readExact byteLen
  arrayFromRawBytes mlx bytes dt shape

def readOptArray : Reader (Option A) := do
  if (← readU8) = 0 then return none else return some (← readArray mlx)

def serializedFields : List TensorField :=
  [.keys, .values, .keyScales, .valScales, .vPacked, .vNorms, .vRescale, .kPacked, .kNorms, .m3IdxK,
    .kvarnSinkK, .kvarnSinkV, .kvarnTailK, .kvarnTailV, .kvarnHistK, .kvarnHistV, .kvarnKScale,
    .kvarnKZp, .kvarnKSRow, .kvarnKSCol, .kvarnVScale, .kvarnVZp, .kvarnVSRow, .kvarnVSCol]

def modeOfTag (layerIdx : ℕ) : ℕ → Outcome KVCacheMode
  | 0 => pure .fp16
  | 1 => pure .int8
  | 2 => pure .turbo4Asym
  | 3 => pure .turbo3Asym
  | 4 => pure .turbo4
  | 5 => pure .turbo4Delegated
  | 6 => pure .kvarn8
  | tag => throw (.err (.corruptLayer layerIdx s!"unknown mode tag: {tag}"))

def policyOfTag (layerIdx : ℕ) : ℕ → Outcome DelegatedFp16SidecarPolicy
  | 0 => pure .predecode
  | 1 => pure .lazy
  | tag => throw (.err (.corruptLayer layerIdx s!"unknown sidecar policy: {tag}"))

def readKvCacheFields (layerIdx : ℕ) : Reader (DetachedKVCache A) := do
  let modeTag ← readU8
  let offset ← readI32
  let step ← readI32
  let turboSeed ← readU32
  let coldOffset ← readI32
  let hotThreshold ← readI32
  let fastPath ← readU8
  let sidecarPolicyRaw ← readU8
  let kvarnVBits ← readU8
  let m3IdxOffset ← readI32
  let mode ← modeOfTag layerIdx modeTag
  let policy ← policyOfTag layerIdx sidecarPolicyRaw
  let arrays ← readMany (readOptArray mlx) serializedFields.length
  return ⟨fun field => ((serializedFields.zip arrays).lookup field).join, offset, step, mode,
    turboSeed, coldOffset, hotThreshold, fastPath != 0, policy, m3IdxOffset, kvarnVBits⟩

def readKvCache (bytes : List UInt8) (layerIdx : ℕ) : Outcome (DetachedKVCache A) :=
  (readKvCacheFields mlx layerIdx).run' bytes

/-! ## Joining the layers of several blocks -/

/-- The extent along axis 2. -/
def axis2 (a : A) : Outcome Int32 :=
  match (mlx.shape a)[2]? with
  | some n => pure n
  | none => throw (.panic "index out of bounds")

def axis2Of : Option A → Outcome Int32
  | none => pure 0
  | some a => axis2 mlx a

def concatAcross (layers : List (DetachedKVCache A)) (field : TensorField) : Outcome (Option A) :=
  match layers.filterMap (·.tensor field) with
  | [] => pure none
  | [first] => do
    let _ ← axis2 mlx first
    return some (mlx.slice first)
  | first :: rest =>
    match rest.foldlM mlx.concatenate first with
    | some acc => pure (some acc)
    | none => throw (.panic "terminate")

def histPerTokenFields : List (String × TensorField) :=
  [("kvarn_hist_k", .kvarnHistK), ("kvarn_hist_v", .kvarnHistV), ("kvarn_k_scale", .kvarnKScale),
    ("kvarn_k_zp", .kvarnKZp), ("kvarn_k_s_row", .kvarnKSRow), ("kvarn_v_scale", .kvarnVScale),
    ("kvarn_v_zp", .kvarnVZp), ("kvarn_v_s_row", .kvarnVSRow)]

def histPerTileFields : List (String × TensorField) :=
  [("kvarn_k_s_col", .kvarnKSCol), ("kvarn_v_s_col", .kvarnVSCol)]

def kvarnTileTokens : Int32 := 128

section Merge

variable (layers : List (DetachedKVCache A)) (layerIdx : ℕ)

/-- The K side and the V side of a region have the same extent. -/
def checkSymmetry (blockCount : ℕ) (name : String) (kLen vLen : Int32) : Outcome Unit :=
  refuse (kLen ≠ vLen) (s!"assemble_blocks: layer {layerIdx} {name} K side is {kLen} tokens but " ++
    s!"the V side is {vLen} — a block was skipped on one side only ({blockCount} blocks merged). " ++
    "K and V describe the same tokens; a mismatch means the V side is misaligned against the " ++
    "tokens it applies to.")

def checkRegionCoherence (merged : DetachedKVCache A) (blockCount : ℕ) : Outcome Unit :=
  if merged.mode ≠ .kvarn8 then do
    let k ← axis2Of mlx (merged.tensor .keys)
    let v ← axis2Of mlx (merged.tensor .values)
    refuse (k ≠ v) (s!"assemble_blocks: layer {layerIdx} assembled keys ({k} tokens) and values " ++
      s!"({v} tokens) disagree — a block was skipped on one side ({blockCount} blocks)")
  else do
    let sinkLen ← axis2Of mlx (merged.tensor .kvarnSinkK)
    let histLen ← axis2Of mlx (merged.tensor .kvarnHistK)
    let tailLen ← axis2Of mlx (merged.tensor .kvarnTailK)
    let sinkV ← axis2Of mlx (merged.tensor .kvarnSinkV)
    let tailV ← axis2Of mlx (merged.tensor .kvarnTailV)
    checkSymmetry layerIdx blockCount "sink" sinkLen sinkV
    checkSymmetry layerIdx blockCount "tail" tailLen tailV
    histPerTokenFields.forM fun field => do
      let n ← axis2Of mlx (merged.tensor field.2)
      refuse (n ≠ 0 ∧ n ≠ histLen) (s!"assemble_blocks: layer {layerIdx} field `{field.1}` has " ++
        s!"{n} history entries but the history is {histLen} tokens — a block was silently " ++
        s!"skipped for this field ({blockCount} blocks merged). A short per-token field is " ++
        "misaligned against the tokens it describes: silent wrong inference, not a crash.")
    refuse (histLen % kvarnTileTokens ≠ 0) (s!"assemble_blocks: layer {layerIdx} assembled " ++
      s!"history is {histLen} tokens, not a multiple of the tile size {kvarnTileTokens} — blocks " ++
      "were merged across a partial tile")
    histPerTileFields.forM fun field => do
      let n ← axis2Of mlx (merged.tensor field.2)
      refuse (n ≠ 0 ∧ n ≠ histLen / kvarnTileTokens) (s!"assemble_blocks: layer {layerIdx} field " ++
        s!"`{field.1}` has {n} entries but the history is {histLen / kvarnTileTokens} tiles " ++
        s!"({histLen} tokens) — these are PER-TILE scales, and a count that is neither 0 nor the " ++
        s!"tile count means a block was skipped ({blockCount} blocks merged)")

/-- The checks after the merge: coherent regions, which together have the extent of the manifest.
Sums wrap, as in a release build. -/
def checkMerged (merged : DetachedKVCache A) (blockCount : ℕ) : Outcome Unit := do
  checkRegionCoherence mlx layerIdx merged blockCount
  let assembled ←
    if merged.mode = .kvarn8 then do
      let sink ← axis2Of mlx (merged.tensor .kvarnSinkK)
      let hist ← axis2Of mlx (merged.tensor .kvarnHistK)
      let tail ← axis2Of mlx (merged.tensor .kvarnTailK)
      pure (sink + hist + tail)
    else axis2Of mlx (merged.tensor .keys)
  refuse (assembled ≠ merged.offset) (s!"assemble_blocks: layer {layerIdx} assembled to " ++
    s!"{assembled} tokens but the manifest says {merged.offset} — a block was dropped, " ++
    s!"duplicated, or is the wrong size ({blockCount} blocks merged)")

/-- The name that a derived `Debug` prints. -/
def KVCacheMode.debug : KVCacheMode → String
  | .fp16 => "Fp16"
  | .int8 => "Int8"
  | .turbo4Asym => "Turbo4Asym"
  | .turbo3Asym => "Turbo3Asym"
  | .turbo4 => "Turbo4"
  | .turbo4Delegated => "Turbo4Delegated"
  | .kvarn8 => "KVarN8"

/-- The checks before the merge: one mode, one width, and under `KVarN8` the sink in the first block
and the tail in the last one. -/
def checkLayers (first : DetachedKVCache A) : Outcome Unit := do
  layers.zipIdx.forM fun (l, i) => do
    refuse (l.mode ≠ first.mode) (s!"assemble_blocks: layer {layerIdx} block {i} has mode " ++
      s!"{l.mode.debug}, block 0 has {first.mode.debug} — manifest mixes blocks from different " ++
      "KV modes")
    refuse (l.kvarnVBits ≠ first.kvarnVBits) (s!"assemble_blocks: layer {layerIdx} block {i} " ++
      s!"has kvarn_v_bits {l.kvarnVBits}, block 0 has {first.kvarnVBits} — manifest mixes blocks " ++
      "quantized at different V widths")
  if first.mode = .kvarn8 then
    let last := layers.length - 1
    layers.zipIdx.forM fun (l, i) => do
      refuse (i ≠ 0 ∧ ((l.tensor .kvarnSinkK).isSome ∨ (l.tensor .kvarnSinkV).isSome))
        (s!"assemble_blocks: layer {layerIdx} block {i} carries a sink, but only the first block " ++
          "may — manifest order is wrong, or these blocks are from different sequences")
      refuse (i ≠ last ∧ ((l.tensor .kvarnTailK).isSome ∨ (l.tensor .kvarnTailV).isSome))
        (s!"assemble_blocks: layer {layerIdx} block {i} carries a tail, but only the last block " ++
          s!"({last}) may — see above")
  else
    pure ()

/-- The fields that are joined after the indexer's; the packed ones of the other modes are not. -/
def joinedFields : List TensorField :=
  [.keys, .values, .keyScales, .valScales, .kvarnSinkK, .kvarnSinkV, .kvarnTailK, .kvarnTailV,
    .kvarnHistK, .kvarnHistV, .kvarnKScale, .kvarnKZp, .kvarnKSRow, .kvarnKSCol, .kvarnVScale,
    .kvarnVZp, .kvarnVSRow, .kvarnVSCol]

def mergeLayerAcrossBlocks (totalTokens : Int32) : Outcome (DetachedKVCache A) :=
  match layers with
  | [] => throw (.panic "index out of bounds: the len is 0 but the index is 0")
  | first :: _ => do
    checkLayers layers layerIdx first
    let m3IdxK ← concatAcross mlx layers .m3IdxK
    let m3IdxOffset ← axis2Of mlx m3IdxK
    let joined ← joinedFields.mapM (concatAcross mlx layers)
    let merged : DetachedKVCache A := { first with
      tensor := fun field => (((.m3IdxK, m3IdxK) :: joinedFields.zip joined).lookup field).join
      offset := totalTokens
      coldOffset := 0
      m3IdxOffset := m3IdxOffset }
    checkMerged mlx layerIdx merged layers.length
    return merged

end Merge

end Mlxcel.ColdStore
