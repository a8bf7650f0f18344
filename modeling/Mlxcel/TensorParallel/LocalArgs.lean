import Mlxcel.TensorParallel.ShardPlan

/-!
# Local configurations and local weights

`llama_runtime.rs`: what each runtime family turns its configuration into for one rank
(`local_*_args`), and which rows of a weight a rank receives (`shard_*_weight_map`).

**Two decisions.** A family decides in one function how many KV heads a rank has and in another
which KV rows it receives. The decisions differ between the families: the KV heads are split, all
of them are replicated, or a group of ranks shares one.
-/

namespace Mlxcel.TensorParallel

open Str

/-- `ensure!`. -/
def ensure (c : Prop) [Decidable c] (message : String) : Except String Unit :=
  if c then .ok () else .error message

@[simp] lemma ensure_bind_eq_ok {c : Prop} [Decidable c] {message : String} {β : Type}
    {f : Unit → Except String β} {b : β} :
    (ensure c message >>= f) = .ok b ↔ c ∧ f () = .ok b := by
  by_cases hc : c <;> simp [ensure, hc, bind, Except.bind]

/-- The check that a size splits over the ranks. -/
def ensureDivisible (field : String) (value tpSize : ℕ) : Except String Unit :=
  ensure (tpSize ∣ value) s!"{field} ({value}) must be divisible by tp_size ({tpSize})"

/-- The check of the families that split the KV heads. -/
def ensureKvSharded (numKvHeads tpSize : ℕ) : Except String Unit :=
  ensure (tpSize ≤ numKvHeads ∧ tpSize ∣ numKvHeads)
    (s!"num_key_value_heads ({numKvHeads}) must be divisible by tp_size ({tpSize}) " ++
      "for the current tensor-parallel runtime")

/-- The check that there are KV heads. -/
def ensureKvPositive (field family : String) (numKvHeads : ℕ) : Except String Unit :=
  ensure (0 < numKvHeads) s!"{field} must be greater than zero for {family} tensor parallelism"

/-- The check of the families that split the KV heads or share them. -/
def ensureKvFits (field family : String) (numKvHeads tpSize : ℕ) : Except String Unit :=
  ensure (if numKvHeads < tpSize then numKvHeads ∣ tpSize else tpSize ∣ numKvHeads)
    (s!"{field} ({numKvHeads}) must divide tp_size ({tpSize}) or be divisible by it " ++
      s!"for {family} tensor parallelism")

/-! ## The configurations of the families -/

/-- `llama3::ModelArgs`. -/
structure LlamaArgs where
  hiddenSize : ℕ
  numAttentionHeads : ℕ
  numKeyValueHeads : Option ℕ := none
  headDim : Option ℕ := none
  intermediateSize : ℕ
  attentionBias : Bool := false
  mlpBias : Bool := false
  tieWordEmbeddings : Bool := false
  deriving DecidableEq, Repr

/-- `ModelArgs::head_dim`. -/
def LlamaArgs.resolvedHeadDim (args : LlamaArgs) : ℕ :=
  args.headDim.getD (args.hiddenSize / args.numAttentionHeads)

/-- `ModelArgs::num_kv_heads`. -/
def LlamaArgs.numKvHeads (args : LlamaArgs) : ℕ :=
  args.numKeyValueHeads.getD args.numAttentionHeads

/-- `qwen3::ModelArgs`. -/
structure Qwen3Args where
  numAttentionHeads : ℕ
  numKeyValueHeads : ℕ
  headDim : ℕ
  intermediateSize : ℕ
  deriving DecidableEq, Repr

/-- `qwen3_5::Qwen35Config`. -/
structure Qwen35Config where
  hiddenSize : ℕ
  numAttentionHeads : ℕ
  numKeyValueHeads : ℕ
  headDim : Option ℕ
  intermediateSize : ℕ
  numExperts : ℕ
  linearNumValueHeads : ℕ
  linearNumKeyHeads : ℕ
  linearKeyHeadDim : ℕ
  linearValueHeadDim : ℕ
  tieWordEmbeddings : Bool
  deriving DecidableEq, Repr

def Qwen35Config.headDimResolved (args : Qwen35Config) : ℕ :=
  args.headDim.getD (args.hiddenSize / args.numAttentionHeads)

/-- `gemma3::ModelArgs`. -/
structure Gemma3Args where
  numAttentionHeads : ℕ
  numKeyValueHeads : ℕ
  headDim : ℕ
  intermediateSize : ℕ
  deriving DecidableEq, Repr

/-- The texts of `layer_types` that the code tells apart. -/
inductive LayerType
  | fullAttention
  | slidingAttention
  | other (name : String)
  deriving DecidableEq, Repr

/-- `gemma4::Quantization`. -/
structure Quantization where
  groupSize : ℕ
  bits : ℕ
  deriving DecidableEq, Repr

/-- `gemma4::TextConfig`. A layer index is a `usize`. -/
structure TextConfig where
  numAttentionHeads : ℕ
  numKeyValueHeads : ℕ
  numGlobalKeyValueHeads : Option ℕ
  attentionKEqV : Bool
  headDim : ℕ
  intermediateSize : ℕ
  quantization : Option Quantization
  layerTypes : List LayerType
  length_layerTypes : layerTypes.length < 2 ^ 64
  deriving DecidableEq

/-- `ernie4_5::ModelArgs`. -/
structure Ernie45Args where
  hiddenSize : ℕ
  numAttentionHeads : ℕ
  numKeyValueHeads : Option ℕ
  headDim : Option ℕ
  intermediateSize : ℕ
  useBias : Bool
  deriving DecidableEq, Repr

/-- `ModelArgs::head_dim`. -/
def Ernie45Args.resolvedHeadDim (args : Ernie45Args) : ℕ :=
  args.headDim.getD (args.hiddenSize / args.numAttentionHeads)

/-- `ModelArgs::num_kv_heads`. -/
def Ernie45Args.numKvHeads (args : Ernie45Args) : ℕ :=
  args.numKeyValueHeads.getD args.numAttentionHeads

/-- `hunyuan_v1_dense::ModelArgs`. -/
structure HunyuanV1DenseArgs where
  hiddenSize : ℕ
  numAttentionHeads : ℕ
  numKeyValueHeads : ℕ
  headDim : Option ℕ
  intermediateSize : ℕ
  attentionBias : Bool
  deriving DecidableEq, Repr

/-- `ModelArgs::head_dim`. -/
def HunyuanV1DenseArgs.resolvedHeadDim (args : HunyuanV1DenseArgs) : ℕ :=
  args.headDim.getD (args.hiddenSize / args.numAttentionHeads)

/-! ## The configuration of a rank -/

section Local

variable (plan : ModelShardPlan)

def localLlamaArgs (args : LlamaArgs) : Except String LlamaArgs := do
  ensureDivisible "num_attention_heads" args.numAttentionHeads plan.tpSize
  ensureDivisible "intermediate_size" args.intermediateSize plan.tpSize
  ensureKvSharded args.numKvHeads plan.tpSize
  ensure (args.attentionBias = false ∧ args.mlpBias = false)
    "tensor-parallel runtime currently supports bias-free dense llama models only"
  return { args with
    headDim := some args.resolvedHeadDim
    numAttentionHeads := args.numAttentionHeads / plan.tpSize
    numKeyValueHeads := some (args.numKvHeads / plan.tpSize)
    intermediateSize := args.intermediateSize / plan.tpSize
    tieWordEmbeddings := false }

def localQwen3Args (args : Qwen3Args) : Except String Qwen3Args := do
  ensureDivisible "num_attention_heads" args.numAttentionHeads plan.tpSize
  ensureDivisible "intermediate_size" args.intermediateSize plan.tpSize
  ensureKvSharded args.numKeyValueHeads plan.tpSize
  return { args with
    numAttentionHeads := args.numAttentionHeads / plan.tpSize
    numKeyValueHeads := args.numKeyValueHeads / plan.tpSize
    intermediateSize := args.intermediateSize / plan.tpSize }

/-- `local_qwen35_args`. The head dimension is not resolved here: a configuration without one
resolves it from the local number of heads. -/
def localQwen35Args (args : Qwen35Config) : Except String Qwen35Config := do
  ensure (args.numExperts = 0)
    "tensor-parallel runtime currently supports dense Qwen3.5 models only"
  ensureDivisible "num_attention_heads" args.numAttentionHeads plan.tpSize
  ensureDivisible "intermediate_size" args.intermediateSize plan.tpSize
  ensureDivisible "linear_num_value_heads" args.linearNumValueHeads plan.tpSize
  ensureDivisible "linear_num_key_heads" args.linearNumKeyHeads plan.tpSize
  ensureKvPositive "num_key_value_heads" "Qwen3.5" args.numKeyValueHeads
  ensureKvFits "num_key_value_heads" "Qwen3.5" args.numKeyValueHeads plan.tpSize
  return { args with
    numAttentionHeads := args.numAttentionHeads / plan.tpSize
    numKeyValueHeads :=
      if args.numKeyValueHeads < plan.tpSize then 1 else args.numKeyValueHeads / plan.tpSize
    linearNumValueHeads := args.linearNumValueHeads / plan.tpSize
    linearNumKeyHeads := args.linearNumKeyHeads / plan.tpSize
    intermediateSize := args.intermediateSize / plan.tpSize
    tieWordEmbeddings := false }

def localGemma3Args (args : Gemma3Args) : Except String Gemma3Args := do
  ensureDivisible "num_attention_heads" args.numAttentionHeads plan.tpSize
  ensureDivisible "intermediate_size" args.intermediateSize plan.tpSize
  ensureKvPositive "num_key_value_heads" "Gemma3" args.numKeyValueHeads
  return { args with
    numAttentionHeads := args.numAttentionHeads / plan.tpSize
    numKeyValueHeads :=
      if plan.tpSize ≤ args.numKeyValueHeads ∧ plan.tpSize ∣ args.numKeyValueHeads then
        args.numKeyValueHeads / plan.tpSize
      else args.numKeyValueHeads
    intermediateSize := args.intermediateSize / plan.tpSize }

/-- The KV heads of a rank of Gemma 4. -/
def gemma4LocalKvHeads (numKvHeads tpSize : ℕ) : ℕ :=
  if numKvHeads ≤ tpSize then numKvHeads else numKvHeads / tpSize

/-- The checks of `local_gemma4_args` on the KV heads of the full-attention layers. -/
def gemma4GlobalKvHeads (args : TextConfig) : Except String (Option ℕ) :=
  if args.attentionKEqV = true then do
    let globalKvHeads := args.numGlobalKeyValueHeads.getD args.numKeyValueHeads
    ensureKvPositive "num_global_key_value_heads" "Gemma4 full-attention" globalKvHeads
    ensureKvFits "num_global_key_value_heads" "Gemma4" globalKvHeads plan.tpSize
    return some (gemma4LocalKvHeads globalKvHeads plan.tpSize)
  else .ok args.numGlobalKeyValueHeads

def localGemma4Args (args : TextConfig) : Except String TextConfig := do
  ensureDivisible "num_attention_heads" args.numAttentionHeads plan.tpSize
  ensureDivisible "intermediate_size" args.intermediateSize plan.tpSize
  ensureKvPositive "num_key_value_heads" "Gemma4" args.numKeyValueHeads
  ensureKvFits "num_key_value_heads" "Gemma4" args.numKeyValueHeads plan.tpSize
  let numGlobalKeyValueHeads ← gemma4GlobalKvHeads plan args
  return { args with
    numGlobalKeyValueHeads
    numAttentionHeads := args.numAttentionHeads / plan.tpSize
    numKeyValueHeads := gemma4LocalKvHeads args.numKeyValueHeads plan.tpSize
    intermediateSize := args.intermediateSize / plan.tpSize }

def localErnie45Args (args : Ernie45Args) : Except String Ernie45Args := do
  ensureDivisible "num_attention_heads" args.numAttentionHeads plan.tpSize
  ensureDivisible "intermediate_size" args.intermediateSize plan.tpSize
  ensureKvPositive "num_key_value_heads" "ERNIE 4.5" args.numKvHeads
  ensureKvFits "num_key_value_heads" "ERNIE 4.5" args.numKvHeads plan.tpSize
  ensure (args.useBias = false)
    "tensor-parallel runtime currently supports bias-free ERNIE 4.5 models only"
  return { args with
    headDim := some args.resolvedHeadDim
    numAttentionHeads := args.numAttentionHeads / plan.tpSize
    numKeyValueHeads :=
      some (if args.numKvHeads < plan.tpSize then 1 else args.numKvHeads / plan.tpSize)
    intermediateSize := args.intermediateSize / plan.tpSize }

def localHunyuanV1DenseArgs (args : HunyuanV1DenseArgs) : Except String HunyuanV1DenseArgs := do
  ensureDivisible "num_attention_heads" args.numAttentionHeads plan.tpSize
  ensureDivisible "intermediate_size" args.intermediateSize plan.tpSize
  ensureKvSharded args.numKeyValueHeads plan.tpSize
  ensure (args.attentionBias = false)
    "tensor-parallel runtime currently supports bias-free Hunyuan v1 dense models only"
  return { args with
    headDim := some args.resolvedHeadDim
    numAttentionHeads := args.numAttentionHeads / plan.tpSize
    numKeyValueHeads := args.numKeyValueHeads / plan.tpSize
    intermediateSize := args.intermediateSize / plan.tpSize }

end Local

/-! ## The weights of a rank -/

/-- `logical_weight_name`: the parts of a quantized weight follow the weight. -/
def logicalWeightName (name : List Char) : List Char :=
  let strip (suffix : String) := (stripSuffix suffix.toList name).map (· ++ ".weight".toList)
  ((strip ".scales").or ((strip ".biases").or (strip ".bias"))).getD name

/-- `str::ends_with`. -/
def endsWith (name : List Char) (suffix : String) : Bool := suffix.toList.isSuffixOf name

/-- Whether a weight is the K or the V projection of an attention layer. -/
def isKvProjection (logicalName : List Char) : Bool :=
  endsWith logicalName ".self_attn.k_proj.weight" ||
    endsWith logicalName ".self_attn.v_proj.weight"

section Weights

variable (plan : ModelShardPlan) (rank : ℕ)

/-- One weight of `shard_weight_map`. -/
def shardWeight (name : List Char) (shape : List ℕ) : Except String (List ℕ) := do
  shardTensor shape (← computeShardSpec (logicalWeightName name) shape plan rank)

/-- One weight of `shard_gemma3_weight_map`. -/
def shardGemma3Weight (args : Gemma3Args) (name : List Char) (shape : List ℕ) :
    Except String (List ℕ) := do
  let logicalName := logicalWeightName name
  let replicateKv := args.numKeyValueHeads < plan.tpSize
  let spec ←
    if replicateKv ∧ isKvProjection logicalName = true then .ok (replicatedSpec shape plan rank)
    else computeShardSpec logicalName shape plan rank
  shardTensor shape spec

/-- `str::parse::<usize>`. -/
def parseUsize (s : List Char) : Option ℕ :=
  let digits := if s.head? = some '+' then s.tail else s
  let value := Nat.ofDigitChars 10 digits 0
  if digits ≠ [] ∧ digits.all Char.isDigit = true ∧ value < 2 ^ 64 then some value else none

def gemma4LayerIndex (name : List Char) : Option ℕ := do
  let marker := ".layers.".toList
  let start ← find marker name
  let rest := name.drop (start + marker.length)
  let stop ← find ['.'] rest
  parseUsize (rest.take stop)

variable (config : TextConfig)

/-- `gemma4_kv_shard_spec`. A layer index outside `layer_types` panics. -/
def gemma4KvShardSpec (logicalName : List Char) (shape : List ℕ) :
    Except String (Option ShardSpec) :=
  if isKvProjection logicalName = false then .ok none
  else
    match gemma4LayerIndex logicalName with
    | none => .ok none
    | some layerIdx =>
      match config.layerTypes[layerIdx]? with
      | none => .error "index out of bounds"
      | some layerType =>
        let totalKvHeads :=
          if config.attentionKEqV = true ∧ layerType = .fullAttention then
            config.numGlobalKeyValueHeads.getD config.numKeyValueHeads
          else config.numKeyValueHeads
        if plan.tpSize < totalKvHeads then .ok none
        else .ok (some (replicatedSpec shape plan rank))

def groupShardRange (totalGroups tpSize rank : ℕ) : ℕ × ℕ :=
  let base := totalGroups / tpSize
  let remainder := totalGroups % tpSize
  let start :=
    if rank < remainder then rank * (base + 1)
    else remainder * (base + 1) + (rank - remainder) * base
  (start, start + if rank < remainder then base + 1 else base)

/-- The result of `gemma4_moe_intermediate_shard_spec` on one axis. -/
def moeSpec (strategy : ShardStrategy) (shardAxis startIndex endIndex : ℕ) : ShardSpec :=
  { rank, tpSize := plan.tpSize, shardAxis, startIndex, endIndex
    padded := false, padCount := 0, strategy }

/-- `gemma4_moe_intermediate_shard_spec`. A shape with too few axes and a zero in the
quantization panic. -/
def gemma4MoeIntermediateShardSpec (name logicalName : List Char)
    (shape : List ℕ) : Except String (Option ShardSpec) := do
  let isGateOrUp := endsWith logicalName ".experts.switch_glu.gate_proj.weight" ||
    endsWith logicalName ".experts.switch_glu.up_proj.weight"
  let isDown := endsWith logicalName ".experts.switch_glu.down_proj.weight"
  if isGateOrUp = false ∧ isDown = false then return none
  let { groupSize, bits } := config.quantization.getD { groupSize := 64, bits := 4 }
  ensure (bits ≠ 0) "attempt to divide by zero"
  let packedPerU32 := 32 / bits
  let divCeil (n : ℕ) := (n + groupSize - 1) / groupSize
  if isGateOrUp = true then
    ensure (1 < shape.length) "index out of bounds"
    ensure (groupSize ≠ 0) "attempt to divide by zero"
    let (startGroup, endGroup) := groupShardRange (divCeil (shape.getD 1 0)) plan.tpSize rank
    return some (moeSpec plan rank .columnParallel 1 (startGroup * groupSize)
      (min (endGroup * groupSize) (shape.getD 1 0)))
  ensure (2 < shape.length) "index out of bounds"
  if endsWith name ".weight" = true then
    ensure (groupSize ≠ 0 ∧ packedPerU32 ≠ 0) "attempt to divide by zero"
    let (startGroup, endGroup) :=
      groupShardRange (divCeil (shape.getD 2 0 * packedPerU32)) plan.tpSize rank
    let packedPerGroup := groupSize / packedPerU32
    return some (moeSpec plan rank .rowParallel 2 (startGroup * packedPerGroup)
      (min (endGroup * packedPerGroup) (shape.getD 2 0)))
  let (startGroup, endGroup) := groupShardRange (shape.getD 2 0) plan.tpSize rank
  return some (moeSpec plan rank .rowParallel 2 startGroup (min endGroup (shape.getD 2 0)))

/-- One weight of `shard_gemma4_weight_map`. -/
def shardGemma4Weight (name : List Char) (shape : List ℕ) : Except String (List ℕ) := do
  let logicalName := logicalWeightName name
  match ← gemma4KvShardSpec plan rank config logicalName shape with
  | some spec => shardTensor shape spec
  | none =>
    match ← gemma4MoeIntermediateShardSpec plan rank config name logicalName shape with
    | some spec => shardTensor shape spec
    | none => shardTensor shape (← computeShardSpec logicalName shape plan rank)

/-- The one KV head that a group of `ranksPerKv` ranks shares. -/
def sharedKvSpec (headDim ranksPerKv : ℕ) : ShardSpec :=
  let kvIndex := rank / ranksPerKv
  let startIndex := kvIndex * headDim
  { rank, tpSize := plan.tpSize, shardAxis := 0, startIndex, endIndex := startIndex + headDim
    padded := false, padCount := 0, strategy := .columnParallel }

/-- The shard of a weight of the families that share KV heads between ranks. -/
def sharedKvWeight (numKvHeads headDim : ℕ) (logicalName : List Char) (shape : List ℕ) :
    Except String (List ℕ) := do
  let replicateKv := numKvHeads < plan.tpSize
  let ranksPerKv := if replicateKv then plan.tpSize / numKvHeads else 1
  let spec ←
    if replicateKv ∧ isKvProjection logicalName = true then
      .ok (sharedKvSpec plan rank headDim ranksPerKv)
    else computeShardSpec logicalName shape plan rank
  shardTensor shape spec

/-- `shard_qwen35_linear_qkv_tensor`: the rank's queries, keys and values, one after another. -/
def shardQwen35LinearQkvTensor (args : Qwen35Config) (shape : List ℕ) : Except String (List ℕ) := do
  let totalKDim := args.linearNumKeyHeads * args.linearKeyHeadDim
  let totalVDim := args.linearNumValueHeads * args.linearValueHeadDim
  let localKDim := totalKDim / plan.tpSize
  let localVDim := totalVDim / plan.tpSize
  ensure (plan.tpSize ∣ totalKDim ∧ plan.tpSize ∣ totalVDim)
    "Qwen3.5 linear attention dimensions must be divisible by tp_size"
  ensure (shape ≠ []) "cannot slice an empty-shaped tensor along axis 0"
  let slice (start length : ℕ) := sliceAxis (shape.headD 0) start (start + length)
  return slice (rank * localKDim) localKDim ++
    slice (totalKDim + rank * localKDim) localKDim ++
    slice (totalKDim * 2 + rank * localVDim) localVDim

/-- One weight of `shard_qwen35_weight_map`. -/
def shardQwen35Weight (args : Qwen35Config) (name : List Char) (shape : List ℕ) :
    Except String (List ℕ) :=
  let logicalName := logicalWeightName name
  if (endsWith logicalName ".linear_attn.in_proj_qkv.weight" ||
      endsWith logicalName ".linear_attn.conv1d.weight") = true then
    shardQwen35LinearQkvTensor plan rank args shape
  else sharedKvWeight plan rank args.numKeyValueHeads args.headDimResolved logicalName shape

/-- One weight of `shard_ernie45_weight_map`. -/
def shardErnie45Weight (args : Ernie45Args) (name : List Char) (shape : List ℕ) :
    Except String (List ℕ) :=
  sharedKvWeight plan rank args.numKvHeads args.resolvedHeadDim (logicalWeightName name) shape

end Weights

/-! ## The runtime families -/

/-- The configuration of a runtime, by `TensorParallelRuntimeKind`. -/
inductive RuntimeArgs
  | llamaStyle (args : LlamaArgs)
  | qwen3 (args : Qwen3Args)
  | qwen35 (args : Qwen35Config)
  | gemma3 (args : Gemma3Args)
  | gemma4 (args : TextConfig)
  | ernie45 (args : Ernie45Args)
  | hunyuanV1Dense (args : HunyuanV1DenseArgs)

namespace RuntimeArgs

/-- `num_attention_heads`, as the attention reads it. -/
def numHeads : RuntimeArgs → ℕ
  | llamaStyle args => args.numAttentionHeads
  | qwen3 args => args.numAttentionHeads
  | qwen35 args => args.numAttentionHeads
  | gemma3 args => args.numAttentionHeads
  | gemma4 args => args.numAttentionHeads
  | ernie45 args => args.numAttentionHeads
  | hunyuanV1Dense args => args.numAttentionHeads

/-- The KV heads of an attention layer; of a sliding layer for Gemma 4. -/
def numKvHeads : RuntimeArgs → ℕ
  | llamaStyle args => args.numKvHeads
  | qwen3 args => args.numKeyValueHeads
  | qwen35 args => args.numKeyValueHeads
  | gemma3 args => args.numKeyValueHeads
  | gemma4 args => args.numKeyValueHeads
  | ernie45 args => args.numKvHeads
  | hunyuanV1Dense args => args.numKeyValueHeads

/-- The head dimension of an attention layer; of a sliding layer for Gemma 4. -/
def headDim : RuntimeArgs → ℕ
  | llamaStyle args => args.resolvedHeadDim
  | qwen3 args => args.headDim
  | qwen35 args => args.headDimResolved
  | gemma3 args => args.headDim
  | gemma4 args => args.headDim
  | ernie45 args => args.resolvedHeadDim
  | hunyuanV1Dense args => args.resolvedHeadDim

/-- The rows of `q_proj` for one head. Qwen 3.5 keeps a gate beside each query. -/
def queryWidth : RuntimeArgs → ℕ
  | qwen35 args => 2 * args.headDimResolved
  | args => args.headDim

/-- What stands before the layer index in the names of the weights. -/
def scope : RuntimeArgs → String
  | gemma4 _ => "language_model.model.layers."
  | _ => "model.layers."

/-- The plan that `generate_shard_plan` makes for the family. -/
def shardPlan (numLayers : ℕ) (config : ShardConfig) : RuntimeArgs → ModelShardPlan
  | qwen35 _ => buildQwen35Plan numLayers config
  | gemma4 _ => buildGemma4Plan numLayers config
  | _ => buildLlamaPlan numLayers config

/-- `local_*_args`. -/
def localArgs (plan : ModelShardPlan) : RuntimeArgs → Except String RuntimeArgs
  | llamaStyle args => llamaStyle <$> localLlamaArgs plan args
  | qwen3 args => qwen3 <$> localQwen3Args plan args
  | qwen35 args => qwen35 <$> localQwen35Args plan args
  | gemma3 args => gemma3 <$> localGemma3Args plan args
  | gemma4 args => gemma4 <$> localGemma4Args plan args
  | ernie45 args => ernie45 <$> localErnie45Args plan args
  | hunyuanV1Dense args => hunyuanV1Dense <$> localHunyuanV1DenseArgs plan args

/-- One weight of `shard_*_weight_map`: the rows that the rank receives. -/
def shardRows (plan : ModelShardPlan) (rank : ℕ) (name : List Char) (shape : List ℕ) :
    RuntimeArgs → Except String (List ℕ)
  | qwen35 args => shardQwen35Weight plan rank args name shape
  | gemma3 args => shardGemma3Weight plan rank args name shape
  | gemma4 args => shardGemma4Weight plan rank args name shape
  | ernie45 args => shardErnie45Weight plan rank args name shape
  | _ => shardWeight plan rank name shape

end RuntimeArgs

end Mlxcel.TensorParallel
