import Mlxcel.Lib.Str
import Mathlib.Tactic.Ring

/-!
# Shard plans and shard ranges

`shard_strategy.rs`, the plan builders of the runtime families in `plan_generator.rs`, and the
shard computation of `sharded_loading.rs`.

**Plans** name weights by patterns in which one pair of braces stands for the layer index;
`planForWeight` finds the first pattern that a weight name matches.

**Shards** are described by the index range that a rank takes along one axis. `computeShardRange`
gives the first ranks one element more when the dimension does not divide evenly.
-/

namespace Mlxcel.TensorParallel

open List hiding contains
open Str

inductive ShardStrategy
  | columnParallel
  | rowParallel
  | expertParallel
  | vocabParallel
  | replicated
  deriving DecidableEq, Repr

inductive CommPattern
  | none
  | allReduce
  | allGather
  | reduceScatter
  deriving DecidableEq, Repr

structure LayerShardPlan where
  weightPattern : List Char
  strategy : ShardStrategy
  shardAxis : ℕ
  commPattern : CommPattern
  deriving DecidableEq, Repr

structure ModelShardPlan where
  tpSize : ℕ
  numLayers : ℕ
  layerPlans : List LayerShardPlan
  embeddingStrategy : ShardStrategy
  lmHeadStrategy : ShardStrategy
  deriving DecidableEq, Repr

/-- The pair of braces that stands for the layer index. -/
def placeholder : List Char := "\x7b\x7d".toList

/-- Whether a weight name is `before`, a layer index and `after`. -/
def matchesParts (before after weightName : List Char) : Bool :=
  match stripPrefix before weightName with
  | none => false
  | some rest =>
    match stripSuffix after rest with
    | some index => !index.isEmpty && index.all Char.isDigit
    | none => after.isEmpty && rest.all Char.isDigit

/-- Whether a weight name matches a pattern with a placeholder. -/
def matchesPattern (pattern weightName : List Char) : Bool :=
  match find placeholder pattern with
  | none => false
  | some at_ =>
    matchesParts (pattern.take at_) (pattern.drop (at_ + placeholder.length)) weightName

def ModelShardPlan.planForWeight (plan : ModelShardPlan) (weightName : List Char) :
    Option LayerShardPlan :=
  (plan.layerPlans.find? fun p =>
    !contains placeholder p.weightPattern && p.weightPattern == weightName).or
  (plan.layerPlans.find? fun p => matchesPattern p.weightPattern weightName)

/-! ## The builders of the runtime families -/

variable (layers : List Char)

/-- A plan entry for the weights named `layers` followed by `suffix`. -/
def layerPlan (suffix : String) (strategy : ShardStrategy) (shardAxis : ℕ)
    (commPattern : CommPattern) : LayerShardPlan :=
  { weightPattern := layers ++ suffix.toList, strategy, shardAxis, commPattern }

def attentionPlans : List LayerShardPlan :=
  [layerPlan layers ".self_attn.q_proj.weight" .columnParallel 0 .none,
   layerPlan layers ".self_attn.k_proj.weight" .columnParallel 0 .none,
   layerPlan layers ".self_attn.v_proj.weight" .columnParallel 0 .none,
   layerPlan layers ".self_attn.o_proj.weight" .rowParallel 1 .allReduce]

def ffnPlans : List LayerShardPlan :=
  [layerPlan layers ".mlp.gate_proj.weight" .columnParallel 0 .none,
   layerPlan layers ".mlp.up_proj.weight" .columnParallel 0 .none,
   layerPlan layers ".mlp.down_proj.weight" .rowParallel 1 .allReduce]

/-- What `build_qwen35_plan` adds for the linear attention layers. -/
def linearAttentionPlans : List LayerShardPlan :=
  [layerPlan layers ".linear_attn.in_proj_qkv.weight" .columnParallel 0 .none,
   layerPlan layers ".linear_attn.in_proj_z.weight" .columnParallel 0 .none,
   layerPlan layers ".linear_attn.in_proj_b.weight" .columnParallel 0 .none,
   layerPlan layers ".linear_attn.in_proj_a.weight" .columnParallel 0 .none,
   layerPlan layers ".linear_attn.out_proj.weight" .rowParallel 1 .allReduce,
   layerPlan layers ".linear_attn.conv1d.weight" .columnParallel 0 .none,
   layerPlan layers ".linear_attn.dt_bias" .columnParallel 0 .none,
   layerPlan layers ".linear_attn.A_log" .columnParallel 0 .none]

/-- What `build_gemma4_plan` adds for the experts. -/
def switchGluPlans : List LayerShardPlan :=
  [layerPlan layers ".experts.switch_glu.gate_proj.weight" .columnParallel 1 .none,
   layerPlan layers ".experts.switch_glu.up_proj.weight" .columnParallel 1 .none,
   layerPlan layers ".experts.switch_glu.down_proj.weight" .rowParallel 2 .allReduce]

/-- The parts of `ShardConfig` that a dense plan reads. -/
structure ShardConfig where
  tpSize : ℕ
  embeddingStrategy : ShardStrategy := .replicated
  lmHeadStrategy : ShardStrategy := .replicated

/-- `build_replicated_plan`, which `generate_shard_plan` returns for one rank. -/
def buildReplicatedPlan (numLayers : ℕ) : ModelShardPlan :=
  { tpSize := 1
    numLayers
    layerPlans := []
    embeddingStrategy := .replicated
    lmHeadStrategy := .replicated }

/-- The common form of the dense builders: the layers' weights stand under `scope`. -/
def buildPlan (scope : String) (more : List Char → List LayerShardPlan) (numLayers : ℕ)
    (config : ShardConfig) : ModelShardPlan :=
  if config.tpSize = 1 then buildReplicatedPlan numLayers
  else
    let layers := scope.toList ++ placeholder
    { tpSize := config.tpSize
      numLayers
      layerPlans := attentionPlans layers ++ ffnPlans layers ++ more layers
      embeddingStrategy := config.embeddingStrategy
      lmHeadStrategy := config.lmHeadStrategy }

/-- `build_llama_plan`; the Qwen, Gemma and generic builders have the same entries. -/
def buildLlamaPlan : ℕ → ShardConfig → ModelShardPlan :=
  buildPlan "model.layers." fun _ => []

def buildQwen35Plan : ℕ → ShardConfig → ModelShardPlan :=
  buildPlan "model.layers." linearAttentionPlans

def buildGemma4Plan : ℕ → ShardConfig → ModelShardPlan :=
  buildPlan "language_model.model.layers." switchGluPlans

/-! ## Shard ranges -/

structure ShardSpec where
  rank : ℕ
  tpSize : ℕ
  shardAxis : ℕ
  startIndex : ℕ
  endIndex : ℕ
  padded : Bool
  padCount : ℕ
  strategy : ShardStrategy
  deriving DecidableEq, Repr

/-- `compute_shard_range`: start, end, `padded` and `pad_count`. -/
def computeShardRange (dim tpSize rank : ℕ) : ℕ × ℕ × Bool × ℕ :=
  if tpSize = 1 then (0, dim, false, 0)
  else
    let baseSize := dim / tpSize
    let remainder := dim % tpSize
    let start :=
      if rank < remainder then rank * (baseSize + 1)
      else remainder * (baseSize + 1) + (rank - remainder) * baseSize
    let shardSize := if rank < remainder then baseSize + 1 else baseSize
    (start, start + shardSize, shardSize == 0, 0)

/-- A shard that is the whole tensor. -/
def replicatedSpec (shape : List ℕ) (plan : ModelShardPlan) (rank : ℕ) : ShardSpec :=
  { rank
    tpSize := plan.tpSize
    shardAxis := 0
    startIndex := 0
    endIndex := shape.headD 0
    padded := false
    padCount := 0
    strategy := .replicated }

/-- The range of `computeShardRange` on one axis. -/
def rangeSpec (strategy : ShardStrategy) (shardAxis dim : ℕ) (plan : ModelShardPlan) (rank : ℕ) :
    ShardSpec :=
  let (startIndex, endIndex, padded, padCount) := computeShardRange dim plan.tpSize rank
  { rank, tpSize := plan.tpSize, shardAxis, startIndex, endIndex, padded, padCount, strategy }

/-- The strategy and the axis that the plan gives a weight; a weight it does not name is
replicated. -/
def ModelShardPlan.strategyFor (plan : ModelShardPlan) (weightName : List Char) :
    ShardStrategy × ℕ :=
  match plan.planForWeight weightName with
  | some layerPlan => (layerPlan.strategy, layerPlan.shardAxis)
  | none =>
    if weightName = "model.embed_tokens.weight".toList ∨
        weightName = "embed_tokens.weight".toList then
      if plan.embeddingStrategy = .vocabParallel then (.vocabParallel, 0) else (.replicated, 0)
    else if weightName = "lm_head.weight".toList then
      if plan.lmHeadStrategy = .vocabParallel then (.vocabParallel, 0) else (.replicated, 0)
    else (.replicated, 0)

def computeShardSpec (weightName : List Char) (shape : List ℕ) (plan : ModelShardPlan)
    (rank : ℕ) : Except String ShardSpec :=
  let name := String.ofList weightName
  let tpSize := plan.tpSize
  if shape = [] then .error s!"weight '{name}' has empty shape"
  else if tpSize ≤ rank then .error s!"rank {rank} out of range for tp_size {tpSize}"
  else
    let (strategy, shardAxis) := plan.strategyFor weightName
    match strategy with
    | .replicated => .ok (replicatedSpec shape plan rank)
    | .columnParallel | .rowParallel | .vocabParallel =>
      match shape[shardAxis]? with
      | none => .error
          s!"shard_axis {shardAxis} out of range for shape {shape} on '{name}'"
      | some dim => .ok (rangeSpec strategy shardAxis dim plan rank)
    | .expertParallel => .ok (rangeSpec .expertParallel 0 (shape.headD 0) plan rank)

/-- The indices that a slice from `start` to `stop` keeps of an axis of length `dim`. -/
def sliceAxis (dim start stop : ℕ) : List ℕ :=
  (range dim).take stop |>.drop start

/-- `shard_tensor`: the rows (indices along axis 0) that the rank's tensor consists of. -/
def shardTensor (shape : List ℕ) (spec : ShardSpec) : Except String (List ℕ) :=
  let axis := spec.shardAxis
  if spec.strategy = .replicated then .ok (range (shape.headD 0))
  else if shape.length ≤ axis then
    .error s!"cannot shard tensor with shape {shape} on axis {axis}"
  else if axis = 0 then .ok (sliceAxis (shape.headD 0) spec.startIndex spec.endIndex)
  else .ok (range (shape.headD 0))

/-- The first index of a rank: all ranks before it have `dim / tpSize`, and some one more. -/
lemma computeShardRange_start {tpSize rank : ℕ} (dim : ℕ) (hrank : rank < tpSize) :
    (computeShardRange dim tpSize rank).1 = rank * (dim / tpSize) + min rank (dim % tpSize) := by
  rw [computeShardRange]
  split_ifs with hone
  · have hzero : rank = 0 := by omega
    simp [hzero]
  · dsimp only
    split_ifs with hless
    · rw [min_eq_left hless.le]
      ring
    · obtain ⟨extra, rfl⟩ := Nat.exists_eq_add_of_le (not_lt.mp hless)
      rw [Nat.min_eq_right (not_lt.mp hless), Nat.add_sub_cancel_left]
      ring

/-- A rank ends where the next one starts. -/
lemma computeShardRange_end {tpSize rank : ℕ} (dim : ℕ) (hrank : rank < tpSize) :
    (computeShardRange dim tpSize rank).2.1 =
      (rank + 1) * (dim / tpSize) + min (rank + 1) (dim % tpSize) := by
  have hstart := computeShardRange_start dim hrank
  rw [computeShardRange] at hstart ⊢
  split_ifs at hstart ⊢ with hone
  · have hzero : rank = 0 := by omega
    simp [hone, hzero, Nat.mod_one]
  · dsimp only at hstart ⊢
    rw [hstart]
    split_ifs with hless
    · rw [min_eq_left hless.le, min_eq_left (show rank + 1 ≤ dim % tpSize from hless)]
      ring
    · rw [min_eq_right (not_lt.mp hless), min_eq_right (by omega)]
      ring

lemma computeShardRange_end_le {tpSize rank : ℕ} (dim : ℕ) (hrank : rank < tpSize) :
    (computeShardRange dim tpSize rank).2.1 ≤ dim := by
  rw [computeShardRange_end dim hrank]
  calc (rank + 1) * (dim / tpSize) + min (rank + 1) (dim % tpSize)
      ≤ tpSize * (dim / tpSize) + dim % tpSize :=
        Nat.add_le_add (Nat.mul_le_mul_right _ hrank) (Nat.min_le_right _ _)
    _ = dim := Nat.div_add_mod dim tpSize

lemma sliceAxis_eq {dim stop : ℕ} (start : ℕ) (h : stop ≤ dim) :
    sliceAxis dim start stop = range' start (stop - start) := by
  rw [sliceAxis, take_range, min_eq_left h, range_eq_range']
  simp

/-! ## What a plan says about the attention weights -/

/-- The name of a weight of one layer. -/
def layerWeight (scope : String) (layer : ℕ) (suffix : String) : List Char :=
  scope.toList ++ (Nat.toDigits 10 layer ++ suffix.toList)

lemma find_placeholder {scope : List Char} (hscope : '{' ∉ scope) (after : List Char) :
    find placeholder (scope ++ (placeholder ++ after)) = some scope.length := by
  rw [find_append, find_of_isPrefix (prefix_append _ _)]
  · simp
  · intro i hi hpre
    obtain ⟨t, ht⟩ := hpre
    have hhead : (scope ++ (placeholder ++ after))[i]? = some '{' := by
      rw [← head?_drop, ← ht]
      rfl
    rw [getElem?_append_left hi] at hhead
    exact hscope (mem_of_getElem? hhead)

lemma takeWhile_isDigit_append {u a : List Char} (hu : ∀ c ∈ u, c.isDigit = true)
    (ha : a.head? = some '.') : (u ++ a).takeWhile Char.isDigit = u := by
  rw [takeWhile_append_of_pos hu]
  obtain ⟨t, rfl⟩ : ∃ t, a = '.' :: t := by
    cases a with
    | nil => simp at ha
    | cons x t => exact ⟨t, by simp_all⟩
  simp [List.takeWhile]

lemma isDigit_of_mem_layer {n : ℕ} : ∀ c ∈ Nat.toDigits 10 n, c.isDigit = true :=
  fun _ hc => Nat.isDigit_of_mem_toDigits (by omega) le_rfl hc

/-- **Pattern matching.** Under a scope without braces, a pattern matches exactly the weights of
the layers with its own suffix. -/
lemma matchesPattern_layerWeight {scope suffix suffix' : String}
    (hscope : '{' ∉ scope.toList) (hsuffix : suffix.toList.head? = some '.')
    (hsuffix' : suffix'.toList.head? = some '.') (layer : ℕ) :
    matchesPattern (scope.toList ++ placeholder ++ suffix.toList)
        (layerWeight scope layer suffix') = true ↔ suffix = suffix' := by
  have hparts : matchesPattern (scope.toList ++ placeholder ++ suffix.toList) =
      matchesParts scope.toList suffix.toList := by
    funext name
    rw [matchesPattern, List.append_assoc, find_placeholder hscope]
    simp
  have hstrip : stripPrefix scope.toList (layerWeight scope layer suffix') =
      some (Nat.toDigits 10 layer ++ suffix'.toList) := by
    simp [stripPrefix, layerWeight]
  have hne : suffix.toList.isEmpty = false := by
    rw [isEmpty_eq_false_iff]
    rintro h
    simp [h] at hsuffix
  rw [hparts, matchesParts, hstrip]
  constructor
  · intro h
    by_cases hend : suffix.toList <:+ Nat.toDigits 10 layer ++ suffix'.toList
    · obtain ⟨index, hindex⟩ := hend
      have hlayer : (!index.isEmpty && index.all Char.isDigit) = true := by
        simpa [stripSuffix, ← hindex] using h
      have hdigits : ∀ c ∈ index, c.isDigit = true := by
        rw [Bool.and_eq_true, all_eq_true] at hlayer
        exact hlayer.2
      have heq := congrArg (List.takeWhile Char.isDigit) hindex
      rw [takeWhile_isDigit_append hdigits hsuffix,
        takeWhile_isDigit_append isDigit_of_mem_layer hsuffix'] at heq
      subst heq
      exact String.toList_injective (append_cancel_left hindex)
    · simp [stripSuffix, hend, hne] at h
  · rintro rfl
    simpa [stripSuffix] using isDigit_of_mem_layer

/-- The projections that a rank takes by output rows. -/
inductive Projection
  | query
  | key
  | value
  deriving DecidableEq, Repr

/-- What follows the layer index in the name of a projection's weight. -/
def Projection.suffix : Projection → String
  | .query => ".self_attn.q_proj.weight"
  | .key => ".self_attn.k_proj.weight"
  | .value => ".self_attn.v_proj.weight"

lemma Projection.head?_suffix (proj : Projection) : proj.suffix.toList.head? = some '.' := by
  cases proj <;> rfl

lemma Projection.suffix_injective : Function.Injective Projection.suffix := by
  rintro (_ | _ | _) (_ | _ | _) h <;> first | rfl | simp [suffix] at h

/-- The entries of a builder are patterns under its scope. -/
lemma contains_placeholder (scope : List Char) (suffix : String) (strategy : ShardStrategy)
    (axis : ℕ) (comm : CommPattern) :
    contains placeholder
      (layerPlan (scope ++ placeholder) suffix strategy axis comm).weightPattern = true := by
  rw [contains_iff_isInfix]
  exact ⟨scope, suffix.toList, rfl⟩

section Attention

variable {scope : String} {more : List Char → List LayerShardPlan} {numLayers : ℕ}
  {config : ShardConfig}

lemma planForWeight_projection (hscope : '{' ∉ scope.toList)
    (hmore : ∀ p ∈ more (scope.toList ++ placeholder), contains placeholder p.weightPattern = true)
    (htp : config.tpSize ≠ 1) (proj : Projection) (layer : ℕ) :
    (buildPlan scope more numLayers config).planForWeight (layerWeight scope layer proj.suffix) =
      some (layerPlan (scope.toList ++ placeholder) proj.suffix .columnParallel 0 .none) := by
  have hexact : ∀ p ∈ (buildPlan scope more numLayers config).layerPlans,
      contains placeholder p.weightPattern = true := by
    simp only [buildPlan, if_neg htp, mem_append]
    rintro p ((hp | hp) | hp)
    · simp only [attentionPlans, mem_cons, not_mem_nil, or_false] at hp
      rcases hp with rfl | rfl | rfl | rfl <;> exact contains_placeholder ..
    · simp only [ffnPlans, mem_cons, not_mem_nil, or_false] at hp
      rcases hp with rfl | rfl | rfl <;> exact contains_placeholder ..
    · exact hmore p hp
  have hnone : ((buildPlan scope more numLayers config).layerPlans.find? fun p =>
      !contains placeholder p.weightPattern &&
        p.weightPattern == layerWeight scope layer proj.suffix) = none := by
    rw [find?_eq_none]
    intro p hp
    simp [hexact p hp]
  have hmatch : ∀ proj' : Projection,
      matchesPattern (layerPlan (scope.toList ++ placeholder) proj'.suffix .columnParallel 0
        .none).weightPattern (layerWeight scope layer proj.suffix) = decide (proj' = proj) := by
    intro proj'
    rw [Bool.eq_iff_iff, decide_eq_true_iff, ← Projection.suffix_injective.eq_iff]
    exact matchesPattern_layerWeight hscope proj'.head?_suffix proj.head?_suffix layer
  have hq := hmatch .query
  have hk := hmatch .key
  have hv := hmatch .value
  rw [ModelShardPlan.planForWeight, hnone, buildPlan]
  simp only [attentionPlans]
  cases proj <;> simp_all [Projection.suffix]

lemma tpSize_buildPlan : (buildPlan scope more numLayers config).tpSize = config.tpSize := by
  rw [buildPlan]
  split_ifs with hone
  · exact hone.symm
  · rfl

/-- The plan of one rank has no entries and replicates everything. -/
lemma strategyFor_buildReplicatedPlan (weightName : List Char) :
    (buildReplicatedPlan numLayers).strategyFor weightName = (.replicated, 0) := by
  have hnone : (buildReplicatedPlan numLayers).planForWeight weightName = none := rfl
  rw [ModelShardPlan.strategyFor, hnone]
  simp only [buildReplicatedPlan, reduceCtorEq, if_false, ite_self]

/-- **The rows of a projection.** The rank's tensor consists of the rows of its shard range. -/
theorem projection_rows (hscope : '{' ∉ scope.toList)
    (hmore : ∀ p ∈ more (scope.toList ++ placeholder), contains placeholder p.weightPattern = true)
    {rank : ℕ} (hrank : rank < config.tpSize) (proj : Projection) (layer dim : ℕ)
    (tail : List ℕ) :
    (computeShardSpec (layerWeight scope layer proj.suffix) (dim :: tail)
        (buildPlan scope more numLayers config) rank >>= shardTensor (dim :: tail)) =
      .ok (range' (computeShardRange dim config.tpSize rank).1
        ((computeShardRange dim config.tpSize rank).2.1 -
          (computeShardRange dim config.tpSize rank).1)) := by
  have hstop := computeShardRange_end_le dim hrank
  have hlow : ¬ config.tpSize ≤ rank := not_le.mpr hrank
  simp only [computeShardSpec, tpSize_buildPlan, if_neg hlow]
  by_cases htp : config.tpSize = 1
  · have hall : (buildPlan scope more numLayers config).strategyFor
        (layerWeight scope layer proj.suffix) = (.replicated, 0) := by
      rw [buildPlan, if_pos htp, strategyFor_buildReplicatedPlan]
    simp only [hall, htp, computeShardRange]
    simp [shardTensor, replicatedSpec, bind, Except.bind, range_eq_range']
  · have hcolumn : (buildPlan scope more numLayers config).strategyFor
        (layerWeight scope layer proj.suffix) = (.columnParallel, 0) := by
      rw [ModelShardPlan.strategyFor, planForWeight_projection hscope hmore htp]
      rfl
    simp only [hcolumn]
    simp [shardTensor, rangeSpec, tpSize_buildPlan, bind, Except.bind, sliceAxis_eq _ hstop]

end Attention

end Mlxcel.TensorParallel
