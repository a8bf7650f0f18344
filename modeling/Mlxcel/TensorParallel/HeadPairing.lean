import Mlxcel.Lib.Blocks
import Mlxcel.Lib.Fallible
import Mlxcel.TensorParallel.LocalArgs

/-!
# Which KV head a query head meets on a rank

**The property.** On every rank the query heads are the next `H / T` of the model's, the KV rows
are as many as the local configuration says, and the KV head that grouped attention reads for a
local query head is the one that the whole model reads for it.

**Three policies.** The weight maps split the KV heads, replicate them, or let a group of ranks
share one (`KvPolicy`); the local configurations count them. Splitting and sharing pair the heads
correctly. Replicating more than one KV head does not: the local attention groups the rank's few
query heads over all KV heads of the model.
-/

namespace Mlxcel.TensorParallel

open Option List Str Blocks Projection Fallible

/-! ## The names of the projections -/

lemma endsWith_layerWeight {scope s suffix : String} (layer : ℕ)
    (h : ¬ suffix.toList <:+ s.toList) (h' : ¬ s.toList <:+ suffix.toList) :
    endsWith (layerWeight scope layer s) suffix = false := by
  rw [endsWith, Bool.eq_false_iff, Ne, isSuffixOf_iff_suffix]
  intro hsuffix
  have hs : s.toList <:+ layerWeight scope layer s := by
    rw [layerWeight, ← append_assoc]
    exact suffix_append _ _
  rcases suffix_or_suffix_of_suffix hsuffix hs with hle | hle
  · exact h hle
  · exact h' hle

variable (scope : String)

lemma endsWith_self (layer : ℕ) (s : String) :
    endsWith (layerWeight scope layer s) s = true := by
  rw [endsWith, isSuffixOf_iff_suffix, layerWeight, ← append_assoc]
  exact suffix_append _ _

lemma isKvProjection_layerWeight (layer : ℕ) (proj : Projection) :
    isKvProjection (layerWeight scope layer proj.suffix) = decide (proj ≠ .query) := by
  cases proj with
  | query =>
    rw [isKvProjection, endsWith_layerWeight, endsWith_layerWeight] <;> decide
  | key =>
    rw [isKvProjection, suffix, endsWith_self]
    rfl
  | value =>
    rw [isKvProjection, suffix, endsWith_self, Bool.or_true]
    rfl

lemma logicalWeightName_layerWeight (layer : ℕ) (proj : Projection) :
    logicalWeightName (layerWeight scope layer proj.suffix) =
      layerWeight scope layer proj.suffix := by
  have hnone : ∀ suffix ∈ [".scales", ".biases", ".bias"],
      stripSuffix suffix.toList (layerWeight scope layer proj.suffix) = none := by
    intro suffix hsuffix
    have hends : endsWith (layerWeight scope layer proj.suffix) suffix = false := by
      simp only [mem_cons, not_mem_nil, or_false] at hsuffix
      rcases hsuffix with rfl | rfl | rfl <;> cases proj <;>
        exact endsWith_layerWeight layer (by decide) (by decide)
    rw [stripSuffix, if_neg (by rw [endsWith] at hends; simp [hends])]
  simp only [logicalWeightName, hnone ".scales" (by simp), hnone ".biases" (by simp),
    hnone ".bias" (by simp), map_none, none_or, getD_none]

/-- The layer index that Gemma 4 reads from a name. -/
lemma gemma4LayerIndex_layerWeight {layer : ℕ} (hlayer : layer < 2 ^ 64) (proj : Projection) :
    gemma4LayerIndex (layerWeight "language_model.model.layers." layer proj.suffix) =
      some layer := by
  have hstart : find ".layers.".toList
      (layerWeight "language_model.model.layers." layer proj.suffix) = some 20 := rfl
  have hrest : (layerWeight "language_model.model.layers." layer proj.suffix).drop 28 =
      Nat.toDigits 10 layer ++ proj.suffix.toList := rfl
  have hstop : find ['.'] (Nat.toDigits 10 layer ++ proj.suffix.toList) =
      some (Nat.toDigits 10 layer).length := by
    rw [find_append, find_of_isPrefix]
    · simp
    · cases proj <;> exact prefix_append ['.'] _
    · intro i hi hdot
      obtain ⟨t, ht⟩ := hdot
      have hget : (Nat.toDigits 10 layer)[i]? = some '.' := by
        rw [← getElem?_append_left hi, ← head?_drop, ← ht]
        rfl
      have hdigit := isDigit_of_mem_layer _ (mem_of_getElem? hget)
      cases hdigit
  have hplus : (Nat.toDigits 10 layer).head? ≠ some '+' := by
    intro hhead
    have hdigit := isDigit_of_mem_layer _ (mem_of_head? hhead)
    cases hdigit
  have hparse : parseUsize (Nat.toDigits 10 layer) = some layer := by
    have hall : (Nat.toDigits 10 layer).all Char.isDigit = true :=
      all_eq_true.mpr isDigit_of_mem_layer
    simp only [parseUsize, if_neg hplus, Nat.ofDigitChars_ten_toDigits]
    rw [if_pos ⟨Nat.toDigits_ne_nil, hall, hlayer⟩]
  rw [gemma4LayerIndex]
  simp only [hstart, bind_eq_bind, bind_some]
  rw [show 20 + ".layers.".toList.length = 28 from rfl, hrest, hstop, bind_some,
    take_left, hparse]

/-! ## What the weight maps give a rank -/

/-- What a weight map does with the KV heads. -/
inductive KvPolicy
  | split
  | replicate
  | share
  deriving DecidableEq, Repr

/-- The rows of a rank when `dim` rows are split over the ranks. -/
def splitRows (dim tpSize rank : ℕ) : List ℕ :=
  let (start, stop, _) := computeShardRange dim tpSize rank
  range' start (stop - start)

/-- The KV rows that a rank receives, of `K` heads with `D` rows each, with `T` ranks. -/
def KvPolicy.rows (K D T rank : ℕ) : KvPolicy → List ℕ
  | split => splitRows (K * D) T rank
  | replicate => range (K * D)
  | share => interval D (rank / (T / K))

namespace RuntimeArgs

/-- The policy of the family's weight map; on sliding layers for Gemma 4. -/
def kvPolicy (args : RuntimeArgs) (tpSize : ℕ) : KvPolicy :=
  match args with
  | qwen35 _ | ernie45 _ => if args.numKvHeads < tpSize then .share else .split
  | gemma3 _ => if args.numKvHeads < tpSize then .replicate else .split
  | gemma4 _ => if tpSize < args.numKvHeads then .split else .replicate
  | _ => .split

/-- The layers that the property is about: for Gemma 4 the sliding ones. -/
def IsHeadLayer (args : RuntimeArgs) (layer : ℕ) : Prop :=
  match args with
  | gemma4 config => config.layerTypes[layer]? = some .slidingAttention
  | _ => True

section Rows

variable (args : RuntimeArgs) (numLayers : ℕ) (config : ShardConfig)

lemma brace_notMem_scope : '{' ∉ args.scope.toList := by
  cases args <;> (dsimp only [scope]; decide)

lemma tpSize_shardPlan : (args.shardPlan numLayers config).tpSize = config.tpSize := by
  cases args <;> exact tpSize_buildPlan

variable {rank : ℕ}

/-- The shard that the plan alone gives a rank. -/
lemma plan_rows (hrank : rank < config.tpSize) (proj : Projection) (layer dim : ℕ) (tail : List ℕ) :
    (computeShardSpec (layerWeight args.scope layer proj.suffix) (dim :: tail)
        (args.shardPlan numLayers config) rank >>= shardTensor (dim :: tail)) =
      .ok (splitRows dim config.tpSize rank) := by
  have hscope := args.brace_notMem_scope
  cases args with
  | qwen35 _ =>
    refine projection_rows hscope ?_ hrank proj layer dim tail
    intro p hp
    simp only [linearAttentionPlans, mem_cons, not_mem_nil, or_false] at hp
    rcases hp with rfl | rfl | rfl | rfl | rfl | rfl | rfl | rfl <;>
      exact contains_placeholder ..
  | gemma4 _ =>
    refine projection_rows hscope ?_ hrank proj layer dim tail
    intro p hp
    simp only [switchGluPlans, mem_cons, not_mem_nil, or_false] at hp
    rcases hp with rfl | rfl | rfl <;> exact contains_placeholder ..
  | _ => exact projection_rows hscope (by simp) hrank proj layer dim tail

variable (plan : ModelShardPlan)

/-- The expert weights of Gemma 4 are no projections. -/
lemma gemma4MoeIntermediateShardSpec_layerWeight (rank : ℕ) (text : TextConfig) (name : List Char)
    (scope : String) (layer : ℕ) (proj : Projection) (shape : List ℕ) :
    gemma4MoeIntermediateShardSpec plan rank text name (layerWeight scope layer proj.suffix)
      shape = .ok none := by
  have hends : ∀ part ∈ ["gate", "up", "down"],
      endsWith (layerWeight scope layer proj.suffix)
        (".experts.switch_glu." ++ part ++ "_proj.weight") = false := by
    intro part hpart
    simp only [mem_cons, not_mem_nil, or_false] at hpart
    rcases hpart with rfl | rfl | rfl <;> cases proj <;>
      exact endsWith_layerWeight layer (by decide) (by decide)
  have hgate := hends "gate" (by simp)
  have hup := hends "up" (by simp)
  have hdown := hends "down" (by simp)
  simp only [String.reduceAppend] at hgate hup hdown
  simp [gemma4MoeIntermediateShardSpec, hgate, hup, hdown, pure, Except.pure]

variable {name : List Char}

variable {layer : ℕ}

/-- The linear attention weights of Qwen 3.5 are no projections. -/
lemma shardQwen35Weight_projection {scope : String} {proj : Projection} (rank : ℕ)
    (text : Qwen35Config) (hname : logicalWeightName name = layerWeight scope layer proj.suffix)
    (shape : List ℕ) :
    shardQwen35Weight plan rank text name shape =
      sharedKvWeight plan rank text.numKeyValueHeads text.headDimResolved
        (logicalWeightName name) shape := by
  have hqkv : endsWith (logicalWeightName name) ".linear_attn.in_proj_qkv.weight" = false := by
    rw [hname]
    cases proj <;> exact endsWith_layerWeight layer (by decide) (by decide)
  have hconv : endsWith (logicalWeightName name) ".linear_attn.conv1d.weight" = false := by
    rw [hname]
    cases proj <;> exact endsWith_layerWeight layer (by decide) (by decide)
  simp [shardQwen35Weight, hqkv, hconv]

/-- **Queries.** Every family splits the rows of `q_proj`. -/
lemma shardRows_query (hrank : rank < config.tpSize) (dim : ℕ) (tail : List ℕ)
    (hname : logicalWeightName name = layerWeight args.scope layer query.suffix) :
    args.shardRows (args.shardPlan numLayers config) rank name (dim :: tail) =
      .ok (splitRows dim config.tpSize rank) := by
  have hkv := isKvProjection_layerWeight args.scope layer .query
  rw [decide_eq_false (by simp)] at hkv
  have hrows := plan_rows args numLayers config hrank .query layer dim tail
  generalize args.shardPlan numLayers config = plan at hrows ⊢
  cases args with
  | qwen35 args =>
    rw [shardRows, shardQwen35Weight_projection _ _ _ hname]
    rw [← hname] at hkv hrows
    simpa [sharedKvWeight, hkv] using hrows
  | gemma3 args =>
    rw [← hname] at hkv hrows
    simpa [shardRows, shardGemma3Weight, hkv] using hrows
  | gemma4 args =>
    have hspec : gemma4KvShardSpec plan rank args (logicalWeightName name) (dim :: tail)
        = .ok none := by
      rw [hname, gemma4KvShardSpec, if_pos hkv]
    have hmoe := gemma4MoeIntermediateShardSpec_layerWeight plan rank args name (gemma4 args).scope
      layer .query (dim :: tail)
    rw [← hname] at hrows hmoe
    simp only [shardRows, shardGemma4Weight, hspec, hmoe]
    exact hrows
  | ernie45 args =>
    rw [← hname] at hkv hrows
    simpa [shardRows, shardErnie45Weight, sharedKvWeight, hkv] using hrows
  | _ =>
    rw [← hname] at hrows
    exact hrows

variable {K D : ℕ}

/-- The head that a group of ranks shares lies inside the KV rows. -/
lemma sharedKv_rows {plan : ModelShardPlan} (hdvd : K ∣ plan.tpSize) (hrank : rank < plan.tpSize)
    (tail : List ℕ) :
    shardTensor (K * D :: tail) (sharedKvSpec plan rank D (plan.tpSize / K)) =
      .ok (KvPolicy.rows K D plan.tpSize rank .share) := by
  have hhead : rank / (plan.tpSize / K) < K := by
    refine Nat.div_lt_of_lt_mul ?_
    rwa [mul_comm, Nat.mul_div_cancel' hdvd]
  have hstop : rank / (plan.tpSize / K) * D + D ≤ K * D := by
    rw [← Nat.succ_mul]
    exact Nat.mul_le_mul_right D hhead
  simp [shardTensor, sharedKvSpec, sliceAxis_eq _ hstop, KvPolicy.rows, interval]

/-- The KV rows of the families that share KV heads. -/
lemma sharedKvWeight_rows {plan : ModelShardPlan} (hrank : rank < plan.tpSize)
    (hshare : K < plan.tpSize → K ∣ plan.tpSize) {logicalName : List Char} (tail : List ℕ)
    (hkv : isKvProjection logicalName = true)
    (hrows : (computeShardSpec logicalName (K * D :: tail) plan rank >>=
      shardTensor (K * D :: tail)) = .ok (splitRows (K * D) plan.tpSize rank)) :
    sharedKvWeight plan rank K D logicalName (K * D :: tail) =
      .ok ((if K < plan.tpSize then KvPolicy.share else .split).rows K D plan.tpSize rank) := by
  by_cases hless : K < plan.tpSize
  · simp only [sharedKvWeight, hless, hkv]
    exact sharedKv_rows (hshare hless) hrank tail
  · simp only [sharedKvWeight, hless]
    exact hrows

/-- **Keys and values.** The rows that a rank receives are those of the family's policy. -/
lemma shardRows_kv (hrank : rank < config.tpSize) (hlayer : args.IsHeadLayer layer)
    (hshare : args.kvPolicy config.tpSize = .share → args.numKvHeads ∣ config.tpSize)
    {proj : Projection} (hproj : proj ≠ .query) (tail : List ℕ)
    (hname : logicalWeightName name = layerWeight args.scope layer proj.suffix) :
    args.shardRows (args.shardPlan numLayers config) rank name
        (args.numKvHeads * args.headDim :: tail) =
      .ok ((args.kvPolicy config.tpSize).rows args.numKvHeads args.headDim config.tpSize rank) := by
  have hkv := isKvProjection_layerWeight args.scope layer proj
  rw [decide_eq_true hproj] at hkv
  have hrows := plan_rows args numLayers config hrank proj layer
    (args.numKvHeads * args.headDim) tail
  rw [← args.tpSize_shardPlan numLayers config] at hrank hrows hshare ⊢
  rw [← hname] at hkv hrows
  generalize args.shardPlan numLayers config = plan at hrank hrows hshare ⊢
  cases args with
  | qwen35 args =>
    rw [shardRows, shardQwen35Weight_projection _ _ _ hname]
    refine sharedKvWeight_rows hrank (fun hless => hshare ?_) tail hkv hrows
    exact if_pos hless
  | ernie45 args =>
    refine sharedKvWeight_rows hrank (fun hless => hshare ?_) tail hkv hrows
    exact if_pos hless
  | gemma3 args =>
    by_cases hless : args.numKeyValueHeads < plan.tpSize
    · rw [show (gemma3 args).kvPolicy _ = .replicate from if_pos hless]
      simp only [shardRows, shardGemma3Weight, hless, hkv]
      rfl
    · rw [show (gemma3 args).kvPolicy _ = .split from if_neg hless]
      simp only [shardRows, shardGemma3Weight, hless]
      exact hrows
  | gemma4 args =>
    have hlt : layer < 2 ^ 64 := by
      obtain ⟨hlt, -⟩ := List.getElem?_eq_some_iff.mp hlayer
      exact hlt.trans args.length_layerTypes
    have hindex : gemma4LayerIndex (logicalWeightName name) = some layer := by
      rw [hname]
      exact gemma4LayerIndex_layerWeight hlt proj
    have hsliding : args.layerTypes[layer]? = some .slidingAttention := hlayer
    have hmoe := gemma4MoeIntermediateShardSpec_layerWeight plan rank args name (gemma4 args).scope
      layer proj (args.numKeyValueHeads * args.headDim :: tail)
    rw [← hname] at hmoe
    by_cases hless : plan.tpSize < args.numKeyValueHeads
    · rw [show (gemma4 args).kvPolicy _ = .split from if_pos hless]
      have hspec : gemma4KvShardSpec plan rank args (logicalWeightName name)
          (args.numKeyValueHeads * args.headDim :: tail) = .ok none := by
        simp [gemma4KvShardSpec, hindex, hsliding, hless]
      simp only [shardRows, shardGemma4Weight, numKvHeads, headDim, hspec, hmoe]
      exact hrows
    · rw [show (gemma4 args).kvPolicy _ = .replicate from if_neg hless]
      have hspec : gemma4KvShardSpec plan rank args (logicalWeightName name)
          (args.numKeyValueHeads * args.headDim :: tail) = .ok (some (replicatedSpec
            (args.numKeyValueHeads * args.headDim :: tail) plan rank)) := by
        simp [gemma4KvShardSpec, hkv, hindex, hsliding, hless]
      simp only [shardRows, shardGemma4Weight, numKvHeads, headDim, hspec]
      rfl
  | _ => exact hrows

end Rows

end RuntimeArgs

/-! ## What the local configurations count -/

/-- The KV heads that a rank's configuration counts under a policy. The last case is a family
that splits rows which do not split, and counts all heads. -/
inductive LocalKv (K T : ℕ) : KvPolicy → ℕ → Prop
  | split (hdvd : T ∣ K) : LocalKv K T .split (K / T)
  | share (hdvd : K ∣ T) : LocalKv K T .share 1
  | replicate (hle : K ≤ T) : LocalKv K T .replicate K
  | whole (hle : T ≤ K) (hdvd : ¬ T ∣ K) : LocalKv K T .split K

variable {K T : ℕ}

/-- The families that split the KV heads or share them. -/
lemma LocalKv.of_fits (h : if K < T then K ∣ T else T ∣ K) :
    LocalKv K T (if K < T then .share else .split) (if K < T then 1 else K / T) := by
  split_ifs at h ⊢ with hless
  · exact .share h
  · exact .split h

lemma dvd_of_fits (h : if K < T then K ∣ T else T ∣ K)
    (hsplit : (if K < T then KvPolicy.share else .split) = .split) : T ∣ K := by
  split_ifs at h hsplit
  exact h

/-- Gemma 3 replicates below `T` and counts all heads when they do not split. -/
lemma LocalKv.of_gemma3 (K T : ℕ) : LocalKv K T (if K < T then .replicate else .split)
      (if T ≤ K ∧ T ∣ K then K / T else K) := by
  by_cases hless : K < T
  · rw [if_pos hless, if_neg fun h => absurd hless (not_lt.mpr h.1)]
    exact .replicate hless.le
  · rw [if_neg hless]
    by_cases hdvd : T ∣ K
    · rw [if_pos ⟨not_lt.mp hless, hdvd⟩]
      exact .split hdvd
    · rw [if_neg fun h => hdvd h.2]
      exact .whole (not_lt.mp hless) hdvd

/-- Gemma 4 replicates up to `T`. -/
lemma LocalKv.of_gemma4 (h : if K < T then K ∣ T else T ∣ K) :
    LocalKv K T (if T < K then .split else .replicate) (gemma4LocalKvHeads K T) := by
  rw [gemma4LocalKvHeads]
  by_cases hmore : T < K
  · rw [if_pos hmore, if_neg (not_le.mpr hmore)]
    rw [if_neg (not_lt.mpr hmore.le)] at h
    exact .split h
  · rw [if_neg hmore, if_pos (not_lt.mp hmore)]
    exact .replicate (not_lt.mp hmore)

lemma map_eq_ok {α β : Type} {f : α → β} {x : Except String α} {b : β} :
    f <$> x = .ok b ↔ ∃ a, x = .ok a ∧ f a = b := by
  cases x <;> simp

namespace RuntimeArgs

/-- The head dimension that a rank's attention reads. Qwen 3.5 resolves it from the local number
of heads. -/
def localHeadDim (args : RuntimeArgs) (tpSize : ℕ) : ℕ :=
  match args with
  | qwen35 config =>
    config.headDim.getD (config.hiddenSize / (config.numAttentionHeads / tpSize))
  | _ => args.headDim

/-- What an accepted configuration and its local one have in common with `tpSize` ranks. -/
structure Accepted (args rankArgs : RuntimeArgs) (tpSize : ℕ) : Prop where
  heads_dvd : tpSize ∣ args.numHeads
  numHeads : rankArgs.numHeads = args.numHeads / tpSize
  numKvHeads : LocalKv args.numKvHeads tpSize (args.kvPolicy tpSize) rankArgs.numKvHeads
  headDim : rankArgs.headDim = args.localHeadDim tpSize
  /-- Only Gemma 3 accepts KV heads that it splits and that do not split. -/
  split_dvd : args.kvPolicy tpSize = .split →
    tpSize ∣ args.numKvHeads ∨ ∃ config, args = gemma3 config

/-- **Acceptance.** What the checks of `local_*_args` say about the heads. -/
lemma localArgs_accepted {args rankArgs : RuntimeArgs} {plan : ModelShardPlan}
    (h : args.localArgs plan = .ok rankArgs) : args.Accepted rankArgs plan.tpSize := by
  cases args <;> obtain ⟨rank, hrank, rfl⟩ := map_eq_ok.mp h
  case llamaStyle args =>
    simp only [localLlamaArgs, ensureDivisible, ensureKvSharded, ensure_bind_eq_ok] at hrank
    obtain ⟨hheads, -, ⟨-, hkv⟩, -, hrank⟩ := hrank
    cases hrank
    exact ⟨hheads, rfl, .split hkv, rfl, fun _ => .inl hkv⟩
  case qwen3 args =>
    simp only [localQwen3Args, ensureDivisible, ensureKvSharded, ensure_bind_eq_ok] at hrank
    obtain ⟨hheads, -, ⟨-, hkv⟩, hrank⟩ := hrank
    cases hrank
    exact ⟨hheads, rfl, .split hkv, rfl, fun _ => .inl hkv⟩
  case qwen35 args =>
    simp only [localQwen35Args, ensureDivisible, ensureKvPositive, ensureKvFits,
      ensure_bind_eq_ok] at hrank
    obtain ⟨-, hheads, -, -, -, -, hkv, hrank⟩ := hrank
    cases hrank
    exact ⟨hheads, rfl, .of_fits hkv, rfl, fun hsplit => .inl (dvd_of_fits hkv hsplit)⟩
  case gemma3 args =>
    simp only [localGemma3Args, ensureDivisible, ensureKvPositive, ensure_bind_eq_ok] at hrank
    obtain ⟨hheads, -, -, hrank⟩ := hrank
    cases hrank
    exact ⟨hheads, rfl, .of_gemma3 .., rfl, fun _ => .inr ⟨args, rfl⟩⟩
  case gemma4 args =>
    simp only [localGemma4Args, ensureDivisible, ensureKvPositive, ensureKvFits,
      ensure_bind_eq_ok] at hrank
    obtain ⟨hheads, -, -, hkv, hrank⟩ := hrank
    obtain ⟨globalKvHeads, -, hrank⟩ := bind_eq_ok.mp hrank
    cases hrank
    refine ⟨hheads, rfl, .of_gemma4 hkv, rfl, fun hsplit => .inl ?_⟩
    by_cases hmore : plan.tpSize < args.numKeyValueHeads
    · rwa [if_neg (not_lt.mpr hmore.le)] at hkv
    · simp [kvPolicy, numKvHeads, hmore] at hsplit
  case ernie45 args =>
    simp only [localErnie45Args, ensureDivisible, ensureKvPositive, ensureKvFits,
      ensure_bind_eq_ok] at hrank
    obtain ⟨hheads, -, -, hkv, -, hrank⟩ := hrank
    cases hrank
    exact ⟨hheads, rfl, .of_fits hkv, rfl, fun hsplit => .inl (dvd_of_fits hkv hsplit)⟩
  case hunyuanV1Dense args =>
    simp only [localHunyuanV1DenseArgs, ensureDivisible, ensureKvSharded,
      ensure_bind_eq_ok] at hrank
    obtain ⟨hheads, -, ⟨-, hkv⟩, -, hrank⟩ := hrank
    cases hrank
    exact ⟨hheads, rfl, .split hkv, rfl, fun _ => .inl hkv⟩

end RuntimeArgs

/-! ## Pairing under each policy -/

section Policy

variable {H K D T : ℕ}

lemma splitRows_of_dvd {r n w : ℕ} (hr : r < T) (hdvd : T ∣ n) :
    splitRows (n * w) T r = range' (r * (n / T) * w) (n / T * w) := by
  obtain ⟨m, rfl⟩ := hdvd
  have hT : 0 < T := by omega
  have hdiv : T * m * w / T = m * w := by
    rw [mul_assoc, Nat.mul_div_cancel_left _ hT]
  have hmod : T * m * w % T = 0 := by
    rw [mul_assoc, Nat.mul_mod_right]
  simp only [splitRows, computeShardRange_start _ hr, computeShardRange_end _ hr, hdiv, hmod,
    Nat.mul_div_cancel_left _ hT, Nat.min_zero, Nat.add_zero]
  rw [← Nat.sub_mul, Nat.add_sub_cancel_left, one_mul, mul_assoc]

/-- One of several ranks does not receive all rows. -/
lemma length_splitRows_lt {n : ℕ} (hT : 2 ≤ T) (hn : T ≤ n) : (splitRows n T 0).length < n := by
  have htwice : 2 * (n / T) ≤ T * (n / T) := Nat.mul_le_mul_right _ hT
  have hparts : T * (n / T) + n % T = n := Nat.div_add_mod n T
  have hT' : 0 < T := by omega
  simp only [splitRows, computeShardRange_end _ hT',
    length_range']
  omega

/-- The KV side of the property for given rows: each rank has as many rows as its configuration
counts heads, and the local KV head of each query head is the global one. -/
def KvPaired (H K D T localK localD : ℕ) (rows : ℕ → List ℕ) : Prop :=
  ∀ r < T, (rows r).length = localK * localD ∧ ∀ j < H / T,
    block localD (j / (H / T / localK)) (rows r) = interval D ((r * (H / T) + j) / (H / K))

lemma kvPaired_split (hH : 0 < H) (hKH : K ∣ H) (hTH : T ∣ H) (hTK : T ∣ K) :
    KvPaired H K D T (K / T) D fun r => KvPolicy.rows K D T r .split := by
  intro r hr
  simp only [KvPolicy.rows]
  rw [splitRows_of_dvd hr hTK]
  refine ⟨length_range', fun j hj => ?_⟩
  rw [block_range' _ (group_lt_of_split hH hKH hTK hj), group_of_split hH hKH hTH hTK]

lemma kvPaired_share (hH : 0 < H) (hTH : T ∣ H) (hKT : K ∣ T) :
    KvPaired H K D T 1 D fun r => KvPolicy.rows K D T r .share := by
  intro r hr
  simp only [KvPolicy.rows]
  refine ⟨by simp [interval], fun j hj => ?_⟩
  rw [Nat.div_one, Nat.div_eq_of_lt hj, group_of_shared hH hTH hKT hj]
  simp [block, interval]

lemma kvPaired_replicate_one (hTH : T ∣ H) :
    KvPaired H 1 D T 1 D fun r => KvPolicy.rows 1 D T r .replicate := by
  intro r hr
  simp only [KvPolicy.rows]
  refine ⟨by simp, fun j hj => ?_⟩
  have hmember : r * (H / T) + j < H := by
    calc r * (H / T) + j < r * (H / T) + H / T := Nat.add_lt_add_left hj _
      _ = (r + 1) * (H / T) := by ring
      _ ≤ T * (H / T) := Nat.mul_le_mul_right _ hr
      _ = H := Nat.mul_div_cancel' hTH
  rw [Nat.div_one, Nat.div_one, Nat.div_eq_of_lt hj, Nat.div_eq_of_lt hmember]
  simp [block, interval, range_eq_range']

variable {localK localD : ℕ}

/-- The rows of a rank fix the head dimension. -/
lemma KvPaired.headDim_eq {rows : ℕ → List ℕ} {r : ℕ} (hr : r < T) (hK : 0 < localK)
    (hlength : (rows r).length = localK * D) (h : KvPaired H K D T localK localD rows) :
    localD = D := by
  have heq := (h r hr).1
  rw [hlength] at heq
  exact (Nat.eq_of_mul_eq_mul_left hK heq).symm

/-- **Replicated KV heads.** With two KV heads or more the last rank starts with the first KV
head, which is not its own. -/
lemma not_kvPaired_replicate (hH : 0 < H) (hKH : K ∣ H) (hTH : T ∣ H) (hD : 0 < D) (hK : 2 ≤ K)
    (hT : 2 ≤ T) : ¬ KvPaired H K D T K D fun r => KvPolicy.rows K D T r .replicate := by
  intro h
  have hmembers : 0 < H / T := Nat.div_pos (Nat.le_of_dvd hH hTH) (by omega)
  have hfirst := (h (T - 1) (by omega)).2 0 hmembers
  have hblock : block D 0 (KvPolicy.rows K D T (T - 1) .replicate) = interval D 0 := by
    have hrange : block D 0 (.range' (0 * D) (K * D)) = interval D (0 + 0) :=
      block_range' 0 (by omega)
    rwa [zero_mul, ← range_eq_range'] at hrange
  rw [Nat.zero_div, hblock, Nat.add_zero] at hfirst
  have hpos := group_last_pos hH hKH hTH hK hT
  rw [← interval_injective hD hfirst] at hpos
  exact absurd hpos (by omega)

/-- **Rows that do not split.** A rank that counts all KV heads does not receive all rows. -/
lemma not_kvPaired_whole (hD : 0 < D) (hT : 0 < T) (hle : T ≤ K) (hdvd : ¬ T ∣ K) :
    ¬ KvPaired H K D T K D fun r => KvPolicy.rows K D T r .split := by
  intro h
  have hone : T ≠ 1 := by
    rintro rfl
    exact hdvd (one_dvd K)
  have hlength := (h 0 hT).1
  have hless : (splitRows (K * D) T 0).length < K * D :=
    length_splitRows_lt (by omega) (hle.trans (Nat.le_mul_of_pos_right K hD))
  exact absurd hlength hless.ne

/-- What each policy needs to keep the pairing. -/
def KvPolicy.Keeps (K T : ℕ) : KvPolicy → Prop
  | split => T ∣ K
  | replicate => K = 1
  | share => True

variable {policy : KvPolicy}

/-- **The policies.** Under the head dimension of the model, the heads are paired exactly when the
policy keeps the pairing. -/
lemma kvPaired_iff_keeps (hH : 0 < H) (hKH : K ∣ H) (hTH : T ∣ H) (hD : 0 < D)
    (hlocal : LocalKv K T policy localK) :
    KvPaired H K D T localK D (fun r => policy.rows K D T r) ↔ policy.Keeps K T := by
  have hT : 0 < T := Nat.pos_of_dvd_of_pos hTH hH
  have hK : 0 < K := Nat.pos_of_dvd_of_pos hKH hH
  cases hlocal with
  | split hdvd => exact iff_of_true (kvPaired_split hH hKH hTH hdvd) hdvd
  | share hdvd => exact iff_of_true (kvPaired_share hH hTH hdvd) trivial
  | replicate hle =>
    constructor
    · intro h
      by_contra hone
      have htwo : 2 ≤ K := by
        have : K ≠ 1 := hone
        omega
      exact not_kvPaired_replicate hH hKH hTH hD htwo (htwo.trans hle) h
    · rintro rfl
      exact kvPaired_replicate_one hTH
  | whole hle hdvd => exact iff_of_false (not_kvPaired_whole hD hT hle hdvd) hdvd

/-- A rank has KV heads, and under the model's head dimension it has their rows. -/
lemma KvPaired.headDim_eq_of_local (hH : 0 < H) (hKH : K ∣ H) (hTH : T ∣ H)
    (hlocal : LocalKv K T policy localK) (hkeeps : policy.Keeps K T) (hD : 0 < D)
    (h : KvPaired H K D T localK localD fun r => policy.rows K D T r) :
    localD = D := by
  have hT : 0 < T := Nat.pos_of_dvd_of_pos hTH hH
  have hK : 0 < K := Nat.pos_of_dvd_of_pos hKH hH
  have hpaired := (kvPaired_iff_keeps hH hKH hTH hD hlocal).mpr hkeeps
  refine KvPaired.headDim_eq hT ?_ (hpaired 0 hT).1 h
  cases hlocal with
  | split hdvd => exact Nat.div_pos (Nat.le_of_dvd hK hdvd) hT
  | share _ => exact one_pos
  | replicate _ => exact hK
  | whole _ _ => exact hK

end Policy

/-! ## The families -/

namespace RuntimeArgs

/-- The condition on a family, its KV heads and the number of ranks under which the heads stay
paired. -/
def KeepsPairing (args : RuntimeArgs) (tpSize : ℕ) : Prop :=
  match args with
  | qwen35 config => config.headDim.isSome ∨ tpSize = 1
  | gemma3 config => config.numKeyValueHeads = 1 ∨ tpSize ∣ config.numKeyValueHeads
  | gemma4 config => config.numKeyValueHeads = 1 ∨ tpSize < config.numKeyValueHeads
  | _ => True

variable {args rankArgs : RuntimeArgs} {tpSize : ℕ}

/-- Fewer heads take larger shares of the hidden size. -/
lemma hiddenSize_div_eq_iff {hiddenSize numHeads : ℕ} (hdim : 0 < hiddenSize / numHeads)
    (hdvd : tpSize ∣ numHeads) :
    hiddenSize / (numHeads / tpSize) = hiddenSize / numHeads ↔ tpSize = 1 := by
  obtain ⟨m, rfl⟩ := hdvd
  have htp : 0 < tpSize := by
    rcases eq_zero_or_pos tpSize with rfl | hpos
    · simp at hdim
    · exact hpos
  rw [mul_comm, ← Nat.div_div_eq_div_mul] at hdim ⊢
  rw [Nat.mul_div_cancel _ htp]
  constructor
  · intro heq
    by_contra hone
    have hshare : 0 < hiddenSize / m := Nat.pos_of_ne_zero (by intro hzero; simp [hzero] at hdim)
    exact absurd heq (Nat.div_lt_self hshare (by omega)).ne'
  · rintro rfl
    rw [Nat.div_one]

section

variable (h : args.Accepted rankArgs tpSize)

include h

/-- The families that never replicate keep the pairing once they accept. -/
lemma Accepted.keeps
    (hfamily : ∀ config, args ≠ gemma3 config) (hpolicy : args.kvPolicy tpSize ≠ .replicate) :
    (args.kvPolicy tpSize).Keeps args.numKvHeads tpSize := by
  cases hkv : args.kvPolicy tpSize with
  | split =>
    rcases h.split_dvd hkv with hdvd | ⟨config, hconfig⟩
    · exact hdvd
    · exact absurd hconfig (hfamily config)
  | share => trivial
  | replicate => exact absurd hkv hpolicy

lemma Accepted.share_dvd (hshare : args.kvPolicy tpSize = .share) : args.numKvHeads ∣ tpSize := by
  have hlocal := h.numKvHeads
  rw [hshare] at hlocal
  generalize rankArgs.numKvHeads = localK at hlocal
  cases hlocal with
  | share hdvd => exact hdvd

/-- Where the head dimension is resolved anew, the policy keeps the pairing. -/
lemma Accepted.headDim_or_keeps : args.localHeadDim tpSize = args.headDim ∨
      (args.kvPolicy tpSize).Keeps args.numKvHeads tpSize := by
  cases args with
  | qwen35 config => exact .inr (h.keeps (by simp) (by simp only [kvPolicy]; split_ifs <;> simp))
  | _ => exact .inl rfl

/-- **The condition by family** says that the ranks read the model's head dimension and that the
policy keeps the pairing. -/
lemma Accepted.keepsPairing_iff (hheads : 0 < args.numHeads)
    (hkv : 0 < args.numKvHeads) (hdim : 0 < args.headDim) :
    args.KeepsPairing tpSize ↔ args.localHeadDim tpSize = args.headDim ∧
      (args.kvPolicy tpSize).Keeps args.numKvHeads tpSize := by
  have htp : 0 < tpSize := Nat.pos_of_dvd_of_pos h.heads_dvd hheads
  cases args with
  | qwen35 config =>
    have hkeeps := h.keeps (by simp) (by simp only [kvPolicy]; split_ifs <;> simp)
    rw [and_iff_left hkeeps]
    cases hconfig : config.headDim with
    | some dim =>
      simp [KeepsPairing, localHeadDim, RuntimeArgs.headDim, Qwen35Config.headDimResolved,
        hconfig]
    | none =>
      have hdvd : tpSize ∣ config.numAttentionHeads := h.heads_dvd
      simp only [RuntimeArgs.headDim, Qwen35Config.headDimResolved, hconfig] at hdim
      simp [KeepsPairing, localHeadDim, RuntimeArgs.headDim, Qwen35Config.headDimResolved,
        hconfig, hiddenSize_div_eq_iff hdim hdvd]
  | gemma3 config =>
    have hkv' : 0 < config.numKeyValueHeads := hkv
    by_cases hless : config.numKeyValueHeads < tpSize
    · have hdvd : ¬ tpSize ∣ config.numKeyValueHeads := Nat.not_dvd_of_pos_of_lt hkv' hless
      rw [show (gemma3 config).kvPolicy tpSize = .replicate from if_pos hless]
      simp [KeepsPairing, localHeadDim, KvPolicy.Keeps, RuntimeArgs.numKvHeads, hdvd]
    · rw [show (gemma3 config).kvPolicy tpSize = .split from if_neg hless]
      have hone : config.numKeyValueHeads = 1 → tpSize ∣ config.numKeyValueHeads := by
        intro hone
        rw [show tpSize = 1 by omega]
        exact one_dvd _
      simpa [KeepsPairing, localHeadDim, KvPolicy.Keeps, RuntimeArgs.numKvHeads] using hone
  | gemma4 config =>
    by_cases hmore : tpSize < config.numKeyValueHeads
    · have hpolicy : (gemma4 config).kvPolicy tpSize = .split := if_pos hmore
      have hkeeps := h.keeps (by simp) (by simp [hpolicy])
      simpa [KeepsPairing, localHeadDim, hmore] using hkeeps
    · rw [show (gemma4 config).kvPolicy tpSize = .replicate from if_neg hmore]
      simp [KeepsPairing, localHeadDim, KvPolicy.Keeps, RuntimeArgs.numKvHeads, hmore]
  | ernie45 config =>
    have hkeeps := h.keeps (by simp) (by simp only [kvPolicy]; split_ifs <;> simp)
    exact iff_of_true trivial ⟨rfl, hkeeps⟩
  | _ =>
    have hkeeps := h.keeps (by simp) (by simp [kvPolicy])
    exact iff_of_true trivial ⟨rfl, hkeeps⟩

end

/-! ## The property -/

/-- **Every query head meets its own KV head.** `args` is the configuration of the model,
`rankArgs` that of its ranks, and the projections are those of one layer, under any of the names
that follow the weight and with any further axes. -/
structure PairsHeads (args rankArgs : RuntimeArgs) (plan : ModelShardPlan) (layer : ℕ) : Prop where
  /-- A rank has `H / T` query heads. -/
  heads : rankArgs.numHeads = args.numHeads / plan.tpSize
  /-- The local query head `j` of the rank `r` is the head `r * (H / T) + j`, and the ranks' rows
  one after another are all rows. -/
  queries : ∀ name tail,
    logicalWeightName name = layerWeight args.scope layer query.suffix →
    ∃ rows : ℕ → List ℕ,
      (∀ r < plan.tpSize,
        args.shardRows plan r name (args.numHeads * args.queryWidth :: tail) = .ok (rows r) ∧
        (rows r).length = rankArgs.numHeads * args.queryWidth ∧
        ∀ j < rankArgs.numHeads, block args.queryWidth j (rows r) =
          interval args.queryWidth (r * rankArgs.numHeads + j)) ∧
      (range plan.tpSize).flatMap rows = range (args.numHeads * args.queryWidth)
  /-- The KV rows of a rank are its KV heads, and the local KV head of the query head `j` is the
  one that the model pairs with the head `r * (H / T) + j`. -/
  kv : ∀ proj ∈ [key, .value], ∀ name tail,
    logicalWeightName name = layerWeight args.scope layer proj.suffix →
    ∀ r < plan.tpSize, ∃ rows,
      args.shardRows plan r name (args.numKvHeads * args.headDim :: tail) = .ok rows ∧
      rows.length = rankArgs.numKvHeads * rankArgs.headDim ∧
      ∀ j < rankArgs.numHeads,
        block rankArgs.headDim (j / (rankArgs.numHeads / rankArgs.numKvHeads)) rows =
          interval args.headDim
            ((r * rankArgs.numHeads + j) / (args.numHeads / args.numKvHeads))

end RuntimeArgs

/-- A configuration with grouped attention heads. -/
structure AttentionArgs where
  args : RuntimeArgs
  heads_pos : 0 < args.numHeads
  kv_dvd : args.numKvHeads ∣ args.numHeads
  headDim_pos : 0 < args.headDim

namespace AttentionArgs

variable (model : AttentionArgs) (numLayers : ℕ) (config : ShardConfig) {rankArgs : RuntimeArgs}

lemma kv_pos : 0 < model.args.numKvHeads := Nat.pos_of_dvd_of_pos model.kv_dvd model.heads_pos

/-- The shards of the query rows, one after another. -/
lemma flatMap_splitRows {n w T : ℕ} (hdvd : T ∣ n) :
    (range T).flatMap (splitRows (n * w) T) = range (n * w) := by
  have hrows : (range T).flatMap (splitRows (n * w) T) =
      (range T).flatMap (interval (n / T * w)) := by
    refine flatMap_congr fun r hr => ?_
    rw [splitRows_of_dvd (mem_range.mp hr) hdvd, interval, mul_assoc]
  rw [hrows, flatMap_interval, ← mul_assoc, Nat.mul_div_cancel' hdvd]

/-- The KV side of the property is about the rows of the policy. -/
lemma pairsHeads_iff_kvPaired {layer : ℕ} (hlayer : model.args.IsHeadLayer layer)
    (h : model.args.Accepted rankArgs config.tpSize) :
    model.args.PairsHeads rankArgs (model.args.shardPlan numLayers config) layer ↔
      KvPaired model.args.numHeads model.args.numKvHeads model.args.headDim config.tpSize
        rankArgs.numKvHeads rankArgs.headDim
        (fun r => (model.args.kvPolicy config.tpSize).rows model.args.numKvHeads
          model.args.headDim config.tpSize r) := by
  have htp := model.args.tpSize_shardPlan numLayers config
  constructor
  · intro hpairs r hr
    obtain ⟨rows, hrows, hlength, hblocks⟩ := hpairs.kv .key (by simp) _ []
      (logicalWeightName_layerWeight _ layer .key) r (by rwa [htp])
    rw [model.args.shardRows_kv numLayers config hr hlayer h.share_dvd (by simp) []
      (logicalWeightName_layerWeight _ layer .key)] at hrows
    cases hrows
    rw [h.numHeads] at hblocks
    exact ⟨hlength, hblocks⟩
  · intro hkv
    refine ⟨by rw [h.numHeads, htp], ?_, ?_⟩
    · intro name tail hname
      rw [htp, h.numHeads]
      refine ⟨splitRows (model.args.numHeads * model.args.queryWidth) config.tpSize,
        fun r hr => ⟨?_, ?_, ?_⟩, flatMap_splitRows h.heads_dvd⟩
      · exact model.args.shardRows_query numLayers config hr _ tail hname
      · rw [splitRows_of_dvd hr h.heads_dvd, length_range']
      · intro j hj
        rw [splitRows_of_dvd hr h.heads_dvd, block_range' _ hj]
    · intro proj hproj name tail hname r hr
      rw [htp] at hr
      refine ⟨_, model.args.shardRows_kv numLayers config hr hlayer h.share_dvd ?_ tail hname, ?_⟩
      · rintro rfl
        simp at hproj
      · rw [h.numHeads]
        exact hkv r hr

/-- **Tensor-parallel attention.** For every accepted configuration, each query head meets its own
KV head on every rank exactly when the family keeps the pairing: always for the families that
split the KV heads or share them, except that Qwen 3.5 has to name its head dimension; for
Gemma 3 and the sliding layers of Gemma 4 only when there is one KV head or the KV heads are
split. -/
theorem pairsHeads_iff {layer : ℕ} (hlayer : model.args.IsHeadLayer layer)
    (haccepted : model.args.localArgs (model.args.shardPlan numLayers config) = .ok rankArgs) :
    model.args.PairsHeads rankArgs (model.args.shardPlan numLayers config) layer ↔
      model.args.KeepsPairing config.tpSize := by
  have h := RuntimeArgs.localArgs_accepted haccepted
  rw [model.args.tpSize_shardPlan numLayers config] at h
  have hpolicy := kvPaired_iff_keeps model.heads_pos model.kv_dvd h.heads_dvd model.headDim_pos
    h.numKvHeads
  rw [pairsHeads_iff_kvPaired model numLayers config hlayer h,
    h.keepsPairing_iff model.heads_pos model.kv_pos model.headDim_pos, h.headDim]
  constructor
  · intro hpaired
    rcases h.headDim_or_keeps with hdim | hkeeps
    · rw [hdim] at hpaired
      exact ⟨hdim, hpolicy.mp hpaired⟩
    · exact ⟨hpaired.headDim_eq_of_local model.heads_pos model.kv_dvd h.heads_dvd h.numKvHeads
        hkeeps model.headDim_pos, hkeeps⟩
  · rintro ⟨hdim, hkeeps⟩
    rw [hdim]
    exact hpolicy.mpr hkeeps

end AttentionArgs

/-- Four query heads over two KV heads, as a Llama model has them. -/
def smallLlama : AttentionArgs where
  args := .llamaStyle
    { hiddenSize := 16, numAttentionHeads := 4, numKeyValueHeads := some 2, intermediateSize := 8 }
  heads_pos := by decide
  kv_dvd := by decide
  headDim_pos := by decide

/-- On two ranks the heads of `smallLlama` stay paired. -/
theorem pairsHeads_smallLlama :
    ∃ rankArgs, smallLlama.args.localArgs (smallLlama.args.shardPlan 1 { tpSize := 2 }) =
        .ok rankArgs ∧
      smallLlama.args.PairsHeads rankArgs (smallLlama.args.shardPlan 1 { tpSize := 2 }) 0 :=
  ⟨_, rfl, (smallLlama.pairsHeads_iff 1 { tpSize := 2 } trivial rfl).mpr trivial⟩

/-- Eight query heads over two KV heads, as a Gemma 3 model may have them. -/
def smallGemma3 : AttentionArgs where
  args := .gemma3
    { numAttentionHeads := 8, numKeyValueHeads := 2, headDim := 4, intermediateSize := 8 }
  heads_pos := by decide
  kv_dvd := by decide
  headDim_pos := by decide

/-- On four ranks `smallGemma3` is accepted with both KV heads on every rank, and the last rank
reads the first of them. -/
theorem not_pairsHeads_smallGemma3 :
    ∃ rankArgs, smallGemma3.args.localArgs (smallGemma3.args.shardPlan 1 { tpSize := 4 }) =
        .ok rankArgs ∧
      ¬ smallGemma3.args.PairsHeads rankArgs (smallGemma3.args.shardPlan 1 { tpSize := 4 }) 0 := by
  refine ⟨_, rfl, ?_⟩
  have h := RuntimeArgs.localArgs_accepted (show smallGemma3.args.localArgs
    (smallGemma3.args.shardPlan 1 { tpSize := 4 }) = .ok _ from rfl)
  rw [smallGemma3.pairsHeads_iff_kvPaired 1 { tpSize := 4 } trivial h]
  exact not_kvPaired_replicate (by decide) (by decide) (by decide) (by decide) (by decide)
    (by decide)

end Mlxcel.TensorParallel
