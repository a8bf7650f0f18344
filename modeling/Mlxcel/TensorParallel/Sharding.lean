import Mlxcel.TensorParallel.LocalArgs
import Mathlib.Tactic.Linarith

/-!
# Shards of experts and of quantized weights

What the ranges of `compute_shard_spec` mean to those that use the shards.

* **`ownership_agrees_iff`** — a rank's rows of a fused expert tensor are a contiguous range, and
  `compute_expert_assignment` deals experts round robin. Both are the same only with one rank or
  one expert for each;
* **`rankAligned_iff`** — the packed words, the scales and the biases of a quantized weight are cut
  each along an axis of its own. The cuts fall on the same input columns exactly if the words and
  the groups divide evenly; that the input dimension does is not enough.
-/

namespace Mlxcel.TensorParallel

open List Str

variable {plan : ModelShardPlan} {name : List Char} {rank : ℕ}

/-! ## Experts -/

structure ExpertAssignment where
  tpRank : ℕ
  expertIndices : List ℕ
  totalExperts : ℕ

def computeExpertAssignment (rank tpSize numExperts : ℕ) : ExpertAssignment where
  tpRank := rank
  expertIndices := (List.range numExperts).filter (· % tpSize = rank)
  totalExperts := numExperts

/-- The rank's rows of a fused tensor of `n` experts are the experts it owns. -/
def OwnershipAgrees (plan : ModelShardPlan) (name : List Char) (n : ℕ) (tail : List ℕ) (rank : ℕ) :
    Prop :=
  ∃ rows, (computeShardSpec name (n :: tail) plan rank >>= shardTensor (n :: tail)) = .ok rows ∧
    ∀ i, i ∈ rows ↔ i ∈ (computeExpertAssignment rank plan.tpSize n).expertIndices

/-- The rows are the range of the rank. -/
lemma ownershipAgrees_iff {n axis : ℕ} {tail : List ℕ}
    (hplan : plan.strategyFor name = (.expertParallel, axis)) (hrank : rank < plan.tpSize) :
    OwnershipAgrees plan name n tail rank ↔ ∀ i,
      rank * (n / plan.tpSize) + min rank (n % plan.tpSize) ≤ i ∧
        i < (rank + 1) * (n / plan.tpSize) + min (rank + 1) (n % plan.tpSize) ↔
      i < n ∧ i % plan.tpSize = rank := by
  have hstart := computeShardRange_start n hrank
  have hend := computeShardRange_end n hrank
  have hle := computeShardRange_end_le n hrank
  have hrows : (computeShardSpec name (n :: tail) plan rank >>= shardTensor (n :: tail)) =
      .ok (.range' (computeShardRange n plan.tpSize rank).1
        ((computeShardRange n plan.tpSize rank).2.1 - (computeShardRange n plan.tpSize rank).1)) := by
    simp [computeShardSpec, hplan, not_le.mpr hrank, shardTensor, rangeSpec, bind, Except.bind,
      sliceAxis_eq _ hle]
  simp only [OwnershipAgrees, hrows, Except.ok.injEq, exists_eq_left', computeExpertAssignment,
    mem_filter, mem_range, decide_eq_true_eq, mem_range'_1, hstart]
  refine forall_congr' fun i => iff_congr (and_congr_right fun hi => ?_) .rfl
  omega

/-- **Expert ownership.** With at least as many experts as ranks, weights and dispatch agree on
every rank exactly if there is one rank or one expert for each. -/
theorem ownership_agrees_iff {n axis : ℕ} {tail : List ℕ}
    (hplan : plan.strategyFor name = (.expertParallel, axis)) (hpos : 0 < plan.tpSize)
    (hn : plan.tpSize ≤ n) :
    (∀ rank < plan.tpSize, OwnershipAgrees plan name n tail rank) ↔
      plan.tpSize = 1 ∨ n = plan.tpSize := by
  constructor
  · intro h
    by_contra hne
    -- rank 0 holds the experts 0 and 1, and expert 1 belongs to rank 1
    have hfirst := ((ownershipAgrees_iff hplan hpos).mp (h 0 hpos) 1).mp ?_
    · rw [Nat.mod_eq_of_lt (by omega)] at hfirst
      omega
    · have hdiv : 1 ≤ n / plan.tpSize := Nat.div_pos hn hpos
      have hsum := Nat.div_add_mod n plan.tpSize
      simp only [zero_add]
      rcases hdiv.lt_or_eq with hdiv | hdiv
      · omega
      · rw [← hdiv] at hsum ⊢
        omega
  · rintro hsize rank hrank
    refine (ownershipAgrees_iff hplan hrank).mpr fun i => ?_
    rcases hsize with hone | rfl
    · obtain rfl : rank = 0 := by omega
      simp [hone, Nat.mod_one]
    · rw [Nat.div_self hpos, Nat.mod_self]
      refine ⟨fun hi => ?_, fun ⟨hi, hrank⟩ => ?_⟩
      · have hlt : i < plan.tpSize := by omega
        rw [Nat.mod_eq_of_lt hlt]
        omega
      · rw [Nat.mod_eq_of_lt hi] at hrank
        omega

/-- A plan for one expert tensor. -/
def expertPlan (tpSize : ℕ) : ModelShardPlan where
  tpSize
  numLayers := 1
  layerPlans := [⟨"experts".toList, .expertParallel, 0, .allReduce⟩]
  embeddingStrategy := .replicated
  lmHeadStrategy := .replicated

theorem ownership_agrees_two_experts : OwnershipAgrees (expertPlan 2) "experts".toList 2 [8] 1 :=
  (@ownership_agrees_iff _ _ _ 0 _ (by decide +kernel) (by decide) (by decide)).mpr
    (.inr rfl) 1 (by decide)

/-- Of four experts, rank 0 of two loads the weights of 0 and 1 and is sent the tokens of 0
and 2. -/
theorem ownership_differs_four_experts :
    (computeShardSpec "experts".toList [4, 8] (expertPlan 2) 0 >>= shardTensor [4, 8]).toOption =
        some [0, 1] ∧
      (computeExpertAssignment 0 2 4).expertIndices = [0, 2] := by
  decide +kernel

/-! ## Quantized weights -/

/-- A quantized linear layer: `in_dim * bits / 32` packed words and `in_dim / group_size` scales and
biases in each of its rows. -/
structure QuantizedLinear where
  name : List Char
  outDim : ℕ
  inDim : ℕ
  bits : ℕ
  groupSize : ℕ
  bits_pos : 0 < bits
  groupSize_pos : 0 < groupSize
  packed : 32 ∣ inDim * bits
  grouped : groupSize ∣ inDim

namespace QuantizedLinear

variable (layer : QuantizedLinear)

/-- The tensors of the layer, with the columns of each and the bits of the packed row that one
column stands for. -/
def parts : List (String × ℕ × ℕ) :=
  [(".weight", layer.inDim * layer.bits / 32, 32),
   (".scales", layer.inDim / layer.groupSize, layer.groupSize * layer.bits),
   (".biases", layer.inDim / layer.groupSize, layer.groupSize * layer.bits)]

/-- The rank's slice of a tensor covers the `rank`-th of `tp_size` equal parts of the input columns.
A column stands for `bits` bits of the packed row. -/
def PartAligned (plan : ModelShardPlan) (rank : ℕ) (part : String × ℕ × ℕ) : Prop :=
  ∃ spec, computeShardSpec (logicalWeightName (layer.name ++ part.1.toList))
      [layer.outDim, part.2.1] plan rank = .ok spec ∧ spec.shardAxis = 1 ∧
    spec.startIndex * part.2.2 = rank * (layer.inDim / plan.tpSize) * layer.bits ∧
    spec.endIndex * part.2.2 = (rank + 1) * (layer.inDim / plan.tpSize) * layer.bits

/-- The rank's slices of all tensors cover the same input columns. -/
def RankAligned (plan : ModelShardPlan) (rank : ℕ) : Prop :=
  ∀ part ∈ layer.parts, layer.PartAligned plan rank part

/-- All tensors of a layer are cut as its weight is. -/
lemma logicalWeightName_part {part : String × ℕ × ℕ} (hpart : part ∈ layer.parts) :
    logicalWeightName (layer.name ++ part.1.toList) = layer.name ++ ".weight".toList := by
  simp only [parts, mem_cons, not_mem_nil, or_false] at hpart
  rcases hpart with rfl | rfl | rfl <;> simp [logicalWeightName, stripSuffix, isSuffixOf]

/-- One tensor of the layer: its cuts fall on the cuts of the input dimension exactly if its columns
divide evenly. -/
lemma cuts_iff {cols unit tpSize n b : ℕ} (hunit : 0 < unit) (hpos : 0 < tpSize)
    (hwidth : cols * unit = n * b) (hdvd : tpSize ∣ n) :
    (∀ rank < tpSize,
      (computeShardRange cols tpSize rank).1 * unit = rank * (n / tpSize) * b ∧
        (computeShardRange cols tpSize rank).2.1 * unit = (rank + 1) * (n / tpSize) * b) ↔
      tpSize ∣ cols := by
  obtain ⟨k, rfl⟩ := hdvd
  rw [Nat.mul_div_cancel_left k hpos]
  constructor
  · intro h
    have hfirst := (h 0 hpos).2
    refine ⟨(computeShardRange cols tpSize 0).2.1, Nat.eq_of_mul_eq_mul_right hunit ?_⟩
    rw [hwidth, mul_assoc, mul_assoc, hfirst]
    ring
  · rintro ⟨m, rfl⟩ rank hrank
    have hm : m * unit = k * b := by
      refine Nat.eq_of_mul_eq_mul_left hpos ?_
      rw [← mul_assoc, hwidth, mul_assoc]
    rw [computeShardRange_start _ hrank, computeShardRange_end _ hrank, Nat.mul_div_cancel_left m hpos]
    simp [mul_assoc, hm]

lemma part_unit {part : String × ℕ × ℕ} (hpart : part ∈ layer.parts) :
    0 < part.2.2 ∧ part.2.1 * part.2.2 = layer.inDim * layer.bits := by
  simp only [parts, mem_cons, not_mem_nil, or_false] at hpart
  have hpos := mul_pos layer.groupSize_pos layer.bits_pos
  have hgroups : layer.inDim / layer.groupSize * (layer.groupSize * layer.bits) =
      layer.inDim * layer.bits := by
    rw [← mul_assoc, Nat.div_mul_cancel layer.grouped]
  rcases hpart with rfl | rfl | rfl
  · exact ⟨Nat.zero_lt_succ 31, Nat.div_mul_cancel layer.packed⟩
  · exact ⟨hpos, hgroups⟩
  · exact ⟨hpos, hgroups⟩

/-- **Quantized row-parallel shards** are aligned on every rank exactly if the packed words and the
groups of a row divide evenly over the ranks. -/
theorem rankAligned_iff
    (hplan : plan.strategyFor (layer.name ++ ".weight".toList) = (.rowParallel, 1))
    (hpos : 0 < plan.tpSize) (hdvd : plan.tpSize ∣ layer.inDim) :
    (∀ rank < plan.tpSize, layer.RankAligned plan rank) ↔
      plan.tpSize ∣ layer.inDim * layer.bits / 32 ∧ plan.tpSize ∣ layer.inDim / layer.groupSize := by
  have hpart : ∀ part ∈ layer.parts,
      (∀ rank < plan.tpSize, layer.PartAligned plan rank part) ↔ plan.tpSize ∣ part.2.1 := by
    intro part hmem
    obtain ⟨hunit, hwidth⟩ := layer.part_unit hmem
    rw [← cuts_iff hunit hpos hwidth hdvd]
    refine forall₂_congr fun rank hrank => ?_
    simp only [PartAligned, computeShardSpec, layer.logicalWeightName_part hmem, hplan,
      if_neg (not_le.mpr hrank)]
    simp [rangeSpec]
  constructor
  · intro h
    exact ⟨(hpart _ (.head _)).mp fun rank hrank => h rank hrank _ (.head _),
      (hpart _ (.tail _ (.head _))).mp fun rank hrank => h rank hrank _ (.tail _ (.head _))⟩
  · rintro ⟨hwords, hgroups⟩ rank hrank part hmem
    refine (hpart part hmem).mpr ?_ rank hrank
    simp only [parts, mem_cons, not_mem_nil, or_false] at hmem
    rcases hmem with rfl | rfl | rfl
    · exact hwords
    · exact hgroups
    · exact hgroups

/-- The down projection of layer 0 of a llama model with 4-bit weights in groups of 64. -/
def downProj (groups : ℕ) : QuantizedLinear where
  name := "model.layers.0.mlp.down_proj".toList
  outDim := 4096
  inDim := groups * 2 * 32
  bits := 4
  groupSize := 2 * 32
  bits_pos := Nat.succ_pos 3
  groupSize_pos := Nat.succ_pos 63
  packed := Nat.dvd_mul_right_of_dvd (Nat.dvd_mul_left ..) 4
  grouped := mul_assoc groups 2 32 ▸ dvd_mul_left ..

theorem rankAligned_downProj : (downProj 172).RankAligned (buildLlamaPlan 1 { tpSize := 4 }) 3 :=
  (rankAligned_iff _ (by decide +kernel) (by decide) (by decide)).mpr
    ⟨by decide, by decide⟩ 3 (by decide)

/-- Eight ranks divide the 11008 inputs and the 1376 words of a row and not its 172 groups: rank 0
has the words of 1376 columns and the scales of 22 groups, which are 1408. -/
theorem scales_misaligned :
    8 ∣ (downProj 172).inDim ∧ ¬ (downProj 172).RankAligned (buildLlamaPlan 1 { tpSize := 8 }) 0 := by
  refine ⟨by decide, fun h => ?_⟩
  obtain ⟨spec, hspec, -, -, hend⟩ := h (".scales", _, _) (.tail _ (.head _))
  have hgroups : (computeShardSpec (logicalWeightName "model.layers.0.mlp.down_proj.scales".toList)
      [4096, 11008 / 64] (buildLlamaPlan 1 { tpSize := 8 }) 0).toOption.map (·.endIndex) =
      some 22 := by
    decide +kernel
  have hspec' := congrArg (fun spec => spec.toOption.map (·.endIndex)) hspec
  have hindex : spec.endIndex = 22 := Option.some.inj (hspec'.symm.trans hgroups)
  rw [hindex] at hend
  exact absurd hend (by decide)

end QuantizedLinear

end Mlxcel.TensorParallel
