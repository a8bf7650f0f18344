import Mlxcel.Handoff.Conserves

/-!
# Block ids of another node

`restore_sequence` registers a block table under the ids of its sender and moves the counter of the
pool behind each of them. The counter has 64 bits, and this addition stops at `u64::MAX`: after a
restore of that id the counter names a block in use, and the next block is minted over it. A mint at
`u64::MAX` in turn starts the counter again at 0.

* `Reached` — the pools of the runs in which restored ids and mints stay below a limit;
* **`reached_fresh_iff`** — in all these runs every id that is handed out is new, exactly if the
  limit keeps off `u64::MAX`.
-/

namespace Mlxcel.Paged.PagedBlockPool

open List AssocMap Function

variable {τ : Type}

/-- `swap_remove` at the first position of the block in a free list, whose end stands first here. -/
def takeOut (block : PagedBlockId) : List PagedBlockId → List PagedBlockId
  | [] => []
  | last :: freeList =>
    if block ∈ freeList then (freeList.reverse.replace block last).reverse
    else if last = block then freeList
    else last :: freeList

def restoreBlock (pool : PagedBlockPool τ) (block layerIdx : ℕ) :
    Except RestoreFault Unit × PagedBlockPool τ :=
  let nextBlockId := max pool.nextBlockId (min (block + 1) (2 ^ 64 - 1))
  if pool.layout.numLayers ≤ layerIdx then
    (.error (.pool (.layerOutOfRange layerIdx pool.layout.numLayers)), pool)
  else
    match pool.blocks.lookup block with
    | some record =>
      if record.layerIdx ≠ layerIdx then
        (.error (.wrongLayer block record.layerIdx layerIdx), pool)
      else if record.refcount ≠ 0 then (.error (.inUse block), pool)
      else
        let layer := pool.layers layerIdx
        let pool := pool.setLayer layerIdx { layer with freeList := takeOut block layer.freeList }
        (.ok (), { pool with
          blocks := pool.blocks.insert block { record with refcount := 1 }, nextBlockId })
    | none => (.ok (), { pool with blocks := pool.blocks.insert block ⟨layerIdx, 1⟩, nextBlockId })

/-- One call after the other, up to the first that fails. -/
def restoreEach {α : Type} (f : α → PagedBlockPool τ → Except RestoreFault Unit × PagedBlockPool τ) :
    List α → PagedBlockPool τ → Except RestoreFault Unit × PagedBlockPool τ
  | [], pool => (.ok (), pool)
  | x :: xs, pool =>
    match f x pool with
    | (.error fault, pool) => (.error fault, pool)
    | (.ok (), pool) => restoreEach f xs pool

def restoreLayer (layer : PagedLayerState × ℕ) (pool : PagedBlockPool τ) :
    Except RestoreFault Unit × PagedBlockPool τ :=
  let ⟨⟨blockIds, len, _⟩, layerIdx⟩ := layer
  let required := len ⌈/⌉ pool.layout.blockSize
  if blockIds.length < required then
    (.error (.shortTable layerIdx blockIds.length len required), pool)
  else restoreEach (fun block pool => pool.restoreBlock block layerIdx) blockIds pool

def restoreSequence (pool : PagedBlockPool τ) (state : PagedSequenceState) :
    Except RestoreFault Unit × PagedBlockPool τ :=
  if state.blockSize ≠ pool.layout.blockSize then
    (.error (.blockSizeMismatch state.blockSize pool.layout.blockSize), pool)
  else if state.layers.length ≠ pool.layout.numLayers then
    (.error (.layerCountMismatch state.layers.length pool.layout.numLayers), pool)
  else restoreEach restoreLayer state.layers.zipIdx pool

/-! ## Runs -/

/-- `acquire_block` with its counter of 64 bits, which wraps in a release build. -/
def acquireBlockU64 (pool : PagedBlockPool τ) (layerIdx : ℕ) :
    Except Fault PagedBlockId × PagedBlockPool τ :=
  let ⟨result, pool⟩ := pool.acquireBlock layerIdx
  (result, { pool with nextBlockId := pool.nextBlockId % 2 ^ 64 })

/-- The pools of the runs that restore ids below `limit` and mint no block once the counter has come
to it. All other calls on a pool are sequences of these, and of writes that leave the records, the
free lists and the counter as they are. With `limit = 2 ^ 64` these are all runs. -/
inductive Reached (limit : ℕ) : PagedBlockPool τ → Prop
  | new (layout : PagedKvLayout) (blockBudget : Option ℕ) :
    Reached limit { new layout with blockBudget }
  | acquire {pool} (l : ℕ) : Reached limit pool →
    ((pool.layers l).freeList = [] → pool.nextBlockId < limit) →
    Reached limit (pool.acquireBlockU64 l).2
  | retain {pool} (b : PagedBlockId) : Reached limit pool → Reached limit (pool.retainBlock b).2
  | release {pool} (b : PagedBlockId) : Reached limit pool → Reached limit (pool.releaseBlock b).2
  | storage {pool pool'} : Reached limit pool → SameLedger pool pool' → Reached limit pool'
  | restore {pool} (state : PagedSequenceState) : Reached limit pool →
    (∀ layer ∈ state.layers, ∀ b ∈ layer.blockIds, b < limit) →
    Reached limit (pool.restoreSequence state).2

variable {pool : PagedBlockPool τ}

lemma takeOut_perm (b : PagedBlockId) (freeList : List PagedBlockId) :
    takeOut b freeList ~ freeList.erase b := by
  cases freeList with
  | nil => rfl
  | cons last rest =>
    rw [takeOut]
    split_ifs with hb hlast
    · obtain ⟨older, newer, hrest, hnot⟩ := eq_append_cons_of_mem (mem_reverse.mpr hb)
      have hperm : rest ~ b :: (older ++ newer) :=
        (reverse_perm rest).symm.trans (hrest ▸ perm_middle)
      have hreplaced : rest.reverse.replace b last = older ++ last :: newer := by
        rw [hrest, replace_append, if_neg hnot, replace_cons_self]
      rw [hreplaced]
      refine (reverse_perm _).trans (perm_middle.trans ?_)
      have := (hperm.cons last).erase b
      refine Perm.trans ?_ this.symm
      rw [erase_cons]
      split_ifs with hlast
      · rw [eq_of_beq hlast]
      · simp
    · simp [hlast]
    · rw [erase_of_not_mem (by simp [hb, Ne.symm hlast])]

lemma counted_restoreBlock (h : Counted pool) {b : ℕ} (hb : b < 2 ^ 64 - 1) (l : ℕ) :
    Counted (pool.restoreBlock b l).2 := by
  rw [restoreBlock]
  split_ifs
  · exact h
  split
  · next record hrecord =>
    split_ifs with hl hn
    · exact h
    · exact h
    obtain rfl := not_not.mp hl
    have hperm := takeOut_perm b (pool.layers record.layerIdx).freeList
    refine Recounted.counted (b := b) (recounted_insert h rfl (eq_of_layerOf hrecord)
      (le_max_left _ _) (by simp; omega) (fun l' hne => by simp [setLayer, hne]) ?_ fun b' => ?_)
    · simpa [setLayer] using hperm.nodup_iff.mpr ((h.free_nodup _).erase b)
    · simp [setLayer, hperm.mem_iff, (h.free_nodup _).mem_erase_iff, h.mem_free]
  · next hrecord =>
    refine Recounted.counted (b := b) (recounted_insert h rfl (by simp [layerOf, hrecord])
      (le_max_left _ _) (by simp; omega) (fun _ _ => rfl) (h.free_nodup l) fun b' => ?_)
    rw [h.mem_free]
    split_ifs with hb'
    · rw [hb', hrecord]
      simp
    · rfl

/-- What each call of a list keeps, the whole list keeps, also if it stops at an error. -/
lemma restoreEach_induct {α : Type} {P : PagedBlockPool τ → Prop}
    {f : α → PagedBlockPool τ → Except RestoreFault Unit × PagedBlockPool τ} {xs : List α}
    (hf : ∀ x ∈ xs, ∀ pool, P pool → P (f x pool).2) (h : P pool) : P (restoreEach f xs pool).2 := by
  induction xs generalizing pool with
  | nil => exact h
  | cons x xs ih =>
    rw [forall_mem_cons] at hf
    have hx := hf.1 pool h
    rw [restoreEach]
    split
    · next heq => exact (heq ▸ hx :)
    · next heq =>
      rw [heq] at hx
      exact ih hf.2 hx

/-! ## The counter -/

lemma nextBlockId_retainBlock (b : PagedBlockId) :
    (pool.retainBlock b).2.nextBlockId = pool.nextBlockId := by
  rw [retainBlock]
  split
  · rfl
  · split_ifs <;> rfl

lemma nextBlockId_releaseBlock (b : PagedBlockId) :
    (pool.releaseBlock b).2.nextBlockId = pool.nextBlockId := by
  rw [releaseBlock]
  split
  · rfl
  · split_ifs <;> rfl

/-- The counter moves only if a block is minted, and then by one. -/
lemma nextBlockId_acquireBlock (l : ℕ) :
    (pool.acquireBlock l).2.nextBlockId = pool.nextBlockId ∨
      (pool.layers l).freeList = [] ∧
        (pool.acquireBlock l).2.nextBlockId = pool.nextBlockId + 1 := by
  by_cases hl : pool.layout.numLayers ≤ l
  · rw [acquireBlock, if_pos hl]
    exact .inl rfl
  rw [acquireBlock, if_neg hl]
  cases hfree : (pool.layers l).freeList with
  | cons block rest =>
    left
    dsimp only
    split <;> rfl
  | nil =>
    dsimp only
    split_ifs
    · exact .inl rfl
    · exact .inr ⟨rfl, rfl⟩

lemma nextBlockId_restoreBlock_lt (h : pool.nextBlockId < 2 ^ 64) (b l : ℕ) :
    (pool.restoreBlock b l).2.nextBlockId < 2 ^ 64 := by
  have hmoved : max pool.nextBlockId (min (b + 1) (2 ^ 64 - 1)) < 2 ^ 64 :=
    max_lt h ((min_le_right _ _).trans_lt (by norm_num))
  rw [restoreBlock]
  split_ifs
  · exact h
  split
  · split_ifs
    · exact h
    · exact h
    · exact hmoved
  · exact hmoved

/-- The records and the free lists agree, and the counter is a machine word. -/
structure CountedU64 (pool : PagedBlockPool τ) : Prop where
  counted : Counted pool
  counter_lt : pool.nextBlockId < 2 ^ 64

lemma CountedU64.acquireBlockU64 (h : CountedU64 pool) {l : ℕ}
    (hmint : (pool.layers l).freeList = [] → pool.nextBlockId < 2 ^ 64 - 1) :
    CountedU64 (pool.acquireBlockU64 l).2 := by
  have hlt : (pool.acquireBlock l).2.nextBlockId < 2 ^ 64 := by
    rcases @nextBlockId_acquireBlock _ pool l with heq | ⟨hfree, heq⟩
    · exact heq ▸ h.counter_lt
    · rw [heq]
      exact Nat.add_lt_of_lt_sub (hmint hfree)
  have heq : (pool.acquireBlockU64 l).2 = (pool.acquireBlock l).2 := by
    simp only [PagedBlockPool.acquireBlockU64, Nat.mod_eq_of_lt hlt]
  rw [heq]
  exact ⟨counted_acquireBlock h.counted l, hlt⟩

lemma CountedU64.restoreSequence (h : CountedU64 pool) {state : PagedSequenceState}
    (hids : ∀ layer ∈ state.layers, ∀ b ∈ layer.blockIds, b < 2 ^ 64 - 1) :
    CountedU64 (pool.restoreSequence state).2 := by
  rw [PagedBlockPool.restoreSequence]
  split_ifs
  · exact h
  · exact h
  refine restoreEach_induct (fun layer hlayer pool hpool => ?_) h
  rw [restoreLayer]
  split_ifs
  · exact hpool
  refine restoreEach_induct (fun b hb pool hpool => ?_) hpool
  exact ⟨counted_restoreBlock hpool.counted (hids _ (fst_mem_of_mem_zipIdx hlayer) b hb) _,
    nextBlockId_restoreBlock_lt hpool.counter_lt b _⟩

lemma Reached.countedU64 {limit : ℕ} (hlimit : limit < 2 ^ 64) (h : Reached limit pool) :
    CountedU64 pool := by
  induction h with
  | new layout budget => exact ⟨counted_new layout budget, Nat.two_pow_pos 64⟩
  | acquire l _ hmint ih =>
    exact ih.acquireBlockU64 fun hfree => (hmint hfree).trans_le (Nat.le_pred_of_lt hlimit)
  | retain b _ ih =>
    exact ⟨counted_retainBlock ih.counted b, (nextBlockId_retainBlock b).trans_lt ih.counter_lt⟩
  | release b _ ih =>
    exact ⟨counted_releaseBlock ih.counted b, (nextBlockId_releaseBlock b).trans_lt ih.counter_lt⟩
  | storage _ hsame ih =>
    exact ⟨hsame.counted ih.counted, hsame.nextBlockId_eq.trans_lt ih.counter_lt⟩
  | restore state _ hids ih =>
    exact ih.restoreSequence fun layer hlayer b hb =>
      (hids layer hlayer b hb).trans_le (Nat.le_pred_of_lt hlimit)

/-! ## Fresh ids -/

/-- An acquired id has no references, and a minted one has no record. -/
def AcquiresFresh (pool : PagedBlockPool τ) (l : ℕ) : Prop :=
  ∀ b, (pool.acquireBlockU64 l).1 = .ok b →
    pool.refcount b = 0 ∧ ((pool.layers l).freeList = [] → pool.blocks.lookup b = none)

lemma Counted.acquiresFresh (h : Counted pool) (l : ℕ) : pool.AcquiresFresh l := by
  intro b hb
  change (pool.acquireBlock l).1 = .ok b at hb
  rcases acquireBlock_counted h l with ⟨b', pool', heq, _, hzero, _⟩ | ⟨fault, heq⟩
  · rw [heq] at hb
    obtain rfl : b' = b := by simpa using hb
    refine ⟨hzero, fun hfree => ?_⟩
    rw [acquireBlock, hfree] at heq
    split_ifs at heq
    all_goals simp at heq
    exact heq.1 ▸ lookup_eq_none_of_lt h.id_lt
  · rw [heq] at hb
    simp at hb

/-- A sequence whose one block has the last id. -/
def lastId : PagedSequenceState :=
  ⟨1, [⟨[2 ^ 64 - 1], 1, 0⟩]⟩

/-- The pool after a restore of the last id. -/
def saturated : PagedBlockPool τ := ((new Handoff.oneLayer).restoreSequence lastId).2

lemma reached_saturated {limit : ℕ} (hlimit : 2 ^ 64 ≤ limit) :
    Reached limit (saturated : PagedBlockPool τ) := by
  refine .restore lastId (.new Handoff.oneLayer none) ?_
  have hlast : 2 ^ 64 - 1 < limit := by omega
  simpa [lastId] using hlast

lemma saturated_eq : (saturated : PagedBlockPool τ) = { new Handoff.oneLayer with
    nextBlockId := 2 ^ 64 - 1, blocks := AList.insert (2 ^ 64 - 1) ⟨0, 1⟩ ∅ } := by
  simp [saturated, restoreSequence, restoreEach, restoreLayer, restoreBlock, lastId, new,
    Handoff.oneLayer]

lemma not_acquiresFresh_saturated : ¬ (saturated : PagedBlockPool τ).AcquiresFresh 0 := by
  intro h
  rw [saturated_eq] at h
  have hzero := (h _ rfl).1
  rw [refcount, AList.lookup_insert] at hzero
  exact one_ne_zero hzero

/-- **Acquired ids are fresh** in all runs that stay below the limit exactly if `u64::MAX` is not
below it. -/
theorem reached_fresh_iff (limit : ℕ) :
    (∀ pool : PagedBlockPool τ, Reached limit pool → ∀ l, pool.AcquiresFresh l) ↔
      limit < 2 ^ 64 := by
  constructor
  · intro h
    by_contra hlimit
    exact not_acquiresFresh_saturated (h _ (reached_saturated (not_lt.mp hlimit)) 0)
  · intro hlimit pool h l
    exact (h.countedU64 hlimit).counted.acquiresFresh l

/-- After a restore of `u64::MAX` that id is handed out a second time. -/
theorem saturated_not_fresh : Reached (2 ^ 64) (saturated : PagedBlockPool ℕ) ∧
    ¬ (saturated : PagedBlockPool ℕ).AcquiresFresh 0 :=
  ⟨reached_saturated le_rfl, not_acquiresFresh_saturated⟩

end Mlxcel.Paged.PagedBlockPool
