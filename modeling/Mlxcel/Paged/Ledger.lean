import Mlxcel.Paged.References

/-!
# The ledger of a pool

The ledger of a pool are its counts, its free lists and its next id. `Counted pool` says that these
agree with each other. Unlike `Ok` it says nothing about who holds the references, so that it holds
after every call on every state: also when a table names a block that was freed, or one that it has
no reference to.

Calls on the storage leave the ledger as it is (`SameLedger`), and everything else is a sequence of
the three operations on counts. `Sound` adds to it that paged sequences have their tables.
-/

namespace Mlxcel.Paged

open AssocMap CachePool

variable {τ : Type}

namespace PagedBlockPool

/-! ## Storage -/

/-- The ledgers of the two pools are the same. -/
structure SameLedger (pool pool' : PagedBlockPool τ) : Prop where
  layout_eq : pool'.layout = pool.layout
  blockBudget_eq : pool'.blockBudget = pool.blockBudget
  nextBlockId_eq : pool'.nextBlockId = pool.nextBlockId
  blocks_eq : pool'.blocks = pool.blocks
  freeList_eq : ∀ l, (pool'.layers l).freeList = (pool.layers l).freeList

namespace SameLedger

variable {pool pool' pool'' : PagedBlockPool τ}

lemma refl (pool : PagedBlockPool τ) : SameLedger pool pool :=
  ⟨rfl, rfl, rfl, rfl, fun _ => rfl⟩

section

variable (h : SameLedger pool pool')

include h

lemma trans (h' : SameLedger pool' pool'') : SameLedger pool pool'' :=
  ⟨h'.layout_eq.trans h.layout_eq, h'.blockBudget_eq.trans h.blockBudget_eq,
    h'.nextBlockId_eq.trans h.nextBlockId_eq, h'.blocks_eq.trans h.blocks_eq,
    fun l => (h'.freeList_eq l).trans (h.freeList_eq l)⟩

lemma counted (hpool : Counted pool) : Counted pool' := by
  refine ⟨?_, ?_, ?_⟩
  · intro b record hb
    rw [h.blocks_eq] at hb
    rw [h.nextBlockId_eq]
    exact hpool.id_lt hb
  · intro l
    rw [h.freeList_eq]
    exact hpool.free_nodup l
  · intro l b
    rw [h.freeList_eq, h.blocks_eq]
    exact hpool.mem_free

lemma refcount_eq (b : PagedBlockId) :
    pool'.refcount b = pool.refcount b := by rw [refcount, h.blocks_eq, refcount]

lemma layerOf_eq (b : PagedBlockId) :
    pool'.layerOf b = pool.layerOf b := by rw [layerOf, h.blocks_eq, layerOf]

end

end SameLedger

lemma sameLedger_setLayer {pool : PagedBlockPool τ} {l : ℕ} {layer : LayerPool τ}
    (h : layer.freeList = (pool.layers l).freeList) : SameLedger pool (pool.setLayer l layer) := by
  refine ⟨rfl, rfl, rfl, rfl, fun l' => ?_⟩
  by_cases hl : l' = l
  · rw [hl]
    simp only [setLayer, Function.update_self]
    exact h
  · simp only [setLayer, Function.update_of_ne hl]

lemma freeList_takeRow (layer : LayerPool τ) : (takeRow layer).2.freeList = layer.freeList := by
  rw [takeRow]
  split <;> rfl

lemma sameLedger_updateRow (pool : PagedBlockPool τ) (l row slotStart : ℕ) (k v : List τ) :
    SameLedger pool (pool.updateRow l row slotStart k v).2 := by
  rw [updateRow]
  split_ifs
  · exact .refl pool
  · exact sameLedger_setLayer rfl

section Storage

variable [Zero τ] (pool : PagedBlockPool τ)

lemma sameLedger_growLayer (l slabs : ℕ) (m : PagedPoolMeta) :
    SameLedger pool (pool.growLayer l slabs m) := sameLedger_setLayer rfl

lemma sameLedger_createLayerPool (l minCapacity nKvHeads headDim dtype : ℕ) :
    SameLedger pool (pool.createLayerPool l minCapacity nKvHeads headDim dtype).2 := by
  rw [createLayerPool]
  split_ifs
  · exact .refl pool
  · exact sameLedger_growLayer pool _ _ _

lemma sameLedger_ensureLayerCapacity (l minCapacity : ℕ) :
    SameLedger pool (pool.ensureLayerCapacity l minCapacity).2 := by
  rw [ensureLayerCapacity]
  split
  · exact .refl pool
  · split_ifs
    · exact .refl pool
    · exact sameLedger_growLayer pool _ _ _

lemma sameLedger_assignRow (b l : ℕ) : SameLedger pool (pool.assignRow b l).2 := by
  have htaken : SameLedger pool (pool.setLayer l (takeRow (pool.layers l)).2) :=
    sameLedger_setLayer (freeList_takeRow _)
  have hensured := htaken.trans
    (sameLedger_ensureLayerCapacity (pool.setLayer l (takeRow (pool.layers l)).2) l
      ((takeRow (pool.layers l)).1 + 1))
  rw [assignRow]
  split
  · exact .refl pool
  · simp only
    split_ifs
    · generalize (pool.setLayer l (takeRow (pool.layers l)).2).ensureLayerCapacity l
        ((takeRow (pool.layers l)).1 + 1) = out at hensured ⊢
      obtain ⟨_ | _, pool'⟩ := out
      · exact hensured
      · exact hensured.trans (sameLedger_setLayer rfl)
    · exact htaken.trans (sameLedger_setLayer rfl)

lemma sameLedger_captureMeta (l nKvHeads headDim dtype : ℕ) :
    SameLedger pool (pool.captureMeta l nKvHeads headDim dtype).2 := by
  rw [captureMeta]
  split
  · split_ifs <;> exact .refl pool
  · exact sameLedger_createLayerPool pool _ _ _ _ _

lemma sameLedger_presizeForSpan (l : ℕ) (blockIds : List PagedBlockId)
    (nKvHeads headDim dtype : ℕ) :
    SameLedger pool (pool.presizeForSpan l blockIds nKvHeads headDim dtype).2 := by
  rw [presizeForSpan]
  split_ifs
  · exact .refl pool
  split
  · split_ifs
    · exact .refl pool
    · exact sameLedger_ensureLayerCapacity pool _ _
  · exact sameLedger_createLayerPool pool _ _ _ _ _

/-- **A write into a block** leaves the ledger, whatever the block is. -/
theorem sameLedger_writeBlock (b l slotStart : ℕ) (k v : MlxArray τ) :
    SameLedger pool (pool.writeBlock b l slotStart k v).2 := by
  by_cases hlayer : pool.layout.numLayers ≤ l
  · rw [writeBlock, if_pos hlayer]
    exact .refl pool
  by_cases hrecord : pool.blocks.lookup b = none
  · rw [writeBlock, if_neg hlayer, if_pos hrecord]
    exact .refl pool
  rw [writeBlock, if_neg hlayer, if_neg hrecord]
  split
  · exact .refl pool
  · exact .refl pool
  · rename_i kTokens nSlots nKvHeads headDim vTokens vGeom _ _
    simp only
    split_ifs
    iterate 3 exact .refl pool
    have hcaptured := sameLedger_captureMeta pool l nKvHeads headDim k.dtype
    generalize pool.captureMeta l nKvHeads headDim k.dtype = captured at hcaptured ⊢
    obtain ⟨_ | _, pool₁⟩ := captured
    · exact hcaptured
    have hassigned := hcaptured.trans (sameLedger_assignRow pool₁ b l)
    simp only
    generalize pool₁.assignRow b l = assigned at hassigned ⊢
    obtain ⟨_ | row, pool₂⟩ := assigned
    · exact hassigned
    · exact hassigned.trans (sameLedger_updateRow pool₂ _ _ _ _ _)

end Storage

/-! ## Every call keeps the ledger in order -/

section Counted

variable {pool : PagedBlockPool τ}

lemma counted_acquireBlock (h : Counted pool) (l : ℕ) : Counted (pool.acquireBlock l).2 := by
  rcases acquireBlock_counted h l with ⟨b, pool', heq, hacquired, _⟩ | ⟨fault, heq⟩
  · rw [heq]
    exact hacquired.counted
  · rw [heq]
    exact h

lemma counted_retainBlock (h : Counted pool) (b : PagedBlockId) :
    Counted (pool.retainBlock b).2 := by
  rcases retainBlock_counted h b with ⟨_, pool', heq, hretained⟩ | ⟨_, fault, heq⟩
  · rw [heq]
    exact hretained.counted
  · rw [heq]
    exact h

lemma counted_releaseBlock (h : Counted pool) (b : PagedBlockId) :
    Counted (pool.releaseBlock b).2 := by
  rcases releaseBlock_counted h b with ⟨_, pool', heq, hreleased⟩ | ⟨_, fault, heq⟩
  · rw [heq]
    exact hreleased.counted
  · rw [heq]
    exact h

lemma counted_acquireBlocks (l n : ℕ) (h : Counted pool) (blockIds : List PagedBlockId) :
    Counted (acquireBlocks l n pool blockIds).2.1 := by
  induction n generalizing pool blockIds with
  | zero => exact h
  | succ n ih =>
    have hacquired := counted_acquireBlock h l
    rw [acquireBlocks]
    generalize pool.acquireBlock l = out at hacquired ⊢
    obtain ⟨_ | b, pool'⟩ := out
    · exact hacquired
    · exact ih hacquired _

lemma counted_appendTokens (h : Counted pool) (state : PagedSequenceState) (l n : ℕ) :
    Counted (pool.appendTokens state l n).2.1 := by
  rw [appendTokens]
  split
  · exact h
  · rename_i layer _
    split_ifs
    · exact h
    have hacquired := counted_acquireBlocks l
      ((layer.len + n) % 2 ^ 64 ⌈/⌉ pool.layout.blockSize - layer.blockIds.length) h layer.blockIds
    simp only
    generalize acquireBlocks l ((layer.len + n) % 2 ^ 64 ⌈/⌉ pool.layout.blockSize -
      layer.blockIds.length) pool layer.blockIds = out at hacquired ⊢
    obtain ⟨_ | _, pool', blockIds⟩ := out
    · exact hacquired
    · exact hacquired

lemma counted_releaseTail (n : ℕ) (h : Counted pool) (blockIds : List PagedBlockId) :
    Counted (releaseTail n pool blockIds).2.1 := by
  induction n generalizing pool blockIds with
  | zero => exact h
  | succ n ih =>
    rw [releaseTail]
    split
    · exact h
    · rename_i block _
      have hreleased := counted_releaseBlock h block
      generalize pool.releaseBlock block = out at hreleased ⊢
      obtain ⟨_ | _, pool'⟩ := out
      · exact hreleased
      · exact ih hreleased _

section

variable (h : Counted pool)

include h

lemma counted_trimTokens (state : PagedSequenceState) (l n : ℕ) :
    Counted (pool.trimTokens state l n).2.1 := by
  rw [trimTokens]
  split
  · exact h
  · simp only
    split_ifs
    · exact h
    all_goals
      generalize hout : releaseTail _ pool _ = out
      have hreleased : Counted out.2.1 := hout ▸ counted_releaseTail _ h _
      obtain ⟨_ | _, pool', blockIds⟩ := out
      all_goals exact hreleased

lemma counted_releaseLayers (layers : List PagedLayerState) :
    Counted (pool.releaseLayers layers).2.1 := by
  induction layers generalizing pool with
  | nil => exact h
  | cons layer layers ih =>
    have hreleased := counted_releaseTail layer.blockIds.length h layer.blockIds
    rw [releaseLayers]
    generalize releaseTail layer.blockIds.length pool layer.blockIds = out at hreleased ⊢
    obtain ⟨_ | _, pool', blockIds⟩ := out
    · exact hreleased
    · exact ih hreleased

lemma counted_releaseSequence (state : PagedSequenceState) :
    Counted (pool.releaseSequence state).2.1 := counted_releaseLayers h state.layers

lemma counted_retainAll (blocks : List PagedBlockId) :
    Counted (retainAll pool blocks).2 := by
  induction blocks generalizing pool with
  | nil => exact h
  | cons b blocks ih =>
    have hretained := counted_retainBlock h b
    rw [retainAll]
    generalize pool.retainBlock b = out at hretained ⊢
    obtain ⟨_ | _, pool'⟩ := out
    · exact hretained
    · exact ih hretained

lemma counted_releaseAll (blocks : List PagedBlockId) :
    Counted (releaseAll pool blocks).2 := by
  induction blocks generalizing pool with
  | nil => exact h
  | cons b blocks ih =>
    have hreleased := counted_releaseBlock h b
    rw [releaseAll]
    generalize pool.releaseBlock b = out at hreleased ⊢
    obtain ⟨_ | _, pool'⟩ := out
    all_goals exact ih hreleased

lemma counted_pinBlocks (retained : List PagedBlockId) :
    Counted (pinBlocks pool retained).2 := by
  have hretained := counted_retainAll h retained
  rw [pinBlocks]
  generalize retainAll pool retained = out at hretained ⊢
  obtain ⟨_ | failed, pool'⟩ := out
  · exact hretained
  · exact counted_releaseAll hretained _

end

end Counted

section CountedStorage

variable [Zero τ] {pool : PagedBlockPool τ}

lemma counted_writeBlock (h : Counted pool) (b l slotStart : ℕ) (k v : MlxArray τ) :
    Counted (pool.writeBlock b l slotStart k v).2 :=
  (sameLedger_writeBlock pool b l slotStart k v).counted h

lemma counted_copyOnWriteBlock (h : Counted pool) (l : ℕ) (src : PagedBlockId) :
    Counted (pool.copyOnWriteBlock l src).2 := by
  rw [copyOnWriteBlock]
  split
  · exact h
  · exact h
  · rename_i m row _ _
    split
    · rename_i kRow vRow _ _
      have hacquired := counted_acquireBlock h l
      generalize pool.acquireBlock l = out at hacquired ⊢
      obtain ⟨_ | fresh, pool₁⟩ := out
      · exact hacquired
      have hwritten := counted_writeBlock hacquired fresh l 0
        (.ofRow m.nKvHeads m.headDim m.dtype kRow) (.ofRow m.nKvHeads m.headDim m.dtype vRow)
      simp only
      generalize pool₁.writeBlock fresh l 0 (.ofRow m.nKvHeads m.headDim m.dtype kRow)
        (.ofRow m.nKvHeads m.headDim m.dtype vRow) = out at hwritten ⊢
      obtain ⟨_ | _, pool₂⟩ := out
      · exact hwritten
      have hreleased := counted_releaseBlock hwritten src
      simp only
      generalize pool₂.releaseBlock src = out at hreleased ⊢
      obtain ⟨_ | _, pool₃⟩ := out
      all_goals exact hreleased
    · exact h

lemma counted_writeWindow (h : Counted pool) (state : PagedSequenceState)
    (l nKvHeads headDim : ℕ) (k v : MlxArray τ) (blockIndex : ℕ) (w : Window) :
    Counted (pool.writeWindow state l nKvHeads headDim k v blockIndex w).2.1 := by
  rw [writeWindow]
  split
  · exact h
  split
  · exact h
  rename_i block _
  split_ifs
  · have hcopied := counted_copyOnWriteBlock h l block
    generalize pool.copyOnWriteBlock l block = out at hcopied ⊢
    obtain ⟨_ | fresh, pool₁⟩ := out
    · exact hcopied
    · exact counted_writeBlock hcopied _ _ _ _ _
  · exact counted_writeBlock h _ _ _ _ _

lemma counted_writeWindows (l nKvHeads headDim : ℕ) (k v : MlxArray τ)
    (windows : List (ℕ × Window)) (h : Counted pool) (state : PagedSequenceState) :
    Counted (writeWindows l nKvHeads headDim k v windows pool state).2.1 := by
  induction windows generalizing pool state with
  | nil => exact h
  | cons window windows ih =>
    have hwritten := counted_writeWindow h state l nKvHeads headDim k v window.1 window.2
    rw [writeWindows]
    generalize pool.writeWindow state l nKvHeads headDim k v window.1 window.2 = out at hwritten ⊢
    obtain ⟨_ | _, pool₁, state₁⟩ := out
    · exact hwritten
    · exact ih hwritten state₁

lemma counted_writeSpan (h : Counted pool) (state : PagedSequenceState) (l nKvHeads headDim : ℕ)
    (firstAbs lastAbs : ℤ) (k v : MlxArray τ) :
    Counted (pool.writeSpan state l nKvHeads headDim firstAbs lastAbs k v).2.1 := by
  rw [writeSpan]
  split
  · simp only
    split_ifs
    · exact h
    generalize hout : pool.presizeForSpan l _ nKvHeads headDim k.dtype = out
    have hsized : Counted out.2 := hout ▸ (sameLedger_presizeForSpan pool _ _ _ _ _).counted h
    obtain ⟨_ | _, pool₁⟩ := out
    · exact hsized
    · exact counted_writeWindows _ _ _ _ _ _ hsized _
  · exact h

lemma counted_writePrefill (h : Counted pool) (state : PagedSequenceState) (l : ℕ)
    (k v : MlxArray τ) : Counted (pool.writePrefill state l k v).2.1 := by
  by_cases hlayer : pool.layout.numLayers ≤ l
  · rw [writePrefill, if_pos hlayer]
    exact h
  rw [writePrefill, if_neg hlayer]
  split
  · rename_i batch nKvHeads nNew headDim _
    split_ifs
    iterate 4 exact h
    split
    · exact h
    · have happended := counted_appendTokens h state l nNew
      generalize pool.appendTokens state l nNew = out at happended ⊢
      obtain ⟨_ | _, pool₁, state₁⟩ := out
      · exact happended
      · exact counted_writeSpan happended _ _ _ _ _ _ _ _
  · exact h

end CountedStorage

end PagedBlockPool

open PagedBlockPool

namespace CachePool

/-- The pool of a cache pool, if there is one, has its ledger in order. -/
def Counted (c : CachePool τ) : Prop := ∀ pool ∈ c.pagedPool, pool.Counted

/-- A paged sequence has its block table, and there is a pool. -/
def Ready (c : CachePool τ) : Prop :=
  ∀ id sequence, c.active.lookup id = some sequence → sequence.backend = .pagedKvCache →
    sequence.paged.isSome ∧ c.pagedPool.isSome

/-- The ledger is in order, and every paged sequence has a table. -/
def Sound (c : CachePool τ) : Prop := c.Counted ∧ c.Ready

variable {c c' : CachePool τ} {pool : PagedBlockPool τ} {id : SequenceId}
  {sequence : SequenceCacheSet}

lemma counted_of_pool (hpool : c.pagedPool = some pool) (h : pool.Counted) : c.Counted := by
  intro pool' hpool'
  rw [hpool, Option.mem_some_iff] at hpool'
  exact hpool' ▸ h

lemma Ready.mono (h : c.Ready) (hactive : c'.active = c.active)
    (hpool : c.pagedPool.isSome → c'.pagedPool.isSome) : c'.Ready := by
  intro id sequence hlookup hbackend
  rw [hactive] at hlookup
  exact (h id sequence hlookup hbackend).imp_right hpool

lemma Ready.insert (h : c.Ready) (hactive : c'.active = c.active.insert id sequence)
    (hpool : c.pagedPool.isSome → c'.pagedPool.isSome)
    (hsequence : sequence.backend = .pagedKvCache →
      sequence.paged.isSome ∧ c'.pagedPool.isSome) : c'.Ready := by
  intro id' sequence' hlookup hbackend
  rw [hactive] at hlookup
  rcases lookup_insert_eq_some hlookup with ⟨_, rfl⟩ | ⟨_, hold⟩
  · exact hsequence hbackend
  · exact (h id' sequence' hold hbackend).imp_right hpool

lemma Ready.erase (h : c.Ready) (hactive : c'.active = c.active.erase id)
    (hpool : c.pagedPool.isSome → c'.pagedPool.isSome) : c'.Ready := by
  intro id' sequence' hlookup hbackend
  rw [hactive, lookup_erase_eq_some] at hlookup
  exact (h id' sequence' hlookup.2 hbackend).imp_right hpool

namespace Sound

/-- Another pool with its ledger in order, under the same sequences. -/
lemma setPool (h : c.Sound) (hcounted : pool.Counted) (hactive : c'.active = c.active)
    (hpool : c'.pagedPool = some pool) : c'.Sound :=
  ⟨counted_of_pool hpool hcounted, h.2.mono hactive fun _ => by rw [hpool]; rfl⟩

/-- A sequence that has a table if it is paged, next to a pool with its ledger in order. -/
lemma insert (h : c.Sound) (hcounted : pool.Counted)
    (hactive : c'.active = c.active.insert id sequence) (hpool : c'.pagedPool = some pool)
    (hpaged : sequence.backend = .pagedKvCache → sequence.paged.isSome) : c'.Sound := by
  have hsome : c'.pagedPool.isSome := by rw [hpool]; rfl
  exact ⟨counted_of_pool hpool hcounted, h.2.insert hactive (fun _ => hsome) fun hbackend =>
    ⟨hpaged hbackend, hsome⟩⟩

lemma erase (h : c.Sound) (hcounted : c'.Counted) (hactive : c'.active = c.active.erase id)
    (hpool : c.pagedPool.isSome → c'.pagedPool.isSome) : c'.Sound :=
  ⟨hcounted, h.2.erase hactive hpool⟩

end Sound

section

variable (h : c.Sound)

include h

lemma sound_setPagedBlockBudget (maxBlocks : Option ℕ) :
    (c.setPagedBlockBudget maxBlocks).Sound := by
  refine ⟨fun pool hpool => ?_, h.2.mono rfl fun hpool => by
    simpa [setPagedBlockBudget] using hpool⟩
  obtain ⟨pool', hpool', rfl⟩ := Option.map_eq_some_iff.mp hpool
  have hcounted := h.1 pool' hpool'
  exact ⟨hcounted.id_lt, hcounted.free_nodup, hcounted.mem_free⟩

/-- A pool is there afterwards, the one of before or a new one. -/
lemma ensurePagedPool_sound (layout : PagedKvLayout) :
    ∃ pool, (c.ensurePagedPool layout).2.pagedPool = some pool ∧ pool.Counted ∧
      (c.ensurePagedPool layout).2.active = c.active := by
  rw [ensurePagedPool]
  split
  · rename_i pool hpool
    exact ⟨pool, hpool, h.1 pool hpool, rfl⟩
  · exact ⟨_, rfl, counted_new layout c.pagedBlockBudget, rfl⟩

lemma sound_allocateWithLayout (layout : SequenceStateLayout) :
    (c.allocateWithLayout layout).2.Sound := by
  rw [allocateWithLayout]
  split_ifs
  · exact h
  simp only
  split
  · exact ⟨h.1, h.2.insert rfl (fun hpool => hpool) (by simp)⟩
  · exact ⟨h.1, h.2.insert rfl (fun hpool => hpool) (by simp)⟩
  · exact h
  · rename_i pagedLayout _ _
    obtain ⟨pool, hpool, hcounted, hactive⟩ :=
      ensurePagedPool_sound (c := { c with nextId := c.nextId + 1 }) h pagedLayout
    generalize ({ c with nextId := c.nextId + 1 } : CachePool τ).ensurePagedPool pagedLayout = out
      at hpool hactive ⊢
    obtain ⟨_ | _, c'⟩ := out
    · exact h.setPool hcounted hactive hpool
    · have hc' : c'.Sound := h.setPool hcounted hactive hpool
      exact hc'.insert hcounted rfl hpool fun _ => rfl

lemma sound_withPoolAndState {α : Type} {f : PagedBlockPool τ → PagedSequenceState →
      Except Fault α × PagedBlockPool τ × PagedSequenceState}
    (hf : ∀ pool state, pool.Counted → (f pool state).2.1.Counted) (id : SequenceId) :
    (c.withPoolAndState id f).2.Sound := by
  rcases c.withPoolAndState_cases id f with ⟨fault, heq⟩ | ⟨pool, s, state, hpool, -, -, heq⟩
  · rw [heq]
    exact h
  · rw [heq]
    exact h.insert (hf pool state (h.1 pool hpool)) rfl rfl fun _ => rfl

lemma sound_release (id : SequenceId) : (c.release id).Sound := by
  rw [release]
  split
  · exact h
  simp only
  split
  · rename_i pool state hpool _
    exact h.erase (counted_of_pool rfl (counted_releaseSequence (h.1 pool hpool) state)) rfl
      fun _ => rfl
  · exact h.erase h.1 rfl fun hpool => hpool

lemma sound_detachPaged (id : SequenceId) : (c.detachPaged id).2.Sound := by
  rw [detachPaged]
  split
  · exact h
  rename_i sequence hlookup
  split
  · rename_i pagedState _ _ _
    simp only
    split_ifs
    · exact h
    split
    · exact h.erase h.1 rfl fun hpool => hpool
    · rename_i pool hpool
      have hpinned := counted_pinBlocks (h.1 pool hpool) pagedState.blockIds
      generalize pinBlocks pool pagedState.blockIds = out at hpinned ⊢
      obtain ⟨_ | _, pool'⟩ := out
      · -- the sequence is put back
        have herased : ({ c with active := c.active.erase id } : CachePool τ).Sound :=
          h.erase h.1 rfl fun hsome => hsome
        exact herased.insert hpinned rfl rfl fun hbackend => (h.2 id sequence hlookup hbackend).1
      · exact h.erase (counted_of_pool rfl hpinned) rfl fun _ => rfl
  · exact h

variable (set : DetachedPagedCacheSet)

lemma sound_releaseDetachedPaged : (c.releaseDetachedPaged set).2.Sound := by
  rw [releaseDetachedPaged]
  split
  · exact h
  split
  · exact h
  · rename_i pool hpool
    exact h.setPool (counted_releaseAll (h.1 pool hpool) _) rfl rfl

lemma sound_adoptPagedPreserving : (c.adoptPagedPreserving set).2.Sound := by
  rw [adoptPagedPreserving]
  split_ifs
  · exact h
  · exact h
  · exact h
  · refine h.insert (counted_releaseAll ?_ _) rfl rfl fun _ => rfl
    cases hpool : c.pagedPool with
    | none => exact counted_new set.pagedLayout none
    | some pool => exact h.1 pool hpool

lemma sound_adoptPaged : (c.adoptPaged set).2.Sound := by
  have hadopted := sound_adoptPagedPreserving h set
  rw [adoptPaged]
  generalize c.adoptPagedPreserving set = out at hadopted ⊢
  obtain ⟨_ | _, c'⟩ := out
  · exact sound_releaseDetachedPaged hadopted set
  · exact hadopted

lemma sound_cloneDetachedPagedPrefix (targetTokens : ℕ) (bareHandles : Bool) :
    (c.cloneDetachedPagedPrefix set targetTokens bareHandles).2.Sound := by
  rw [cloneDetachedPagedPrefix]
  simp only
  split_ifs
  iterate 6 exact h
  · split
    · exact h
    · exact h
  split
  · exact h
  rename_i pool hpool
  split
  · exact h
  rename_i pagedState _
  have hretained := counted_retainAll (h.1 pool hpool)
    (pagedState.blockIds.flatMap fun block => [block, block])
  generalize retainAll pool (pagedState.blockIds.flatMap fun block => [block, block]) = out
    at hretained ⊢
  obtain ⟨_ | _, pool'⟩ := out
  · exact h.setPool hretained rfl rfl
  · exact h.setPool (counted_releaseAll hretained _) rfl rfl

lemma sound_trimDetachedPagedTo
    (targetTokens : ℕ) : (c.trimDetachedPagedTo set targetTokens).2.1.Sound := by
  rw [trimDetachedPagedTo]
  split_ifs
  iterate 6 exact h
  split
  · exact h
  · exact h
  · rename_i retained pool _ hpool
    exact h.setPool (counted_releaseAll (h.1 pool hpool) _) rfl rfl

end

end CachePool

namespace World

/-- **One call** keeps the ledger and the tables in order, whether it succeeds or not. -/
theorem sound_step [Zero τ] {w : World τ} (h : w.cache.Sound) (op : Op τ) :
    (w.step op).2.cache.Sound := by
  cases op with
  | setPagedBlockBudget maxBlocks => exact sound_setPagedBlockBudget h maxBlocks
  | allocateWithLayout layout => exact sound_allocateWithLayout h layout
  | appendPagedTokens id l n =>
    exact sound_withPoolAndState h (fun _ _ hp => counted_appendTokens hp _ _ _) id
  | trimPagedTokens id l n | rewindPagedTokens id l n =>
    exact sound_withPoolAndState h (fun _ _ hp => counted_trimTokens hp _ _ _) id
  | writePrefill id l k v =>
    exact sound_withPoolAndState h (fun _ _ hp => counted_writePrefill hp _ _ _ _) id
  | release id => exact sound_release h id
  | detachPaged id =>
    have hdetached := sound_detachPaged h id
    rw [step]
    generalize w.cache.detachPaged id = out at hdetached ⊢
    obtain ⟨_ | _, cache⟩ := out
    · exact hdetached
    · exact hdetached
  | adoptPaged handle =>
    rw [step]
    split
    · exact h
    · exact sound_adoptPaged h _
  | cloneDetachedPagedPrefix handle targetTokens bareHandles =>
    rw [step]
    split
    · exact h
    · rename_i set _
      have hcloned := sound_cloneDetachedPagedPrefix h set targetTokens bareHandles
      generalize w.cache.cloneDetachedPagedPrefix set targetTokens bareHandles = out at hcloned ⊢
      obtain ⟨_ | _, cache⟩ := out
      · exact hcloned
      · exact hcloned
  | trimDetachedPagedTo handle targetTokens =>
    rw [step]
    split
    · exact h
    · exact sound_trimDetachedPagedTo h _ targetTokens
  | releaseDetachedPaged handle =>
    rw [step]
    split
    · exact h
    · exact sound_releaseDetachedPaged h _

end World

end Mlxcel.Paged
