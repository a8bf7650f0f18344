import Mlxcel.Paged.Pool
import Mlxcel.Lib.AssocMap

/-!
# The counts of a pool

`Counted pool` says that the records, the free lists and the next id of a pool agree with each
other: ids below the next one were minted, and the free list of a layer has the blocks of that layer
without a reference, each of them once. It says nothing about who holds the references.

The three operations on counts change the count of one block (`Recounted`), and leave the storage
unless the last reference goes. Everything else on counts is a sequence of these.
-/

namespace Mlxcel.Paged

open Function List AssocMap Option

variable {τ : Type}

namespace PagedBlockPool

/-- The layer a block was minted for. -/
def layerOf (pool : PagedBlockPool τ) (b : PagedBlockId) : Option ℕ :=
  (pool.blocks.lookup b).map PagedBlockRecord.layerIdx

variable {pool : PagedBlockPool τ}

lemma refcount_of_lookup {b : PagedBlockId} {record : PagedBlockRecord}
    (h : pool.blocks.lookup b = some record) : pool.refcount b = record.refcount := by
  rw [refcount, h]
  rfl

structure Counted (pool : PagedBlockPool τ) : Prop where
  id_lt : ∀ {b record}, pool.blocks.lookup b = some record → b < pool.nextBlockId
  free_nodup : ∀ l, (pool.layers l).freeList.Nodup
  mem_free : ∀ {l b}, b ∈ (pool.layers l).freeList ↔ pool.blocks.lookup b = some ⟨l, 0⟩

lemma counted_new (layout : PagedKvLayout) (budget : Option ℕ) :
    Counted ({ new layout with blockBudget := budget } : PagedBlockPool τ) := by
  refine ⟨?_, fun _ => nodup_nil, ?_⟩
  · intro b record h
    simp [new] at h
  · intro l b
    simp [new]

/-! ## Counts -/

/-- The count of one block has changed to `n`. -/
structure Recounted (pool pool' : PagedBlockPool τ) (b : PagedBlockId) (n : ℕ) : Prop where
  counted : Counted pool'
  refcount_eq : ∀ b', pool'.refcount b' = if b' = b then n else pool.refcount b'
  layerOf_eq : ∀ {b' l}, pool.layerOf b' = some l → pool'.layerOf b' = some l

lemma recounted_insert {pool' : PagedBlockPool τ} (h : Counted pool) {b lb n : ℕ}
    (hblocks : pool'.blocks = pool.blocks.insert b ⟨lb, n⟩) (hlb : ∀ l ∈ pool.layerOf b, l = lb)
    (hnext : pool.nextBlockId ≤ pool'.nextBlockId) (hb : b < pool'.nextBlockId)
    (hothers : ∀ l ≠ lb, (pool'.layers l).freeList = (pool.layers l).freeList)
    (hnodup : (pool'.layers lb).freeList.Nodup)
    (hmem : ∀ b', b' ∈ (pool'.layers lb).freeList ↔
      if b' = b then n = 0 else pool.blocks.lookup b' = some ⟨lb, 0⟩) :
    Recounted pool pool' b n := by
  have hlookup : ∀ b', pool'.blocks.lookup b'
      = if b' = b then some ⟨lb, n⟩ else pool.blocks.lookup b' := by
    intro b'
    rw [hblocks, lookup_insert_eq]
  refine ⟨⟨?_, ?_, ?_⟩, ?_, ?_⟩
  · intro b' record hrecord
    rw [hlookup] at hrecord
    split_ifs at hrecord with hb'
    · exact hb' ▸ hb
    · exact (h.id_lt hrecord).trans_le hnext
  · intro l
    by_cases hl : l = lb
    · exact hl ▸ hnodup
    · exact hothers l hl ▸ h.free_nodup l
  · intro l b'
    by_cases hl : l = lb
    · rw [hl, hmem, hlookup]
      split_ifs <;> simp
    · rw [hothers l hl, h.mem_free, hlookup]
      split_ifs with hb'
      · have hne : pool.blocks.lookup b ≠ some ⟨l, 0⟩ := fun hfree =>
          hl (hlb l (by rw [layerOf, hfree]; rfl))
        rw [hb']
        exact iff_of_false hne (by simp [Ne.symm hl])
      · rfl
  · intro b'
    rw [refcount, hlookup]
    split_ifs <;> rfl
  · intro b' l hl
    rw [layerOf, hlookup]
    split_ifs with hb'
    · rw [hb'] at hl
      rw [hlb l hl]
      rfl
    · exact hl

/-- The storage is as before, except that a block without references has given its row back. -/
structure Adjusted (pool pool' : PagedBlockPool τ) (b : PagedBlockId) (n : ℕ) : Prop
    extends Recounted pool pool' b n where
  layout_eq : pool'.layout = pool.layout
  layers_eq : ∀ l, pool'.layers l =
    { (if n = 0 ∧ pool.layerOf b = some l then freeBlock (pool.layers l) b else pool.layers l) with
      freeList := (pool'.layers l).freeList }

lemma eq_of_layerOf {b : PagedBlockId} {record : PagedBlockRecord}
    (hrecord : pool.blocks.lookup b = some record) : ∀ l ∈ pool.layerOf b, l = record.layerIdx := by
  intro l hl
  rw [layerOf, hrecord] at hl
  exact (some.inj hl).symm

/-- The count of a block changes and stays positive. -/
lemma adjusted_insert (h : Counted pool) {b n : ℕ} {record : PagedBlockRecord}
    (hrecord : pool.blocks.lookup b = some record) (hzero : record.refcount ≠ 0) (hn : n ≠ 0) :
    Adjusted pool
      { pool with blocks := pool.blocks.insert b { record with refcount := n } } b n := by
  refine ⟨recounted_insert h rfl (eq_of_layerOf hrecord) le_rfl (h.id_lt hrecord) (fun _ _ => rfl)
    (h.free_nodup _) fun b' => ?_, rfl, fun l => by rw [if_neg fun hlast => hn hlast.1]⟩
  rw [h.mem_free]
  split_ifs with hb'
  · rw [hb', hrecord]
    refine iff_of_false (fun heq => ?_) hn
    exact hzero (congrArg PagedBlockRecord.refcount (some.inj heq))
  · rfl

/-- **Acquiring** gives a block without references or changes nothing. -/
theorem acquireBlock_counted (h : Counted pool) (l : ℕ) :
    (∃ b pool', pool.acquireBlock l = (.ok b, pool') ∧ Adjusted pool pool' b 1 ∧
      pool.refcount b = 0 ∧ pool'.layerOf b = some l) ∨
      ∃ fault, pool.acquireBlock l = (.error fault, pool) := by
  by_cases hlayer : pool.layout.numLayers ≤ l
  · exact .inr ⟨_, by rw [acquireBlock, if_pos hlayer]⟩
  rw [acquireBlock, if_neg hlayer]
  cases hfree : (pool.layers l).freeList with
  | cons b rest =>
    have hrecord : pool.blocks.lookup b = some ⟨l, 0⟩ :=
      h.mem_free.mp (hfree ▸ mem_cons_self)
    have hnodup := h.free_nodup l
    rw [hfree, nodup_cons] at hnodup
    simp only [setLayer, hrecord]
    refine .inl ⟨b, _, rfl, ?_, refcount_of_lookup hrecord, ?_⟩
    · refine ⟨recounted_insert h rfl (eq_of_layerOf hrecord) le_rfl (h.id_lt hrecord) ?_ ?_ ?_,
        rfl, ?_⟩
      · intro l' hne
        simp only [update_of_ne hne]
      · simp only [update_self]
        exact hnodup.2
      · intro b'
        have hmem := h.mem_free (l := l) (b := b')
        rw [hfree] at hmem
        split_ifs with hb'
        · rw [hb']
          simp [hnodup.1]
        · rw [← hmem]
          simp [hb']
      · intro l'
        by_cases hl' : l' = l
        · simp [hl']
        · simp [update_of_ne hl']
    · simp only [layerOf, AList.lookup_insert]
      rfl
  | nil =>
    have hfresh : pool.blocks.lookup pool.nextBlockId = none := lookup_eq_none_of_lt h.id_lt
    split_ifs
    · exact .inr ⟨_, rfl⟩
    refine .inl ⟨pool.nextBlockId, _, rfl, ?_, by rw [refcount, hfresh]; rfl, ?_⟩
    · refine ⟨recounted_insert h rfl ?_ (Nat.le_succ _) (Nat.lt_succ_self _) (fun _ _ => rfl)
        (h.free_nodup l) ?_, rfl, fun l' => by simp⟩
      · intro l' hl'
        rw [layerOf, hfresh] at hl'
        exact absurd hl' (by simp)
      · intro b'
        rw [h.mem_free]
        split_ifs with hb'
        · rw [hb', hfresh]
          simp
        · rfl
    · simp only [layerOf, AList.lookup_insert]
      rfl

/-- **Retaining** adds a reference up to the limit, and fails without a change if there is none. -/
theorem retainBlock_counted (h : Counted pool) (b : PagedBlockId) :
    (0 < pool.refcount b ∧ ∃ pool', pool.retainBlock b = (.ok (), pool') ∧
      Adjusted pool pool' b (min (pool.refcount b + 1) u32Max)) ∨
      (pool.refcount b = 0 ∧ ∃ fault, pool.retainBlock b = (.error fault, pool)) := by
  rw [retainBlock]
  cases hrecord : pool.blocks.lookup b with
  | none => exact .inr ⟨by rw [refcount, hrecord]; rfl, _, rfl⟩
  | some record =>
    rw [refcount_of_lookup hrecord]
    simp only
    split_ifs with hzero
    · exact .inr ⟨hzero, _, rfl⟩
    have hpos : min (record.refcount + 1) u32Max ≠ 0 := by
      rw [u32Max]
      omega
    exact .inl ⟨Nat.pos_of_ne_zero hzero, _, rfl, adjusted_insert h hrecord hzero hpos⟩

/-- **Releasing** takes one reference off, and fails without a change if there is none. -/
theorem releaseBlock_counted (h : Counted pool) (b : PagedBlockId) :
    (0 < pool.refcount b ∧ ∃ pool', pool.releaseBlock b = (.ok (), pool') ∧
      Adjusted pool pool' b (pool.refcount b - 1)) ∨
      (pool.refcount b = 0 ∧ ∃ fault, pool.releaseBlock b = (.error fault, pool)) := by
  rw [releaseBlock]
  cases hrecord : pool.blocks.lookup b with
  | none => exact .inr ⟨by rw [refcount, hrecord]; rfl, _, rfl⟩
  | some record =>
    rw [refcount_of_lookup hrecord]
    simp only
    split_ifs with hzero hmany
    · exact .inr ⟨hzero, _, rfl⟩
    · exact .inl ⟨Nat.pos_of_ne_zero hzero, _, rfl, adjusted_insert h hrecord hzero (by omega)⟩
    · have hnotMem : b ∉ (pool.layers record.layerIdx).freeList := by
        rw [h.mem_free, hrecord]
        intro heq
        exact hzero (congrArg PagedBlockRecord.refcount (some.inj heq))
      refine .inl ⟨Nat.pos_of_ne_zero hzero, _, rfl, recounted_insert h rfl
        (eq_of_layerOf hrecord) le_rfl (h.id_lt hrecord) ?_ ?_ ?_, rfl, ?_⟩
      · intro l hne
        simp only [setLayer, update_of_ne hne]
      · simp only [setLayer, update_self]
        exact nodup_cons.mpr ⟨hnotMem, h.free_nodup _⟩
      · intro b'
        simp only [setLayer, update_self, freeBlock, mem_cons, h.mem_free]
        split_ifs with hb'
        · simp only [hb', true_or, true_iff]
          omega
        · simp [hb']
      · intro l
        simp only [layerOf, hrecord, map_some, some.injEq]
        by_cases hl : record.layerIdx = l
        · subst hl
          rw [if_pos ⟨by omega, rfl⟩]
          simp [setLayer]
        · rw [if_neg fun hlast => hl hlast.2]
          simp only [setLayer, update_of_ne (Ne.symm hl)]

end PagedBlockPool

end Mlxcel.Paged
