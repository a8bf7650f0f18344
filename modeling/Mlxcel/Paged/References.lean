import Mlxcel.Paged.CachePool
import Mlxcel.Paged.Counts
import Mathlib.Tactic.Abel

/-!
# References to blocks

`Ok refs pool` says that the pool is well-formed and that its counts are those of `refs`, the
multiset of all references to blocks that anyone holds. `Moves refs refs' pool pool'` says what
every operation guarantees that takes the references from `refs` to `refs'`: the pool stays
well-formed, and a block that is referenced before and after keeps its contents.

The three operations on counts move one reference each: `acquireBlock` and `retainBlock` add one and
`releaseBlock` removes one. Everything else on counts is a sequence of these.
-/

namespace Mlxcel.Paged

open List MachineInt AssocMap Sigma
open Multiset (coe_add coe_nil cons_coe count_pos mem_add mem_cons_of_mem mem_cons_self singleton_add)

variable {τ : Type}

/-! ## Well-formed pools -/

def LayerPool.capacity (layer : LayerPool τ) : ℕ :=
  layer.poolMeta.elim 0 PagedPoolMeta.capacityBlocks

/-- A slab has all its rows, and these are as long as a block. -/
structure IsSlab (rowLen : ℕ) (slab : Slab τ) : Prop where
  length_eq : slab.length = poolSlabBlocks
  row_length : ∀ row ∈ slab, row.length = rowLen

/-- A layer whose blocks without and with references are those of `free` and `live`. Its rows up to
`nextRow` are either mapped or free, and there are slabs for them. -/
structure LayerOk (rowLen : ℕ) (free live : PagedBlockId → Prop) (layer : LayerPool τ) : Prop where
  free_nodup : layer.freeList.Nodup
  mem_free : ∀ {b}, b ∈ layer.freeList ↔ free b
  rows_perm : (layer.blockRows.entries.map snd ++ layer.freeRows).Perm
    (range layer.nextRow)
  live_of_row : ∀ {b row}, layer.blockRows.lookup b = some row → live b
  nextRow_le : layer.nextRow ≤ layer.capacity
  lengthK_eq : layer.poolK.length * poolSlabBlocks = layer.capacity
  lengthV_eq : layer.poolV.length * poolSlabBlocks = layer.capacity
  slabK : ∀ slab ∈ layer.poolK, IsSlab rowLen slab
  slabV : ∀ slab ∈ layer.poolV, IsSlab rowLen slab
  rowLen_pos : layer.poolMeta.isSome → 0 < rowLen

namespace LayerOk

variable {rowLen : ℕ} {free live : PagedBlockId → Prop} {layer : LayerPool τ}
  (h : LayerOk rowLen free live layer) {b row : ℕ} (hb : layer.blockRows.lookup b = some row)

include h hb

lemma mem_rows : row < layer.nextRow := by
  have hmem : row ∈ layer.blockRows.entries.map snd :=
    mem_map.mpr ⟨⟨b, row⟩, AList.mem_lookup_iff.mp hb, rfl⟩
  exact mem_range.mp (h.rows_perm.mem_iff.mp (mem_append_left _ hmem))

lemma row_lt : row < layer.capacity :=
  (h.mem_rows hb).trans_le h.nextRow_le

lemma rows_inj {b' : ℕ} (hb' : layer.blockRows.lookup b' = some row) : b = b' := by
  have hnodup : (layer.blockRows.entries.map snd).Nodup :=
    (nodup_append.mp (h.rows_perm.nodup_iff.mpr nodup_range)).1
  have heq := inj_on_of_nodup_map hnodup (AList.mem_lookup_iff.mp hb)
    (AList.mem_lookup_iff.mp hb') rfl
  exact congrArg fst heq

end LayerOk

namespace PagedBlockPool

/-- The rows of a block, for keys and for values. -/
def contents (pool : PagedBlockPool τ) (layerIdx : ℕ) (b : PagedBlockId) :
    Option (List τ × List τ) :=
  ((pool.layers layerIdx).blockRows.lookup b).bind fun row =>
    (rowOf (pool.layers layerIdx).poolK row).bind fun k =>
      (rowOf (pool.layers layerIdx).poolV row).map fun v => (k, v)

def rowLen (pool : PagedBlockPool τ) : ℕ := (asI32 pool.layout.blockSize).toNat

/-- The pool is well-formed, and its counts are those of `refs`. -/
structure Ok (refs : Multiset PagedBlockId) (pool : PagedBlockPool τ) : Prop where
  refcount_eq : ∀ b, pool.refcount b = refs.count b
  id_lt : ∀ {b record}, pool.blocks.lookup b = some record → b < pool.nextBlockId
  layerOk : ∀ l, LayerOk pool.rowLen (fun b => pool.blocks.lookup b = some ⟨l, 0⟩)
    (fun b => b ∈ refs ∧ pool.layerOf b = some l) (pool.layers l)

/-- What an operation guarantees that takes the references from `refs` to `refs'`. -/
structure Moves (refs refs' : Multiset PagedBlockId) (pool pool' : PagedBlockPool τ) : Prop where
  layout_eq : pool'.layout = pool.layout
  layerOf_eq : ∀ {b l}, pool.layerOf b = some l → pool'.layerOf b = some l
  ok : Ok refs' pool'
  contents_eq : ∀ {l b}, b ∈ refs → b ∈ refs' → pool'.contents l b = pool.contents l b

/-! ## One reference -/

variable {refs : Multiset PagedBlockId} {pool : PagedBlockPool τ} {b : PagedBlockId}
variable {rest : Multiset PagedBlockId}

lemma Ok.exists_record (h : Ok refs pool) (hb : b ∈ refs) :
    ∃ record, pool.blocks.lookup b = some record ∧ record.refcount = refs.count b ∧
      0 < record.refcount := by
  have hpos : 0 < refs.count b := count_pos.mpr hb
  cases hrecord : pool.blocks.lookup b with
  | none =>
    have hcount := h.refcount_eq b
    rw [refcount, hrecord] at hcount
    exact absurd hcount hpos.ne
  | some record =>
    have hcount := h.refcount_eq b
    rw [refcount_of_lookup hrecord] at hcount
    exact ⟨record, rfl, hcount, hcount ▸ hpos⟩

lemma Ok.counted (h : Ok refs pool) : Counted pool :=
  ⟨h.id_lt, fun l => (h.layerOk l).free_nodup, fun {l _} => (h.layerOk l).mem_free⟩

lemma rows_perm_freeBlock {layer : LayerPool τ} {rows : List ℕ} (b : PagedBlockId)
    (h : (layer.blockRows.entries.map snd ++ layer.freeRows).Perm rows) :
    ((freeBlock layer b).blockRows.entries.map snd
      ++ (freeBlock layer b).freeRows).Perm rows := by
  refine .trans ?_ h
  rw [freeBlock]
  cases hrow : layer.blockRows.lookup b with
  | none =>
    rw [erase_eq_self hrow]
    exact .refl _
  | some row =>
    refine perm_middle.trans ?_
    exact ((entries_perm hrow).map snd).symm.append_right _

/-- **The count of one block changes**, and with it at most the state of its layer. -/
lemma moves_adjusted {refs' : Multiset PagedBlockId} {pool' : PagedBlockPool τ} {n : ℕ}
    (h : Ok refs pool) (hadjusted : Adjusted pool pool' b n)
    (hcount : ∀ b', refs'.count b' = if b' = b then n else refs.count b') :
    Moves refs refs' pool pool' := by
  have hmem : ∀ b' ∈ refs, (n = 0 → b' ≠ b) → b' ∈ refs' := by
    intro b' hb' hn
    rw [← count_pos, hcount]
    split_ifs with heq
    · exact Nat.pos_of_ne_zero fun hzero => hn hzero heq
    · exact count_pos.mpr hb'
  refine ⟨hadjusted.layout_eq, hadjusted.layerOf_eq, ⟨?_, hadjusted.counted.id_lt, ?_⟩, ?_⟩
  · intro b'
    rw [hadjusted.refcount_eq, hcount, h.refcount_eq]
  · intro l
    have hl := h.layerOk l
    have hrowLen : pool'.rowLen = pool.rowLen := by rw [rowLen, hadjusted.layout_eq, rowLen]
    have hlive : ∀ {b' row}, (pool.layers l).blockRows.lookup b' = some row → (n = 0 → b' ≠ b) →
        b' ∈ refs' ∧ pool'.layerOf b' = some l := by
      intro b' row hrow hn
      exact ⟨hmem b' (hl.live_of_row hrow).1 hn, hadjusted.layerOf_eq (hl.live_of_row hrow).2⟩
    have hnodup := hadjusted.counted.free_nodup l
    have hfree : ∀ {b'}, b' ∈ (pool'.layers l).freeList ↔ pool'.blocks.lookup b' = some ⟨l, 0⟩ :=
      hadjusted.counted.mem_free
    rw [hrowLen, hadjusted.layers_eq l]
    split_ifs with hlast
    · refine ⟨hnodup, hfree, rows_perm_freeBlock b hl.rows_perm, ?_, hl.nextRow_le, hl.lengthK_eq,
        hl.lengthV_eq, hl.slabK, hl.slabV, hl.rowLen_pos⟩
      intro b' row hrow
      obtain ⟨hne, hrow'⟩ := lookup_erase_eq_some.mp hrow
      exact hlive hrow' fun _ => hne
    · refine ⟨hnodup, hfree, hl.rows_perm, ?_, hl.nextRow_le, hl.lengthK_eq, hl.lengthV_eq,
        hl.slabK, hl.slabV, hl.rowLen_pos⟩
      intro b' row hrow
      refine hlive hrow fun hzero heq => hlast ⟨hzero, ?_⟩
      rw [← heq, (hl.live_of_row hrow).2]
  · intro l b' _ hb'
    rw [contents, contents, hadjusted.layers_eq l]
    split_ifs with hlast
    · have hne : b' ≠ b := by
        rintro rfl
        rw [← count_pos, hcount, if_pos rfl, hlast.1] at hb'
        exact lt_irrefl _ hb'
      simp only [freeBlock, lookup_erase_eq, if_neg hne]
    · rfl

lemma count_cons_eq (refs : Multiset PagedBlockId) (b b' : PagedBlockId) :
    (b ::ₘ refs).count b' = if b' = b then refs.count b + 1 else refs.count b' := by
  rw [Multiset.count_cons]
  split_ifs with h
  · rw [h]
  · rfl

lemma count_erase_eq (refs : Multiset PagedBlockId) (b b' : PagedBlockId) :
    (refs.erase b).count b' = if b' = b then refs.count b - 1 else refs.count b' := by
  split_ifs with h
  · rw [h, Multiset.count_erase_self]
  · exact Multiset.count_erase_of_ne h refs

/-- A block that was just acquired. -/
structure Acquired (refs : Multiset PagedBlockId) (layerIdx : ℕ) (pool : PagedBlockPool τ)
    (b : PagedBlockId) (pool' : PagedBlockPool τ) : Prop where
  moves : Moves refs (b ::ₘ refs) pool pool'
  notMem : b ∉ refs
  layerOf_eq : pool'.layerOf b = some layerIdx
  layer_lt : layerIdx < pool.layout.numLayers
  -- Only the free list of the layer may differ.
  poolMeta_eq : (pool'.layers layerIdx).poolMeta = (pool.layers layerIdx).poolMeta

/-- **Acquiring** either gives a block that nobody references or changes nothing. -/
theorem acquireBlock_spec (h : Ok refs pool) (layerIdx : ℕ) :
    (∃ b pool', pool.acquireBlock layerIdx = (.ok b, pool') ∧ Acquired refs layerIdx pool b pool') ∨
      ∃ fault, pool.acquireBlock layerIdx = (.error fault, pool) := by
  rcases acquireBlock_counted h.counted layerIdx with
    ⟨b, pool', heq, hacquired, hfree, hlayer⟩ | hfailed
  · have hzero : refs.count b = 0 := by rw [← h.refcount_eq, hfree]
    refine .inl ⟨b, pool', heq, moves_adjusted h hacquired ?_, Multiset.count_eq_zero.mp hzero,
      hlayer, ?_, ?_⟩
    · intro b'
      rw [count_cons_eq, hzero]
    · by_contra hlt
      rw [acquireBlock, if_pos (Nat.le_of_not_lt hlt)] at heq
      cases heq
    · rw [hacquired.layers_eq, if_neg (by simp)]
  · exact .inr hfailed

/-- **Retaining** a referenced block adds a reference, unless its count is at the limit. -/
theorem retainBlock_spec (h : Ok refs pool) (hb : b ∈ refs) (hmax : refs.count b < u32Max) :
    ∃ pool', pool.retainBlock b = (.ok (), pool') ∧ Moves refs (b ::ₘ refs) pool pool' := by
  have hpos : 0 < refs.count b := count_pos.mpr hb
  rcases retainBlock_counted h.counted b with ⟨_, pool', heq, hretained⟩ | ⟨hzero, _⟩
  · refine ⟨pool', heq, moves_adjusted h hretained ?_⟩
    intro b'
    rw [count_cons_eq, h.refcount_eq, min_eq_left hmax]
  · rw [h.refcount_eq] at hzero
    exact absurd hzero hpos.ne'

/-- **Releasing** a referenced block removes a reference. -/
theorem releaseBlock_spec (h : Ok refs pool) (hb : b ∈ refs) :
    ∃ pool', pool.releaseBlock b = (.ok (), pool') ∧ Moves refs (refs.erase b) pool pool' := by
  have hpos : 0 < refs.count b := count_pos.mpr hb
  rcases releaseBlock_counted h.counted b with ⟨_, pool', heq, hreleased⟩ | ⟨hzero, _⟩
  · refine ⟨pool', heq, moves_adjusted h hreleased ?_⟩
    intro b'
    rw [count_erase_eq, h.refcount_eq]
  · rw [h.refcount_eq] at hzero
    exact absurd hzero hpos.ne'

/-! ## Many references -/

/-- What a holder of references may do while others hold `rest`: the pool is well-formed with the
references `own` that it then has, and the contents of the others' blocks stay. -/
structure Steps (rest own : Multiset PagedBlockId) (pool pool' : PagedBlockPool τ) : Prop where
  layout_eq : pool'.layout = pool.layout
  layerOf_eq : ∀ {b l}, pool.layerOf b = some l → pool'.layerOf b = some l
  ok : Ok (own + rest) pool'
  contents_eq : ∀ {l b}, b ∈ rest → pool'.contents l b = pool.contents l b

lemma Moves.steps {own refs' : Multiset PagedBlockId} {pool' : PagedBlockPool τ}
    (h : Moves refs refs' pool pool') (hrefs : rest ≤ refs) (hrefs' : refs' = own + rest) :
    Steps rest own pool pool' := by
  refine ⟨h.layout_eq, h.layerOf_eq, hrefs' ▸ h.ok, ?_⟩
  intro l b hb
  refine h.contents_eq (Multiset.mem_of_le hrefs hb) ?_
  rw [hrefs']
  exact mem_add.mpr (.inr hb)

namespace Steps

variable {rest more own own' : Multiset PagedBlockId} {pool pool' pool'' : PagedBlockPool τ}

lemma refl (h : Ok (own + rest) pool) : Steps rest own pool pool := ⟨rfl, id, h, fun _ => rfl⟩

lemma trans (h : Steps rest own pool pool') (h' : Steps rest own' pool' pool'') :
    Steps rest own' pool pool'' := by
  refine ⟨h'.layout_eq.trans h.layout_eq, fun hb => h'.layerOf_eq (h.layerOf_eq hb), h'.ok, ?_⟩
  intro l b hb
  rw [h'.contents_eq hb, h.contents_eq hb]

/-- Some of the others may be counted to the holder. -/
lemma weaken (h : Steps (more + rest) own pool pool') : Steps rest (own + more) pool pool' := by
  refine ⟨h.layout_eq, h.layerOf_eq, ?_, fun hb => h.contents_eq (mem_add.mpr (.inr hb))⟩
  rw [add_assoc]
  exact h.ok

end Steps

/-- Blocks for the end of a table: nobody references them, and they are of the layer. -/
structure Fresh (refs : Multiset PagedBlockId) (layerIdx : ℕ) (pool' : PagedBlockPool τ)
    (new : List PagedBlockId) : Prop where
  nodup : new.Nodup
  notMem : ∀ b ∈ new, b ∉ refs
  layerOf_eq : ∀ b ∈ new, pool'.layerOf b = some layerIdx

theorem acquireBlocks_spec (layerIdx n : ℕ) (h : Ok refs pool) (blockIds : List PagedBlockId) :
    ∃ result pool' new, acquireBlocks layerIdx n pool blockIds = (result, pool', blockIds ++ new) ∧
      Steps refs new pool pool' ∧ Fresh refs layerIdx pool' new ∧
      (result = .ok () → new.length = n) := by
  induction n generalizing refs pool blockIds with
  | zero =>
    refine ⟨_, pool, [], by rw [acquireBlocks, append_nil], .refl ?_, ?_, fun _ => rfl⟩
    · rw [coe_nil, zero_add]
      exact h
    · exact ⟨nodup_nil, by simp, by simp⟩
  | succ n ih =>
    rcases acquireBlock_spec h layerIdx with ⟨b, pool₁, heq, hacquired⟩ | ⟨fault, heq⟩
    · obtain ⟨result, pool', new, heq', hsteps, hfresh, hlen⟩ :=
        ih hacquired.moves.ok (blockIds ++ [b])
      refine ⟨result, pool', b :: new, ?_, ?_, ?_, ?_⟩
      · rw [acquireBlocks]
        simp only [heq]
        rw [heq', append_assoc, singleton_append]
      · have hfirst : Steps refs {b} pool pool₁ :=
          hacquired.moves.steps le_rfl (singleton_add b refs).symm
        have hrest : Steps refs (b :: new) pool₁ pool' := by
          rw [← singleton_add] at hsteps
          have hweak := hsteps.weaken
          rw [add_comm, singleton_add] at hweak
          exact hweak
        exact hfirst.trans hrest
      · refine ⟨nodup_cons.mpr ⟨?_, hfresh.nodup⟩, ?_, ?_⟩
        · intro hb
          exact hfresh.notMem b hb (mem_cons_self b refs)
        · rintro b' (_ | ⟨_, hb'⟩)
          · exact hacquired.notMem
          · exact fun hmem => hfresh.notMem b' hb' (mem_cons_of_mem hmem)
        · rintro b' (_ | ⟨_, hb'⟩)
          · exact hsteps.layerOf_eq hacquired.layerOf_eq
          · exact hfresh.layerOf_eq b' hb'
      · intro hok
        rw [length_cons, hlen hok]
    · refine ⟨.error fault, pool, [], ?_, .refl ?_, ?_, fun hok => by simp at hok⟩
      · rw [acquireBlocks]
        simp only [heq]
        rw [append_nil]
      · rw [coe_nil, zero_add]
        exact h
      · exact ⟨nodup_nil, by simp, by simp⟩

/-- Releasing one reference, seen by all others. -/
lemma releaseBlock_steps (h : Ok (b ::ₘ rest) pool) :
    ∃ pool', pool.releaseBlock b = (.ok (), pool') ∧ Steps rest 0 pool pool' := by
  obtain ⟨pool', heq, hmoves⟩ := releaseBlock_spec h (mem_cons_self b rest)
  exact ⟨pool', heq, hmoves.steps (Multiset.le_cons_self rest b)
    (by rw [Multiset.erase_cons_head, zero_add])⟩

/-- The end of a table is released, and its beginning keeps its contents. -/
theorem releaseTail_spec (n : ℕ) {blockIds : List PagedBlockId} (h : Ok (blockIds + rest) pool) :
    ∃ pool', releaseTail n pool blockIds
        = (.ok (), pool', blockIds.take (blockIds.length - n)) ∧
      Steps (blockIds.take (blockIds.length - n) + rest) 0 pool pool' := by
  induction n generalizing pool blockIds with
  | zero =>
    refine ⟨pool, ?_, ?_⟩
    · rw [releaseTail, Nat.sub_zero, take_length]
    · rw [Nat.sub_zero, take_length]
      refine .refl ?_
      rw [zero_add]
      exact h
  | succ n ih =>
    cases blockIds using reverseRecOn with
    | nil =>
      rw [take_nil]
      refine ⟨pool, rfl, .refl ?_⟩
      rw [zero_add]
      exact h
    | append_singleton blockIds b =>
      have hok : Ok (b ::ₘ (blockIds + rest)) pool := by
        rw [← coe_add, Multiset.coe_singleton, add_assoc, singleton_add,
          Multiset.add_cons] at h
        exact h
      obtain ⟨pool₁, heq, hsteps⟩ := releaseBlock_steps hok
      have hok₁ := hsteps.ok
      rw [zero_add] at hok₁
      obtain ⟨pool', heq', hsteps'⟩ := ih hok₁
      have hlen : (blockIds ++ [b]).length - (n + 1) = blockIds.length - n := by
        rw [length_append, length_singleton, Nat.add_sub_add_right]
      have hle : blockIds.length - n ≤ blockIds.length := Nat.sub_le _ _
      rw [hlen, take_append_of_le_length hle]
      refine ⟨pool', ?_, ?_⟩
      · rw [releaseTail, getLast?_concat]
        simp only [heq, dropLast_concat]
        exact heq'
      · have hsplit : (blockIds : Multiset PagedBlockId) + rest
            = blockIds.drop (blockIds.length - n)
              + (blockIds.take (blockIds.length - n) + rest) := by
          nth_rewrite 1 [← take_append_drop (blockIds.length - n) blockIds]
          rw [← coe_add]
          abel
        rw [hsplit] at hsteps
        exact hsteps.weaken.trans hsteps'

theorem releaseAll_spec (blocks : List PagedBlockId) (h : Ok (blocks + rest) pool) :
    ∃ pool', CachePool.releaseAll pool blocks = (0, pool') ∧ Steps rest 0 pool pool' := by
  induction blocks generalizing pool with
  | nil => exact ⟨pool, rfl, .refl h⟩
  | cons b blocks ih =>
    rw [← cons_coe, Multiset.cons_add] at h
    obtain ⟨pool₁, heq, hsteps⟩ := releaseBlock_steps h
    have hok₁ := hsteps.ok
    rw [zero_add] at hok₁
    obtain ⟨pool', heq', hsteps'⟩ := ih hok₁
    refine ⟨pool', ?_, hsteps.weaken.trans hsteps'⟩
    rw [CachePool.releaseAll]
    simp only [heq]
    exact heq'

/-- Retaining blocks one after another, as long as no count is at the limit. -/
theorem retainAll_spec (blocks : List PagedBlockId) (h : Ok refs pool)
    (hmem : ∀ b ∈ blocks, b ∈ refs) (hmax : ∀ b ∈ blocks, refs.count b + blocks.count b ≤ u32Max) :
    ∃ pool', CachePool.retainAll pool blocks = (none, pool') ∧ Steps refs blocks pool pool' := by
  induction blocks generalizing refs pool with
  | nil =>
    refine ⟨pool, rfl, .refl ?_⟩
    rw [coe_nil, zero_add]
    exact h
  | cons b blocks ih =>
    have hb : b ∈ refs := hmem b mem_cons_self
    have hlt : refs.count b < u32Max := by
      have := hmax b mem_cons_self
      rw [count_cons_self] at this
      omega
    obtain ⟨pool₁, heq, hmoves⟩ := retainBlock_spec h hb hlt
    have hsteps : Steps refs {b} pool pool₁ :=
      hmoves.steps le_rfl (singleton_add b refs).symm
    have hmem' : ∀ b' ∈ blocks, b' ∈ b ::ₘ refs := fun b' hb' =>
      mem_cons_of_mem (hmem b' (mem_cons_of_mem _ hb'))
    have hmax' : ∀ b' ∈ blocks, (b ::ₘ refs).count b' + blocks.count b' ≤ u32Max := by
      intro b' hb'
      have hle := hmax b' (mem_cons_of_mem _ hb')
      rw [Multiset.count_cons]
      rw [count_cons] at hle
      by_cases hbb : b' = b
      · rw [hbb, if_pos rfl]
        rw [hbb, if_pos (beq_self_eq_true b)] at hle
        omega
      · rw [if_neg hbb]
        omega
    obtain ⟨pool', heq', hsteps'⟩ := ih hmoves.ok hmem' hmax'
    refine ⟨pool', ?_, ?_⟩
    · rw [CachePool.retainAll]
      simp only [heq, heq']
      rfl
    · rw [← singleton_add] at hsteps'
      have hweak := hsteps'.weaken
      rw [add_comm, singleton_add] at hweak
      exact hsteps.trans hweak

end PagedBlockPool

end Mlxcel.Paged
