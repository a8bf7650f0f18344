import Mlxcel.Paged.References

/-!
# Rows of blocks

The slabs of a layer only grow, and a write changes one row of them. As no two blocks share a row,
a write into a block keeps the contents of every other block.

`Stores refs l b pool pool'` says what an operation on the storage guarantees that writes at most
into the block `b` of layer `l`. `writeBlock_spec` and `copyOnWriteBlock_spec` add what the written
blocks then have.
-/

namespace Mlxcel.Paged

open Function List MachineInt AssocMap LayerPool Multiset

variable {τ : Type}

/-! ## Slabs -/

variable (row slots : List τ) (start : ℕ)

lemma length_updateSlots :
    (updateSlots row start slots).length = row.length := by
  rw [updateSlots, length_mapIdx]

lemma getElem?_updateSlots (i : ℕ) :
    (updateSlots row start slots)[i]?
      = row[i]?.map fun old => if start ≤ i then slots.getD (i - start) old else old := by
  rw [updateSlots, getElem?_mapIdx]

lemma updateSlots_zero {row slots : List τ} (hlen : row.length = slots.length) :
    updateSlots row 0 slots = slots := by
  refine ext_getElem? fun i => ?_
  rw [getElem?_updateSlots]
  by_cases hi : i < slots.length
  · rw [getElem?_eq_getElem (hlen ▸ hi), Option.map_some,
      Nat.sub_zero, getD_eq_getElem?_getD, getElem?_eq_getElem hi]
    rfl
  · rw [getElem?_eq_none (by omega), getElem?_eq_none (by omega), Option.map_none]

lemma isSlab_update {rowLen : ℕ} {slab : Slab τ} (h : IsSlab rowLen slab) (row start : ℕ)
    (slots : List τ) : IsSlab rowLen (Slab.update slab row start slots) := by
  refine ⟨?_, ?_⟩
  · rw [Slab.update, length_modify, h.length_eq]
  · intro r hr
    obtain ⟨i, hi⟩ := List.mem_iff_getElem?.mp hr
    rw [Slab.update, getElem?_modify, Option.map_eq_map, Option.map_eq_some_iff] at hi
    obtain ⟨old, hold, rfl⟩ := hi
    have hlen := h.row_length old (mem_of_getElem? hold)
    split_ifs
    · rw [length_updateSlots, hlen]
    · exact hlen

namespace PagedBlockPool

variable {row : ℕ} {refs : Multiset PagedBlockId} {pool : PagedBlockPool τ} {l b : ℕ}

variable {slabs : List (Slab τ)}

lemma rowOf_append (more : List (Slab τ)) (h : row < slabs.length * poolSlabBlocks) :
    rowOf (slabs ++ more) row = rowOf slabs row := by
  rw [rowOf, rowOf, getElem?_append_left]
  exact Nat.div_lt_of_lt_mul (by rwa [Nat.mul_comm] at h)

variable {rowLen : ℕ}

lemma exists_rowOf (hslabs : ∀ slab ∈ slabs, IsSlab rowLen slab)
    (h : row < slabs.length * poolSlabBlocks) :
    ∃ slots, rowOf slabs row = some slots ∧ slots.length = rowLen := by
  have hslab : row / poolSlabBlocks < slabs.length :=
    Nat.div_lt_of_lt_mul (by rwa [Nat.mul_comm] at h)
  have hok := hslabs _ (getElem_mem hslab)
  have hrow : row % poolSlabBlocks < slabs[row / poolSlabBlocks].length := by
    rw [hok.length_eq]
    exact Nat.mod_lt _ (by decide)
  refine ⟨slabs[row / poolSlabBlocks][row % poolSlabBlocks], ?_, ?_⟩
  · rw [rowOf, getElem?_eq_getElem hslab, Option.bind_some, getElem?_eq_getElem hrow]
  · exact hok.row_length _ (getElem_mem hrow)

lemma rowOf_modify (slabs : List (Slab τ)) (row start : ℕ) (slots : List τ) (row' : ℕ) :
    rowOf (slabs.modify (row / poolSlabBlocks)
        fun s => Slab.update s (row % poolSlabBlocks) start slots) row'
      = if row' = row then (rowOf slabs row).map fun old => updateSlots old start slots
        else rowOf slabs row' := by
  simp only [rowOf, Slab.update, getElem?_modify]
  have hrow := Nat.div_add_mod row poolSlabBlocks
  have hrow' := Nat.div_add_mod row' poolSlabBlocks
  by_cases hdiv : row / poolSlabBlocks = row' / poolSlabBlocks
  · by_cases hmod : row % poolSlabBlocks = row' % poolSlabBlocks
    · have heq : row' = row := by rw [← hrow', ← hrow, hdiv, hmod]
      rw [heq]
      cases slabs[row / poolSlabBlocks]? <;> simp
    · have hne : row' ≠ row := fun h => hmod (by rw [h])
      rw [if_neg hne, hdiv]
      cases slabs[row' / poolSlabBlocks]? <;> simp [hmod]
  · have hne : row' ≠ row := fun h => hdiv (by rw [h])
    rw [if_neg hne]
    cases slabs[row' / poolSlabBlocks]? <;> simp [hdiv]

/-! ## Operations on the storage -/

/-- What an operation guarantees that writes at most into the block `b` of layer `l`. -/
structure Stores (refs : Multiset PagedBlockId) (l b : ℕ) (pool pool' : PagedBlockPool τ) :
    Prop where
  layout_eq : pool'.layout = pool.layout
  blocks_eq : pool'.blocks = pool.blocks
  ok : Ok refs pool'
  contents_eq : ∀ {l' b'}, l' ≠ l ∨ b' ≠ b → pool'.contents l' b' = pool.contents l' b'

namespace Stores

variable {refs : Multiset PagedBlockId} {l b : ℕ} {pool pool' pool'' : PagedBlockPool τ}

lemma refl (h : Ok refs pool) : Stores refs l b pool pool := ⟨rfl, rfl, h, fun _ => rfl⟩

section

variable (h : Stores refs l b pool pool')

include h

lemma trans (h' : Stores refs l b pool' pool'') :
    Stores refs l b pool pool'' := by
  refine ⟨h'.layout_eq.trans h.layout_eq, h'.blocks_eq.trans h.blocks_eq, h'.ok, ?_⟩
  intro l' b' hne
  rw [h'.contents_eq hne, h.contents_eq hne]

lemma layerOf_eq (b' : PagedBlockId) :
    pool'.layerOf b' = pool.layerOf b' := by rw [layerOf, h.blocks_eq, layerOf]

lemma rowLen_eq : pool'.rowLen = pool.rowLen := by
  rw [rowLen, h.layout_eq, rowLen]

end

lemma steps {rest own : Multiset PagedBlockId} (h : Stores (own + rest) l b pool pool')
    (hb : b ∉ rest) : Steps rest own pool pool' := by
  refine ⟨h.layout_eq, fun hl => (h.layerOf_eq _).trans hl, h.ok, ?_⟩
  intro l' b' hb'
  refine h.contents_eq (.inr ?_)
  rintro rfl
  exact hb hb'

end Stores

/-- What an operation guarantees that only makes room. -/
structure Grows (refs : Multiset PagedBlockId) (pool pool' : PagedBlockPool τ) : Prop where
  layout_eq : pool'.layout = pool.layout
  blocks_eq : pool'.blocks = pool.blocks
  ok : Ok refs pool'
  contents_eq : ∀ l b, pool'.contents l b = pool.contents l b

lemma Grows.stores {pool' : PagedBlockPool τ} (h : Grows refs pool pool') :
    Stores refs l b pool pool' :=
  ⟨h.layout_eq, h.blocks_eq, h.ok, fun _ => h.contents_eq _ _⟩

/-- The layer `l` of a pool, as `Ok` sees it. -/
abbrev LayerOkAt (refs : Multiset PagedBlockId) (pool : PagedBlockPool τ) (l : ℕ)
    (layer : LayerPool τ) : Prop :=
  LayerOk pool.rowLen (fun b => pool.blocks.lookup b = some ⟨l, 0⟩)
    (fun b => b ∈ refs ∧ pool.layerOf b = some l) layer

lemma stores_setLayer (h : Ok refs pool) {layer : LayerPool τ}
    (hlayer : LayerOkAt refs pool l layer)
    (hcontents : ∀ b' ≠ b, (pool.setLayer l layer).contents l b' = pool.contents l b') :
    Stores refs l b pool (pool.setLayer l layer) := by
  have hothers : ∀ l' ≠ l, (pool.setLayer l layer).layers l' = pool.layers l' := by
    intro l' hne
    exact update_of_ne hne _ _
  refine ⟨rfl, rfl, ⟨h.refcount_eq, h.id_lt, ?_⟩, ?_⟩
  · intro l'
    by_cases hl : l' = l
    · rw [hl]
      simp only [setLayer, update_self]
      exact hlayer
    · rw [hothers l' hl]
      exact h.layerOk l'
  · intro l' b' hne
    by_cases hl : l' = l
    · rw [hl]
      exact hcontents b' (hne.resolve_left (not_not.mpr hl))
    · rw [contents, contents, hothers l' hl]

variable (layer : LayerPool τ)

@[simp] lemma takeRow_blockRows : (takeRow layer).2.blockRows = layer.blockRows := by
  rw [takeRow]
  split <;> rfl

@[simp] lemma takeRow_poolMeta : (takeRow layer).2.poolMeta = layer.poolMeta := by
  rw [takeRow]
  split <;> rfl

@[simp] lemma takeRow_poolK : (takeRow layer).2.poolK = layer.poolK := by
  rw [takeRow]
  split <;> rfl

@[simp] lemma takeRow_poolV : (takeRow layer).2.poolV = layer.poolV := by
  rw [takeRow]
  split <;> rfl

lemma layerOk_mapRow {free live : PagedBlockId → Prop} {layer : LayerPool τ}
    (h : LayerOk rowLen free live layer) {b : PagedBlockId} (hb : live b)
    (hnone : layer.blockRows.lookup b = none) (hlt : (takeRow layer).1 < layer.capacity) :
    LayerOk rowLen free live { (takeRow layer).2 with
      blockRows := layer.blockRows.insert b (takeRow layer).1 } := by
  have hentries : (layer.blockRows.insert b (takeRow layer).1).entries.map Sigma.snd
      = (takeRow layer).1 :: layer.blockRows.entries.map Sigma.snd := by
    exact congrArg _ (congrArg (List.map Sigma.snd) (congrArg AList.entries (erase_eq_self hnone)))
  have hlive : ∀ {b' row}, (layer.blockRows.insert b (takeRow layer).1).lookup b' = some row →
      live b' := by
    intro b' row hrow
    rw [lookup_insert_eq] at hrow
    split_ifs at hrow with heq
    · exact heq ▸ hb
    · exact h.live_of_row hrow
  have hperm := h.rows_perm
  cases hfree : layer.freeRows with
  | nil =>
    simp only [takeRow, hfree] at hentries hlive hlt ⊢
    rw [hfree, append_nil] at hperm
    refine ⟨h.free_nodup, h.mem_free, ?_, hlive, hlt, h.lengthK_eq, h.lengthV_eq, h.slabK, h.slabV,
      h.rowLen_pos⟩
    simp only [hentries, append_nil, List.range_succ]
    exact (hperm.cons _).trans (perm_append_singleton _ _).symm
  | cons row rest =>
    simp only [takeRow, hfree] at hentries hlive hlt ⊢
    rw [hfree] at hperm
    refine ⟨h.free_nodup, h.mem_free, ?_, hlive, h.nextRow_le, h.lengthK_eq, h.lengthV_eq, h.slabK,
      h.slabV, h.rowLen_pos⟩
    rw [hentries]
    exact perm_middle.symm.trans hperm

lemma exists_contents (h : Ok refs pool) (hrow : (pool.layers l).blockRows.lookup b = some row) :
    ∃ kRow vRow, rowOf (pool.layers l).poolK row = some kRow ∧
      rowOf (pool.layers l).poolV row = some vRow ∧ pool.contents l b = some (kRow, vRow) ∧
      kRow.length = pool.rowLen ∧ vRow.length = pool.rowLen := by
  have hl := h.layerOk l
  have hlt := hl.row_lt hrow
  obtain ⟨kRow, hk, hklen⟩ := exists_rowOf hl.slabK (hl.lengthK_eq ▸ hlt)
  obtain ⟨vRow, hv, hvlen⟩ := exists_rowOf hl.slabV (hl.lengthV_eq ▸ hlt)
  refine ⟨kRow, vRow, hk, hv, ?_, hklen, hvlen⟩
  rw [contents, hrow, Option.bind_some, hk, hv]
  rfl

/-- The layer in which a block has the next row. -/
def mapRow (pool : PagedBlockPool τ) (l b : ℕ) : PagedBlockPool τ :=
  pool.setLayer l { (takeRow (pool.layers l)).2 with
    blockRows := (pool.layers l).blockRows.insert b (takeRow (pool.layers l)).1 }

lemma stores_mapRow (h : Ok refs pool) (hb : b ∈ refs) (hl : pool.layerOf b = some l)
    (hnone : (pool.layers l).blockRows.lookup b = none)
    (hlt : (takeRow (pool.layers l)).1 < (pool.layers l).capacity) :
    Stores refs l b pool (pool.mapRow l b) ∧
      ((pool.mapRow l b).layers l).blockRows.lookup b = some (takeRow (pool.layers l)).1 := by
  refine ⟨stores_setLayer h (layerOk_mapRow (h.layerOk l) ⟨hb, hl⟩ hnone hlt) ?_, ?_⟩
  · intro b' hne
    simp [contents, setLayer, lookup_insert_eq, if_neg hne]
  · simp [mapRow, setLayer]

/-- **The update of a row** changes the contents of one block. -/
lemma updateRow_spec (h : Ok refs pool) (hrow : (pool.layers l).blockRows.lookup b = some row)
    (start : ℕ) (k v : List τ) :
    ∃ pool', pool.updateRow l row start k v = (.ok (), pool') ∧ Stores refs l b pool pool' ∧
      pool'.contents l b
        = (pool.contents l b).map fun c => (updateSlots c.1 start k, updateSlots c.2 start v) := by
  have hl := h.layerOk l
  have hlt := hl.row_lt hrow
  have hslab : ∀ slabs : List (Slab τ), slabs.length * poolSlabBlocks = (pool.layers l).capacity →
      row / poolSlabBlocks < slabs.length := by
    intro slabs hlen
    rw [← hlen, Nat.mul_comm] at hlt
    exact Nat.div_lt_of_lt_mul hlt
  have hin : ¬ ((pool.layers l).poolK.length ≤ row / poolSlabBlocks ∨
      (pool.layers l).poolV.length ≤ row / poolSlabBlocks) := by
    have hk := hslab _ hl.lengthK_eq
    have hv := hslab _ hl.lengthV_eq
    omega
  obtain ⟨kRow, vRow, hk, hv, hcontents, _⟩ := exists_contents h hrow
  rw [updateRow]
  simp only [if_neg hin]
  refine ⟨_, rfl, stores_setLayer h ?_ ?_, ?_⟩
  · have hmodify : ∀ (slabs : List (Slab τ)) (slots : List τ),
        (∀ slab ∈ slabs, IsSlab pool.rowLen slab) →
        ∀ slab ∈ slabs.modify (row / poolSlabBlocks)
          (fun s => .update s (row % poolSlabBlocks) start slots), IsSlab pool.rowLen slab := by
      intro slabs slots hslabs slab hmem
      obtain ⟨i, hi⟩ := List.mem_iff_getElem?.mp hmem
      rw [getElem?_modify, Option.map_eq_map, Option.map_eq_some_iff] at hi
      obtain ⟨old, hold, rfl⟩ := hi
      have hok := hslabs old (mem_of_getElem? hold)
      split_ifs
      · exact isSlab_update hok _ _ _
      · exact hok
    refine ⟨hl.free_nodup, hl.mem_free, hl.rows_perm, hl.live_of_row, hl.nextRow_le, ?_, ?_,
      hmodify _ _ hl.slabK, hmodify _ _ hl.slabV, hl.rowLen_pos⟩
    · simp only [length_modify]
      exact hl.lengthK_eq
    · simp only [length_modify]
      exact hl.lengthV_eq
  · intro b' hne
    simp only [contents, setLayer, update_self]
    cases hrow' : (pool.layers l).blockRows.lookup b' with
    | none => rfl
    | some row' =>
      have hrows : row' ≠ row := by
        rintro rfl
        exact hne (hl.rows_inj hrow' hrow)
      simp [rowOf_modify, if_neg hrows]
  · simp [contents, setLayer, hrow, rowOf_modify,
      hk, hv]

lemma normalizeBlockForLayoutA_tokens {a : MlxArray τ} {tokens : List τ} {geometry : ℕ × ℕ × ℕ}
    (h : normalizeBlockForLayoutA a = .ok (tokens, geometry)) : tokens = a.tokens := by
  rw [normalizeBlockForLayoutA] at h
  split at h
  · split_ifs at h
    simp only [Except.ok.injEq, Prod.mk.injEq] at h
    exact h.1.symm
  · simp only [Except.ok.injEq, Prod.mk.injEq] at h
    exact h.1.symm
  · exact absurd h (by simp)

section Rows

variable [Zero τ] {refs : Multiset PagedBlockId} {pool : PagedBlockPool τ}

lemma isSlab_zeros (pool : PagedBlockPool τ) : IsSlab pool.rowLen pool.zeros := by
  refine ⟨length_replicate, ?_⟩
  intro row hrow
  rw [List.eq_of_mem_replicate hrow, length_replicate]
  rfl

variable {l b : ℕ}

section

variable (h : Ok refs pool)

include h

/-- **Growth** keeps the contents of all blocks. -/
lemma grows_growLayer {slabs : ℕ} {m : PagedPoolMeta}
    (hm : m.capacityBlocks = (pool.layers l).capacity + slabs * poolSlabBlocks)
    (hpos : 0 < pool.rowLen) : Grows refs pool (pool.growLayer l slabs m) := by
  have hl := h.layerOk l
  have hcontents : ∀ b', (pool.growLayer l slabs m).contents l b' = pool.contents l b' := by
    intro b'
    simp only [contents, growLayer, setLayer, update_self]
    cases hrow : (pool.layers l).blockRows.lookup b' with
    | none => rfl
    | some row =>
      have hlt := hl.row_lt hrow
      simp only [Option.bind_some]
      rw [rowOf_append _ (hl.lengthK_eq ▸ hlt), rowOf_append _ (hl.lengthV_eq ▸ hlt)]
  have hslabs : ∀ (old : List (Slab τ)), (∀ slab ∈ old, IsSlab pool.rowLen slab) →
      ∀ slab ∈ old ++ .replicate slabs pool.zeros, IsSlab pool.rowLen slab := by
    intro old hold slab hslab
    rcases mem_append.mp hslab with hslab | hslab
    · exact hold slab hslab
    · rw [List.eq_of_mem_replicate hslab]
      exact isSlab_zeros pool
  have hstores : Stores refs l 0 pool (pool.growLayer l slabs m) := by
    refine stores_setLayer h ?_ fun b' _ => hcontents b'
    refine ⟨hl.free_nodup, hl.mem_free, hl.rows_perm, hl.live_of_row, ?_, ?_, ?_, hslabs _ hl.slabK,
      hslabs _ hl.slabV, fun _ => hpos⟩
    · show (pool.layers l).nextRow ≤ m.capacityBlocks
      rw [hm]
      exact hl.nextRow_le.trans (Nat.le_add_right _ _)
    · show ((pool.layers l).poolK ++ .replicate slabs pool.zeros).length * _ = m.capacityBlocks
      rw [length_append, length_replicate, add_mul, hl.lengthK_eq, hm]
    · show ((pool.layers l).poolV ++ .replicate slabs pool.zeros).length * _ = m.capacityBlocks
      rw [length_append, length_replicate, add_mul, hl.lengthV_eq, hm]
  refine ⟨hstores.layout_eq, hstores.blocks_eq, hstores.ok, ?_⟩
  intro l' b'
  by_cases hl' : l' = l
  · rw [hl']
    exact hcontents b'
  · exact hstores.contents_eq (.inl hl')

lemma createLayerPool_spec (hnone : (pool.layers l).poolMeta = none)
    (hbs : asI32 pool.layout.blockSize ≠ 0) (minCapacity nKvHeads headDim dtype : ℕ) :
    pool.createLayerPool l minCapacity nKvHeads headDim dtype = (.error .panicked, pool) ∨
      ∃ pool', pool.createLayerPool l minCapacity nKvHeads headDim dtype = (.ok (), pool') ∧
        Grows refs pool pool' ∧ (pool'.layers l).poolMeta.isSome := by
  rw [createLayerPool]
  split_ifs with hneg
  · exact .inl rfl
  · refine .inr ⟨_, rfl, grows_growLayer h ?_ ?_, ?_⟩
    · rw [capacity, hnone]
      exact (zero_add _).symm
    · rw [rowLen]
      omega
    · simp only [growLayer, setLayer, update_self]
      rfl

lemma ensureLayerCapacity_spec (hsome : (pool.layers l).poolMeta.isSome) (minCapacity : ℕ) :
    ∃ pool', pool.ensureLayerCapacity l minCapacity = (.ok (), pool') ∧ Grows refs pool pool' := by
  have hl := h.layerOk l
  obtain ⟨m, hm⟩ := Option.isSome_iff_exists.mp hsome
  have hcapacity : (pool.layers l).capacity = m.capacityBlocks := by rw [capacity, hm]; rfl
  rw [ensureLayerCapacity]
  simp only [hm]
  split_ifs with hle
  · exact ⟨pool, rfl, rfl, rfl, h, fun _ _ => rfl⟩
  · refine ⟨_, rfl, grows_growLayer h ?_ (hl.rowLen_pos hsome)⟩
    have htarget : (pool.layers l).poolK.length ≤ minCapacity ⌈/⌉ poolSlabBlocks := by
      have hpos : 0 < poolSlabBlocks := by decide
      by_contra hlt
      have hmul := (ceilDiv_le_iff_le_mul hpos).mp (Nat.le_of_lt (Nat.lt_of_not_le hlt))
      rw [mul_comm, hl.lengthK_eq, hcapacity] at hmul
      exact hle hmul
    rw [← hl.lengthK_eq, ← Nat.add_mul, Nat.add_sub_cancel' htarget]

lemma presizeForSpan_spec (hbs : asI32 pool.layout.blockSize ≠ 0) (l : ℕ)
    (blockIds : List PagedBlockId) (nKvHeads headDim dtype : ℕ) :
    (∃ fault, pool.presizeForSpan l blockIds nKvHeads headDim dtype = (.error fault, pool)) ∨
      ∃ pool', pool.presizeForSpan l blockIds nKvHeads headDim dtype = (.ok (), pool') ∧
        Grows refs pool pool' := by
  have hrefl : Grows refs pool pool := ⟨rfl, rfl, h, fun _ _ => rfl⟩
  rw [presizeForSpan]
  split_ifs
  · exact .inr ⟨pool, rfl, hrefl⟩
  cases hm : (pool.layers l).poolMeta with
  | none =>
    rcases createLayerPool_spec h hm hbs _ nKvHeads headDim dtype with heq | ⟨pool', heq, hgrows, _⟩
    · exact .inl ⟨_, heq⟩
    · exact .inr ⟨pool', heq, hgrows⟩
  | some m =>
    simp only
    split_ifs
    · exact .inr ⟨pool, rfl, hrefl⟩
    · exact .inr (ensureLayerCapacity_spec h (by rw [hm]; rfl) _)

lemma captureMeta_spec (hbs : asI32 pool.layout.blockSize ≠ 0) (l nKvHeads headDim dtype : ℕ) :
    (∃ fault, pool.captureMeta l nKvHeads headDim dtype = (.error fault, pool)) ∨
      ∃ pool', pool.captureMeta l nKvHeads headDim dtype = (.ok (), pool') ∧ Grows refs pool pool' ∧
        (pool'.layers l).poolMeta.isSome := by
  rw [captureMeta]
  cases hm : (pool.layers l).poolMeta with
  | none =>
    rcases createLayerPool_spec h hm hbs poolSlabBlocks nKvHeads headDim dtype with
      heq | ⟨pool', heq, hgrows, hsome⟩
    · exact .inl ⟨_, heq⟩
    · exact .inr ⟨pool', heq, hgrows, hsome⟩
  | some m =>
    simp only
    split_ifs
    · exact .inl ⟨_, rfl⟩
    · exact .inr ⟨pool, rfl, ⟨rfl, rfl, h, fun _ _ => rfl⟩, by rw [hm]; rfl⟩

end

lemma lt_ceilDiv_iff {n k i : ℕ} (hk : 0 < k) : i < n ⌈/⌉ k ↔ i * k < n := by
  rw [← not_le, ceilDiv_le_iff_le_mul hk, not_le, mul_comm]

lemma le_ceilDiv_mul {n k : ℕ} (hk : 0 < k) : n ≤ n ⌈/⌉ k * k := by
  rw [mul_comm]
  exact (ceilDiv_le_iff_le_mul hk).mp le_rfl

/-- A layer may grow before or after a row is taken. -/
lemma ensureLayerCapacity_setLayer_takeRow (pool : PagedBlockPool τ)
    (hsome : (pool.layers l).poolMeta.isSome) (minCapacity : ℕ) :
    let pool' := (pool.ensureLayerCapacity l minCapacity).2
    (pool.setLayer l (takeRow (pool.layers l)).2).ensureLayerCapacity l minCapacity
        = (.ok (), pool'.setLayer l (takeRow (pool'.layers l)).2) ∧
      (takeRow (pool'.layers l)).1 = (takeRow (pool.layers l)).1 ∧
      (pool'.layers l).blockRows = (pool.layers l).blockRows ∧
      minCapacity ≤ (pool'.layers l).capacity := by
  obtain ⟨m, hm⟩ := Option.isSome_iff_exists.mp hsome
  have hle := le_ceilDiv_mul (n := minCapacity) (k := poolSlabBlocks) (by decide)
  cases hfree : (pool.layers l).freeRows with
  | nil | cons row rest =>
    simp only [ensureLayerCapacity, takeRow, hfree, setLayer, update_self, hm]
    split_ifs with hcap
    · simp [hfree, capacity, hm, hcap]
    · simp [growLayer, setLayer, hfree, capacity, hle, zeros]

/-- **A row for a block.** A block that had one keeps its contents. -/
lemma assignRow_spec (h : Ok refs pool) (hb : b ∈ refs) (hl : pool.layerOf b = some l)
    (hsome : (pool.layers l).poolMeta.isSome) :
    ∃ row pool', pool.assignRow b l = (.ok row, pool') ∧ Stores refs l b pool pool' ∧
      (pool'.layers l).blockRows.lookup b = some row ∧
      ∀ c ∈ pool.contents l b, pool'.contents l b = some c := by
  rw [assignRow]
  cases hrow : (pool.layers l).blockRows.lookup b with
  | some row => exact ⟨row, pool, rfl, .refl h, hrow, fun c hc => hc⟩
  | none =>
    have hcontents : pool.contents l b = none := by rw [contents, hrow]; rfl
    have hrest : ∀ pool₂ : PagedBlockPool τ, Stores refs l b pool pool₂ →
        (pool₂.layers l).blockRows.lookup b = none →
        (takeRow (pool₂.layers l)).1 < (pool₂.layers l).capacity →
        Stores refs l b pool (pool₂.mapRow l b) ∧
          ((pool₂.mapRow l b).layers l).blockRows.lookup b
            = some (takeRow (pool₂.layers l)).1 ∧
          ∀ c ∈ pool.contents l b, (pool₂.mapRow l b).contents l b = some c := by
      intro pool₂ hstores hnone hlt
      obtain ⟨hmap, hlookup⟩ :=
        stores_mapRow hstores.ok hb ((hstores.layerOf_eq b).trans hl) hnone hlt
      exact ⟨hstores.trans hmap, hlookup, by simp [hcontents]⟩
    have hcap : (pool.layers l).poolMeta.elim 0 PagedPoolMeta.capacityBlocks
        = (pool.layers l).capacity := rfl
    simp only [setLayer, update_self, takeRow_poolMeta, hcap]
    by_cases hlt : (takeRow (pool.layers l)).1 < (pool.layers l).capacity
    · rw [if_neg (not_le.mpr hlt)]
      simp only [update_self, takeRow_blockRows, update_idem]
      exact ⟨_, _, rfl, hrest pool (.refl h) hrow hlt⟩
    · -- the layer grows before the block gets its row, which is the same row after the growth
      obtain ⟨pool₂, hensure, hgrows⟩ :=
        ensureLayerCapacity_spec h hsome ((takeRow (pool.layers l)).1 + 1)
      have hcomm :=
        ensureLayerCapacity_setLayer_takeRow pool hsome ((takeRow (pool.layers l)).1 + 1)
      simp only [hensure] at hcomm
      obtain ⟨heq, htake, hrows, hroom⟩ := hcomm
      rw [if_pos (not_lt.mp hlt), ← setLayer, heq, ← htake]
      simp only [setLayer, update_self, update_idem, takeRow_blockRows]
      exact ⟨_, _, rfl, hrest pool₂ hgrows.stores (hrows ▸ hrow) (htake ▸ hroom)⟩

/-- The rows `new` are the rows `old`, or some rows if there were none, with other slots. -/
def Rewrites (rowLen : ℕ) (old new : Option (List τ × List τ)) (start : ℕ) (k v : List τ) : Prop :=
  ∃ c : List τ × List τ, c.1.length = rowLen ∧ c.2.length = rowLen ∧ (∀ c' ∈ old, c' = c) ∧
    new = some (updateSlots c.1 start k, updateSlots c.2 start v)

lemma writeRow_spec (h : Ok refs pool) (hb : b ∈ refs) (hl : pool.layerOf b = some l)
    (hsome : (pool.layers l).poolMeta.isSome) (start : ℕ) (k v : List τ) :
    ∃ row pool₁ pool', pool.assignRow b l = (.ok row, pool₁) ∧
      pool₁.updateRow l row start k v = (.ok (), pool') ∧ Stores refs l b pool pool' ∧
      Rewrites pool.rowLen (pool.contents l b) (pool'.contents l b) start k v := by
  obtain ⟨row, pool₁, hassign, hstores, hrow, hkept⟩ := assignRow_spec h hb hl hsome
  obtain ⟨kRow, vRow, _, _, hcontents, hklen, hvlen⟩ := exists_contents hstores.ok hrow
  obtain ⟨pool', hupdate, hstores', hcontents'⟩ := updateRow_spec hstores.ok hrow start k v
  rw [hstores.rowLen_eq] at hklen hvlen
  refine ⟨row, pool₁, pool', hassign, hupdate, hstores.trans hstores', (kRow, vRow), hklen, hvlen, ?_,
    ?_⟩
  · intro c' hc'
    exact Option.some.inj ((hkept c' hc').symm.trans hcontents)
  · rw [hcontents', hcontents, Option.map_some]

/-- **A write into a block** changes that block or nothing. -/
theorem writeBlock_spec (h : Ok refs pool) (hb : b ∈ refs) (hl : pool.layerOf b = some l)
    (hbs : asI32 pool.layout.blockSize ≠ 0) (start : ℕ) (k v : MlxArray τ) :
    (∃ fault, pool.writeBlock b l start k v = (.error fault, pool)) ∨
      ∃ pool', pool.writeBlock b l start k v = (.ok (), pool') ∧ Stores refs l b pool pool' ∧
        Rewrites pool.rowLen (pool.contents l b) (pool'.contents l b) start k.tokens v.tokens := by
  by_cases hlayer : pool.layout.numLayers ≤ l
  · exact .inl ⟨_, by rw [writeBlock, if_pos hlayer]⟩
  by_cases hrecord : pool.blocks.lookup b = none
  · exact .inl ⟨_, by rw [writeBlock, if_neg hlayer, if_pos hrecord]⟩
  rw [writeBlock, if_neg hlayer, if_neg hrecord]
  cases hk : normalizeBlockForLayoutA k with
  | error fault => exact .inl ⟨fault, rfl⟩
  | ok kNorm =>
    cases hv : normalizeBlockForLayoutA v with
    | error fault => exact .inl ⟨fault, rfl⟩
    | ok vNorm =>
      obtain ⟨kTokens, nSlots, nKvHeads, headDim⟩ := kNorm
      obtain ⟨vTokens, vGeom⟩ := vNorm
      simp only
      split_ifs
      iterate 3 exact .inl ⟨_, rfl⟩
      rcases captureMeta_spec h hbs l nKvHeads headDim k.dtype with
        ⟨fault, hmeta⟩ | ⟨pool₁, hmeta, hgrows, hsome⟩
      · simp only [hmeta]
        exact .inl ⟨fault, rfl⟩
      · have hstores : Stores refs l b pool pool₁ := hgrows.stores
        rcases writeRow_spec hgrows.ok hb ((hstores.layerOf_eq b).trans hl) hsome start kTokens
          vTokens with ⟨row, pool₂, pool', hassign, hupdate, hstores', hrewrites⟩
        rw [hstores.rowLen_eq, hgrows.contents_eq, normalizeBlockForLayoutA_tokens hk,
          normalizeBlockForLayoutA_tokens hv] at hrewrites
        refine .inr ⟨pool', ?_, hstores.trans hstores', hrewrites⟩
        simp only [hmeta, hassign, hupdate]

lemma writeBlock_ofRow (h : Ok refs pool) (hb : b ∈ refs) (hl : pool.layerOf b = some l)
    (hlt : l < pool.layout.numLayers) {m : PagedPoolMeta} (hm : (pool.layers l).poolMeta = some m)
    {kRow vRow : List τ} (hk : kRow.length = pool.rowLen) (hv : vRow.length = pool.rowLen) :
    ∃ pool', pool.writeBlock b l 0 (.ofRow m.nKvHeads m.headDim m.dtype kRow)
        (.ofRow m.nKvHeads m.headDim m.dtype vRow) = (.ok (), pool') ∧
      Stores refs l b pool pool' ∧ pool'.contents l b = some (kRow, vRow) := by
  have hsome : (pool.layers l).poolMeta.isSome := by rw [hm]; rfl
  have hpos := (h.layerOk l).rowLen_pos hsome
  obtain ⟨record, hrecord, _⟩ := h.exists_record hb
  obtain ⟨row, pool₁, pool', hassign, hupdate, hstores, c, hklen, hvlen, _, hcontents⟩ :=
    writeRow_spec h hb hl hsome 0 kRow vRow
  have hfits : ¬ (pool.rowLen = 0 ∨
      asI32 pool.layout.blockSize < asI32 (asI32 (0 : ℕ) + pool.rowLen)) := by
    have hcast : (pool.rowLen : ℤ) = asI32 pool.layout.blockSize :=
      Int.toNat_of_nonneg (Int.pos_iff_toNat_pos.mpr hpos).le
    rw [asI32_natCast (Nat.two_pow_pos 31), Nat.cast_zero, zero_add, hcast, asI32_asI32]
    exact fun hor => hor.elim hpos.ne' (lt_irrefl _)
  refine ⟨pool', ?_, hstores, ?_⟩
  · rw [writeBlock, if_neg (not_le.mpr hlt), if_neg (by rw [hrecord]; simp)]
    simp only [normalizeBlockForLayoutA, MlxArray.ofRow, hk, hv, ne_eq, not_true_eq_false, if_false,
      if_neg hfits, captureMeta, hm, or_self, hassign, hupdate]
  · rw [hcontents, updateSlots_zero (hklen.trans hk.symm), updateSlots_zero (hvlen.trans hv.symm)]

/-- **Copy on write.** The copy has the rows of the block, and the reference to the block is gone. -/
theorem copyOnWriteBlock_spec {rest : Multiset PagedBlockId} {src : ℕ}
    (h : Ok (src ::ₘ rest) pool) :
    (∃ fault, pool.copyOnWriteBlock l src = (.error fault, pool)) ∨
      ∃ fresh pool', pool.copyOnWriteBlock l src = (.ok fresh, pool') ∧
        Steps rest {fresh} pool pool' ∧ fresh ∉ src ::ₘ rest ∧ pool'.layerOf fresh = some l ∧
        pool'.contents l fresh = pool.contents l src := by
  rw [copyOnWriteBlock]
  cases hm : (pool.layers l).poolMeta with
  | none => exact .inl ⟨_, rfl⟩
  | some m =>
    cases hrow : (pool.layers l).blockRows.lookup src with
    | none => exact .inl ⟨_, rfl⟩
    | some row =>
      obtain ⟨kRow, vRow, hk, hv, hcontents, hklen, hvlen⟩ := exists_contents h hrow
      simp only [hk, hv]
      rcases acquireBlock_spec h l with ⟨fresh, pool₁, hacquire, hacq⟩ | ⟨fault, hacquire⟩
      · have hmoves := hacq.moves
        have hrowLen : pool₁.rowLen = pool.rowLen := by rw [rowLen, hmoves.layout_eq, rowLen]
        rcases writeBlock_ofRow hmoves.ok (mem_cons_self _ _) hacq.layerOf_eq
          (hmoves.layout_eq ▸ hacq.layer_lt) (hacq.poolMeta_eq.trans hm)
          (hklen.trans hrowLen.symm) (hvlen.trans hrowLen.symm) with
          ⟨pool₂, hwrite, hstores, hcontents₂⟩
        have hne : fresh ≠ src := by
          rintro rfl
          exact hacq.notMem (mem_cons_self _ _)
        have hsrc : src ∈ fresh ::ₘ src ::ₘ rest :=
          mem_cons_of_mem (mem_cons_self _ _)
        obtain ⟨pool', hrelease, hmoves'⟩ := releaseBlock_spec hstores.ok hsrc
        rw [Multiset.erase_cons_tail _ hne, Multiset.erase_cons_head] at hmoves'
        simp only [hacquire, hwrite, hrelease]
        refine .inr ⟨fresh, pool', rfl, ?_, hacq.notMem, ?_, ?_⟩
        · have hcopy : Steps (src ::ₘ rest) {fresh} pool pool₂ :=
            (hmoves.steps le_rfl (singleton_add _ _).symm).trans
              (Stores.steps ((singleton_add fresh (src ::ₘ rest)).symm ▸ hstores)
                hacq.notMem)
          rw [← singleton_add src rest] at hcopy
          refine hcopy.weaken.trans (hmoves'.steps ?_ (singleton_add _ _).symm)
          exact (le_cons_self rest src).trans (le_cons_self _ fresh)
        · exact hmoves'.layerOf_eq ((hstores.layerOf_eq fresh).trans hacq.layerOf_eq)
        · rw [hmoves'.contents_eq (mem_cons_self _ _) (mem_cons_self _ _),
            hcontents₂, hcontents]
      · simp only [hacquire]
        exact .inl ⟨fault, rfl⟩

end Rows

end PagedBlockPool

end Mlxcel.Paged
