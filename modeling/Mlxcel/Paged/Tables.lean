import Mlxcel.Paged.Rows

/-!
# Block tables

A block table is a list of blocks of one layer. The operations on it are specified for a holder of
its references, while others hold `rest`: the table afterwards has exactly the references that the
holder then has, and the blocks of the others keep their contents. This also holds for calls that
fail or unwind in between.

`tableRows` are the rows behind the entries of a table. A prefill overwrites them one block after
another, and the entry of a shared block is replaced by that of a copy.
-/

namespace Mlxcel.Paged

open List MachineInt Multiset

variable {τ : Type}

namespace PagedBlockPool

/-- The blocks of a table are of its layer, each is there once, and they suffice for its tokens. -/
structure TableOk (pool : PagedBlockPool τ) (l : ℕ) (layer : PagedLayerState) : Prop where
  nodup : layer.blockIds.Nodup
  layerOf_eq : ∀ b ∈ layer.blockIds, pool.layerOf b = some l
  covers : layer.len ⌈/⌉ pool.layout.blockSize ≤ layer.blockIds.length

/-- The rows behind an entry of a table. -/
def tableRows (pool : PagedBlockPool τ) (l : ℕ) (blockIds : List PagedBlockId) (i : ℕ) :
    Option (List τ × List τ) :=
  blockIds[i]?.bind (pool.contents l)

variable {blockIds : List PagedBlockId}

lemma tableRows_of_getElem? (pool : PagedBlockPool τ) (l : ℕ) {i : ℕ} {b : PagedBlockId}
    (h : blockIds[i]? = some b) :
    pool.tableRows l blockIds i = pool.contents l b := by
  rw [tableRows, h, Option.bind_some]

variable {pool pool' : PagedBlockPool τ}

variable {rest own : Multiset PagedBlockId}

lemma Steps.tableOk (h : Steps rest own pool pool') {l : ℕ} {layer : PagedLayerState}
    (htable : TableOk pool l layer) : TableOk pool' l layer := by
  refine ⟨htable.nodup, fun b hb => h.layerOf_eq (htable.layerOf_eq b hb), ?_⟩
  rw [h.layout_eq]
  exact htable.covers

lemma Steps.append {blockIds new : List PagedBlockId} (h : Steps (blockIds + rest) new pool pool') :
    Steps rest (blockIds ++ new : List PagedBlockId) pool pool' := by
  rw [← coe_add, add_comm]
  exact h.weaken

/-- The rows behind a table of the others stay. -/
lemma Steps.tableRows_eq (h : Steps rest own pool pool') (hrest : ∀ b ∈ blockIds, b ∈ rest)
    (l i : ℕ) :
    pool'.tableRows l blockIds i = pool.tableRows l blockIds i := by
  rw [tableRows, tableRows]
  cases hb : blockIds[i]? with
  | none => rfl
  | some b => exact h.contents_eq (hrest b (mem_of_getElem? hb))

/-! ## Lengths -/

section Lengths

variable {rest : Multiset PagedBlockId} {pool : PagedBlockPool τ} {state : PagedSequenceState}
  {l : ℕ} {layer : PagedLayerState}

lemma setLayer_self (hlayer : state.layers[l]? = some layer) : state.setLayer l layer = state := by
  obtain ⟨hlt, rfl⟩ := List.getElem?_eq_some_iff.mp hlayer
  rw [PagedSequenceState.setLayer, set_getElem_self]

lemma setLayer_setLayer (state : PagedSequenceState) (l : ℕ) (layer layer' : PagedLayerState) :
    (state.setLayer l layer).setLayer l layer' = state.setLayer l layer' := by
  simp [PagedSequenceState.setLayer]

lemma getElem?_setLayer (hlayer : state.layers[l]? = some layer) (layer' : PagedLayerState) :
    (state.setLayer l layer').layers[l]? = some layer' := by
  obtain ⟨hlt, _⟩ := List.getElem?_eq_some_iff.mp hlayer
  exact getElem?_set_self hlt

section

variable (h : Ok (layer.blockIds + rest) pool)

include h

/-- **Appending** keeps the table and adds blocks that nobody else has. -/
theorem appendTokens_spec (hlayer : state.layers[l]? = some layer) (htable : TableOk pool l layer)
    {n : ℕ} (hn : n ≠ 0) :
    ∃ result pool' new len', pool.appendTokens state l n
        = (result, pool',
            state.setLayer l { layer with blockIds := layer.blockIds ++ new, len := len' }) ∧
      Steps (layer.blockIds + rest) new pool pool' ∧
      TableOk pool' l { layer with blockIds := layer.blockIds ++ new, len := len' } ∧
      (result = .ok () → len' = (layer.len + n) % 2 ^ 64 ∧
        new.length = len' ⌈/⌉ pool.layout.blockSize - layer.blockIds.length) := by
  rw [appendTokens]
  simp only [hlayer, if_neg hn]
  rcases acquireBlocks_spec l
      ((layer.len + n) % 2 ^ 64 ⌈/⌉ pool.layout.blockSize - layer.blockIds.length) h
      layer.blockIds with ⟨result, pool', new, heq, hsteps, hfresh, hlen⟩
  have hnodup : (layer.blockIds ++ new).Nodup := by
    refine .append htable.nodup hfresh.nodup fun b hb hb' => ?_
    exact hfresh.notMem b hb' (mem_add.mpr (.inl hb))
  have hlayerOf : ∀ b ∈ layer.blockIds ++ new, pool'.layerOf b = some l := by
    intro b hb
    rcases mem_append.mp hb with hb | hb
    · exact hsteps.layerOf_eq (htable.layerOf_eq b hb)
    · exact hfresh.layerOf_eq b hb
  cases result with
  | ok _ =>
    simp only [heq]
    refine ⟨.ok (), pool', new, _, rfl, hsteps, ⟨hnodup, hlayerOf, ?_⟩, fun _ => ⟨rfl, hlen rfl⟩⟩
    rw [hsteps.layout_eq, length_append, hlen rfl]
    exact le_add_tsub
  | error fault =>
    simp only [heq]
    refine ⟨.error fault, pool', new, layer.len, rfl, hsteps, ⟨hnodup, hlayerOf, ?_⟩, by simp⟩
    rw [hsteps.layout_eq, length_append]
    exact htable.covers.trans (Nat.le_add_right _ _)

/-- The end of a table that fewer tokens do not need. -/
lemma releaseTail_table (htable : TableOk pool l layer) {len : ℕ} (hlen : len ≤ layer.len)
    (logicalStart : ℕ) :
    ∃ pool', releaseTail (layer.blockIds.length - len ⌈/⌉ pool.layout.blockSize) pool layer.blockIds
        = (.ok (), pool', layer.blockIds.take (len ⌈/⌉ pool.layout.blockSize)) ∧
      Steps (layer.blockIds.take (len ⌈/⌉ pool.layout.blockSize) + rest) 0 pool pool' ∧
      TableOk pool' l
        ⟨layer.blockIds.take (len ⌈/⌉ pool.layout.blockSize), len, logicalStart⟩ ∧
      len ⌈/⌉ pool.layout.blockSize ≤ layer.blockIds.length := by
  have hpos := pool.layout.blockSize_pos
  have hle : len ⌈/⌉ pool.layout.blockSize ≤ layer.blockIds.length :=
    ((gc_mul_ceilDiv hpos).monotone_l hlen).trans htable.covers
  obtain ⟨pool', heq, hsteps⟩ :=
    releaseTail_spec (layer.blockIds.length - len ⌈/⌉ pool.layout.blockSize) h
  rw [Nat.sub_sub_self hle] at heq hsteps
  refine ⟨pool', heq, hsteps, ⟨htable.nodup.sublist (take_sublist _ _), ?_, ?_⟩, hle⟩
  · intro b hb
    exact hsteps.layerOf_eq (htable.layerOf_eq b (mem_of_mem_take hb))
  · rw [hsteps.layout_eq, length_take, Nat.min_eq_left hle]

/-- **Trimming** releases the blocks at the end of the table that are not needed any more. -/
theorem trimTokens_spec (hlayer : state.layers[l]? = some layer) (htable : TableOk pool l layer)
    (n : ℕ) :
    ∃ result pool' layer', pool.trimTokens state l n = (result, pool', state.setLayer l layer') ∧
      Steps (layer'.blockIds + rest) 0 pool pool' ∧ TableOk pool' l layer' ∧
      (∃ k, layer'.blockIds = layer.blockIds.take k) ∧
      (layer.logicalStart = 0 → layer'.logicalStart = 0 ∧ layer'.len = layer.len - n ∧
        (layer.blockIds.length = layer.len ⌈/⌉ pool.layout.blockSize →
          layer'.blockIds.length = layer'.len ⌈/⌉ pool.layout.blockSize)) := by
  rw [trimTokens]
  simp only [hlayer]
  split_ifs with hnone hempty
  · refine ⟨_, pool, layer, by rw [setLayer_self hlayer], ?_, htable,
      ⟨layer.blockIds.length, take_length.symm⟩, fun hstart => ⟨hstart, ?_, id⟩⟩
    · refine .refl ?_
      rw [zero_add]
      exact h
    · omega
  · obtain ⟨pool', heq, hsteps, htable', hle⟩ :=
      releaseTail_table h htable (Nat.zero_le layer.len) 0
    simp only [heq]
    refine ⟨_, pool', _, rfl, hsteps, htable', ⟨_, rfl⟩, fun hstart => ⟨rfl, ?_, fun _ => ?_⟩⟩
    · show 0 = layer.len - n
      omega
    · rw [length_take, Nat.min_eq_left hle]
  · rcases releaseTail_table h htable (Nat.sub_le layer.len
      (min n (layer.len - min layer.logicalStart layer.len))) layer.logicalStart with
      ⟨pool', heq, hsteps, htable', hle⟩
    simp only [heq]
    refine ⟨_, pool', _, rfl, hsteps, htable', ⟨_, rfl⟩, fun hstart => ⟨hstart, ?_, fun _ => ?_⟩⟩
    · show layer.len - min n (layer.len - min layer.logicalStart layer.len) = layer.len - n
      omega
    · rw [length_take, Nat.min_eq_left hle]

end

/-- **Releasing a sequence** releases all its tables. -/
theorem releaseLayers_spec (layers : List PagedLayerState)
    (h : Ok (layers.flatMap PagedLayerState.blockIds + rest) pool) :
    ∃ pool' layers', pool.releaseLayers layers = (.ok (), pool', layers') ∧
      Steps rest 0 pool pool' := by
  induction layers generalizing pool with
  | nil => exact ⟨pool, [], rfl, .refl h⟩
  | cons layer layers ih =>
    rw [flatMap_cons, ← coe_add, add_assoc] at h
    obtain ⟨pool₁, heq, hsteps⟩ := releaseTail_spec layer.blockIds.length h
    rw [Nat.sub_self, take_zero, coe_nil, zero_add] at hsteps
    have hok := hsteps.ok
    rw [zero_add] at hok
    obtain ⟨pool', layers', heq', hsteps'⟩ := ih hok
    refine ⟨pool', .new :: layers', ?_, hsteps.weaken.trans hsteps'⟩
    rw [releaseLayers]
    simp only [heq, heq']

end Lengths

/-! ## Prefill -/

/-- A table in which the entry `i` was written. -/
structure WrittenAt (pool pool' : PagedBlockPool τ) (l : ℕ) (blockIds blockIds' : List PagedBlockId)
    (i start : ℕ) (k v : List τ) : Prop where
  others : ∀ j ≠ i, pool'.tableRows l blockIds' j = pool.tableRows l blockIds j
  written : Rewrites pool.rowLen (pool.tableRows l blockIds i) (pool'.tableRows l blockIds' i)
    start k v

section Prefill

variable [Zero τ] {rest : Multiset PagedBlockId} {pool : PagedBlockPool τ}

variable {blockIds : List PagedBlockId} {l : ℕ} {state : PagedSequenceState}
variable {layer : PagedLayerState}

variable {i b : ℕ}

/-- What a write into some blocks of a table guarantees. -/
structure TableSteps (rest : Multiset PagedBlockId) (l : ℕ) (pool pool' : PagedBlockPool τ)
    (blockIds blockIds' : List PagedBlockId) : Prop where
  steps : Steps rest blockIds' pool pool'
  length_eq : blockIds'.length = blockIds.length
  nodup : blockIds'.Nodup
  layerOf_eq : ∀ b ∈ blockIds', pool'.layerOf b = some l

omit [Zero τ] in
lemma TableSteps.trans {pool' pool'' : PagedBlockPool τ} {blockIds' blockIds'' : List PagedBlockId}
    (h : TableSteps rest l pool pool' blockIds blockIds')
    (h' : TableSteps rest l pool' pool'' blockIds' blockIds'') :
    TableSteps rest l pool pool'' blockIds blockIds'' :=
  ⟨h.steps.trans h'.steps, h'.length_eq.trans h.length_eq, h'.nodup, h'.layerOf_eq⟩

omit [Zero τ] in
lemma TableSteps.rowLen_eq {blockIds' : List PagedBlockId}
    (h : TableSteps rest l pool pool' blockIds blockIds') : pool'.rowLen = pool.rowLen := by
  rw [rowLen, h.steps.layout_eq, rowLen]

omit [Zero τ] in
/-- What was written may be written again. -/
lemma TableSteps.after {blockIds' : List PagedBlockId}
    (h : TableSteps rest l pool pool' blockIds blockIds') :
    TableSteps rest l pool' pool' blockIds' blockIds' :=
  ⟨.refl h.steps.ok, rfl, h.nodup, h.layerOf_eq⟩

lemma writeBlock_table (ht : TableSteps rest l pool pool blockIds blockIds)
    (hi : blockIds[i]? = some b) (hb : b ∉ rest) (hbs : asI32 pool.layout.blockSize ≠ 0)
    (start : ℕ) (k v : MlxArray τ) :
    ∃ result pool', pool.writeBlock b l start k v = (result, pool') ∧
      TableSteps rest l pool pool' blockIds blockIds ∧
      (result = .ok () → WrittenAt pool pool' l blockIds blockIds i start k.tokens v.tokens) := by
  have hmem : b ∈ blockIds := mem_of_getElem? hi
  rcases writeBlock_spec ht.steps.ok (mem_add.mpr (.inl hmem)) (ht.layerOf_eq b hmem) hbs start k v
    with ⟨fault, heq⟩ | ⟨pool', heq, hstores, hrewrites⟩
  · exact ⟨_, pool, heq, ht, by simp⟩
  · have hsteps := hstores.steps hb
    refine ⟨_, pool', heq, ⟨hsteps, rfl, ht.nodup, fun b hb => hsteps.layerOf_eq (ht.layerOf_eq b hb)⟩,
      fun _ => ⟨?_, ?_⟩⟩
    · intro j hj
      rw [tableRows, tableRows]
      cases hb' : blockIds[j]? with
      | none => rfl
      | some b' =>
        refine hstores.contents_eq (.inr ?_)
        rintro rfl
        obtain ⟨hlt, heqi⟩ := List.getElem?_eq_some_iff.mp hi
        obtain ⟨hlt', heqj⟩ := List.getElem?_eq_some_iff.mp hb'
        exact hj (ht.nodup.getElem_inj_iff.mp (heqj.trans heqi.symm))
    · rw [tableRows_of_getElem? pool l hi, tableRows_of_getElem? pool' l hi]
      exact hrewrites

lemma copyOnWriteBlock_table (ht : TableSteps rest l pool pool blockIds blockIds)
    (hi : blockIds[i]? = some b) :
    (∃ fault, pool.copyOnWriteBlock l b = (.error fault, pool)) ∨
      ∃ fresh pool', pool.copyOnWriteBlock l b = (.ok fresh, pool') ∧
        TableSteps rest l pool pool' blockIds (blockIds.set i fresh) ∧
        (∀ j, pool'.tableRows l (blockIds.set i fresh) j = pool.tableRows l blockIds j) ∧
        (blockIds.set i fresh)[i]? = some fresh ∧ fresh ∉ rest := by
  obtain ⟨hlt, hb⟩ := List.getElem?_eq_some_iff.mp hi
  have hsplit : (blockIds : Multiset PagedBlockId) = b ::ₘ blockIds.eraseIdx i := by
    rw [cons_coe, coe_eq_coe, ← hb]
    exact (getElem_cons_eraseIdx_perm hlt).symm
  have hset : ∀ b', ((blockIds.set i b' : List PagedBlockId) : Multiset PagedBlockId)
      = b' ::ₘ blockIds.eraseIdx i := by
    intro b'
    rw [cons_coe, coe_eq_coe]
    exact set_perm_cons_eraseIdx hlt b'
  have hok : Ok (b ::ₘ (blockIds.eraseIdx i + rest)) pool := by
    rw [← cons_add, ← hsplit]
    exact ht.steps.ok
  rcases copyOnWriteBlock_spec (l := l) hok with
    hfault | ⟨fresh, pool', heq, hsteps, hfresh, hlayerOf', hcontents⟩
  · exact .inl hfault
  rw [← cons_add, ← hsplit, mem_add, not_or] at hfresh
  have hgetfresh : (blockIds.set i fresh)[i]? = some fresh := getElem?_set_self hlt
  refine .inr ⟨fresh, pool', heq, ⟨?_, length_set, ht.nodup.set hfresh.1, ?_⟩, ?_, hgetfresh,
    hfresh.2⟩
  · have hweak := hsteps.weaken
    rw [singleton_add, ← hset] at hweak
    exact hweak
  · intro b' hb'
    rcases mem_or_eq_of_mem_set hb' with hb' | rfl
    · exact hsteps.layerOf_eq (ht.layerOf_eq b' hb')
    · exact hlayerOf'
  · intro j
    by_cases hj : j = i
    · rw [hj, tableRows_of_getElem? pool' l hgetfresh, tableRows_of_getElem? pool l hi, hcontents]
    · rw [tableRows, tableRows, getElem?_set_ne (Ne.symm hj)]
      cases hb' : blockIds[j]? with
      | none => rfl
      | some b' =>
        refine hsteps.contents_eq (mem_add.mpr (.inl ?_))
        exact mem_eraseIdx_iff_getElem?.mpr ⟨j, hj, hb'⟩

/-- **One block of a prefill.** -/
lemma writeWindow_spec (hlayer : state.layers[l]? = some layer)
    (ht : TableSteps rest l pool pool layer.blockIds layer.blockIds)
    (hbs : asI32 pool.layout.blockSize ≠ 0)
    (nKvHeads headDim : ℕ) (k v : MlxArray τ) (i : ℕ) (w : Window) :
    ∃ result pool' blockIds', pool.writeWindow state l nKvHeads headDim k v i w
        = (result, pool', state.setLayer l { layer with blockIds := blockIds' }) ∧
      TableSteps rest l pool pool' layer.blockIds blockIds' ∧
      (result = .ok () → WrittenAt pool pool' l layer.blockIds blockIds' i w.slotStart
        (sliceTokens w.tokStart w.tokEnd k.tokens) (sliceTokens w.tokStart w.tokEnd v.tokens)) := by
  rw [writeWindow]
  simp only [hlayer]
  cases hi : layer.blockIds[i]? with
  | none => exact ⟨_, pool, layer.blockIds, by rw [setLayer_self hlayer], ht, by simp⟩
  | some b =>
    simp only
    split_ifs with hshared
    · rcases copyOnWriteBlock_table ht hi with
        ⟨fault, heq⟩ | ⟨fresh, pool₁, heq, htable, hrows, hfresh, hrest⟩
      · simp only [heq]
        exact ⟨_, pool, layer.blockIds, by rw [setLayer_self hlayer], ht, by simp⟩
      · rcases writeBlock_table htable.after hfresh hrest (htable.steps.layout_eq ▸ hbs) w.slotStart
          (k.slice nKvHeads headDim w.tokStart w.tokEnd)
          (v.slice nKvHeads headDim w.tokStart w.tokEnd) with
          ⟨result, pool', heq', htable', hwritten⟩
        simp only [heq, heq']
        refine ⟨result, pool', _, rfl, htable.trans htable', fun hok => ?_⟩
        refine ⟨fun j hj => ((hwritten hok).others j hj).trans (hrows j), ?_⟩
        rw [← htable.rowLen_eq, ← hrows i]
        exact (hwritten hok).written
    · have hb : b ∉ rest := by
        rw [ht.steps.ok.refcount_eq, count_add] at hshared
        have hpos : 0 < (layer.blockIds : Multiset PagedBlockId).count b :=
          count_pos.mpr (mem_of_getElem? hi)
        rw [← Multiset.count_eq_zero]
        omega
      rcases writeBlock_table ht hi hb hbs w.slotStart
        (k.slice nKvHeads headDim w.tokStart w.tokEnd)
        (v.slice nKvHeads headDim w.tokStart w.tokEnd) with ⟨result, pool', heq, htable, hwritten⟩
      simp only [heq]
      exact ⟨result, pool', layer.blockIds, by rw [setLayer_self hlayer], htable, hwritten⟩

/-- A table in which windows of some of its blocks were written. -/
structure Written (pool pool' : PagedBlockPool τ) (l : ℕ) (blockIds blockIds' : List PagedBlockId)
    (windows : List (ℕ × Window)) (k v : List τ) : Prop where
  others : ∀ j ∉ windows.map Prod.fst,
    pool'.tableRows l blockIds' j = pool.tableRows l blockIds j
  written : ∀ p ∈ windows, Rewrites pool.rowLen (pool.tableRows l blockIds p.1)
    (pool'.tableRows l blockIds' p.1) p.2.slotStart (sliceTokens p.2.tokStart p.2.tokEnd k)
    (sliceTokens p.2.tokStart p.2.tokEnd v)

/-- **The blocks of a prefill.** -/
lemma writeWindows_spec (nKvHeads headDim : ℕ) (k v : MlxArray τ) {windows : List (ℕ × Window)}
    (hwindows : (windows.map Prod.fst).Nodup) (hlayer : state.layers[l]? = some layer)
    (ht : TableSteps rest l pool pool layer.blockIds layer.blockIds)
    (hbs : asI32 pool.layout.blockSize ≠ 0) :
    ∃ result pool' blockIds', writeWindows l nKvHeads headDim k v windows pool state
        = (result, pool', state.setLayer l { layer with blockIds := blockIds' }) ∧
      TableSteps rest l pool pool' layer.blockIds blockIds' ∧
      (result = .ok () →
        Written pool pool' l layer.blockIds blockIds' windows k.tokens v.tokens) := by
  induction windows generalizing pool state layer with
  | nil =>
    refine ⟨.ok (), pool, layer.blockIds, ?_, ht, fun _ => ⟨fun _ _ => rfl, by simp⟩⟩
    rw [writeWindows, setLayer_self hlayer]
  | cons p windows ih =>
    obtain ⟨i, w⟩ := p
    obtain ⟨hi, hwindows⟩ := nodup_cons.mp hwindows
    rw [writeWindows]
    obtain ⟨result₁, pool₁, blockIds₁, heq₁, htable₁, hwritten₁⟩ :=
      writeWindow_spec hlayer ht hbs nKvHeads headDim k v i w
    simp only [heq₁]
    cases result₁ with
    | error fault => exact ⟨_, pool₁, blockIds₁, rfl, htable₁, by simp⟩
    | ok _ =>
      have hwritten₁ := hwritten₁ rfl
      let layer₁ : PagedLayerState := { layer with blockIds := blockIds₁ }
      rcases ih hwindows (getElem?_setLayer hlayer layer₁) htable₁.after
        (htable₁.steps.layout_eq ▸ hbs) with
        ⟨result, pool', blockIds', heq, htable, hwritten⟩
      refine ⟨result, pool', blockIds', ?_, htable₁.trans htable, fun hok => ⟨?_, ?_⟩⟩
      · simp only
        rw [heq, setLayer_setLayer]
      · intro j hj
        obtain ⟨hne, hj⟩ := not_or.mp (mt List.mem_cons.mpr hj)
        rw [(hwritten hok).others j hj, hwritten₁.others j hne]
      · intro p hp
        -- a block is written once, so its rows are those after its own write
        rcases mem_cons.mp hp with rfl | hp
        · rw [(hwritten hok).others i hi]
          exact hwritten₁.written
        · have hne : p.1 ≠ i := fun heq => hi (mem_map.mpr ⟨p, hp, heq⟩)
          rw [← htable₁.rowLen_eq, ← hwritten₁.others p.1 hne]
          exact (hwritten hok).written p hp

omit [Zero τ] in
lemma mem_spanWindows {firstAbs lastAbs blockSize : ℤ} {first last i : ℕ} {w : Window} :
    (i, w) ∈ spanWindows firstAbs lastAbs blockSize first last ↔
      (first ≤ i ∧ i ≤ last) ∧ window firstAbs lastAbs blockSize i = some w := by
  simp only [spanWindows, List.mem_filterMap, mem_range'_1, Option.map_eq_some_iff,
    Prod.mk.injEq]
  constructor
  · rintro ⟨j, hj, w', hw, rfl, rfl⟩
    exact ⟨by omega, hw⟩
  · rintro ⟨hi, hw⟩
    exact ⟨i, by omega, w, hw, rfl, rfl⟩

omit [Zero τ] in
lemma nodup_spanWindows (firstAbs lastAbs blockSize : ℤ) (first last : ℕ) :
    ((spanWindows firstAbs lastAbs blockSize first last).map Prod.fst).Nodup := by
  rw [spanWindows, List.map_filterMap]
  refine Nodup.filterMap ?_ nodup_range'
  intro i i' j hj hj'
  simp only [Option.mem_def, Option.map_map, Option.map_eq_some_iff, Function.comp_apply] at hj hj'
  obtain ⟨_, _, rfl⟩ := hj
  obtain ⟨_, _, rfl⟩ := hj'
  rfl

/-- **The writes of a prefill.** -/
lemma writeSpan_spec (hlayer : state.layers[l]? = some layer)
    (ht : TableSteps rest l pool pool layer.blockIds layer.blockIds) (nKvHeads headDim : ℕ) (firstAbs lastAbs : ℤ) (k v : MlxArray τ) :
    ∃ result pool' blockIds', pool.writeSpan state l nKvHeads headDim firstAbs lastAbs k v
        = (result, pool', state.setLayer l { layer with blockIds := blockIds' }) ∧
      TableSteps rest l pool pool' layer.blockIds blockIds' ∧
      (result = .ok () → ∃ first last,
        spanBlocks firstAbs lastAbs (asI32 pool.layout.blockSize) = some (first, last) ∧
        Written pool pool' l layer.blockIds blockIds'
          (spanWindows firstAbs lastAbs (asI32 pool.layout.blockSize) first last)
          k.tokens v.tokens) := by
  rw [writeSpan]
  cases hspan : spanBlocks firstAbs lastAbs (asI32 pool.layout.blockSize) with
  | none => exact ⟨_, pool, layer.blockIds, by rw [setLayer_self hlayer], ht, by simp⟩
  | some span =>
    obtain ⟨first, last⟩ := span
    have hbs : asI32 pool.layout.blockSize ≠ 0 := by
      intro hzero
      rw [hzero] at hspan
      simp [spanBlocks, divI32] at hspan
    simp only [hlayer]
    split_ifs
    · exact ⟨_, pool, layer.blockIds, by rw [setLayer_self hlayer], ht, by simp⟩
    rcases presizeForSpan_spec ht.steps.ok hbs l ((layer.blockIds.drop first).take (last + 1 - first))
      nKvHeads headDim k.dtype with ⟨fault, heq⟩ | ⟨pool₁, heq, hgrows⟩
    · simp only [heq]
      exact ⟨_, pool, layer.blockIds, by rw [setLayer_self hlayer], ht, by simp⟩
    · have hstores : ∀ b, Stores (layer.blockIds + rest) l b pool pool₁ := fun b => hgrows.stores
      have hsteps : Steps rest layer.blockIds pool pool₁ :=
        ⟨hgrows.layout_eq, fun hl => ((hstores 0).layerOf_eq _).trans hl, hgrows.ok,
          fun _ => hgrows.contents_eq _ _⟩
      have hrows : ∀ i, pool₁.tableRows l layer.blockIds i = pool.tableRows l layer.blockIds i := by
        intro i
        rw [tableRows, tableRows, funext (hgrows.contents_eq l)]
      have htable₁ : TableSteps rest l pool pool₁ layer.blockIds layer.blockIds :=
        ⟨hsteps, rfl, ht.nodup, fun b hb => hsteps.layerOf_eq (ht.layerOf_eq b hb)⟩
      rcases writeWindows_spec nKvHeads headDim k v
        (nodup_spanWindows firstAbs lastAbs (asI32 pool.layout.blockSize) first last) hlayer
        htable₁.after (hgrows.layout_eq ▸ hbs) with
        ⟨result, pool', blockIds', heq', htable, hwritten⟩
      simp only [heq]
      refine ⟨result, pool', blockIds', heq', htable₁.trans htable,
        fun hok => ⟨first, last, rfl, ?_, ?_⟩⟩
      · intro j hj
        rw [(hwritten hok).others j hj, hrows]
      · intro p hp
        rw [← hrows, ← htable₁.rowLen_eq]
        exact (hwritten hok).written p hp

omit [Zero τ] in
lemma Rewrites.mono {rowLen : ℕ} {old old' new : Option (List τ × List τ)} {start : ℕ}
    {k v : List τ} (h : Rewrites rowLen old new start k v) (hold : ∀ c ∈ old', c ∈ old) :
    Rewrites rowLen old' new start k v := by
  obtain ⟨c, hk, hv, hc, hnew⟩ := h
  exact ⟨c, hk, hv, fun c' hc' => hc c' (hold c' hc'), hnew⟩

/-- A layer after a prefill that succeeded. -/
structure Prefilled (pool pool' : PagedBlockPool τ) (l : ℕ) (layer layer' : PagedLayerState)
    (k v : MlxArray τ) : Prop where
  logicalStart_eq : layer'.logicalStart = layer.logicalStart
  length_eq : v.tokens.length = k.tokens.length
  -- An empty prefill changes nothing.
  empty : k.tokens = [] → layer' = layer ∧ pool' = pool
  len_eq : k.tokens ≠ [] → layer'.len = (layer.len + k.tokens.length) % 2 ^ 64
  table_length : k.tokens ≠ [] → layer'.blockIds.length
    = max layer.blockIds.length (layer'.len ⌈/⌉ pool.layout.blockSize)
  written : k.tokens ≠ [] → ∃ first last, spanBlocks (asI32 layer.len)
      (asI32 (asI32 layer.len + k.tokens.length)) (asI32 pool.layout.blockSize)
        = some (first, last) ∧
    (∀ j, j < first ∨ last < j → ∀ c ∈ pool.tableRows l layer.blockIds j,
      pool'.tableRows l layer'.blockIds j = some c) ∧
    ∀ j, first ≤ j → j ≤ last → ∀ w, window (asI32 layer.len)
        (asI32 (asI32 layer.len + k.tokens.length)) (asI32 pool.layout.blockSize) j = some w →
      Rewrites pool.rowLen (pool.tableRows l layer.blockIds j)
        (pool'.tableRows l layer'.blockIds j) w.slotStart (sliceTokens w.tokStart w.tokEnd k.tokens)
        (sliceTokens w.tokStart w.tokEnd v.tokens)

/-- **A prefill** writes the table of one layer, and others keep what they have. -/
theorem writePrefill_spec (h : Ok (layer.blockIds + rest) pool)
    (hlayer : state.layers[l]? = some layer) (htable : TableOk pool l layer) (k v : MlxArray τ) :
    ∃ result pool' layer', pool.writePrefill state l k v
        = (result, pool', state.setLayer l layer') ∧
      Steps rest layer'.blockIds pool pool' ∧ TableOk pool' l layer' ∧
      (result = .ok () → Prefilled pool pool' l layer layer' k v) := by
  have hsame : ∀ fault : Fault, ∃ result pool' layer',
      (Except.error fault, pool, state) = (result, pool', state.setLayer l layer') ∧
      Steps rest layer'.blockIds pool pool' ∧ TableOk pool' l layer' ∧
      (result = .ok () → Prefilled pool pool' l layer layer' k v) := by
    intro fault
    exact ⟨_, pool, layer, by rw [setLayer_self hlayer], .refl h, htable, by simp⟩
  by_cases hrange : pool.layout.numLayers ≤ l
  · rw [writePrefill, if_pos hrange]
    exact hsame _
  rw [writePrefill, if_neg hrange]
  split
  · next batch nKvHeads nNew headDim hshape =>
      have hk : k.tokens.length = nNew := k.length_eq nNew (by rw [hshape]; rfl)
      have hvlen : v.shape = k.shape → v.tokens.length = k.tokens.length := by
        intro hv
        rw [hk]
        exact v.length_eq nNew (by rw [hv, hshape]; rfl)
      split_ifs with hbatch hv hdtype hzero
      iterate 3 exact hsame _
      · have hempty : k.tokens = [] := length_eq_zero_iff.mp (hk.trans hzero)
        refine ⟨.ok (), pool, layer, by rw [setLayer_self hlayer], .refl h, htable, fun _ => ?_⟩
        exact ⟨rfl, hvlen (not_not.mp hv), fun _ => ⟨rfl, rfl⟩, absurd hempty, absurd hempty,
          absurd hempty⟩
      · obtain ⟨result₁, pool₁, new, len', heq₁, hsteps₁, htable₁, hlen⟩ :=
          appendTokens_spec h hlayer htable hzero
        have hsteps₁' := hsteps₁.append
        have hkept : ∀ {j c}, pool.tableRows l layer.blockIds j = some c →
            pool₁.tableRows l (layer.blockIds ++ new) j = some c := by
          intro j c hc
          obtain ⟨b, hb, hcontents⟩ := Option.bind_eq_some_iff.mp hc
          have hb' : (layer.blockIds ++ new)[j]? = some b := by
            rw [getElem?_append_left (List.getElem?_eq_some_iff.mp hb).1]
            exact hb
          rw [tableRows_of_getElem? pool₁ l hb',
            hsteps₁.contents_eq (mem_add.mpr (.inl (mem_of_getElem? hb)))]
          exact hcontents
        have hrowLen : pool₁.rowLen = pool.rowLen := by rw [rowLen, hsteps₁.layout_eq, rowLen]
        simp only [hlayer, heq₁]
        cases result₁ with
        | error fault => exact ⟨_, pool₁, _, rfl, hsteps₁', htable₁, by simp⟩
        | ok _ =>
          obtain ⟨hlen', hnew⟩ := hlen rfl
          let layer₁ : PagedLayerState :=
            { layer with blockIds := layer.blockIds ++ new, len := len' }
          rcases writeSpan_spec (getElem?_setLayer hlayer layer₁)
            ⟨.refl hsteps₁'.ok, rfl, htable₁.nodup, htable₁.layerOf_eq⟩ nKvHeads headDim
            (asI32 layer.len) (asI32 (asI32 layer.len + nNew)) k v with
            ⟨result, pool', blockIds', heq', htable', hwritten⟩
          rw [setLayer_setLayer] at heq'
          refine ⟨result, pool', _, heq', hsteps₁'.trans htable'.steps,
            ⟨htable'.nodup, htable'.layerOf_eq, ?_⟩, fun hok =>
              ⟨rfl, hvlen (not_not.mp hv), ?_, ?_, ?_, ?_⟩⟩
          · rw [htable'.steps.layout_eq, htable'.length_eq]
            exact htable₁.covers
          · intro hempty
            exact absurd (hk.symm.trans (length_eq_zero_iff.mpr hempty)) hzero
          · intro _
            rw [hk]
            exact hlen'
          · intro _
            rw [htable'.length_eq, length_append, hnew]
            exact add_tsub_eq_max
          · intro _
            obtain ⟨first, last, hspan, hrows⟩ := hwritten hok
            rw [hsteps₁.layout_eq] at hspan hrows
            rw [hk]
            refine ⟨first, last, hspan, ?_, ?_⟩
            · intro j hj c hc
              rw [hrows.others j, hkept hc]
              intro hmem
              obtain ⟨⟨i, w⟩, hw, rfl⟩ := mem_map.mp hmem
              have := (mem_spanWindows.mp hw).1
              omega
            · intro j hfirst hlast w hw
              have hrewrites := hrows.written (j, w) (mem_spanWindows.mpr ⟨⟨hfirst, hlast⟩, hw⟩)
              rw [hrowLen] at hrewrites
              exact hrewrites.mono fun c hc => hkept hc
  · exact hsame _

end Prefill

end PagedBlockPool

end Mlxcel.Paged
