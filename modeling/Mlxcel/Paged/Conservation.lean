import Mlxcel.Paged.Holders

/-!
# Conservation of references

In every state that a run of calls reaches, the count of a block is the number of references to it,
the free lists have the blocks without references, and the rows of the blocks are disjoint. The
runs include calls that fail or unwind, which keep what they did before.

**Two exceptions.** `trim_detached_paged_to` gives every layer the same number of tokens, also a
layer whose table is too short for them, and `retain_block` does not count beyond `u32::MAX`. A run
in which no call does either is `Fits`.
-/

namespace Mlxcel.Paged

open List AssocMap MachineInt PagedBlockPool SequenceCacheSet CachePool Multiset

variable {τ : Type}

namespace World

/-- The invariant of runs. -/
structure Conserved (w : World τ) : Prop where
  id_lt : ∀ {id s}, w.cache.active.lookup id = some s → id < w.cache.nextId
  handle_lt : ∀ {handle d}, w.detached.lookup handle = some d → handle < w.nextHandle
  -- Nobody has a table before there is a pool.
  idle : w.cache.pagedPool = none → (∀ {id s}, w.cache.active.lookup id = some s → s.paged = none) ∧
    ∀ handle, w.detached.lookup handle = none
  holders : ∀ {pool}, w.cache.pagedPool = some pool → Holders pool w.cache.active w.detached

variable {w : World τ}

lemma Conserved.fresh_id (h : Conserved w) : w.cache.active.lookup w.cache.nextId = none :=
  lookup_eq_none_of_lt h.id_lt

lemma Conserved.fresh_handle (h : Conserved w) : w.detached.lookup w.nextHandle = none :=
  lookup_eq_none_of_lt h.handle_lt

lemma conserved_init (maxSequences : ℕ) : Conserved (init maxSequences : World τ) := by
  refine ⟨?_, ?_, ?_, ?_⟩
  · intro id s hs
    exact absurd hs (by simp [init, CachePool.new])
  · intro handle d hd
    exact absurd hd (by simp [init])
  · intro _
    exact ⟨fun hs => absurd hs (by simp [init, CachePool.new]), fun _ => rfl⟩
  · intro pool hpool
    exact absurd hpool (by simp [init, CachePool.new])

/-- Once there is a pool, only its holders matter. -/
lemma conserved_of_holders {pool : PagedBlockPool τ} (hpool : w.cache.pagedPool = some pool)
    (hid : ∀ {id s}, w.cache.active.lookup id = some s → id < w.cache.nextId)
    (hhandle : ∀ {handle d}, w.detached.lookup handle = some d → handle < w.nextHandle)
    (hold : Holders pool w.cache.active w.detached) : Conserved w := by
  refine ⟨hid, hhandle, ?_, ?_⟩
  · intro hnone
    rw [hpool] at hnone
    cases hnone
  · intro pool' hpool'
    rw [← Option.some.inj (hpool.symm.trans hpool')]
    exact hold

/-! ## Active sequences -/

section Active

variable {w : World τ}

variable {pool : PagedBlockPool τ}

/-- A budget does not touch any block. -/
lemma steps_blockBudget {refs : Multiset PagedBlockId} (h : Ok refs pool) (maxBlocks : Option ℕ) :
    Steps refs 0 pool { pool with blockBudget := maxBlocks } := by
  refine ⟨rfl, id, ?_, fun _ => rfl⟩
  rw [zero_add]
  exact ⟨h.refcount_eq, h.id_lt, h.layerOk⟩

lemma conserved_setPagedBlockBudget (h : Conserved w) (maxBlocks : Option ℕ) :
    Conserved { w with cache := w.cache.setPagedBlockBudget maxBlocks } := by
  refine ⟨h.id_lt, h.handle_lt, ?_, ?_⟩
  · intro hnone
    exact h.idle (Option.map_eq_none_iff.mp hnone)
  · intro pool' hpool'
    obtain ⟨pool, hpool, rfl⟩ := Option.map_eq_some_iff.mp hpool'
    have hold := h.holders hpool
    exact hold.moved (steps_blockBudget hold.ok maxBlocks) (zero_add _) .inl .inl

variable {s : SequenceCacheSet}

variable {cache : CachePool τ}

lemma conserved_insert (h : Conserved w)
    (hactive : cache.active = w.cache.active.insert w.cache.nextId s)
    (hnext : cache.nextId = w.cache.nextId + 1) (hrefs : s.refs = 0)
    (hidle : cache.pagedPool = none → w.cache.pagedPool = none ∧ s.paged = none)
    (hholders : ∀ {pool}, cache.pagedPool = some pool →
      Holders pool w.cache.active w.detached ∧ SequenceOk pool s) :
    Conserved { w with cache } := by
  refine ⟨?_, h.handle_lt, ?_, ?_⟩
  · intro id s' hs'
    rw [hnext]
    rw [hactive] at hs'
    exact lt_of_lookup_insert (Nat.lt_succ_self _) (fun hs => Nat.lt_succ_of_lt (h.id_lt hs)) hs'
  · intro hnone
    obtain ⟨hpool, hpaged⟩ := hidle hnone
    refine ⟨?_, (h.idle hpool).2⟩
    intro _ s' hs'
    rw [hactive] at hs'
    exact (lookup_insert_or (Q := fun s => s.paged = none) hpaged hs').elim (h.idle hpool).1 id
  · intro pool hpool
    obtain ⟨hold, hseq⟩ := hholders hpool
    have hok : Ok (0 + references w.cache.active w.detached) pool := by
      rw [zero_add]
      exact hold.ok
    refine hold.moved (.refl hok) ?_ ?_ .inl
    · rw [hactive, references_insert_active, erase_eq_self h.fresh_id, hrefs]
    · rw [hactive]
      exact lookup_insert_or hseq

lemma conserved_nextId (h : Conserved w) (hactive : cache.active = w.cache.active)
    (hnext : cache.nextId = w.cache.nextId + 1) (hpool : cache.pagedPool = w.cache.pagedPool) :
    Conserved { w with cache } := by
  refine ⟨?_, h.handle_lt, ?_, ?_⟩
  · intro id s hs
    rw [hnext]
    rw [hactive] at hs
    exact (h.id_lt hs).trans (Nat.lt_succ_self _)
  · intro hnone
    rw [hactive]
    exact h.idle (hpool ▸ hnone)
  · intro pool hsome
    rw [hactive]
    exact h.holders (hpool ▸ hsome)

variable (layout : PagedKvLayout)

lemma ok_new (budget : Option ℕ) :
    Ok 0 { (new layout : PagedBlockPool τ) with blockBudget := budget } := by
  refine ⟨fun b => rfl, fun hb => absurd hb (by simp [PagedBlockPool.new]), fun l => ?_⟩
  refine ⟨nodup_nil, ?_, .refl _, ?_, le_rfl, rfl, rfl, ?_, ?_, ?_⟩
  all_goals simp [PagedBlockPool.new]

lemma references_eq_zero (h : Conserved w) (hnone : w.cache.pagedPool = none) :
    references w.cache.active w.detached = 0 := by
  obtain ⟨hactive, hdetached⟩ := h.idle hnone
  have hsequences : ∀ refs ∈ w.cache.active.entries.map (fun e => e.2.refs), refs = 0 := by
    intro refs hrefs
    obtain ⟨e, he, rfl⟩ := mem_map.mp hrefs
    have hlookup : w.cache.active.lookup e.1 = some e.2 := AList.mem_lookup_iff.mpr he
    rw [refs, hactive hlookup]
    rfl
  have hsets : ∀ refs ∈ w.detached.entries.map (fun e => e.2.refs), refs = 0 := by
    intro refs hrefs
    obtain ⟨e, he, rfl⟩ := mem_map.mp hrefs
    have hlookup : w.detached.lookup e.1 = some e.2 := AList.mem_lookup_iff.mpr he
    rw [hdetached] at hlookup
    cases hlookup
  rw [references, sum_eq_zero hsequences, sum_eq_zero hsets, add_zero]

lemma stateOk_new (pool : PagedBlockPool τ) : StateOk pool (PagedSequenceState.new pool.layout) := by
  refine ⟨rfl, length_replicate, ?_⟩
  intro l layer hlayer
  rw [List.eq_of_mem_replicate (mem_of_getElem? hlayer)]
  exact ⟨nodup_nil, by simp [PagedLayerState.new], by simp [PagedLayerState.new]⟩

lemma blockIds_new : (PagedSequenceState.new layout).blockIds = [] := by
  rw [PagedSequenceState.blockIds, flatMap_eq_nil_iff]
  intro layer hlayer
  rw [List.eq_of_mem_replicate hlayer]
  rfl

section

variable (h : Conserved w)

include h

theorem conserved_allocateWithLayout (layout : SequenceStateLayout) :
    Conserved { w with cache := (w.cache.allocateWithLayout layout).2 } := by
  have hbare : ∀ backend, Conserved { w with cache := { w.cache with
      nextId := w.cache.nextId + 1
      active := w.cache.active.insert w.cache.nextId ⟨backend, none, none⟩ } } := by
    intro backend
    refine conserved_insert h rfl rfl rfl (fun hnone => ⟨hnone, rfl⟩) fun hpool => ?_
    exact ⟨h.holders hpool, by simp, by simp⟩
  by_cases hfull : layout.backend = .denseKvCache ∧ w.cache.maxSequences ≤ w.cache.active.entries.length
  · rw [allocateWithLayout, if_pos hfull]
    exact h
  rw [allocateWithLayout, if_neg hfull]
  obtain ⟨backend, pagedLayout⟩ := layout
  cases backend with
  | denseKvCache => exact hbare .denseKvCache
  | modelOwned => exact hbare .modelOwned
  | pagedKvCache =>
    cases pagedLayout with
    | none => exact conserved_nextId h rfl rfl rfl
    | some pagedLayout =>
      have hrefs : refs ⟨.pagedKvCache,
          some (.new pagedLayout), some pagedLayout⟩ = 0 := by
        rw [refs, Option.elim_some, blockIds_new]
        rfl
      simp only [ensurePagedPool]
      cases hpool : w.cache.pagedPool with
      | some pool =>
        simp only
        split_ifs with hlayout
        · exact conserved_nextId h rfl rfl hpool.symm
        · refine conserved_insert h rfl rfl hrefs (fun hnone => by simp at hnone) fun heq => ?_
          rw [← Option.some.inj heq, ← not_not.mp hlayout]
          exact ⟨h.holders hpool, by simp, by simp [stateOk_new]⟩
      | none =>
        refine conserved_insert h rfl rfl hrefs (fun hnone => by simp at hnone) fun heq => ?_
        rw [← Option.some.inj heq]
        refine ⟨⟨?_, ?_, ?_⟩, by simp [PagedBlockPool.new], ?_⟩
        · rw [references_eq_zero h hpool]
          exact ok_new pagedLayout _
        · intro id s hs
          have hpaged := (h.idle hpool).1 hs
          exact ⟨by simp [hpaged], by simp [hpaged]⟩
        · intro handle d hd
          rw [(h.idle hpool).2] at hd
          cases hd
        · intro state hstate
          rw [← Option.some.inj hstate]
          exact stateOk_new { (.new pagedLayout : PagedBlockPool τ) with
            blockBudget := w.cache.pagedBlockBudget }

variable {id : SequenceId}

lemma Conserved.ok_active (hpool : w.cache.pagedPool = some pool)
    (hs : w.cache.active.lookup id = some s) {state : PagedSequenceState}
    (hstate : s.paged = some state) :
    Ok (state.blockIds + references (w.cache.active.erase id) w.detached) pool := by
  have hok := (h.holders hpool).ok
  rw [references_eq_active hs, refs, hstate] at hok
  exact hok

lemma Conserved.setTables {pool pool' : PagedBlockPool τ} (hpool : w.cache.pagedPool = some pool)
    (hs : w.cache.active.lookup id = some s) {state state' : PagedSequenceState}
    (hstate : s.paged = some state)
    (hsteps : Steps (references (w.cache.active.erase id) w.detached) state'.blockIds pool pool')
    (hstate' : StateOk pool' state') :
    Conserved { w with cache := { w.cache with
      pagedPool := some pool', active := w.cache.active.insert id { s with paged := some state' } } } := by
  have hold := h.holders hpool
  have hseq := hold.sequenceOk hs
  refine conserved_of_holders rfl ?_ h.handle_lt (hold.moved hsteps ?_ ?_ .inl)
  · exact lt_of_lookup_insert (h.id_lt hs) h.id_lt
  · rw [references_insert_active]
    rfl
  · refine lookup_insert_or ⟨fun _ layout hlayout => ?_, fun state' heq => ?_⟩
    · rw [hsteps.layout_eq]
      exact hseq.layout_eq (by rw [hstate]; rfl) layout hlayout
    · rw [← Option.some.inj heq]
      exact hstate'

theorem conserved_withPoolAndState {α : Type}
    {f : PagedBlockPool τ →
      PagedSequenceState → Except Fault α × PagedBlockPool τ × PagedSequenceState}
    (hf : KeepsTables f) (id : SequenceId) :
    Conserved { w with cache := (w.cache.withPoolAndState id f).2 } := by
  rcases w.cache.withPoolAndState_cases id f with
    ⟨fault, heq⟩ | ⟨pool, s, state, hpool, hs, hstate, heq⟩
  · rw [heq]
    exact h
  · rw [heq]
    have hseq := (h.holders hpool).sequenceOk hs
    obtain ⟨hsteps, hstate'⟩ := hf (hseq.stateOk state hstate) (h.ok_active hpool hs hstate)
    exact h.setTables hpool hs hstate hsteps hstate'

lemma release_spec (hs : w.cache.active.lookup id = some s)
    (hpool : w.cache.pagedPool = some pool) :
    ∃ pool', w.cache.release id
        = { w.cache with pagedPool := some pool', active := w.cache.active.erase id } ∧
      Steps (references (w.cache.active.erase id) w.detached) 0 pool pool' := by
  simp only [release, hs]
  cases hstate : s.paged with
  | none =>
    have hok := (h.holders hpool).ok
    rw [references_eq_active hs, refs, hstate] at hok
    simp only [hpool]
    exact ⟨pool, rfl, .refl hok⟩
  | some state =>
    obtain ⟨pool', layers', heq, hsteps⟩ :=
      releaseLayers_spec state.layers (h.ok_active hpool hs hstate)
    simp only [hpool, releaseSequence, heq]
    exact ⟨pool', rfl, hsteps⟩

theorem conserved_release (id : SequenceId) :
    Conserved { w with cache := w.cache.release id } := by
  have hlt : ∀ {id' s'}, (w.cache.active.erase id).lookup id' = some s' → id' < w.cache.nextId :=
    fun hs' => h.id_lt (lookup_of_erase hs')
  cases hs : w.cache.active.lookup id with
  | none =>
    simp only [release, hs]
    exact h
  | some s =>
    cases hpool : w.cache.pagedPool with
    | none =>
      simp only [release, hs, hpool]
      refine ⟨hlt, h.handle_lt, fun _ => ⟨fun hs' => ?_, (h.idle hpool).2⟩, by simp⟩
      exact (h.idle hpool).1 (lookup_of_erase hs')
    | some pool =>
      obtain ⟨pool', heq, hsteps⟩ := release_spec h hs hpool
      rw [heq]
      refine conserved_of_holders rfl hlt h.handle_lt
        ((h.holders hpool).moved hsteps (zero_add _) ?_ .inl)
      exact fun hs' => .inl (lookup_of_erase hs')

end

end Active

/-! ## Detached sets -/

section Detached

variable {w : World τ}

variable {pool : PagedBlockPool τ} {handle : ℕ} {d : DetachedPagedCacheSet}
variable {state : PagedSequenceState} {target : ℕ}

/-- The references of one set, seen from all others. -/
lemma Conserved.ok_detached (h : Conserved w) (hpool : w.cache.pagedPool = some pool)
    (hd : w.detached.lookup handle = some d) {pins : List PagedBlockId}
    (hpins : d.retainedBlocks = some pins) :
    Ok (d.pagedState.blockIds + pins + references w.cache.active (w.detached.erase handle))
      pool := by
  have hok := (h.holders hpool).ok
  rw [references_eq_detached hd, DetachedPagedCacheSet.refs, hpins] at hok
  exact hok

lemma Conserved.exists_pool (h : Conserved w) (hd : w.detached.lookup handle = some d) :
    ∃ pool, w.cache.pagedPool = some pool := by
  refine Option.ne_none_iff_exists'.mp fun hnone => ?_
  rw [(h.idle hnone).2] at hd
  cases hd

/-- The blocks of a holder are referenced once each, so pinning them needs room for one. -/
lemma retainAll_blockIds {refs : Multiset PagedBlockId} (hok : Ok refs pool)
    (hstate : StateOk pool state) (hmem : ∀ b ∈ state.blockIds, b ∈ refs)
    (hroom : ∀ b ∈ state.blockIds, pool.refcount b < u32Max) :
    ∃ pool', retainAll pool state.blockIds = (none, pool') ∧
      Steps refs state.blockIds pool pool' := by
  refine retainAll_spec _ hok hmem fun b hb => ?_
  rw [count_eq_one_of_mem hstate.nodup hb, ← hok.refcount_eq]
  exact hroom b hb

/-- A detach has room if no count is at its limit. -/
abbrev DetachFits (w : World τ) (id : SequenceId) : Prop :=
  ∀ pool ∈ w.cache.pagedPool, ∀ s ∈ w.cache.active.lookup id, ∀ state ∈ s.paged,
    ∀ b ∈ state.blockIds, pool.refcount b < u32Max

section

variable (h : Conserved w)

include h

variable {id : SequenceId}

/-- **Detaching** pins the blocks of the sequence, or changes nothing. -/
lemma detachPaged_spec (hfits : DetachFits w id) :
    w.cache.detachPaged id = (none, w.cache) ∨
      ∃ s state pool pool', w.cache.active.lookup id = some s ∧ s.paged = some state ∧
        w.cache.pagedPool = some pool ∧
        w.cache.detachPaged id = (some ⟨state, pool.layout, s.backend, some state.blockIds⟩,
          { w.cache with pagedPool := some pool', active := w.cache.active.erase id }) ∧
        Steps (references w.cache.active w.detached) state.blockIds pool pool' := by
  rw [detachPaged]
  cases hs : w.cache.active.lookup id with
  | none => exact .inl rfl
  | some s =>
    simp only
    cases hstate : s.paged with
    | none => exact .inl rfl
    | some state =>
      cases hlayout : s.pagedLayout with
      | none => exact .inl rfl
      | some layout =>
        split_ifs with hbackend
        · exact .inl rfl
        cases hpool : w.cache.pagedPool with
        | none =>
          have hnone := (h.idle hpool).1 hs
          rw [hstate] at hnone
          cases hnone
        | some pool =>
          have hold := h.holders hpool
          have hseq := hold.sequenceOk hs
          rcases retainAll_blockIds hold.ok (hseq.stateOk state hstate)
            (fun _ => mem_references_active hs hstate) (hfits pool hpool s hs state hstate)
            with ⟨pool', hretain, hsteps⟩
          simp only [pinBlocks, hretain]
          refine .inr ⟨s, state, pool, pool', rfl, hstate, rfl, ?_, hsteps⟩
          rw [hseq.layout_eq (by rw [hstate]; rfl) layout hlayout]

variable {pool' : PagedBlockPool τ}

lemma conserved_detached {s : SequenceCacheSet} (hs : w.cache.active.lookup id = some s)
    (hstate : s.paged = some state) (hpool : w.cache.pagedPool = some pool)
    (hsteps : Steps (references w.cache.active w.detached) state.blockIds pool pool') :
    Conserved (w.addDetached
      { w.cache with pagedPool := some pool', active := w.cache.active.erase id }
      ⟨state, pool.layout, s.backend, some state.blockIds⟩) := by
  have hold := h.holders hpool
  refine conserved_of_holders rfl ?_ ?_ (hold.moved hsteps ?_ ?_ ?_)
  · exact fun hs' => h.id_lt (lookup_of_erase hs')
  · exact lt_of_lookup_insert (Nat.lt_succ_self _) fun hd => Nat.lt_succ_of_lt (h.handle_lt hd)
  · simp only [addDetached]
    rw [references_insert_detached, erase_eq_self h.fresh_handle, references_eq_active hs,
      refs, hstate, DetachedPagedCacheSet.refs, Option.getD_some, Option.elim_some,
      add_assoc]
  · exact fun hs' => .inl (lookup_of_erase hs')
  · refine lookup_insert_or ⟨hsteps.layout_eq.symm, ?_, _, rfl, .refl _⟩
    exact hsteps.stateOk ((hold.sequenceOk hs).stateOk state hstate)

variable (hd : w.detached.lookup handle = some d)

include hd

/-- Releasing a set releases its table and its pins. -/
lemma releaseDetachedPaged_spec (hpool : w.cache.pagedPool = some pool) :
    ∃ pool', w.cache.releaseDetachedPaged d = (.ok (), { w.cache with pagedPool := some pool' }) ∧
      Steps (references w.cache.active (w.detached.erase handle)) 0 pool pool' := by
  obtain ⟨pins, hpins, _⟩ := ((h.holders hpool).setOk hd).retained
  have hok := h.ok_detached hpool hd hpins
  rw [add_comm (d.pagedState.blockIds : Multiset PagedBlockId)] at hok
  obtain ⟨pool', heq, hsteps⟩ := releaseAll_spec _ hok
  simp only [releaseDetachedPaged, hpins, hpool, heq]
  exact ⟨pool', rfl, hsteps⟩

theorem conserved_releaseDetachedPaged : Conserved { w with
      cache := (w.cache.releaseDetachedPaged d).2, detached := w.detached.erase handle } := by
  obtain ⟨pool, hpool⟩ := h.exists_pool hd
  obtain ⟨pool', heq, hsteps⟩ := releaseDetachedPaged_spec h hd hpool
  simp only [heq]
  refine conserved_of_holders rfl h.id_lt ?_
    ((h.holders hpool).moved hsteps (zero_add _) .inl ?_)
  · exact fun hd' => h.handle_lt (lookup_of_erase hd')
  · exact fun hd' => .inl (lookup_of_erase hd')

/-- **Adopting** releases the pins, or all of a set that cannot be adopted. -/
lemma adoptPaged_spec (hpool : w.cache.pagedPool = some pool) :
    (∃ fault, w.cache.adoptPaged d = (.error fault, (w.cache.releaseDetachedPaged d).2)) ∨
      ∃ pool', w.cache.adoptPaged d = (.ok w.cache.nextId, { w.cache with
          nextId := w.cache.nextId + 1
          pagedPool := some pool'
          active := w.cache.active.insert w.cache.nextId
            ⟨d.backend, some d.pagedState, some d.pagedLayout⟩ }) ∧
        Steps (d.pagedState.blockIds + references w.cache.active (w.detached.erase handle)) 0
          pool pool' := by
  obtain ⟨pins, hpins, _⟩ := ((h.holders hpool).setOk hd).retained
  rw [adoptPaged]
  by_cases hbackend : d.backend ≠ .pagedKvCache
  · rw [adoptPagedPreserving, if_pos hbackend]
    exact .inl ⟨_, rfl⟩
  by_cases hlayout : ∃ pool ∈ w.cache.pagedPool, pool.layout ≠ d.pagedLayout
  · rw [adoptPagedPreserving, if_neg hbackend, if_pos hlayout]
    exact .inl ⟨_, rfl⟩
  by_cases hfull : w.cache.maxSequences ≤ w.cache.active.entries.length
  · rw [adoptPagedPreserving, if_neg hbackend, if_neg hlayout, if_pos hfull]
    exact .inl ⟨_, rfl⟩
  rw [adoptPagedPreserving, if_neg hbackend, if_neg hlayout, if_neg hfull]
  have hok := h.ok_detached hpool hd hpins
  rw [add_comm (d.pagedState.blockIds : Multiset PagedBlockId), add_assoc] at hok
  obtain ⟨pool', heq, hsteps⟩ := releaseAll_spec _ hok
  simp only [hpool, hpins, Option.getD_some, heq]
  exact .inr ⟨pool', rfl, hsteps⟩

lemma conserved_adopted (hpool : w.cache.pagedPool = some pool)
    (hsteps : Steps (d.pagedState.blockIds + references w.cache.active (w.detached.erase handle)) 0
      pool pool') :
    Conserved { w with
      cache := { w.cache with
        nextId := w.cache.nextId + 1
        pagedPool := some pool'
        active := w.cache.active.insert w.cache.nextId
          ⟨d.backend, some d.pagedState, some d.pagedLayout⟩ }
      detached := w.detached.erase handle } := by
  have hset := (h.holders hpool).setOk hd
  refine conserved_of_holders rfl ?_ ?_ ((h.holders hpool).moved hsteps ?_ ?_ ?_)
  · exact lt_of_lookup_insert (Nat.lt_succ_self _) fun hs => Nat.lt_succ_of_lt (h.id_lt hs)
  · exact fun hd' => h.handle_lt (lookup_of_erase hd')
  · rw [references_insert_active, erase_eq_self h.fresh_id, zero_add]
    rfl
  · refine lookup_insert_or ⟨fun _ layout heq' => ?_, fun state heq' => ?_⟩
    · rw [← Option.some.inj heq', hsteps.layout_eq]
      exact hset.layout_eq
    · rw [← Option.some.inj heq']
      exact hsteps.stateOk hset.stateOk
  · exact fun hd' => .inl (lookup_of_erase hd')

theorem conserved_adoptPaged : Conserved { w with
      cache := (w.cache.adoptPaged d).2, detached := w.detached.erase handle } := by
  obtain ⟨pool, hpool⟩ := h.exists_pool hd
  rcases adoptPaged_spec h hd hpool with ⟨fault, heq⟩ | ⟨pool', heq, hsteps⟩
  · simp only [heq]
    exact conserved_releaseDetachedPaged h hd
  · simp only [heq]
    exact conserved_adopted h hd hpool hsteps

end

lemma coe_flatMap_pair (blocks : List PagedBlockId) :
    ((blocks.flatMap fun b => [b, b] : List PagedBlockId) : Multiset PagedBlockId)
      = blocks + blocks := by
  induction blocks with
  | nil => rfl
  | cons b blocks ih =>
    have hpair : (([b, b] : List PagedBlockId) : Multiset PagedBlockId) = {b} + {b} := rfl
    rw [flatMap_cons, ← coe_add, ih, hpair, ← cons_coe,
      ← singleton_add]
    abel

lemma ceilDiv_eq_div_of_mod_eq_zero {n k : ℕ} (hk : 0 < k) (h : n % k = 0) : n ⌈/⌉ k = n / k := by
  rw [Nat.ceilDiv_eq_add_pred_div]
  have hn := Nat.div_add_mod n k
  rw [h, add_zero] at hn
  conv_lhs => rw [← hn]
  rw [Nat.add_sub_assoc hk, Nat.mul_add_div hk, Nat.div_eq_of_lt (Nat.sub_lt hk Nat.one_pos), add_zero]

lemma tableOk_take {l : ℕ} {layer : PagedLayerState} (htable : TableOk pool l layer) {start : ℕ}
    (htarget : target % pool.layout.blockSize = 0)
    (hlen : target / pool.layout.blockSize ≤ layer.blockIds.length) :
    TableOk pool l ⟨layer.blockIds.take (target / pool.layout.blockSize), target, start⟩ := by
  refine ⟨htable.nodup.sublist (take_sublist _ _),
    fun b hb => htable.layerOf_eq b (mem_of_mem_take hb), ?_⟩
  rw [ceilDiv_eq_div_of_mod_eq_zero pool.layout.blockSize_pos htarget, length_take,
    min_eq_left hlen]

lemma prefixState_spec (hset : SetOk pool d) (htarget : target % pool.layout.blockSize = 0)
    (hstate : prefixState d target = some state) :
    state.layers = d.pagedState.layers.map (fun l =>
        ⟨l.blockIds.take (target / pool.layout.blockSize), target, 0⟩) ∧ StateOk pool state := by
  rw [prefixState, hset.layout_eq] at hstate
  split_ifs at hstate with hshort
  rw [not_or, not_exists] at hshort
  have hlen : pool.layout.numLayers - d.pagedState.layers.length = 0 := by
    rw [hset.stateOk.length_eq, Nat.sub_self]
  rw [hlen, List.replicate_zero, append_nil, Option.some.injEq] at hstate
  rw [← hstate]
  refine ⟨rfl, rfl, ?_, ?_⟩
  · rw [length_map]
    exact hset.stateOk.length_eq
  · intro l layer hlayer
    simp only [getElem?_map, Option.map_eq_some_iff] at hlayer
    obtain ⟨layer, hlayer, rfl⟩ := hlayer
    refine tableOk_take (hset.stateOk.tableOk hlayer) htarget (Nat.le_of_not_lt fun hlt => ?_)
    exact hshort.2 layer ⟨mem_of_getElem? hlayer, hlt⟩

/-- A clone has room if no count is near its limit. -/
abbrev CloneFits (w : World τ) (handle targetTokens : ℕ) : Prop :=
  ∀ pool ∈ w.cache.pagedPool, ∀ d ∈ w.detached.lookup handle,
    ∀ state ∈ prefixState d targetTokens, ∀ b ∈ state.blockIds,
      pool.refcount b + 2 ≤ u32Max

/-- **Cloning** pins each block of the clone twice, or changes nothing. -/
lemma cloneDetachedPagedPrefix_spec (h : Conserved w) (hd : w.detached.lookup handle = some d)
    (hpool : w.cache.pagedPool = some pool) (hfits : CloneFits w handle target)
    (bareHandles : Bool) :
    (∃ fault, w.cache.cloneDetachedPagedPrefix d target bareHandles = (.error fault, w.cache)) ∨
      ∃ state pool', w.cache.cloneDetachedPagedPrefix d target bareHandles
          = (.ok ⟨state, d.pagedLayout, d.backend, some state.blockIds⟩,
            { w.cache with pagedPool := some pool' }) ∧
        target % pool.layout.blockSize = 0 ∧ (∀ layer ∈ d.pagedState.layers, layer.logicalStart = 0) ∧
        prefixState d target = some state ∧
        Steps (references w.cache.active w.detached) (state.blockIds + state.blockIds)
          pool pool' := by
  have hold := h.holders hpool
  have hset := hold.setOk hd
  rw [cloneDetachedPagedPrefix]
  simp only [hpool]
  split_ifs with hbackend hturbo htarget hlen hstart hpins hbare
  iterate 7 exact .inl ⟨_, rfl⟩
  cases hstate : prefixState d target with
  | none => exact .inl ⟨_, rfl⟩
  | some state =>
    rw [hset.layout_eq, not_or, not_not] at htarget
    obtain ⟨hlayers, hstateOk⟩ := prefixState_spec hset htarget.2 hstate
    have hmem : ∀ b ∈ state.blockIds, b ∈ references w.cache.active w.detached := by
      intro b hb
      rw [PagedSequenceState.blockIds, hlayers, flatMap_map] at hb
      obtain ⟨layer, hlayer, hb⟩ := mem_flatMap.mp hb
      refine mem_references_detached hd ?_
      exact mem_flatMap.mpr ⟨layer, hlayer, mem_of_mem_take hb⟩
    have hcount : ∀ b, (state.blockIds.flatMap fun b => [b, b]).count b
        = state.blockIds.count b + state.blockIds.count b := by
      intro b
      rw [← coe_count, coe_flatMap_pair, count_add, coe_count]
    have hpins' : ∀ b ∈ state.blockIds.flatMap (fun b => [b, b]), b ∈ state.blockIds := by
      intro b hb
      obtain ⟨b', hb', hb⟩ := mem_flatMap.mp hb
      simp only [List.mem_cons, not_mem_nil, or_false, or_self] at hb
      exact hb ▸ hb'
    have hroom : ∀ b ∈ state.blockIds.flatMap (fun b => [b, b]),
        (references w.cache.active w.detached).count b
          + (state.blockIds.flatMap fun b => [b, b]).count b ≤ u32Max := by
      intro b hb
      rw [hcount, count_eq_one_of_mem hstateOk.nodup (hpins' b hb), ← hold.ok.refcount_eq]
      exact hfits pool hpool d hd state hstate b (hpins' b hb)
    obtain ⟨pool', hretain, hsteps⟩ :=
      retainAll_spec _ hold.ok (fun b hb => hmem b (hpins' b hb)) hroom
    rw [coe_flatMap_pair] at hsteps
    simp only [hretain]
    refine .inr ⟨state, pool', rfl, htarget.2, fun layer hlayer => ?_, rfl, hsteps⟩
    exact not_not.mp fun hne => hstart ⟨layer, hlayer, hne⟩

lemma conserved_cloned (h : Conserved w) (hd : w.detached.lookup handle = some d)
    {pool' : PagedBlockPool τ} (hpool : w.cache.pagedPool = some pool)
    (htarget : target % pool.layout.blockSize = 0)
    (hstate : prefixState d target = some state)
    (hsteps : Steps (references w.cache.active w.detached) (state.blockIds + state.blockIds)
      pool pool') :
    Conserved (w.addDetached { w.cache with pagedPool := some pool' }
      ⟨state, d.pagedLayout, d.backend, some state.blockIds⟩) := by
  have hset := (h.holders hpool).setOk hd
  refine conserved_of_holders rfl h.id_lt ?_ ((h.holders hpool).moved hsteps ?_ .inl ?_)
  · exact lt_of_lookup_insert (Nat.lt_succ_self _) fun hd => Nat.lt_succ_of_lt (h.handle_lt hd)
  · simp only [addDetached]
    rw [references_insert_detached, erase_eq_self h.fresh_handle]
    rfl
  · refine lookup_insert_or ⟨?_, ?_, _, rfl, .refl _⟩
    · rw [hsteps.layout_eq]
      exact hset.layout_eq
    · exact hsteps.stateOk (prefixState_spec hset htarget hstate).2

/-- A trim is sound if all tables are long enough for its length. -/
abbrev TrimFits (w : World τ) (handle targetTokens : ℕ) : Prop :=
  ∀ d ∈ w.detached.lookup handle, targetTokens < d.seqLen → ∀ layer ∈ d.pagedState.layers,
    targetTokens / d.pagedLayout.blockSize ≤ layer.blockIds.length

/-- A trim splits the blocks of a set into those it keeps and those it drops. -/
lemma perm_taken_dropped (layers : List PagedLayerState) (keep : ℕ) :
    (layers.flatMap PagedLayerState.blockIds).Perm
      (layers.flatMap (fun l => l.blockIds.take keep) ++ poppedBlocks layers keep) := by
  induction layers with
  | nil => exact .refl _
  | cons layer layers ih =>
    simp only [poppedBlocks, flatMap_cons] at ih ⊢
    have hlayer : layer.blockIds.Perm
        (layer.blockIds.take keep ++ (layer.blockIds.drop keep).reverse) := by
      nth_rewrite 1 [← take_append_drop keep layer.blockIds]
      exact (reverse_perm _).symm.append_left _
    refine (hlayer.append ih).trans ?_
    rw [append_assoc, append_assoc]
    refine .append_left _ ?_
    rw [← append_assoc, ← append_assoc]
    exact perm_append_comm.append_right _

lemma filter_perm_taken {pins taken dropped : List PagedBlockId} (hpins : pins.Perm (taken ++ dropped))
    (hnodup : (taken ++ dropped).Nodup) : (pins.filter fun b => b ∉ dropped).Perm taken := by
  refine (hpins.filter _).trans ?_
  have hdisjoint := disjoint_of_nodup_append hnodup
  have htaken : taken.filter (fun b => b ∉ dropped) = taken := by
    refine filter_eq_self.mpr fun b hb => ?_
    simpa using hdisjoint hb
  have hdropped : dropped.filter (fun b => b ∉ dropped) = [] := by
    simp
  rw [filter_append, htaken, hdropped, append_nil]

theorem conserved_trimDetachedPagedTo (h : Conserved w) (hd : w.detached.lookup handle = some d)
    (hfits : TrimFits w handle target) :
    Conserved { w with
      cache := (w.cache.trimDetachedPagedTo d target).2.1
      detached := w.detached.insert handle (w.cache.trimDetachedPagedTo d target).2.2 } := by
  obtain ⟨pool, hpool⟩ := h.exists_pool hd
  have hold := h.holders hpool
  have hset := hold.setOk hd
  obtain ⟨pins, hpins, hperm⟩ := hset.retained
  have hok := h.ok_detached hpool hd hpins
  have hlt : ∀ {handle' d'} {set : DetachedPagedCacheSet},
      (w.detached.insert handle set).lookup handle' = some d' → handle' < w.nextHandle :=
    lt_of_lookup_insert (h.handle_lt hd) h.handle_lt
  have hsame : Conserved { w with detached := w.detached.insert handle d } := by
    refine conserved_of_holders hpool h.id_lt hlt ⟨?_, hold.sequenceOk, ?_⟩
    · rw [references_insert_detached, ← references_eq_detached hd]
      exact hold.ok
    · exact fun hd' => (lookup_insert_or hset hd').elim hold.setOk id
  let keep := target / d.pagedLayout.blockSize
  let dropped := poppedBlocks d.pagedState.layers keep
  let taken := d.pagedState.layers.flatMap fun l => l.blockIds.take keep
  have hsplit : d.pagedState.blockIds.Perm (taken ++ dropped) := perm_taken_dropped _ _
  have hnodup : (taken ++ dropped).Nodup := hsplit.nodup_iff.mp hset.stateOk.nodup
  have hkept := filter_perm_taken (hperm.trans hsplit) hnodup
  have hrefs : (d.pagedState.blockIds : Multiset PagedBlockId) + pins
      = (dropped + dropped) + (taken + taken) := by
    rw [coe_eq_coe.mpr hperm, coe_eq_coe.mpr hsplit, ← coe_add]
    abel
  rw [hrefs, ← coe_flatMap_pair, add_assoc] at hok
  obtain ⟨pool', hrelease, hsteps⟩ := releaseAll_spec _ hok
  have htrimmed : target % d.pagedLayout.blockSize = 0 → target < d.seqLen →
      Conserved { w with
        cache := { w.cache with
          pagedPool := some (releaseAll pool (dropped.flatMap fun b => [b, b])).2 }
        detached := w.detached.insert handle { d with
          pagedState := { d.pagedState with
            layers := d.pagedState.layers.map fun l =>
              { l with blockIds := l.blockIds.take keep, len := target } }
          retainedBlocks := some (pins.filter fun b => b ∉ dropped) } } := by
    intro htarget hlen
    rw [hrelease]
    refine conserved_of_holders rfl h.id_lt hlt (hold.moved hsteps ?_ .inl ?_)
    · rw [references_insert_detached, zero_add, DetachedPagedCacheSet.refs, Option.getD_some,
        coe_eq_coe.mpr hkept, PagedSequenceState.blockIds, flatMap_map]
    · refine lookup_insert_or ⟨?_, ⟨?_, ?_, ?_⟩, _, rfl, ?_⟩
      · rw [hsteps.layout_eq]
        exact hset.layout_eq
      · rw [hsteps.layout_eq]
        exact hset.stateOk.blockSize_eq
      · rw [length_map, hsteps.layout_eq]
        exact hset.stateOk.length_eq
      · intro l layer hlayer
        simp only [getElem?_map, Option.map_eq_some_iff] at hlayer
        obtain ⟨layer, hlayer, rfl⟩ := hlayer
        refine hsteps.tableOk ?_
        have hlong := hfits d hd hlen layer (mem_of_getElem? hlayer)
        simp only [keep]
        rw [hset.layout_eq] at htarget hlong ⊢
        exact tableOk_take (hset.stateOk.tableOk hlayer) htarget hlong
      · rw [PagedSequenceState.blockIds, flatMap_map]
        exact hkept
  rw [trimDetachedPagedTo]
  simp only [hpins, hpool]
  split_ifs with hbackend hturbo htarget hlen hstart heq hfailed
  iterate 6 exact hsame
  · exact htrimmed (not_not.mp htarget) (by omega)
  · exact htrimmed (not_not.mp htarget) (by omega)

end Detached

/-! ## Runs -/

/-- What a call needs so that all stays in order: room for the counts that it raises, and tables
that are long enough for a trim. -/
def Fits (w : World τ) : Op τ → Prop
  | .detachPaged id => DetachFits w id
  | .cloneDetachedPagedPrefix handle targetTokens _ => CloneFits w handle targetTokens
  | .trimDetachedPagedTo handle targetTokens => TrimFits w handle targetTokens
  | _ => True

instance decidableFits (w : World τ) : (op : Op τ) → Decidable (Fits w op)
  | .detachPaged id => inferInstanceAs (Decidable (DetachFits w id))
  | .cloneDetachedPagedPrefix handle targetTokens _ =>
    inferInstanceAs (Decidable (CloneFits w handle targetTokens))
  | .trimDetachedPagedTo handle targetTokens =>
    inferInstanceAs (Decidable (TrimFits w handle targetTokens))
  | .setPagedBlockBudget _ | .allocateWithLayout _ | .appendPagedTokens _ _ _
  | .trimPagedTokens _ _ _ | .rewindPagedTokens _ _ _ | .writePrefill _ _ _ _ | .release _
  | .adoptPaged _ | .releaseDetachedPaged _ => .isTrue trivial

/-- All calls of a run fit. -/
def RunFits [Zero τ] : World τ → List (Op τ) → Prop
  | _, [] => True
  | w, op :: ops => Fits w op ∧ RunFits (w.step op).2 ops

instance decidableRunFits [Zero τ] : (w : World τ) → (ops : List (Op τ)) → Decidable (RunFits w ops)
  | _, [] => .isTrue trivial
  | w, op :: ops =>
    have := decidableRunFits (w.step op).2 ops
    inferInstanceAs (Decidable (_ ∧ _))

/-- **One call** keeps the invariant. -/
theorem conserved_step [Zero τ] (h : Conserved w) {op : Op τ} (hfits : Fits w op) :
    Conserved (w.step op).2 := by
  cases op with
  | setPagedBlockBudget maxBlocks => exact conserved_setPagedBlockBudget h maxBlocks
  | allocateWithLayout layout => exact conserved_allocateWithLayout h layout
  | appendPagedTokens id l n => exact conserved_withPoolAndState h (keepsTables_appendTokens l n) id
  | trimPagedTokens id l n | rewindPagedTokens id l n =>
    exact conserved_withPoolAndState h (keepsTables_trimTokens l n) id
  | writePrefill id l k v => exact conserved_withPoolAndState h (keepsTables_writePrefill l k v) id
  | release id => exact conserved_release h id
  | detachPaged id =>
    rw [step]
    rcases detachPaged_spec h hfits with
      heq | ⟨s, state, pool, pool', hs, hstate, hpool, heq, hsteps⟩
    · simp only [heq]
      exact h
    · simp only [heq]
      exact conserved_detached h hs hstate hpool hsteps
  | adoptPaged handle =>
    rw [step]
    cases hd : w.detached.lookup handle with
    | none => exact h
    | some d => exact conserved_adoptPaged h hd
  | cloneDetachedPagedPrefix handle target bareHandles =>
    rw [step]
    cases hd : w.detached.lookup handle with
    | none => exact h
    | some d =>
      obtain ⟨pool, hpool⟩ := h.exists_pool hd
      rcases cloneDetachedPagedPrefix_spec h hd hpool hfits bareHandles with
        ⟨fault, heq⟩ | ⟨state, pool', heq, htarget, _, hstate, hsteps⟩
      · simp only [heq]
        exact h
      · simp only [heq]
        exact conserved_cloned h hd hpool htarget hstate hsteps
  | trimDetachedPagedTo handle target =>
    rw [step]
    cases hd : w.detached.lookup handle with
    | none => exact h
    | some d => exact conserved_trimDetachedPagedTo h hd hfits
  | releaseDetachedPaged handle =>
    rw [step]
    cases hd : w.detached.lookup handle with
    | none => exact h
    | some d => exact conserved_releaseDetachedPaged h hd

lemma conserved_foldl [Zero τ] {ops : List (Op τ)} (h : Conserved w) (hfits : RunFits w ops) :
    Conserved (ops.foldl (fun w op => (w.step op).2) w) := by
  induction ops generalizing w with
  | nil => exact h
  | cons op ops ih => exact ih (conserved_step h hfits.1) hfits.2

/-! ## The invariant in full -/

variable (w)

/-- The blocks in the tables of the active sequences. -/
def activeTables : List PagedBlockId :=
  w.cache.active.entries.flatMap fun e => e.2.paged.elim [] PagedSequenceState.blockIds

/-- The blocks in the tables of the detached sets. -/
def detachedTables : List PagedBlockId :=
  w.detached.entries.flatMap fun e => e.2.pagedState.blockIds

/-- The pins of the detached sets. -/
def pins : List PagedBlockId :=
  w.detached.entries.flatMap fun e => e.2.retainedBlocks.getD []

/-- The block tables of the active sequences and of the detached sets. -/
def states : List PagedSequenceState :=
  w.cache.active.entries.filterMap (fun e => e.2.paged) ++
    w.detached.entries.map fun e => e.2.pagedState

/-- Counts, free lists, rows and tables of a cache pool are in order. -/
structure InOrder (w : World τ) : Prop where
  refcount_eq : ∀ pool ∈ w.cache.pagedPool, ∀ b,
    pool.refcount b = w.activeTables.count b + w.detachedTables.count b + w.pins.count b
  mem_freeList : ∀ pool ∈ w.cache.pagedPool, ∀ l b, b ∈ (pool.layers l).freeList ↔
    ∃ record, pool.blocks.lookup b = some record ∧ record.layerIdx = l ∧ record.refcount = 0
  nodup_freeList : ∀ pool ∈ w.cache.pagedPool, ∀ l, (pool.layers l).freeList.Nodup
  rows_inj : ∀ pool ∈ w.cache.pagedPool, ∀ l b b' row,
    (pool.layers l).blockRows.lookup b = some row →
      (pool.layers l).blockRows.lookup b' = some row → b = b'
  rows_perm : ∀ pool ∈ w.cache.pagedPool, ∀ l,
    ((pool.layers l).blockRows.entries.map Sigma.snd ++ (pool.layers l).freeRows).Perm
      (range (pool.layers l).nextRow)
  row_lt : ∀ pool ∈ w.cache.pagedPool, ∀ l b row,
    (pool.layers l).blockRows.lookup b = some row → row < (pool.layers l).capacity
  covers : ∀ state ∈ w.states, ∀ layer ∈ state.layers,
    layer.len ⌈/⌉ state.blockSize ≤ layer.blockIds.length

lemma coe_flatMap {α : Type} (xs : List α) (f : α → List PagedBlockId) :
    ((xs.flatMap f : List PagedBlockId) : Multiset PagedBlockId)
      = (xs.map fun x => (f x : Multiset PagedBlockId)).sum := by
  induction xs with
  | nil => rfl
  | cons x xs ih => rw [flatMap_cons, ← coe_add, ih, List.map_cons, List.sum_cons]

lemma references_eq : references w.cache.active w.detached
    = w.activeTables + w.detachedTables + w.pins := by
  have hactive : (w.activeTables : Multiset PagedBlockId)
      = (w.cache.active.entries.map fun e => e.2.refs).sum := by
    rw [activeTables, coe_flatMap]
    congr 2
    funext e
    rw [refs]
    cases e.2.paged <;> rfl
  have hdetached : (w.detachedTables : Multiset PagedBlockId) + w.pins
      = (w.detached.entries.map fun e => e.2.refs).sum := by
    rw [detachedTables, pins, coe_flatMap, coe_flatMap, ← List.sum_map_add]
    rfl
  rw [references, add_assoc, hactive, hdetached]

lemma Conserved.stateOk {w : World τ} (h : Conserved w) {state : PagedSequenceState} (hstate : state ∈ w.states) :
    ∃ pool : PagedBlockPool τ, StateOk pool state := by
  rcases mem_append.mp hstate with hstate | hstate
  · obtain ⟨e, he, hpaged⟩ := mem_filterMap.mp hstate
    have hs : w.cache.active.lookup e.1 = some e.2 := AList.mem_lookup_iff.mpr he
    cases hpool : w.cache.pagedPool with
    | none =>
      rw [(h.idle hpool).1 hs] at hpaged
      cases hpaged
    | some pool => exact ⟨pool, ((h.holders hpool).sequenceOk hs).stateOk state hpaged⟩
  · obtain ⟨e, he, rfl⟩ := mem_map.mp hstate
    have hd : w.detached.lookup e.1 = some e.2 := AList.mem_lookup_iff.mpr he
    obtain ⟨pool, hpool⟩ := h.exists_pool hd
    exact ⟨pool, ((h.holders hpool).setOk hd).stateOk⟩

lemma inOrder_of_conserved {w : World τ} (h : Conserved w) : InOrder w := by
  refine ⟨?_, ?_, ?_, ?_, ?_, ?_, ?_⟩
  · intro pool hpool b
    rw [(h.holders hpool).ok.refcount_eq, references_eq]
    simp only [count_add, coe_count]
  · intro pool hpool l b
    rw [((h.holders hpool).ok.layerOk l).mem_free]
    constructor
    · intro hb
      exact ⟨_, hb, rfl, rfl⟩
    · rintro ⟨⟨layer, count⟩, hb, rfl, rfl⟩
      exact hb
  · exact fun pool hpool l => ((h.holders hpool).ok.layerOk l).free_nodup
  · intro pool hpool l b b' row hb hb'
    exact ((h.holders hpool).ok.layerOk l).rows_inj hb hb'
  · exact fun pool hpool l => ((h.holders hpool).ok.layerOk l).rows_perm
  · exact fun pool hpool l b row hb => ((h.holders hpool).ok.layerOk l).row_lt hb
  · intro state hstate layer hlayer
    obtain ⟨pool, hok⟩ := h.stateOk hstate
    obtain ⟨l, hl⟩ := mem_iff_getElem?.mp hlayer
    rw [hok.blockSize_eq]
    exact (hok.tableOk hl).covers

/-- **References are conserved.** In a run whose calls all fit, counts, free lists, rows and tables
are in order after every call. -/
theorem references_conserved [Zero τ] (maxSequences : ℕ) (ops : List (Op τ))
    (hfits : RunFits (init maxSequences) ops) : InOrder (run maxSequences ops) :=
  inOrder_of_conserved (conserved_foldl (conserved_init maxSequences) hfits)

/-- Tokens with one head of dimension one. -/
def tokenArray (tokens : List ℕ) : MlxArray ℕ where
  shape := [1, 1, tokens.length, 1]
  dtype := 0
  tokens := tokens
  length_eq := by simp [tokenDim]

/-- A layout of two layers with blocks of four tokens. -/
def twoLayers : PagedKvLayout where
  numLayers := 2
  blockSize := 4
  bytesPerBlock := [4, 4]
  cacheMode := .fp16
  turboSidecarBytesPerBlock := []
  blockSize_pos := by decide
  numLayers_eq := by decide
  numLayers_pos := Nat.two_pos

/-- A sequence is written, detached, cloned and adopted, and the clone is written and released. -/
def sharedRun : List (Op ℕ) :=
  [.allocateWithLayout ⟨.pagedKvCache, some twoLayers⟩,
    .writePrefill 0 0 (tokenArray [1, 2, 3, 4, 5]) (tokenArray [6, 7, 8, 9, 10]),
    .writePrefill 0 1 (tokenArray [1, 2, 3, 4, 5]) (tokenArray [6, 7, 8, 9, 10]),
    .detachPaged 0, .cloneDetachedPagedPrefix 0 4 true, .adoptPaged 1, .adoptPaged 0,
    .trimPagedTokens 1 0 2, .writePrefill 1 0 (tokenArray [11, 12]) (tokenArray [13, 14]),
    .detachPaged 2, .trimDetachedPagedTo 2 4, .release 1]

theorem references_conserved_sharedRun : RunFits (init 4) sharedRun ∧ InOrder (run 4 sharedRun) :=
  ⟨by decide +kernel, references_conserved 4 sharedRun (by decide +kernel)⟩

/-- Only the first layer has tokens, and the set is trimmed to one block. -/
def unevenTrim : List (Op ℕ) :=
  [.allocateWithLayout ⟨.pagedKvCache, some twoLayers⟩, .appendPagedTokens 0 0 8, .detachPaged 0,
    .trimDetachedPagedTo 0 4]

/-- **A trim can promise tokens that a layer does not have**: the second layer has no block. -/
theorem trim_uneven_layers : ¬ InOrder (run 4 unevenTrim) := by
  intro h
  have hshort : ∃ state ∈ (run 4 unevenTrim).states, ∃ layer ∈ state.layers,
      layer.blockIds.length < layer.len ⌈/⌉ state.blockSize := by decide +kernel
  obtain ⟨state, hstate, layer, hlayer, hlt⟩ := hshort
  exact absurd (h.covers state hstate layer hlayer) (not_le.mpr hlt)

end World

end Mlxcel.Paged
