import Mlxcel.Paged.Tables

/-!
# Who holds the blocks

The references to the blocks of a pool are the tables of the active sequences, the tables of the
detached sets and the pins of these. `Holders pool active detached` says that the counts of the pool
are these references and that all tables are well-formed.

A call moves the references of one holder. `Holders.moved` is the one place where this is put
together: what the pool does is a `Steps`, and what happens to the maps is an equation between
multisets.
-/

namespace Mlxcel.Paged

open Multiset List AssocMap MachineInt

variable {τ : Type}

/-- The references of an active sequence. -/
def SequenceCacheSet.refs (s : SequenceCacheSet) : Multiset PagedBlockId :=
  s.paged.elim 0 fun state => (state.blockIds : Multiset PagedBlockId)

/-- The references of a detached set: its table and its pins. -/
def DetachedPagedCacheSet.refs (d : DetachedPagedCacheSet) : Multiset PagedBlockId :=
  d.pagedState.blockIds + (d.retainedBlocks.getD [] : List PagedBlockId)

/-- All references. -/
def references (active : AList fun _ : SequenceId => SequenceCacheSet)
    (detached : AList fun _ : ℕ => DetachedPagedCacheSet) : Multiset PagedBlockId :=
  (active.entries.map fun e => e.2.refs).sum + (detached.entries.map fun e => e.2.refs).sum

section References

variable {active : AList fun _ : SequenceId => SequenceCacheSet}
  {detached : AList fun _ : ℕ => DetachedPagedCacheSet}

variable {id : SequenceId} {s : SequenceCacheSet}

lemma references_eq_active (h : active.lookup id = some s) :
    references active detached = s.refs + references (active.erase id) detached := by
  rw [references, sum_erase h SequenceCacheSet.refs, references, add_assoc]

variable {handle : ℕ}

lemma references_eq_detached {d : DetachedPagedCacheSet} (h : detached.lookup handle = some d) :
    references active detached = d.refs + references active (detached.erase handle) := by
  rw [references, sum_erase h DetachedPagedCacheSet.refs, references]
  abel

lemma references_insert_active (active : AList fun _ : SequenceId => SequenceCacheSet)
    (detached : AList fun _ : ℕ => DetachedPagedCacheSet) (id : SequenceId)
    (s : SequenceCacheSet) :
    references (active.insert id s) detached = s.refs + references (active.erase id) detached := by
  rw [references, sum_insert _ _ _ SequenceCacheSet.refs, references, add_assoc]

lemma references_insert_detached (active : AList fun _ : SequenceId => SequenceCacheSet)
    (detached : AList fun _ : ℕ => DetachedPagedCacheSet) (handle : ℕ)
    (d : DetachedPagedCacheSet) :
    references active (detached.insert handle d)
      = d.refs + references active (detached.erase handle) := by
  rw [references, sum_insert _ _ _ DetachedPagedCacheSet.refs, references]
  abel

variable {b : PagedBlockId}

lemma mem_references_active {state : PagedSequenceState} (hs : active.lookup id = some s)
    (hstate : s.paged = some state) (hb : b ∈ state.blockIds) : b ∈ references active detached := by
  rw [references_eq_active hs, SequenceCacheSet.refs, hstate]
  exact mem_add.mpr (.inl hb)

lemma mem_references_detached {set : DetachedPagedCacheSet}
    (hset : detached.lookup handle = some set) (hb : b ∈ set.pagedState.blockIds) :
    b ∈ references active detached := by
  rw [references_eq_detached hset]
  exact mem_add.mpr (.inl (mem_add.mpr (.inl hb)))

end References

namespace PagedBlockPool

/-! ## Tables of a sequence -/

/-- A sequence has a well-formed table for each layer. -/
structure StateOk (pool : PagedBlockPool τ) (state : PagedSequenceState) : Prop where
  blockSize_eq : state.blockSize = pool.layout.blockSize
  length_eq : state.layers.length = pool.layout.numLayers
  tableOk : ∀ {l layer}, state.layers[l]? = some layer → TableOk pool l layer

section State

variable {rest own : Multiset PagedBlockId} {pool pool' : PagedBlockPool τ}
  {state : PagedSequenceState}

lemma Steps.stateOk (h : Steps rest own pool pool') (hstate : StateOk pool state) :
    StateOk pool' state := by
  refine ⟨?_, ?_, fun hl => h.tableOk (hstate.tableOk hl)⟩
  · rw [h.layout_eq]
    exact hstate.blockSize_eq
  · rw [h.layout_eq]
    exact hstate.length_eq

lemma StateOk.nodup (h : StateOk pool state) : state.blockIds.Nodup := by
  refine nodup_flatMap.mpr ⟨?_, ?_⟩
  · intro layer hlayer
    obtain ⟨l, hl⟩ := mem_iff_getElem?.mp hlayer
    exact (h.tableOk hl).nodup
  · rw [pairwise_iff_getElem]
    intro l l' hl hl' hlt b hb hb'
    have hlayer := (h.tableOk (getElem?_eq_getElem hl)).layerOf_eq b hb
    have hlayer' := (h.tableOk (getElem?_eq_getElem hl')).layerOf_eq b hb'
    exact hlt.ne (Option.some.inj (hlayer.symm.trans hlayer'))

/-- The blocks of the other layers. -/
def otherBlocks (state : PagedSequenceState) (l : ℕ) : Multiset PagedBlockId :=
  ((state.layers.eraseIdx l).flatMap PagedLayerState.blockIds : List PagedBlockId)

variable {l : ℕ} {layer : PagedLayerState}

lemma blockIds_eq (hlayer : state.layers[l]? = some layer) :
    (state.blockIds : Multiset PagedBlockId) = layer.blockIds + otherBlocks state l := by
  obtain ⟨hlt, rfl⟩ := List.getElem?_eq_some_iff.mp hlayer
  rw [otherBlocks, coe_add, coe_eq_coe]
  exact (getElem_cons_eraseIdx_perm hlt).symm.flatMap_right _

lemma blockIds_setLayer (hlt : l < state.layers.length) (layer : PagedLayerState) :
    ((state.setLayer l layer).blockIds : Multiset PagedBlockId)
      = layer.blockIds + otherBlocks state l := by
  rw [otherBlocks, coe_add, coe_eq_coe]
  exact (set_perm_cons_eraseIdx hlt layer).flatMap_right _

/-- A step on the table of one layer is one on the tables of the sequence. -/
lemma StateOk.setLayer (h : StateOk pool state) {layer layer' : PagedLayerState}
    (hlayer : state.layers[l]? = some layer)
    (hsteps : Steps (otherBlocks state l + rest) layer'.blockIds pool pool')
    (htable : TableOk pool' l layer') :
    Steps rest (state.setLayer l layer').blockIds pool pool' ∧
      StateOk pool' (state.setLayer l layer') := by
  have hlt := (List.getElem?_eq_some_iff.mp hlayer).1
  refine ⟨?_, ?_, ?_, ?_⟩
  · rw [blockIds_setLayer hlt]
    exact hsteps.weaken
  · exact (hsteps.stateOk h).blockSize_eq
  · rw [PagedSequenceState.setLayer, length_set]
    exact (hsteps.stateOk h).length_eq
  · intro i layer₁ hi
    rw [PagedSequenceState.setLayer, getElem?_set] at hi
    split_ifs at hi with heq
    · rw [← heq, ← Option.some.inj hi]
      exact htable
    · exact (hsteps.stateOk h).tableOk hi

/-- What an operation on the tables of a sequence guarantees, whether it fails or not. -/
def KeepsTables {α : Type} (f : PagedBlockPool τ → PagedSequenceState →
    Except Fault α × PagedBlockPool τ × PagedSequenceState) : Prop :=
  ∀ ⦃rest : Multiset PagedBlockId⦄ ⦃pool state⦄, StateOk pool state →
    Ok (state.blockIds + rest) pool →
      Steps rest (f pool state).2.2.blockIds pool (f pool state).2.1 ∧
        StateOk (f pool state).2.1 (f pool state).2.2

lemma ok_layer (h : Ok (state.blockIds + rest) pool) (hlayer : state.layers[l]? = some layer) :
    Ok (layer.blockIds + (otherBlocks state l + rest)) pool := by
  rw [← add_assoc, ← blockIds_eq hlayer]
  exact h

lemma keepsTables_appendTokens (l n : ℕ) :
    KeepsTables fun (pool : PagedBlockPool τ) state => pool.appendTokens state l n := by
  intro rest pool state hstate hok
  have hsame := And.intro (Steps.refl hok) hstate
  cases hlayer : state.layers[l]? with
  | none =>
    simp only [appendTokens, hlayer]
    exact hsame
  | some layer =>
    by_cases hn : n = 0
    · simp only [appendTokens, hlayer, if_pos hn]
      exact hsame
    · obtain ⟨result, pool', new, len, heq, hsteps, htable, _⟩ :=
        appendTokens_spec (ok_layer hok hlayer) hlayer (hstate.tableOk hlayer) hn
      simp only [heq]
      exact hstate.setLayer hlayer hsteps.append htable

lemma keepsTables_trimTokens (l n : ℕ) :
    KeepsTables fun (pool : PagedBlockPool τ) state => pool.trimTokens state l n := by
  intro rest pool state hstate hok
  cases hlayer : state.layers[l]? with
  | none =>
    simp only [trimTokens, hlayer]
    exact ⟨.refl hok, hstate⟩
  | some layer =>
    obtain ⟨result, pool', layer', heq, hsteps, htable, _⟩ :=
      trimTokens_spec (ok_layer hok hlayer) hlayer (hstate.tableOk hlayer) n
    simp only [heq]
    refine hstate.setLayer hlayer ?_ htable
    have hweak := hsteps.weaken
    exact hweak

lemma keepsTables_writePrefill [Zero τ] (l : ℕ) (k v : MlxArray τ) :
    KeepsTables fun (pool : PagedBlockPool τ) state => pool.writePrefill state l k v := by
  intro rest pool state hstate hok
  cases hlayer : state.layers[l]? with
  | none =>
    have hrange : pool.layout.numLayers ≤ l := by
      rw [← hstate.length_eq]
      exact getElem?_eq_none_iff.mp hlayer
    simp only [writePrefill, if_pos hrange]
    exact ⟨.refl hok, hstate⟩
  | some layer =>
    obtain ⟨result, pool', layer', heq, hsteps, htable, _⟩ :=
      writePrefill_spec (ok_layer hok hlayer) hlayer (hstate.tableOk hlayer) k v
    simp only [heq]
    exact hstate.setLayer hlayer hsteps htable

end State

/-! ## All tables -/

/-- The tables of an active sequence are well-formed, if it has some. -/
structure SequenceOk (pool : PagedBlockPool τ) (s : SequenceCacheSet) : Prop where
  layout_eq : s.paged.isSome → ∀ layout ∈ s.pagedLayout, layout = pool.layout
  stateOk : ∀ state ∈ s.paged, StateOk pool state

/-- The tables of a detached set are well-formed, and each block is pinned once more. -/
structure SetOk (pool : PagedBlockPool τ) (d : DetachedPagedCacheSet) : Prop where
  layout_eq : d.pagedLayout = pool.layout
  stateOk : StateOk pool d.pagedState
  retained : ∃ pins, d.retainedBlocks = some pins ∧ pins.Perm d.pagedState.blockIds

structure Holders (pool : PagedBlockPool τ)
    (active : AList fun _ : SequenceId => SequenceCacheSet)
    (detached : AList fun _ : ℕ => DetachedPagedCacheSet) : Prop where
  ok : Ok (references active detached) pool
  sequenceOk : ∀ {id s}, active.lookup id = some s → SequenceOk pool s
  setOk : ∀ {handle d}, detached.lookup handle = some d → SetOk pool d

section Holders

variable {rest own : Multiset PagedBlockId} {pool pool' : PagedBlockPool τ}
  {active active' : AList fun _ : SequenceId => SequenceCacheSet}
  {detached detached' : AList fun _ : ℕ => DetachedPagedCacheSet}

lemma Steps.sequenceOk (h : Steps rest own pool pool') {s : SequenceCacheSet}
    (hs : SequenceOk pool s) : SequenceOk pool' s := by
  refine ⟨?_, fun state hstate => h.stateOk (hs.stateOk state hstate)⟩
  rw [h.layout_eq]
  exact hs.layout_eq

lemma Steps.setOk (h : Steps rest own pool pool') {d : DetachedPagedCacheSet}
    (hd : SetOk pool d) : SetOk pool' d := by
  refine ⟨?_, h.stateOk hd.stateOk, hd.retained⟩
  rw [h.layout_eq]
  exact hd.layout_eq

/-- **References move.** Holders that the step did not touch stay well-formed. -/
lemma Holders.moved (h : Holders pool active detached) (hsteps : Steps rest own pool pool')
    (hrefs : own + rest = references active' detached')
    (hactive : ∀ {id s}, active'.lookup id = some s →
      active.lookup id = some s ∨ SequenceOk pool' s)
    (hdetached : ∀ {handle d}, detached'.lookup handle = some d →
      detached.lookup handle = some d ∨ SetOk pool' d) : Holders pool' active' detached' := by
  refine ⟨hrefs ▸ hsteps.ok, ?_, ?_⟩
  · intro id s hs
    rcases hactive hs with hs | hs
    · exact hsteps.sequenceOk (h.sequenceOk hs)
    · exact hs
  · intro handle d hd
    rcases hdetached hd with hd | hd
    · exact hsteps.setOk (h.setOk hd)
    · exact hd

end Holders

end PagedBlockPool

end Mlxcel.Paged
