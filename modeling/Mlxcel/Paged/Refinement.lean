import Mlxcel.Paged.Conservation
import Mlxcel.Paged.Gather

/-!
# Paged storage refines dense lists

`DenseWorld` is what the paged storage is for: each sequence and each detached set has a list of
tokens for each layer, a write appends to one list, a trim cuts one off, and nothing is shared.
In a run of calls that all succeed, a gather of any sequence returns its dense list.

**Exceptions.** `clone_detached_paged_prefix` takes the length of the first layer for all layers,
so a clone can promise tokens that a shorter layer never got. Positions are integers of 32 bits.
Runs without these, and without a count at its limit, are `TokensFit`.
-/

namespace Mlxcel.Paged

open Function List AssocMap MachineInt PagedBlockPool Option

variable {τ : Type}

/-- The tokens of each layer. -/
abbrev DenseSequence (τ : Type) := List (List (τ × τ))

/-- Sequences and sets that share nothing. -/
structure DenseWorld (τ : Type) where
  sequences : SequenceId → Option (DenseSequence τ)
  sets : ℕ → Option (DenseSequence τ)
  nextId : SequenceId
  nextHandle : ℕ

namespace DenseWorld

def init : DenseWorld τ := ⟨fun _ => none, fun _ => none, 0, 0⟩

/-- Change the tokens of one layer of one sequence. -/
def modify (d : DenseWorld τ) (id : SequenceId) (l : ℕ) (f : List (τ × τ) → List (τ × τ)) :
    DenseWorld τ :=
  { d with
    sequences := update d.sequences id
      ((d.sequences id).map fun layers => layers.modify l f) }

/-- The effect of a call that succeeds. -/
def step (d : DenseWorld τ) : Op τ → DenseWorld τ
  | .allocateWithLayout ⟨.pagedKvCache, some layout⟩ =>
    { d with
      sequences := update d.sequences d.nextId
        (some (replicate layout.numLayers []))
      nextId := d.nextId + 1 }
  | .allocateWithLayout _ => { d with nextId := d.nextId + 1 }
  | .writePrefill id l k v => d.modify id l fun data => data ++ k.tokens.zip v.tokens
  | .trimPagedTokens id l n => d.modify id l fun data => data.take (data.length - n)
  | .rewindPagedTokens id l n => d.modify id l fun data => data.take (data.length - n)
  | .release id => { d with sequences := update d.sequences id none }
  | .detachPaged id =>
    { d with
      sequences := update d.sequences id none
      sets := update d.sets d.nextHandle (d.sequences id)
      nextHandle := d.nextHandle + 1 }
  | .adoptPaged handle =>
    { d with
      sequences := update d.sequences d.nextId (d.sets handle)
      sets := update d.sets handle none
      nextId := d.nextId + 1 }
  | .cloneDetachedPagedPrefix handle target _ =>
    { d with
      sets := update d.sets d.nextHandle
        ((d.sets handle).map fun layers => layers.map fun data => data.take target)
      nextHandle := d.nextHandle + 1 }
  | .releaseDetachedPaged handle => { d with sets := update d.sets handle none }
  | .setPagedBlockBudget _ | .appendPagedTokens _ _ _ | .trimDetachedPagedTo _ _ => d

end DenseWorld

namespace World

/-! ## Simulation -/

/-- The tables of a sequence have its tokens. -/
structure StateHolds (pool : PagedBlockPool τ) (state : PagedSequenceState)
    (dense : DenseSequence τ) : Prop where
  length_eq : dense.length = state.layers.length
  layerHolds : ∀ {l layer data}, state.layers[l]? = some layer → dense[l]? = some data →
    LayerHolds pool l layer data

/-- Each sequence and each set has the tokens of its dense counterpart. -/
structure Refines (w : World τ) (d : DenseWorld τ) : Prop where
  conserved : Conserved w
  nextId_eq : d.nextId = w.cache.nextId
  nextHandle_eq : d.nextHandle = w.nextHandle
  sequence : ∀ {id s state}, w.cache.active.lookup id = some s → s.paged = some state →
    ∃ dense, d.sequences id = some dense ∧
      ∀ pool, w.cache.pagedPool = some pool → StateHolds pool state dense
  set : ∀ {handle set}, w.detached.lookup handle = some set →
    ∃ dense, d.sets handle = some dense ∧
      ∀ pool, w.cache.pagedPool = some pool → StateHolds pool set.pagedState dense

lemma refines_init (maxSequences : ℕ) : Refines (init maxSequences : World τ) DenseWorld.init := by
  refine ⟨conserved_init maxSequences, rfl, rfl, ?_, ?_⟩
  · intro id s state hs
    exact absurd hs (by simp [init, CachePool.new])
  · intro handle set hset
    exact absurd hset (by simp [init])

section Frame

variable {rest own : Multiset PagedBlockId} {pool pool' : PagedBlockPool τ}
  {state : PagedSequenceState} {dense : DenseSequence τ}

variable {l : ℕ} {layer : PagedLayerState}

lemma mem_blockIds (hlayer : state.layers[l]? = some layer) {b : PagedBlockId}
    (hb : b ∈ layer.blockIds) : b ∈ state.blockIds :=
  mem_flatMap.mpr ⟨layer, mem_of_getElem? hlayer, hb⟩

/-- A step of others leaves the tokens of a table. -/
lemma layerHolds_frame {data : List (τ × τ)} (h : LayerHolds pool l layer data)
    (hsteps : Steps rest own pool pool') (hrest : ∀ b ∈ layer.blockIds, b ∈ rest) :
    LayerHolds pool' l layer data := by
  refine ⟨h.logicalStart_eq, h.len_eq, ?_, ?_, ?_⟩
  · rw [hsteps.layout_eq]
    exact h.length_eq
  · rw [hsteps.layout_eq]
    exact h.small
  · intro p kv hkv
    rw [hsteps.layout_eq, hsteps.tableRows_eq hrest l]
    exact h.slots hkv

lemma StateHolds.frame (h : StateHolds pool state dense) (hsteps : Steps rest own pool pool')
    (hrest : ∀ b ∈ state.blockIds, b ∈ rest) : StateHolds pool' state dense := by
  refine ⟨h.length_eq, fun hlayer hdata => ?_⟩
  exact layerHolds_frame (h.layerHolds hlayer hdata) hsteps
    fun b hb => hrest b (mem_blockIds hlayer hb)

lemma StateHolds.setLayer (h : StateHolds pool state dense) {layer layer' : PagedLayerState}
    (hlayer : state.layers[l]? = some layer)
    (hsteps : Steps (otherBlocks state l + rest) own pool pool') {g : List (τ × τ) → List (τ × τ)}
    (hholds : ∀ data, LayerHolds pool l layer data → LayerHolds pool' l layer' (g data)) :
    StateHolds pool' (state.setLayer l layer') (dense.modify l g) := by
  have hlt := (List.getElem?_eq_some_iff.mp hlayer).1
  refine ⟨?_, ?_⟩
  · rw [length_modify, PagedSequenceState.setLayer, length_set]
    exact h.length_eq
  · intro i layer₁ data hi hdata
    rw [PagedSequenceState.setLayer, getElem?_set] at hi
    rw [getElem?_modify, Option.map_eq_map, Option.map_eq_some_iff] at hdata
    obtain ⟨data, hdata, rfl⟩ := hdata
    by_cases heq : l = i
    · subst heq
      rw [if_pos rfl, if_pos hlt, some.injEq] at hi
      rw [if_pos rfl, ← hi]
      exact hholds data (h.layerHolds hlayer hdata)
    · rw [if_neg heq] at hi ⊢
      refine layerHolds_frame (h.layerHolds hi hdata) hsteps fun b hb => ?_
      refine Multiset.mem_add.mpr (.inl (mem_flatMap.mpr ⟨layer₁, ?_, hb⟩))
      exact mem_eraseIdx_iff_getElem?.mpr ⟨i, .symm heq, hi⟩

/-- **Tokens move.** Holders whose blocks are among `rest` keep their tokens. -/
lemma Refines.moved {w w' : World τ} {d d' : DenseWorld τ} (h : Refines w d)
    (hconserved : Conserved w') (hpool : w.cache.pagedPool = some pool)
    (hpool' : w'.cache.pagedPool = some pool') (hsteps : Steps rest own pool pool')
    (hid : d'.nextId = w'.cache.nextId) (hhandle : d'.nextHandle = w'.nextHandle)
    (hsequence : ∀ {id s state}, w'.cache.active.lookup id = some s → s.paged = some state →
      (w.cache.active.lookup id = some s ∧ d'.sequences id = d.sequences id ∧
        ∀ b ∈ state.blockIds, b ∈ rest) ∨
      ∃ dense, d'.sequences id = some dense ∧ StateHolds pool' state dense)
    (hset : ∀ {handle set}, w'.detached.lookup handle = some set →
      (w.detached.lookup handle = some set ∧ d'.sets handle = d.sets handle ∧
        ∀ b ∈ set.pagedState.blockIds, b ∈ rest) ∨
      ∃ dense, d'.sets handle = some dense ∧ StateHolds pool' set.pagedState dense) :
    Refines w' d' := by
  have hnow : ∀ {state dense}, StateHolds pool' state dense →
      ∀ pool₁, w'.cache.pagedPool = some pool₁ → StateHolds pool₁ state dense :=
    fun hholds pool₁ hpool₁ => some.inj (hpool'.symm.trans hpool₁) ▸ hholds
  refine ⟨hconserved, hid, hhandle, ?_, ?_⟩
  · intro id s state hs hstate
    rcases hsequence hs hstate with ⟨hs, hsame, hrest⟩ | ⟨dense, hdense, hholds⟩
    · obtain ⟨dense, hdense, hholds⟩ := h.sequence hs hstate
      exact ⟨dense, hsame.trans hdense, hnow ((hholds pool hpool).frame hsteps hrest)⟩
    · exact ⟨dense, hdense, hnow hholds⟩
  · intro handle set hs
    rcases hset hs with ⟨hs, hsame, hrest⟩ | ⟨dense, hdense, hholds⟩
    · obtain ⟨dense, hdense, hholds⟩ := h.set hs
      exact ⟨dense, hsame.trans hdense, hnow ((hholds pool hpool).frame hsteps hrest)⟩
    · exact ⟨dense, hdense, hnow hholds⟩

end Frame

/-! ## Calls -/

section Calls

variable {w : World τ} {d : DenseWorld τ}

lemma refines_idle (hconserved : Conserved w) (hnone : w.cache.pagedPool = none)
    (hid : d.nextId = w.cache.nextId) (hhandle : d.nextHandle = w.nextHandle) : Refines w d := by
  refine ⟨hconserved, hid, hhandle, ?_, ?_⟩
  · intro id s state hs hstate
    rw [(hconserved.idle hnone).1 hs] at hstate
    cases hstate
  · intro handle set hset
    rw [(hconserved.idle hnone).2] at hset
    cases hset

lemma refines_setPagedBlockBudget (h : Refines w d) (maxBlocks : Option ℕ) :
    Refines { w with cache := w.cache.setPagedBlockBudget maxBlocks } d := by
  have hconserved := conserved_setPagedBlockBudget h.conserved maxBlocks
  cases hpool : w.cache.pagedPool with
  | none =>
    refine refines_idle hconserved ?_ h.nextId_eq h.nextHandle_eq
    simp [CachePool.setPagedBlockBudget, hpool]
  | some pool =>
    have hpool' : (w.cache.setPagedBlockBudget maxBlocks).pagedPool
        = some { pool with blockBudget := maxBlocks } := by
      simp [CachePool.setPagedBlockBudget, hpool]
    refine h.moved hconserved hpool hpool'
      (steps_blockBudget (h.conserved.holders hpool).ok maxBlocks) h.nextId_eq h.nextHandle_eq ?_ ?_
    · exact fun hs hstate => .inl ⟨hs, rfl, fun b hb => mem_references_active hs hstate hb⟩
    · exact fun hset => .inl ⟨hset, rfl, fun b hb => mem_references_detached hset hb⟩

lemma stateHolds_new (pool : PagedBlockPool τ) (layout : PagedKvLayout) :
    StateHolds pool (PagedSequenceState.new layout) (replicate layout.numLayers []) := by
  refine ⟨by simp [PagedSequenceState.new], ?_⟩
  intro l layer data hlayer hdata
  rw [eq_of_mem_replicate (mem_of_getElem? hlayer),
    eq_of_mem_replicate (mem_of_getElem? hdata)]
  exact ⟨rfl, rfl, by simp [PagedLayerState.new], by simp [PagedLayerState.new], by simp⟩

variable {pool pool' : PagedBlockPool τ} {set : DetachedPagedCacheSet}

section

variable (h : Refines w d)

include h

variable {s : SequenceCacheSet}

lemma refines_insert {cache : CachePool τ} (hconserved : Conserved { w with cache })
    (hpool : w.cache.pagedPool = some pool) (hpool' : cache.pagedPool = some pool)
    (hactive : cache.active = w.cache.active.insert w.cache.nextId s)
    (hnext : cache.nextId = w.cache.nextId + 1) {d' : DenseWorld τ}
    (hid : d'.nextId = d.nextId + 1) (hhandle : d'.nextHandle = d.nextHandle)
    (hsets : d'.sets = d.sets) (hsequences : ∀ id ≠ d.nextId, d'.sequences id = d.sequences id)
    (hnew : ∀ state, s.paged = some state →
      ∃ dense, d'.sequences d.nextId = some dense ∧ StateHolds pool state dense) :
    Refines { w with cache } d' := by
  have hok : Ok (0 + references w.cache.active w.detached) pool := by
    rw [zero_add]
    exact (h.conserved.holders hpool).ok
  refine h.moved hconserved hpool hpool' (.refl hok) ?_ ?_ ?_ ?_
  · rw [hid, h.nextId_eq]
    exact hnext.symm
  · exact hhandle.trans h.nextHandle_eq
  · intro id s' state hs' hstate
    simp only [hactive] at hs'
    rcases lookup_insert_eq_some hs' with ⟨rfl, rfl⟩ | ⟨hne, hs'⟩
    · rw [← h.nextId_eq]
      exact .inr (hnew state hstate)
    · refine .inl ⟨hs', hsequences id ?_, fun b hb => mem_references_active hs' hstate hb⟩
      rw [h.nextId_eq]
      exact hne
  · intro handle set hset
    exact .inl ⟨hset, by rw [hsets], fun b hb => mem_references_detached hset hb⟩

lemma refines_allocateWithLayout (layout : SequenceStateLayout)
    (hok : isOk (w.cache.allocateWithLayout layout).1 = true) :
    Refines { w with cache := (w.cache.allocateWithLayout layout).2 }
      (d.step (.allocateWithLayout layout)) := by
  have hconserved := conserved_allocateWithLayout h.conserved layout
  have hfull : ¬ (layout.backend = .denseKvCache ∧
      w.cache.maxSequences ≤ w.cache.active.entries.length) := by
    intro hfull
    rw [CachePool.allocateWithLayout, if_pos hfull] at hok
    cases hok
  rw [CachePool.allocateWithLayout, if_neg hfull] at hok hconserved ⊢
  -- sequences that are not paged have no tokens
  have hbare : ∀ (backend : SequenceStateBackend) (d' : DenseWorld τ),
      d' = { d with nextId := d.nextId + 1 } →
      Conserved { w with cache := { w.cache with
        nextId := w.cache.nextId + 1
        active := w.cache.active.insert w.cache.nextId ⟨backend, none, none⟩ } } →
      Refines { w with cache := { w.cache with
        nextId := w.cache.nextId + 1
        active := w.cache.active.insert w.cache.nextId ⟨backend, none, none⟩ } } d' := by
    rintro backend d' rfl hconserved
    cases hpool : w.cache.pagedPool with
    | none => exact refines_idle hconserved hpool (by rw [h.nextId_eq]) h.nextHandle_eq
    | some pool =>
      exact refines_insert h hconserved hpool hpool rfl rfl rfl rfl rfl (fun _ _ => rfl) (by simp)
  obtain ⟨backend, pagedLayout⟩ := layout
  cases backend with
  | denseKvCache => exact hbare .denseKvCache _ (by cases pagedLayout <;> rfl) hconserved
  | modelOwned => exact hbare .modelOwned _ (by cases pagedLayout <;> rfl) hconserved
  | pagedKvCache =>
    cases pagedLayout with
    | none => cases hok
    | some pagedLayout =>
      simp only [CachePool.ensurePagedPool] at hok hconserved ⊢
      cases hpool : w.cache.pagedPool with
      | some pool =>
        simp only [hpool] at hok hconserved ⊢
        split_ifs at hok hconserved ⊢ with hlayout
        · cases hok
        · refine refines_insert h hconserved hpool rfl rfl rfl rfl rfl rfl ?_ ?_
          · exact fun id hne => update_of_ne hne _ _
          · intro state hstate
            rw [← some.inj hstate]
            exact ⟨_, update_self _ _ _, stateHolds_new pool pagedLayout⟩
      | none =>
        simp only [hpool] at hok hconserved ⊢
        refine ⟨hconserved, congrArg (· + 1) h.nextId_eq, h.nextHandle_eq, ?_, ?_⟩
        · intro id s state hs hstate
          rcases lookup_insert_eq_some hs with ⟨rfl, rfl⟩ | ⟨_, hs⟩
          · refine ⟨.replicate pagedLayout.numLayers [], ?_, fun pool _ => ?_⟩
            · rw [← h.nextId_eq]
              exact update_self _ _ _
            · rw [← some.inj hstate]
              exact stateHolds_new pool pagedLayout
          · rw [(h.conserved.idle hpool).1 hs] at hstate
            cases hstate
        · intro handle set hset
          rw [(h.conserved.idle hpool).2] at hset
          cases hset

/-- What the dense lists do when one layer of one sequence changes. -/
lemma refines_withPoolAndState {α : Type} {f : PagedBlockPool τ →
      PagedSequenceState → Except Fault α × PagedBlockPool τ × PagedSequenceState}
    (hf : KeepsTables f) (id : SequenceId) {l : ℕ} {g : List (τ × τ) → List (τ × τ)}
    (hok : isOk (w.cache.withPoolAndState id f).1 = true)
    (hlayer : ∀ {pool s state}, w.cache.pagedPool = some pool →
      w.cache.active.lookup id = some s → s.paged = some state →
      isOk (f pool state).1 = true → ∃ layer layer', state.layers[l]? = some layer ∧
        (f pool state).2.2 = state.setLayer l layer' ∧
        Steps (otherBlocks state l + references (w.cache.active.erase id) w.detached)
          layer'.blockIds pool (f pool state).2.1 ∧
        ∀ data, LayerHolds pool l layer data → LayerHolds (f pool state).2.1 l layer' (g data)) :
    Refines { w with cache := (w.cache.withPoolAndState id f).2 } (d.modify id l g) := by
  have hconserved := conserved_withPoolAndState h.conserved hf id
  rcases w.cache.withPoolAndState_cases id f with
    ⟨fault, heq⟩ | ⟨pool, s, state, hpool, hs, hstate, heq⟩
  · rw [heq] at hok
    cases hok
  rw [heq] at hok hconserved ⊢
  obtain ⟨layer, layer', hl, hset, hsteps, hholds⟩ := hlayer hpool hs hstate hok
  refine h.moved hconserved hpool rfl hsteps h.nextId_eq h.nextHandle_eq ?_ ?_
  · intro id' s' state' hs' hstate'
    rcases lookup_insert_eq_some hs' with ⟨rfl, rfl⟩ | ⟨hne, hs'⟩
    · obtain ⟨dense, hdense, hold⟩ := h.sequence hs hstate
      refine .inr ⟨dense.modify l g, ?_, ?_⟩
      · simp [DenseWorld.modify, hdense]
      · rw [← some.inj hstate', hset]
        exact (hold pool hpool).setLayer hl hsteps hholds
    · have hkept := lookup_erase_eq_some.mpr ⟨hne, hs'⟩
      refine .inl ⟨hs', update_of_ne hne _ _, fun b hb => ?_⟩
      exact Multiset.mem_add.mpr (.inr (mem_references_active hkept hstate' hb))
  · intro handle set hset'
    refine .inl ⟨hset', rfl, fun b hb => ?_⟩
    exact Multiset.mem_add.mpr (.inr (mem_references_detached hset' hb))

variable (id : SequenceId)

lemma refines_writePrefill [Zero τ] (l : ℕ) (k v : MlxArray τ)
    (hsmall : ∀ pool ∈ w.cache.pagedPool, ∀ s ∈ w.cache.active.lookup id, ∀ state ∈ s.paged,
      ∀ layer ∈ state.layers[l]?, (layer.len + k.tokens.length) ⌈/⌉ pool.layout.blockSize
        * pool.layout.blockSize < 2 ^ 31)
    (hok : isOk (w.cache.writePrefill id l k v).1 = true) :
    Refines { w with cache := (w.cache.writePrefill id l k v).2 }
      (d.step (.writePrefill id l k v)) := by
  refine refines_withPoolAndState h (keepsTables_writePrefill l k v) id hok ?_
  intro pool s state hpool hs hstate hok
  have hstateOk := ((h.conserved.holders hpool).sequenceOk hs).stateOk state hstate
  cases hlayer : state.layers[l]? with
  | none =>
    have hrange : pool.layout.numLayers ≤ l := by
      rw [← hstateOk.length_eq]
      exact getElem?_eq_none_iff.mp hlayer
    simp only [writePrefill, if_pos hrange] at hok
    cases hok
  | some layer =>
    rcases writePrefill_spec (ok_layer (h.conserved.ok_active hpool hs hstate) hlayer) hlayer
      (hstateOk.tableOk hlayer) k v with ⟨result, pool', layer', heq, hsteps, _, hprefilled⟩
    simp only [heq] at hok ⊢
    refine ⟨layer, layer', rfl, rfl, hsteps, fun data hdata => ?_⟩
    have hresult : result = .ok () := by
      cases result with
      | ok _ => rfl
      | error fault => cases hok
    exact hdata.prefilled hsteps.layout_eq (hprefilled hresult)
      (hsmall pool hpool s hs state hstate layer hlayer)

lemma refines_trimTokens (l n : ℕ) (hok : isOk (w.cache.trimPagedTokens id l n).1 = true) :
    Refines { w with cache := (w.cache.trimPagedTokens id l n).2 }
      (d.modify id l fun data => data.take (data.length - n)) := by
  refine refines_withPoolAndState h (keepsTables_trimTokens l n) id hok ?_
  intro pool s state hpool hs hstate hok
  have hstateOk := ((h.conserved.holders hpool).sequenceOk hs).stateOk state hstate
  cases hlayer : state.layers[l]? with
  | none =>
    simp only [trimTokens, hlayer] at hok
    cases hok
  | some layer =>
    rcases trimTokens_spec (ok_layer (h.conserved.ok_active hpool hs hstate) hlayer) hlayer
      (hstateOk.tableOk hlayer) n with
      ⟨result, pool', layer', heq, hsteps, _, ⟨k, hids⟩, hexact⟩
    simp only [heq] at hok ⊢
    have hweak := hsteps.weaken
    refine ⟨layer, layer', rfl, rfl, hweak, fun data hdata => ?_⟩
    obtain ⟨hstart, hlen, hlength⟩ := hexact hdata.logicalStart_eq
    refine hdata.take hsteps.layout_eq hids hstart ?_ (hlength hdata.length_eq) fun i => ?_
    · rw [hlen, hdata.len_eq]
      omega
    · exact hsteps.tableRows_eq (fun b hb => Multiset.mem_add.mpr (.inl hb)) l i

lemma refines_release :
    Refines { w with cache := w.cache.release id } (d.step (.release id)) := by
  have hconserved := conserved_release h.conserved id
  have hsequences : ∀ id' ≠ id, (d.step (.release id)).sequences id' = d.sequences id' :=
    fun id' hne => update_of_ne hne _ _
  cases hs : w.cache.active.lookup id with
  | none =>
    simp only [CachePool.release, hs]
    refine ⟨h.conserved, h.nextId_eq, h.nextHandle_eq, ?_, h.set⟩
    intro id' s state hs' hstate
    have hne : id' ≠ id := by
      rintro rfl
      rw [hs] at hs'
      cases hs'
    rw [hsequences id' hne]
    exact h.sequence hs' hstate
  | some s =>
    cases hpool : w.cache.pagedPool with
    | none =>
      simp only [CachePool.release, hs, hpool] at hconserved ⊢
      exact refines_idle hconserved rfl h.nextId_eq h.nextHandle_eq
    | some pool =>
      obtain ⟨pool', heq, hsteps⟩ := release_spec h.conserved hs hpool
      rw [heq] at hconserved ⊢
      refine h.moved hconserved hpool rfl hsteps h.nextId_eq h.nextHandle_eq ?_ ?_
      · intro id' s' state' hs' hstate'
        obtain ⟨hne, hold⟩ := lookup_erase_eq_some.mp hs'
        exact .inl ⟨hold, hsequences id' hne,
          fun b hb => mem_references_active hs' hstate' hb⟩
      · exact fun hset => .inl ⟨hset, rfl, fun b hb => mem_references_detached hset hb⟩

lemma refines_detached {id : SequenceId} {state : PagedSequenceState}
    (hs : w.cache.active.lookup id = some s) (hstate : s.paged = some state)
    (hpool : w.cache.pagedPool = some pool)
    (hsteps : Steps (references w.cache.active w.detached) state.blockIds pool pool') :
    Refines (w.addDetached
      { w.cache with pagedPool := some pool', active := w.cache.active.erase id }
      ⟨state, pool.layout, s.backend, some state.blockIds⟩) (d.step (.detachPaged id)) := by
  refine h.moved (conserved_detached h.conserved hs hstate hpool hsteps) hpool rfl hsteps
    h.nextId_eq (congrArg (· + 1) h.nextHandle_eq) ?_ ?_
  · intro id' s' state' hs' hstate'
    obtain ⟨hne, hs'⟩ := lookup_erase_eq_some.mp hs'
    exact .inl ⟨hs', update_of_ne hne _ _,
      fun b hb => mem_references_active hs' hstate' hb⟩
  · intro handle set hset
    rcases lookup_insert_eq_some hset with ⟨rfl, rfl⟩ | ⟨hne, hset⟩
    · obtain ⟨dense, hdense, hholds⟩ := h.sequence hs hstate
      refine .inr ⟨dense, ?_, ?_⟩
      · simp [DenseWorld.step, h.nextHandle_eq, hdense]
      · exact (hholds pool hpool).frame hsteps fun b hb => mem_references_active hs hstate hb
    · rw [← h.nextHandle_eq] at hne
      exact .inl ⟨hset, update_of_ne hne _ _,
        fun b hb => mem_references_detached hset hb⟩

variable {handle : ℕ}

lemma refines_adopted (hset : w.detached.lookup handle = some set)
    (hpool : w.cache.pagedPool = some pool)
    (hsteps : Steps (set.pagedState.blockIds
      + references w.cache.active (w.detached.erase handle)) 0 pool pool') :
    Refines { w with
      cache := { w.cache with
        nextId := w.cache.nextId + 1
        pagedPool := some pool'
        active := w.cache.active.insert w.cache.nextId
          ⟨set.backend, some set.pagedState, some set.pagedLayout⟩ }
      detached := w.detached.erase handle } (d.step (.adoptPaged handle)) := by
  refine h.moved (conserved_adopted h.conserved hset hpool hsteps) hpool rfl hsteps
    (congrArg (· + 1) h.nextId_eq) h.nextHandle_eq ?_ ?_
  · intro id s state hs hstate
    rcases lookup_insert_eq_some hs with ⟨rfl, rfl⟩ | ⟨hne, hs⟩
    · obtain ⟨dense, hdense, hholds⟩ := h.set hset
      refine .inr ⟨dense, ?_, ?_⟩
      · simp [DenseWorld.step, h.nextId_eq, hdense]
      · rw [← some.inj hstate]
        exact (hholds pool hpool).frame hsteps fun b hb => Multiset.mem_add.mpr (.inl hb)
    · rw [← h.nextId_eq] at hne
      refine .inl ⟨hs, update_of_ne hne _ _, fun b hb => ?_⟩
      exact Multiset.mem_add.mpr (.inr (mem_references_active hs hstate hb))
  · intro handle' set' hset'
    obtain ⟨hne, hold⟩ := lookup_erase_eq_some.mp hset'
    refine .inl ⟨hold, update_of_ne hne _ _, fun b hb => ?_⟩
    exact Multiset.mem_add.mpr (.inr (mem_references_detached hset' hb))

lemma refines_releaseDetachedPaged (hset : w.detached.lookup handle = some set) :
    Refines { w with
        cache := (w.cache.releaseDetachedPaged set).2, detached := w.detached.erase handle }
      (d.step (.releaseDetachedPaged handle)) := by
  have hconserved := conserved_releaseDetachedPaged h.conserved hset
  obtain ⟨pool, hpool⟩ := h.conserved.exists_pool hset
  obtain ⟨pool', heq, hsteps⟩ := releaseDetachedPaged_spec h.conserved hset hpool
  simp only [heq] at hconserved ⊢
  refine h.moved hconserved hpool rfl hsteps h.nextId_eq h.nextHandle_eq ?_ ?_
  · exact fun hs hstate => .inl ⟨hs, rfl, fun b hb => mem_references_active hs hstate hb⟩
  · intro handle' set' hset'
    obtain ⟨hne, hold⟩ := lookup_erase_eq_some.mp hset'
    exact .inl ⟨hold, update_of_ne hne _ _,
      fun b hb => mem_references_detached hset' hb⟩

end

variable {target : ℕ} {state : PagedSequenceState} (htarget : target % pool.layout.blockSize = 0)
  (hlong : ∀ layer ∈ set.pagedState.layers, target ≤ layer.len)
  (hstate : CachePool.prefixState set target = some state)

include htarget hlong hstate

/-- A clone has the first tokens of every layer, if every layer has that many. -/
lemma stateHolds_prefixState {dense : DenseSequence τ} {rest own : Multiset PagedBlockId}
    (hset : SetOk pool set) (hholds : StateHolds pool set.pagedState dense)
    (hsteps : Steps rest own pool pool') (hrest : ∀ b ∈ set.pagedState.blockIds, b ∈ rest) :
    StateHolds pool' state (dense.map fun data => data.take target) := by
  obtain ⟨hlayers, hstateOk⟩ := prefixState_spec hset htarget hstate
  refine ⟨?_, ?_⟩
  · rw [length_map, hlayers, length_map]
    exact hholds.length_eq
  · intro l layer' data hlayer' hdata
    rw [hlayers, getElem?_map, map_eq_some_iff] at hlayer'
    obtain ⟨layer, hlayer, rfl⟩ := hlayer'
    rw [getElem?_map, map_eq_some_iff] at hdata
    obtain ⟨data, hdata, rfl⟩ := hdata
    have hle := hlong layer (mem_of_getElem? hlayer)
    have hlayerHolds := hholds.layerHolds hlayer hdata
    have hdiv := ceilDiv_eq_div_of_mod_eq_zero pool.layout.blockSize_pos htarget
    refine hlayerHolds.take hsteps.layout_eq rfl rfl (Nat.min_eq_left hle).symm ?_ fun i => ?_
    · rw [length_take, hlayerHolds.length_eq, ← hdiv]
      exact Nat.min_eq_left ((gc_mul_ceilDiv pool.layout.blockSize_pos).monotone_l hle)
    · exact hsteps.tableRows_eq (fun b hb => hrest b (mem_blockIds hlayer (mem_of_mem_take hb)))
        l i

lemma refines_cloned (h : Refines w d) {handle : ℕ} (hset : w.detached.lookup handle = some set)
    (hpool : w.cache.pagedPool = some pool) (bareHandles : Bool)
    (hsteps : Steps (references w.cache.active w.detached) (state.blockIds + state.blockIds)
      pool pool') :
    Refines (w.addDetached { w.cache with pagedPool := some pool' }
      ⟨state, set.pagedLayout, set.backend, some state.blockIds⟩)
      (d.step (.cloneDetachedPagedPrefix handle target bareHandles)) := by
  refine h.moved (conserved_cloned h.conserved hset hpool htarget hstate hsteps) hpool rfl hsteps
    h.nextId_eq (congrArg (· + 1) h.nextHandle_eq) ?_ ?_
  · exact fun hs hstate => .inl ⟨hs, rfl, fun b hb => mem_references_active hs hstate hb⟩
  · intro handle' set' hset'
    rcases lookup_insert_eq_some hset' with ⟨rfl, rfl⟩ | ⟨hne, hset'⟩
    · obtain ⟨dense, hdense, hholds⟩ := h.set hset
      refine .inr ⟨dense.map fun data => data.take target, ?_, ?_⟩
      · simp [DenseWorld.step, h.nextHandle_eq, hdense]
      · exact stateHolds_prefixState htarget hlong hstate ((h.conserved.holders hpool).setOk hset)
          (hholds pool hpool) hsteps fun b hb => mem_references_detached hset hb
    · rw [← h.nextHandle_eq] at hne
      exact .inl ⟨hset', update_of_ne hne _ _,
        fun b hb => mem_references_detached hset' hb⟩

end Calls

/-! ## Runs -/

/-- The calls that say which tokens a table has afterwards. An append extends a table without writing
it, and a trim of a detached set takes every layer to one length, whatever the layer has. -/
def IsTokenCall : Op τ → Prop
  | .appendPagedTokens _ _ _ | .trimDetachedPagedTo _ _ => False
  | _ => True

/-- What a call needs so that tokens are not lost: room for counts, positions of 32 bits, and for a
clone that every layer has its length. -/
def TokensFit (w : World τ) : Op τ → Prop
  | .writePrefill id l k _ =>
    ∀ pool ∈ w.cache.pagedPool, ∀ s ∈ w.cache.active.lookup id, ∀ state ∈ s.paged,
      ∀ layer ∈ state.layers[l]?, (layer.len + k.tokens.length) ⌈/⌉ pool.layout.blockSize
        * pool.layout.blockSize < 2 ^ 31
  | .detachPaged id => DetachFits w id
  | .cloneDetachedPagedPrefix handle targetTokens _ =>
    CloneFits w handle targetTokens ∧ ∀ set ∈ w.detached.lookup handle,
      ∀ layer ∈ set.pagedState.layers, targetTokens ≤ layer.len
  | _ => True

/-- A run of calls with tokens that all succeed. -/
def RunSucceeds [Zero τ] : World τ → List (Op τ) → Prop
  | _, [] => True
  | w, op :: ops => IsTokenCall op ∧ (w.step op).1 = true ∧ RunSucceeds (w.step op).2 ops

/-- All calls of a run fit. -/
def RunTokensFit [Zero τ] : World τ → List (Op τ) → Prop
  | _, [] => True
  | w, op :: ops => TokensFit w op ∧ RunTokensFit (w.step op).2 ops

instance decidableIsTokenCall : (op : Op τ) → Decidable (IsTokenCall op)
  | .appendPagedTokens _ _ _ | .trimDetachedPagedTo _ _ => .isFalse False.elim
  | .setPagedBlockBudget _ | .allocateWithLayout _ | .trimPagedTokens _ _ _
  | .rewindPagedTokens _ _ _ | .writePrefill _ _ _ _ | .release _ | .detachPaged _ | .adoptPaged _
  | .cloneDetachedPagedPrefix _ _ _ | .releaseDetachedPaged _ => .isTrue trivial

instance decidableTokensFit (w : World τ) : (op : Op τ) → Decidable (TokensFit w op)
  | .writePrefill _ _ _ _ => inferInstanceAs (Decidable (∀ pool ∈ w.cache.pagedPool, _))
  | .detachPaged id => inferInstanceAs (Decidable (DetachFits w id))
  | .cloneDetachedPagedPrefix _ _ _ => inferInstanceAs (Decidable (_ ∧ _))
  | .setPagedBlockBudget _ | .allocateWithLayout _ | .appendPagedTokens _ _ _
  | .trimPagedTokens _ _ _ | .rewindPagedTokens _ _ _ | .release _ | .adoptPaged _
  | .trimDetachedPagedTo _ _ | .releaseDetachedPaged _ => .isTrue trivial

instance decidableRunSucceeds [Zero τ] :
    (w : World τ) → (ops : List (Op τ)) → Decidable (RunSucceeds w ops)
  | _, [] => .isTrue trivial
  | w, op :: ops =>
    have := decidableRunSucceeds (w.step op).2 ops
    inferInstanceAs (Decidable (_ ∧ _))

instance decidableRunTokensFit [Zero τ] :
    (w : World τ) → (ops : List (Op τ)) → Decidable (RunTokensFit w ops)
  | _, [] => .isTrue trivial
  | w, op :: ops =>
    have := decidableRunTokensFit (w.step op).2 ops
    inferInstanceAs (Decidable (_ ∧ _))

variable {w : World τ} {d : DenseWorld τ}

/-- **One call** does to the tables what it does to the dense lists. -/
theorem refines_step [Zero τ] (h : Refines w d) {op : Op τ} (hcall : IsTokenCall op)
    (hok : (w.step op).1 = true) (hfits : TokensFit w op) :
    Refines (w.step op).2 (d.step op) := by
  cases op with
  | setPagedBlockBudget maxBlocks => exact refines_setPagedBlockBudget h maxBlocks
  | allocateWithLayout layout => exact refines_allocateWithLayout h layout hok
  | appendPagedTokens id l n => exact False.elim hcall
  | trimPagedTokens id l n | rewindPagedTokens id l n => exact refines_trimTokens h id l n hok
  | writePrefill id l k v => exact refines_writePrefill h id l k v hfits hok
  | release id => exact refines_release h id
  | detachPaged id =>
    rw [step] at hok ⊢
    rcases detachPaged_spec h.conserved hfits with
      heq | ⟨s, state, pool, pool', hs, hstate, hpool, heq, hsteps⟩
    · simp only [heq] at hok
      cases hok
    · simp only [heq]
      exact refines_detached h hs hstate hpool hsteps
  | adoptPaged handle =>
    rw [step] at hok ⊢
    cases hset : w.detached.lookup handle with
    | none =>
      simp only [hset] at hok
      cases hok
    | some set =>
      obtain ⟨pool, hpool⟩ := h.conserved.exists_pool hset
      simp only [hset] at hok
      rcases adoptPaged_spec h.conserved hset hpool with ⟨fault, heq⟩ | ⟨pool', heq, hsteps⟩
      · rw [heq] at hok
        cases hok
      · simp only [heq]
        exact refines_adopted h hset hpool hsteps
  | cloneDetachedPagedPrefix handle target bareHandles =>
    rw [step] at hok ⊢
    cases hset : w.detached.lookup handle with
    | none =>
      simp only [hset] at hok
      cases hok
    | some set =>
      obtain ⟨pool, hpool⟩ := h.conserved.exists_pool hset
      simp only [hset] at hok
      rcases cloneDetachedPagedPrefix_spec h.conserved hset hpool hfits.1 bareHandles with
        ⟨fault, heq⟩ | ⟨state, pool', heq, htarget, _, hstate, hsteps⟩
      · rw [heq] at hok
        cases hok
      · simp only [heq]
        exact refines_cloned htarget (hfits.2 set hset) hstate h hset hpool bareHandles hsteps
  | trimDetachedPagedTo handle target => exact False.elim hcall
  | releaseDetachedPaged handle =>
    rw [step] at hok ⊢
    cases hset : w.detached.lookup handle with
    | none =>
      simp only [hset] at hok
      cases hok
    | some set => exact refines_releaseDetachedPaged h hset

lemma refines_foldl [Zero τ] {ops : List (Op τ)} (h : Refines w d) (hsucceeds : RunSucceeds w ops)
    (hfits : RunTokensFit w ops) :
    Refines (ops.foldl (fun w op => (w.step op).2) w) (ops.foldl DenseWorld.step d) := by
  induction ops generalizing w d with
  | nil => exact h
  | cons op ops ih =>
    obtain ⟨hcall, hok, hrest⟩ := hsucceeds
    exact ih (refines_step h hcall hok hfits.1) hrest hfits.2

/-- A gather of every layer of every active sequence returns its dense list. -/
def GathersDense (w : World τ) (d : DenseWorld τ) : Prop :=
  ∀ pool ∈ w.cache.pagedPool, ∀ id, ∀ s ∈ w.cache.active.lookup id, ∀ state ∈ s.paged,
    ∀ l < pool.layout.numLayers, ∃ dense ∈ d.sequences id, ∃ data ∈ dense[l]?,
      pool.gatherVisible state l = .ok (gathered data)

/-- **The paged storage refines dense lists.** After a run whose calls all succeed and fit, every
gather returns what the writes and trims of that sequence do to lists of its own. -/
theorem paged_refines_dense [Zero τ] (maxSequences : ℕ) (ops : List (Op τ))
    (hsucceeds : RunSucceeds (init maxSequences) ops)
    (hfits : RunTokensFit (init maxSequences) ops) :
    GathersDense (run maxSequences ops) (ops.foldl DenseWorld.step DenseWorld.init) := by
  have h := refines_foldl (refines_init maxSequences) hsucceeds hfits
  intro pool hpool id s hs state hstate l hl
  have hstateOk := ((h.conserved.holders hpool).sequenceOk hs).stateOk state hstate
  obtain ⟨dense, hdense, hholds⟩ := h.sequence hs hstate
  have hlayer : l < state.layers.length := by
    rw [hstateOk.length_eq]
    exact hl
  have hdata : l < dense.length := by
    rw [(hholds pool hpool).length_eq]
    exact hlayer
  refine ⟨dense, hdense, dense[l], getElem?_eq_getElem hdata, ?_⟩
  exact gatherVisible_eq (h.conserved.holders hpool).ok (getElem?_eq_getElem hlayer)
    ((hholds pool hpool).layerHolds (getElem?_eq_getElem hlayer)
      (getElem?_eq_getElem hdata))

/-- A prefix is cloned and adopted beside its source, and each is trimmed and written again. -/
def sharedPrefix : List (Op ℕ) :=
  [.allocateWithLayout ⟨.pagedKvCache, some twoLayers⟩,
    .writePrefill 0 0 (tokenArray [1, 2, 3, 4, 5]) (tokenArray [6, 7, 8, 9, 10]),
    .writePrefill 0 1 (tokenArray [1, 2, 3, 4, 5]) (tokenArray [6, 7, 8, 9, 10]),
    .detachPaged 0, .cloneDetachedPagedPrefix 0 4 true, .adoptPaged 1, .adoptPaged 0,
    .trimPagedTokens 1 0 2, .writePrefill 1 0 (tokenArray [11, 12, 13]) (tokenArray [14, 15, 16]),
    .rewindPagedTokens 2 0 3, .writePrefill 2 0 (tokenArray [17]) (tokenArray [18])]

theorem paged_refines_dense_sharedPrefix :
    RunSucceeds (init 4) sharedPrefix ∧ RunTokensFit (init 4) sharedPrefix ∧
      GathersDense (run 4 sharedPrefix) (sharedPrefix.foldl DenseWorld.step DenseWorld.init) :=
  ⟨by decide +kernel, by decide +kernel,
    paged_refines_dense 4 sharedPrefix (by decide +kernel) (by decide +kernel)⟩

/-- The second layer has fewer tokens than the prefix that is cloned. -/
def unevenClone : List (Op ℕ) :=
  [.allocateWithLayout ⟨.pagedKvCache, some twoLayers⟩,
    .writePrefill 0 0 (tokenArray [1, 2, 3, 4, 5, 6, 7, 8]) (tokenArray [1, 2, 3, 4, 5, 6, 7, 8]),
    .writePrefill 0 1 (tokenArray [1, 2, 3, 4, 5]) (tokenArray [1, 2, 3, 4, 5]),
    .detachPaged 0, .cloneDetachedPagedPrefix 0 8 true, .adoptPaged 1]

/-- **A clone can have tokens that were never written.** -/
theorem clone_uneven_layers : RunSucceeds (init 4) unevenClone ∧
    ¬ GathersDense (run 4 unevenClone) (unevenClone.foldl DenseWorld.step DenseWorld.init) := by
  refine ⟨by decide +kernel, fun h => ?_⟩
  have hstale : ∃ pool ∈ (run 4 unevenClone).cache.pagedPool,
      ∃ s ∈ (run 4 unevenClone).cache.active.lookup 1, ∃ state ∈ s.paged,
        1 < pool.layout.numLayers ∧
        ∀ dense ∈ (unevenClone.foldl .step DenseWorld.init).sequences 1,
          ∀ data ∈ dense[1]?, pool.gatherVisible state 1 ≠ .ok (gathered data) := by
    decide +kernel
  obtain ⟨pool, hpool, s, hs, state, hstate, hlt, hstale⟩ := hstale
  obtain ⟨dense, hdense, data, hdata, heq⟩ := h pool hpool 1 s hs state hstate 1 hlt
  exact hstale dense hdense data hdata heq

end World

end Mlxcel.Paged
