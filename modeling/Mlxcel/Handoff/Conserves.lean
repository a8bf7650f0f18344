import Mlxcel.Handoff.Restore

/-!
# A restore conserves blocks

The payload of a handoff comes from another node. `restore_conserves_iff` says for which of the
payloads that pass the gate a restore conserves blocks: those without an id that occurs twice, in
the contents or in the block table.

**Where the ids matter.** A fresh block is reached through the map from ids to fresh blocks. If two
contents have one id, the map keeps the second of their blocks and nobody knows the first. If a
table has an id twice, the fresh block stands in the new table twice and has one reference.
-/

namespace Mlxcel.Paged

open List AssocMap Fallible PagedBlockContents

variable {τ : Type}

namespace PagedBlockPool

/-- **Conservation.** The blocks that are live in `pool` and not in `base` are the entries of the
table, one for one, and to release the table leads back to `base`. -/
structure Conserves (base pool : PagedBlockPool τ) (state : PagedSequenceState) : Prop where
  fresh_once : ∀ b, base.refcount b = 0 → 0 < pool.refcount b →
    pool.refcount b = 1 ∧ state.blockIds.count b = 1 ∧
      ∃ l layer, state.layers[l]? = some layer ∧ b ∈ layer.blockIds ∧ pool.layerOf b = some l
  release_ok : (pool.releaseSequence state).1 = .ok ()
  liveBlockCount_eq : (pool.releaseSequence state).2.1.liveBlockCount = base.liveBlockCount

/-! ## The map to fresh blocks -/

section FreshMap

variable {base pool : PagedBlockPool τ} {contents : List (PagedBlockContents τ)}
  {fresh : List PagedBlockId}

section

variable (h : Materialized base pool contents fresh)

include h

lemma Materialized.length_eq :
    contents.length = fresh.length := h.layerOf_eq.length_eq

lemma Materialized.map_fst_zip :
    (contents.zip fresh).map Prod.fst = contents := List.map_fst_zip h.length_eq.le

lemma Materialized.map_snd_zip :
    (contents.zip fresh).map Prod.snd = fresh := List.map_snd_zip h.length_eq.ge

variable {b : PagedBlockId}

/-- A fresh block has the contents that it was acquired for and no others. -/
lemma Materialized.content_unique {content content' : PagedBlockContents τ}
    (hc : (content, b) ∈ contents.zip fresh) (hc' : (content', b) ∈ contents.zip fresh) :
    content = content' := by
  have hnodup : ((contents.zip fresh).map Prod.snd).Nodup := h.map_snd_zip.symm ▸ h.holds.nodup
  exact congrArg Prod.fst (inj_on_of_nodup_map hnodup hc hc' rfl)

end

lemma mem_zip_of_lookup_freshMap {o : ℕ} (h : (freshMap contents fresh ∅).lookup o = some b) :
    ∃ content, (content, b) ∈ contents.zip fresh ∧ content.blockId = o := by
  rcases lookup_foldl_insert_eq_some (fun x : PagedBlockContents τ × PagedBlockId => x.1.blockId)
    Prod.snd h with ⟨⟨content, b'⟩, hmem, hid, rfl⟩ | hempty
  · exact ⟨content, hmem, hid⟩
  · simp at hempty

section

variable (h : Materialized base pool contents fresh)

include h

lemma Materialized.layerOf_of_mem_zip {content : PagedBlockContents τ}
    (hmem : (content, b) ∈ contents.zip fresh) :
    pool.layerOf b = some content.layerIdx := (List.forall₂_iff_zip.mp h.layerOf_eq).2 hmem

lemma Materialized.lookup_inj {o o' : ℕ} (ho : (freshMap contents fresh ∅).lookup o = some b)
    (ho' : (freshMap contents fresh ∅).lookup o' = some b) : o = o' := by
  obtain ⟨content, hmem, rfl⟩ := mem_zip_of_lookup_freshMap ho
  obtain ⟨content', hmem', rfl⟩ := mem_zip_of_lookup_freshMap ho'
  rw [h.content_unique hmem hmem']

/-- **Contents with different ids** are those for which no fresh block is lost. -/
lemma Materialized.lookup_iff_nodup :
    (∀ {content b}, (content, b) ∈ contents.zip fresh →
      (freshMap contents fresh ∅).lookup content.blockId = some b) ↔
      (contents.map blockId).Nodup := by
  have hids : (contents.zip fresh).map (fun x => x.1.blockId)
      = contents.map blockId := by
    rw [← Function.comp_def, ← map_map, h.map_fst_zip]
  constructor
  · intro hlookup
    -- the fresh blocks are a function of the ids
    have hfresh : (contents.map blockId).map (freshMap contents fresh ∅).lookup
        = fresh.map some := by
      rw [← hids, map_map, ← h.map_snd_zip, map_map, h.map_snd_zip]
      exact map_congr_left fun x hx => hlookup hx
    refine .of_map (freshMap contents fresh ∅).lookup ?_
    rw [hfresh]
    exact h.holds.nodup.map (Option.some_injective _)
  · intro hnodup content b hmem
    exact lookup_foldl_insert_of_nodup (fun x : PagedBlockContents τ × PagedBlockId => x.1.blockId)
      Prod.snd ∅ (hids ▸ hnodup) hmem

end

end FreshMap

/-! ## The new table -/

section Table

variable {map : BlockMap} {layers layers' : List PagedLayerState}

lemma remapBlock_eq_ok {o : ℕ} {b : PagedBlockId} :
    remapBlock map o = .ok b ↔ map.lookup o = some b := by
  rw [remapBlock]
  cases map.lookup o <;> simp

/-- A layer over fresh blocks: the lengths are kept and each entry is looked up. -/
structure Remapped (map : BlockMap) (layer layer' : PagedLayerState) : Prop where
  blockIds_eq : layer'.blockIds.map some = layer.blockIds.map map.lookup
  len_eq : layer'.len = layer.len
  logicalStart_eq : layer'.logicalStart = layer.logicalStart

lemma remapLayer_eq_ok {layer layer' : PagedLayerState} :
    remapLayer map layer = .ok layer' ↔ Remapped map layer layer' := by
  have hids : ∀ ids, layer.blockIds.mapM (remapBlock map) = .ok ids ↔
      ids.map some = layer.blockIds.map map.lookup := by
    intro ids
    simp only [mapM_eq_ok, remapBlock_eq_ok]
    rw [← forall₂_eq_eq_eq, forall₂_map_left_iff, forall₂_map_right_iff]
    exact ⟨fun h => h.flip.imp fun _ _ => .symm, fun h => h.flip.imp fun _ _ => .symm⟩
  rw [remapLayer, bind_eq_ok]
  simp only [pure_eq_ok, hids]
  constructor
  · rintro ⟨ids, heq, rfl⟩
    exact ⟨heq, rfl, rfl⟩
  · rintro ⟨hblocks, hlen, hstart⟩
    exact ⟨layer'.blockIds, hblocks, by rw [← hlen, ← hstart]⟩

lemma remapLayers_eq_ok : layers.mapM (remapLayer map) = .ok layers' ↔
    Forall₂ (Remapped map) layers layers' := by
  simp only [mapM_eq_ok, remapLayer_eq_ok]

section

variable (h : Forall₂ (Remapped map) layers layers')

include h

lemma flatMap_remapped : (layers'.flatMap PagedLayerState.blockIds).map some
      = (layers.flatMap PagedLayerState.blockIds).map map.lookup := by
  induction h with
  | nil => rfl
  | cons hlayer _ ih =>
    simp [ih, hlayer.blockIds_eq]

variable {l : ℕ} {layer' : PagedLayerState}

lemma exists_remapped (hlayer' : layers'[l]? = some layer') :
    ∃ layer, layers[l]? = some layer ∧ Remapped map layer layer' := by
  obtain ⟨hlt', heq'⟩ := List.getElem?_eq_some_iff.mp hlayer'
  have hlt : l < layers.length := h.length_eq ▸ hlt'
  refine ⟨layers[l], getElem?_eq_getElem hlt, ?_⟩
  rw [← heq']
  exact h.get hlt hlt'

/-- An entry of the new table stands where its origin stood. -/
lemma exists_origin (hlayer' : layers'[l]? = some layer') {b : PagedBlockId}
    (hb : b ∈ layer'.blockIds) :
    ∃ layer, layers[l]? = some layer ∧ ∃ o ∈ layer.blockIds, map.lookup o = some b := by
  obtain ⟨layer, hlayer, hremapped⟩ := exists_remapped h hlayer'
  have hmem : some b ∈ layer.blockIds.map map.lookup :=
    hremapped.blockIds_eq ▸ mem_map_of_mem hb
  obtain ⟨o, ho, hlookup⟩ := mem_map.mp hmem
  exact ⟨layer, hlayer, o, ho, hlookup⟩

end

end Table

section Conserves

variable {base pool : PagedBlockPool τ} {contents : List (PagedBlockContents τ)}
  {fresh : List PagedBlockId} {restored state : PagedSequenceState}

/-- A restore with these contents went through. -/
structure Rebuilt (base pool : PagedBlockPool τ) (contents : List (PagedBlockContents τ))
    (restored : PagedSequenceState) (fresh : List PagedBlockId) (state : PagedSequenceState) :
    Prop where
  materialized : Materialized base pool contents fresh
  remapped : Forall₂ (Remapped (freshMap contents fresh ∅)) restored.layers state.layers

/-- The table has contents on the layers of its entries and refers to all contents. -/
structure Matches (restored : PagedSequenceState) (contents : List (PagedBlockContents τ)) :
    Prop where
  layer_eq : ∀ {l layer}, restored.layers[l]? = some layer → ∀ content ∈ contents,
    content.blockId ∈ layer.blockIds → content.layerIdx = l
  referenced : ∀ content ∈ contents, content.blockId ∈ restored.blockIds

section

variable (h : Rebuilt base pool contents restored fresh state)

include h

lemma Rebuilt.blockIds_eq :
    state.blockIds.map some = restored.blockIds.map (freshMap contents fresh ∅).lookup :=
  flatMap_remapped h.remapped

variable {b : PagedBlockId}

lemma Rebuilt.exists_lookup (hb : b ∈ state.blockIds) :
    ∃ o ∈ restored.blockIds, (freshMap contents fresh ∅).lookup o = some b := by
  have hmem : some b ∈ state.blockIds.map some := mem_map_of_mem hb
  rw [h.blockIds_eq] at hmem
  exact mem_map.mp hmem

lemma Rebuilt.mem_fresh (hb : b ∈ state.blockIds) : b ∈ fresh := by
  obtain ⟨o, _, hlookup⟩ := h.exists_lookup hb
  obtain ⟨content, hmem, _⟩ := mem_zip_of_lookup_freshMap hlookup
  exact (of_mem_zip hmem).2

/-- The new table has an id twice exactly if the old one has. -/
lemma Rebuilt.nodup_iff : state.blockIds.Nodup ↔ restored.blockIds.Nodup := by
  rw [← nodup_map_iff (Option.some_injective _), h.blockIds_eq]
  refine ⟨.of_map _, fun hnodup => hnodup.map_on ?_⟩
  intro o ho o' ho' heq
  have hmem : (freshMap contents fresh ∅).lookup o ∈ state.blockIds.map some := by
    rw [h.blockIds_eq]
    exact mem_map_of_mem ho
  obtain ⟨b, _, hb⟩ := mem_map.mp hmem
  exact h.materialized.lookup_inj hb.symm (heq ▸ hb.symm)

section

variable (hmatches : Matches restored contents)

include hmatches

lemma Rebuilt.layerOf_eq {l : ℕ} {layer : PagedLayerState}
    (hlayer : state.layers[l]? = some layer) (hb : b ∈ layer.blockIds) :
    pool.layerOf b = some l := by
  obtain ⟨origin, horigin, o, ho, hlookup⟩ := exists_origin h.remapped hlayer hb
  obtain ⟨content, hmem, rfl⟩ := mem_zip_of_lookup_freshMap hlookup
  rw [h.materialized.layerOf_of_mem_zip hmem,
    hmatches.layer_eq horigin content (of_mem_zip hmem).1 ho]

/-- With different ids the new table are the fresh blocks. -/
lemma Rebuilt.perm (hcontents : (contents.map blockId).Nodup) (htable : restored.blockIds.Nodup) :
    fresh.Perm state.blockIds := by
  refine (perm_ext_iff_of_nodup h.materialized.holds.nodup (h.nodup_iff.mpr htable)).mpr
    fun b => ⟨fun hb => ?_, h.mem_fresh⟩
  rw [← h.materialized.map_snd_zip] at hb
  obtain ⟨⟨content, b⟩, hmem, rfl⟩ := mem_map.mp hb
  have hlookup := h.materialized.lookup_iff_nodup.mpr hcontents hmem
  have hsome : some b ∈ state.blockIds.map some := by
    rw [h.blockIds_eq, ← hlookup]
    exact mem_map_of_mem (hmatches.referenced content (of_mem_zip hmem).1)
  simpa using hsome

/-- **Conservation at the level of the pool**: a rebuilt table conserves blocks exactly if neither
the contents nor the old table have an id twice. -/
theorem Rebuilt.conserves_iff : Conserves base pool state ↔
      (contents.map blockId).Nodup ∧ restored.blockIds.Nodup := by
  have hholds := h.materialized.holds
  constructor
  · intro hconserves
    have hcount : ∀ b ∈ fresh, state.blockIds.count b = 1 := fun b hb =>
      (hconserves.fresh_once b (hholds.mem_iff.mp hb).1 (hholds.mem_iff.mp hb).2).2.1
    constructor
    · refine h.materialized.lookup_iff_nodup.mp ?_
      intro content b hmem
      have hb : b ∈ state.blockIds := by
        rw [← count_pos_iff, hcount b (of_mem_zip hmem).2]
        exact Nat.one_pos
      obtain ⟨o, _, hlookup⟩ := h.exists_lookup hb
      obtain ⟨content', hmem', rfl⟩ := mem_zip_of_lookup_freshMap hlookup
      rw [h.materialized.content_unique hmem hmem', hlookup]
    · refine h.nodup_iff.mp (nodup_iff_count_eq_one.mpr fun b hb => ?_)
      exact hcount b (h.mem_fresh hb)
  · rintro ⟨hcontents, htable⟩
    have hperm := h.perm hmatches hcontents htable
    obtain ⟨hok, hreleased⟩ := releaseLayers_holds (hholds.perm hperm)
    refine ⟨?_, hok, hreleased.liveBlockCount_eq⟩
    intro b hfree hlive
    have hb : b ∈ fresh := hholds.mem_iff.mpr ⟨hfree, hlive⟩
    have hmem : b ∈ state.blockIds := hperm.mem_iff.mp hb
    refine ⟨by rw [hholds.refcount_eq, if_pos hb],
      count_eq_one_of_mem (h.nodup_iff.mpr htable) hmem, ?_⟩
    obtain ⟨layer, hlayer, hblock⟩ := mem_flatMap.mp hmem
    obtain ⟨l, hl⟩ := mem_iff_getElem?.mp hlayer
    exact ⟨l, layer, hl, hblock, h.layerOf_eq hmatches hl hblock⟩

end

end

end Conserves

end PagedBlockPool

end Mlxcel.Paged

namespace Mlxcel.Handoff

open List Paged AssocMap Fallible PagedBlockPool

/-! ## Payloads -/

section Payload

variable {τ : Type} (mlx : Mlx τ)

def reconstructBlock (i : ℕ) (block : SerializablePagedBlock) : Checked (PagedBlockContents τ) := do
  let keys ← context s!"paged block {i} keys" (reconstructMlxArray mlx block.keys)
  let values ← context s!"paged block {i} values" (reconstructMlxArray mlx block.values)
  return ⟨block.blockId, block.layerIdx, keys, values⟩

def reconstructBlocks (blocks : List SerializablePagedBlock) :
    Checked (List (PagedBlockContents τ)) :=
  blocks.zipIdx.mapM fun block => reconstructBlock mlx block.2 block.1

variable {mlx}

lemma reconstructBlock_eq_ok {i : ℕ} {block : SerializablePagedBlock}
    {content : PagedBlockContents τ} (h : reconstructBlock mlx i block = .ok content) :
    content.blockId = block.blockId ∧ content.layerIdx = block.layerIdx := by
  simp only [reconstructBlock, bind_eq_ok, pure_eq_ok] at h
  obtain ⟨keys, _, values, _, rfl⟩ := h
  exact ⟨rfl, rfl⟩

variable {blocks : List SerializablePagedBlock} {contents : List (PagedBlockContents τ)}

section

variable (h : reconstructBlocks mlx blocks = .ok contents)

include h

/-- The contents keep the ids and the layers of the blocks. -/
lemma reconstructBlocks_eq_ok : Forall₂ (fun block content => content.blockId = block.blockId ∧
      content.layerIdx = block.layerIdx) blocks contents := by
  rw [reconstructBlocks, mapM_eq_ok] at h
  rw [← zipIdx_map_fst 0 blocks, forall₂_map_left_iff]
  exact h.imp fun _ _ => reconstructBlock_eq_ok

lemma map_blockId_reconstructBlocks :
    contents.map PagedBlockContents.blockId = blocks.map SerializablePagedBlock.blockId := by
  rw [← forall₂_eq_eq_eq, forall₂_map_left_iff, forall₂_map_right_iff]
  exact (reconstructBlocks_eq_ok h).flip.imp fun _ _ => And.left

lemma exists_block_of_mem {content : PagedBlockContents τ} (hcontent : content ∈ contents) :
    ∃ block ∈ blocks, content.blockId = block.blockId ∧ content.layerIdx = block.layerIdx := by
  have hpairs := reconstructBlocks_eq_ok h
  obtain ⟨i, hi, rfl⟩ := mem_iff_getElem.mp hcontent
  have hlt : i < blocks.length := hpairs.length_eq ▸ hi
  exact ⟨blocks[i], getElem_mem hlt, hpairs.get hlt hi⟩

end

variable {s : SerializablePagedSequenceState} {runtime : PagedSequenceState}

lemma toRuntime_eq_ok (h : s.toRuntime = .ok runtime) :
    runtime = ⟨s.blockSize, s.layers.map fun layer =>
      ⟨layer.blockIds, layer.len, min layer.logicalStart layer.len⟩⟩ := by
  rw [SerializablePagedSequenceState.toRuntime, check_bind_eq_ok, pure_eq_ok] at h
  exact h.2.symm

lemma blockIds_toRuntime (h : s.toRuntime = .ok runtime) : runtime.blockIds = s.referenced := by
  rw [toRuntime_eq_ok h, PagedSequenceState.blockIds, flatMap_map]
  rfl

/-- **The gate** makes the table and the contents match. -/
lemma Admitted.matches {limits : CacheIngestLimits} {expected : Option ExpectedBlockGeometry}
    (h : Admitted limits expected blocks s) (hruntime : s.toRuntime = .ok runtime)
    (hcontents : reconstructBlocks mlx blocks = .ok contents) : Matches runtime contents := by
  constructor
  · intro l layer hlayer content hcontent hmem
    rw [toRuntime_eq_ok hruntime, getElem?_map] at hlayer
    obtain ⟨layer₀, hlayer₀, rfl⟩ := Option.map_eq_some_iff.mp hlayer
    obtain ⟨block, hblock, hid, rfl⟩ := h.backed hlayer₀ _ hmem
    obtain ⟨block', hblock', hid', hlayer'⟩ := exists_block_of_mem hcontents hcontent
    have hagrees : block'.Agrees block :=
      Pairwise.forall_of_forall (fun _ _ _ => rfl) h.agrees hblock' hblock
    rw [hlayer', hagrees (hid'.symm.trans hid.symm)]
  · intro content hcontent
    obtain ⟨block, hblock, hid, _⟩ := exists_block_of_mem hcontents hcontent
    rw [blockIds_toRuntime hruntime, hid]
    exact h.referenced block hblock

end Payload

variable {τ : Type} {state : PagedSequenceState}

lemma release_pagedPool {c : CachePool τ} {id : SequenceId} {sequence : SequenceCacheSet}
    {pool : PagedBlockPool τ} (hsequence : c.active.lookup id = some sequence)
    (hstate : sequence.paged = some state) (hpool : c.pagedPool = some pool) :
    (c.release id).pagedPool = some (pool.releaseSequence state).2.1 := by
  simp only [CachePool.release, hsequence, hstate, hpool]

/-- **Restores and block conservation.** In every reachable cache pool, a restore of a payload that
passed the gate conserves blocks exactly if no id occurs twice in its contents or in its table. A
restore that fails leaves the cache pool as it was or with the counts it has without the
sequence. -/
theorem restore_conserves_iff {τ : Type} [Zero τ] (mlx : Mlx τ) (maxSequences : ℕ)
    (calls : List (Call τ)) (id : SequenceId) (caches : List (LayerCache τ))
    {state : SerializableCacheState} {limits : CacheIngestLimits}
    {expected : Option ExpectedBlockGeometry} {pagedState : SerializablePagedSequenceState}
    {runtime : PagedSequenceState} {contents : List (PagedBlockContents τ)}
    (hgate : validatePagedPayload state limits expected = .ok ())
    (hstate : state.pagedState = some pagedState) (hruntime : pagedState.toRuntime = .ok runtime)
    (hcontents : reconstructBlocks mlx state.pagedBlocks = .ok contents) :
    let c := (World.calls maxSequences calls).cache
    let out := c.restorePagedStateWithContents id caches runtime contents
    (out.1 = .ok () → ∃ base pool sequence table,
      (c.release id).pagedPool = some base ∧ out.2.1.pagedPool = some pool ∧
      out.2.1.active.lookup id = some sequence ∧ sequence.paged = some table ∧
      (Conserves base pool table ↔
        (state.pagedBlocks.map SerializablePagedBlock.blockId).Nodup ∧
          pagedState.referenced.Nodup)) ∧
    (∀ fault, out.1 = .error fault → fault ≠ .pool .panicked → out.2.1 = c ∨
      ∃ base pool, (c.release id).pagedPool = some base ∧ out.2.1.pagedPool = some pool ∧
        ∀ b, pool.refcount b = base.refcount b) := by
  intro c out
  have hpaged : state.isPaged ≠ false := by
    simp [SerializableCacheState.isPaged, hstate]
  obtain ⟨s, hs, hadmitted⟩ := (validatePagedPayload_eq_ok.mp hgate).resolve_left hpaged
  obtain rfl : s = pagedState := Option.some.inj (hs.symm.trans hstate)
  have hmatches := hadmitted.matches hruntime hcontents
  obtain ⟨hcounted, hready⟩ := World.calls_spec maxSequences calls
  rcases CachePool.restorePagedStateWithContents_spec id caches runtime contents hcounted hready
    with ⟨fault, heq⟩ | ⟨sequence, table, pool, hsequence, htable, hpool, hrestored⟩
  · -- refused before anything was touched
    have hout : out = (.error fault, c, caches) := heq
    rw [hout]
    exact ⟨by simp, fun _ _ _ => .inl rfl⟩
  have hbase : (c.release id).pagedPool = some (pool.releaseSequence table).2.1 :=
    release_pagedPool hsequence htable hpool
  change CachePool.Restored _ c id sequence caches runtime contents out at hrestored
  generalize out = out at hrestored
  cases hrestored with
  | failed hcounted' hholds =>
    refine ⟨by simp, fun fault hfault hne => .inr ⟨_, _, hbase, rfl, fun b => ?_⟩⟩
    rw [(hholds (Except.error.inj hfault ▸ hne)).refcount_eq]
    simp
  | done hmaterialized hremap =>
    refine ⟨fun _ => ⟨_, _, _, _, hbase, rfl, AList.lookup_insert _, rfl, ?_⟩, by simp⟩
    rw [← map_blockId_reconstructBlocks hcontents, ← blockIds_toRuntime hruntime]
    have hrebuilt : Rebuilt _ _ contents runtime _ ⟨runtime.blockSize, _⟩ :=
      ⟨hmaterialized, remapLayers_eq_ok.mp hremap⟩
    exact hrebuilt.conserves_iff hmatches

/-! ## Payloads of one layer -/

def oneLayer : PagedKvLayout where
  numLayers := 1
  blockSize := 1
  bytesPerBlock := [2]
  cacheMode := .fp16
  turboSidecarBytesPerBlock := []
  blockSize_pos := by decide
  numLayers_eq := rfl
  numLayers_pos := by decide

/-- Arrays of bytes with one head of dimension one. -/
def byteRows : Mlx ℕ where
  fromBytes data _ dtype := some (.ofRow 1 1 dtype.toNat (data.map UInt8.toNat))

/-- A block of one byte. -/
def byteBlock (id : ℕ) : SerializablePagedBlock := ⟨id, 0, ⟨[5], [1, 1, 1], 1⟩, ⟨[6], [1, 1, 1], 1⟩⟩

def byteTable (ids : List ℕ) : SerializablePagedSequenceState := ⟨1, [2], [⟨ids, ids.length, 0⟩]⟩

def handoff (table ids : List ℕ) : SerializableCacheState :=
  ⟨.pagedKvCache, some (byteTable table), ids.map byteBlock⟩

def byteContents (id : ℕ) : PagedBlockContents ℕ :=
  ⟨id, 0, .ofRow 1 1 1 [5], .ofRow 1 1 1 [6]⟩

/-- A cache pool with one paged sequence. -/
def decodeCalls : List (Call ℕ) := [.op (.allocateWithLayout ⟨.pagedKvCache, some oneLayer⟩)]

def decodeRestore (table ids : List ℕ) :
    Except RestoreFault Unit × CachePool ℕ × List (LayerCache ℕ) :=
  (World.calls 1 decodeCalls).cache.restorePagedStateWithContents 0 []
    ⟨1, [⟨table, table.length, 0⟩]⟩ (ids.map byteContents)

/-- A payload that is taken in and leads to a pool that does not conserve blocks. -/
def TakenWithoutConserving (table ids : List ℕ) : Prop :=
  validatePagedPayload (handoff table ids) .default none = .ok () ∧
    (byteTable table).toRuntime = .ok ⟨1, [⟨table, table.length, 0⟩]⟩ ∧
    reconstructBlocks byteRows (handoff table ids).pagedBlocks = .ok (ids.map byteContents) ∧
    (decodeRestore table ids).1 = .ok () ∧
    ∃ base pool sequence state,
      ((World.calls 1 decodeCalls).cache.release 0).pagedPool = some base ∧
      (decodeRestore table ids).2.1.pagedPool = some pool ∧
      (decodeRestore table ids).2.1.active.lookup 0 = some sequence ∧
      sequence.paged = some state ∧ ¬ Conserves base pool state

lemma not_conserves_of_count {base pool : PagedBlockPool τ} {b : PagedBlockId}
    (h : base.refcount b = 0 ∧ 0 < pool.refcount b ∧ state.blockIds.count b ≠ 1) :
    ¬ Conserves base pool state :=
  fun hconserves => h.2.2 (hconserves.fresh_once b h.1 h.2.1).2.1

/-- **Two contents under one id** leave a block that no table knows, and **an id that stands twice
in a table** a block with two entries and one reference. -/
theorem not_conserves_repeated_id :
    TakenWithoutConserving [7] [7, 7] ∧ TakenWithoutConserving [7, 7] [7] := by
  refine ⟨⟨rfl, rfl, rfl, by decide +kernel, ?_⟩, ⟨rfl, rfl, rfl, by decide +kernel, ?_⟩⟩ <;>
    refine ⟨Option.get _ ?_, Option.get _ ?_, Option.get _ ?_, Option.get _ ?_,
      (Option.some_get _).symm, (Option.some_get _).symm, (Option.some_get _).symm,
      (Option.some_get _).symm, not_conserves_of_count (b := 0) ?_⟩
  all_goals decide +kernel

/-- Two blocks whose contents come in another order than the table has them. -/
theorem restore_conserves_two_blocks :
    (decodeRestore [7, 8] [8, 7]).1 = .ok () ∧ ∃ base pool sequence table,
      ((World.calls 1 decodeCalls).cache.release 0).pagedPool = some base ∧
      (decodeRestore [7, 8] [8, 7]).2.1.pagedPool = some pool ∧
      (decodeRestore [7, 8] [8, 7]).2.1.active.lookup 0 = some sequence ∧
      sequence.paged = some table ∧ Conserves base pool table := by
  have hok : (decodeRestore [7, 8] [8, 7]).1 = .ok () := by decide +kernel
  have hgate : validatePagedPayload (handoff [7, 8] [8, 7]) .default none = .ok () := rfl
  have hruntime : (byteTable [7, 8]).toRuntime = .ok ⟨1, [⟨[7, 8], 2, 0⟩]⟩ := rfl
  have hcontents : reconstructBlocks byteRows (handoff [7, 8] [8, 7]).pagedBlocks
      = .ok [byteContents 8, byteContents 7] := rfl
  obtain ⟨base, pool, sequence, table, hbase, hpool, hsequence, htable, hiff⟩ :=
    (restore_conserves_iff byteRows 1 decodeCalls 0 [] hgate rfl hruntime hcontents).1 hok
  exact ⟨hok, base, pool, sequence, table, hbase, hpool, hsequence, htable,
    hiff.mpr (by decide)⟩

end Mlxcel.Handoff
