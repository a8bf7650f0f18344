import Mlxcel.Paged.Ledger
import Mlxcel.Handoff.Payload

/-!
# Restoring a sequence from a handoff

`restorePagedStateWithContents` gives every transferred block a fresh block of the pool, writes the
contents into it and rebuilds the block table over the fresh ids. What fails on the way gives back
the blocks that were acquired.

**Conservation.** `Conserves` says that the fresh blocks and the entries of the new table are the
same, one for one, so that a release of the sequence leads back to the pool without it. The gate
makes sure that every entry has contents on its layer and that all contents are referred to. It does
not look for an id that occurs twice, in the contents or in a table, and these payloads are exactly
those for which a restore does not conserve blocks (`restore_conserves_iff`). A restore that fails
leaves no fresh block in any case.

All this holds in every state that calls and earlier restores can reach, as it only rests on the
ledger of the pool.
-/

namespace Mlxcel.Paged

open List AssocMap Fallible CachePool

variable {τ : Type}

/-- The contents of one block under the id of the sender. -/
structure PagedBlockContents (τ : Type) where
  blockId : ℕ
  layerIdx : ℕ
  keys : MlxArray τ
  values : MlxArray τ

/-- The cache of one layer. A pool-backed one has no tensors of its own. -/
structure LayerCache (τ : Type) where
  keys : Option (MlxArray τ)
  values : Option (MlxArray τ)
  offset : ℤ
  liveStart : ℤ
  pagedBacked : Bool

inductive RestoreFault
  | pool (fault : Fault)
  | notPoolBacked (id : SequenceId)
  | missingLayout (id : SequenceId)
  | blockSizeMismatch (restored layout : ℕ)
  | layerCountMismatch (restored layout : ℕ)
  | wrongLayer (block : ℕ) (owner layerIdx : ℕ)
  | inUse (block : ℕ)
  | shortTable (layerIdx blocks len required : ℕ)
  | missingContents (block : ℕ)
  | noStateCell (id : SequenceId)
deriving DecidableEq

namespace PagedBlockPool

section Materialize

variable [Zero τ]

/-- A write that fails gives the block back; one that unwinds does not. -/
def acquireAndWriteBlock (pool : PagedBlockPool τ) (layerIdx : ℕ) (kBlock vBlock : MlxArray τ) :
    Except Fault PagedBlockId × PagedBlockPool τ :=
  match pool.acquireBlock layerIdx with
  | (.error fault, pool) => (.error fault, pool)
  | (.ok id, pool) =>
    match pool.writeBlock id layerIdx 0 kBlock vBlock with
    | (.ok (), pool) => (.ok id, pool)
    | (.error .panicked, pool) => (.error .panicked, pool)
    | (.error fault, pool) => (.error fault, (pool.releaseBlock id).2)

/-- The fresh id for an id of the sender. -/
abbrev BlockMap := AList fun _ : ℕ => PagedBlockId

/-- A fresh block for each of the contents. -/
def materializeBlocks : List (PagedBlockContents τ) → PagedBlockPool τ → List PagedBlockId →
    BlockMap → Except Fault (List PagedBlockId × BlockMap) × PagedBlockPool τ
  | [], pool, acquired, map => (.ok (acquired, map), pool)
  | content :: contents, pool, acquired, map =>
    match pool.acquireAndWriteBlock content.layerIdx content.keys content.values with
    | (.ok fresh, pool) =>
      materializeBlocks contents pool (acquired ++ [fresh]) (map.insert content.blockId fresh)
    | (.error .panicked, pool) => (.error .panicked, pool)
    | (.error fault, pool) => (.error fault, (releaseAll pool acquired).2)

end Materialize

/-- The fresh id of an entry, or the entry that has none. -/
def remapBlock (map : BlockMap) (origin : ℕ) : Except ℕ PagedBlockId :=
  match map.lookup origin with
  | some fresh => .ok fresh
  | none => .error origin

def remapLayer (map : BlockMap) (layer : PagedLayerState) : Except ℕ PagedLayerState := do
  return { layer with blockIds := ← layer.blockIds.mapM (remapBlock map) }

/-- The blocks that somebody holds. -/
def liveBlockCount (pool : PagedBlockPool τ) : ℕ :=
  (pool.blocks.entries.filter fun e => 0 < e.2.refcount).length

/-- The contents on fresh blocks, with the table over these. -/
def materialize [Zero τ] (pool : PagedBlockPool τ) (layers : List PagedLayerState)
    (contents : List (PagedBlockContents τ)) :
    Except RestoreFault (List PagedLayerState) × PagedBlockPool τ :=
  match materializeBlocks contents pool [] ∅ with
  | (.error fault, pool) => (.error (.pool fault), pool)
  | (.ok (acquired, map), pool) =>
    match layers.mapM (remapLayer map) with
    | .error origin => (.error (.missingContents origin), (releaseAll pool acquired).2)
    | .ok layers => (.ok layers, pool)

end PagedBlockPool

open PagedBlockPool

namespace CachePool

/-- The offsets of the caches after a restore. -/
def restoredOffsets (layers : List PagedLayerState) (caches : List (LayerCache τ)) :
    List (LayerCache τ) :=
  caches.mapIdx fun layerIdx cache =>
    match layers[layerIdx]? with
    | some layer => { cache with offset := MachineInt.asI32 layer.len }
    | none => cache

/-- The blocks of a sequence are released, if it has a table. -/
def releaseExisting (pool : PagedBlockPool τ) :
    Option PagedSequenceState → Except Fault Unit × PagedBlockPool τ × Option PagedSequenceState
  | none => (.ok (), pool, none)
  | some state =>
    let out := pool.releaseSequence state
    (out.1, out.2.1, some out.2.2)

/-- The cache pool with this pool and this block table of a sequence. -/
def install (c : CachePool τ) (id : SequenceId) (sequence : SequenceCacheSet)
    (pool : PagedBlockPool τ) (paged : Option PagedSequenceState) : CachePool τ :=
  { c with pagedPool := some pool, active := c.active.insert id { sequence with paged } }

/-- A restore into a pool, for a sequence that passed the checks. -/
def restoreInto [Zero τ] (c : CachePool τ) (pool : PagedBlockPool τ) (id : SequenceId)
    (sequence : SequenceCacheSet) (caches : List (LayerCache τ)) (restored : PagedSequenceState)
    (contents : List (PagedBlockContents τ)) :
    Except RestoreFault Unit × CachePool τ × List (LayerCache τ) :=
  match releaseExisting pool sequence.paged with
  | (.error fault, pool, paged) =>
    (.error (.pool fault), c.install id sequence pool paged, caches)
  | (.ok (), pool, paged) =>
    match pool.materialize restored.layers contents with
    | (.error fault, pool) => (.error fault, c.install id sequence pool paged, caches)
    | (.ok layers, pool) =>
      match paged with
      | none => (.error (.noStateCell id), c.install id sequence pool none, caches)
      | some _ => (.ok (), c.install id sequence pool (some ⟨restored.blockSize, layers⟩),
          restoredOffsets layers caches)

def restorePagedStateWithContents [Zero τ] (c : CachePool τ) (id : SequenceId)
    (caches : List (LayerCache τ)) (restored : PagedSequenceState)
    (contents : List (PagedBlockContents τ)) :
    Except RestoreFault Unit × CachePool τ × List (LayerCache τ) :=
  match c.active.lookup id with
  | none => (.error (.pool (.sequenceNotFound id)), c, caches)
  | some sequence =>
    if sequence.backend ≠ .pagedKvCache then (.error (.pool (.notPaged id)), c, caches)
    else if caches.any fun cache => !cache.pagedBacked then
      (.error (.notPoolBacked id), c, caches)
    else
      match sequence.pagedLayout with
      | none => (.error (.missingLayout id), c, caches)
      | some layout =>
        if restored.blockSize ≠ layout.blockSize then
          (.error (.blockSizeMismatch restored.blockSize layout.blockSize), c, caches)
        else if restored.layers.length ≠ layout.numLayers then
          (.error (.layerCountMismatch restored.layers.length layout.numLayers), c, caches)
        else
          match c.ensurePagedPool layout with
          | (.error fault, c) => (.error (.pool fault), c, caches)
          | (.ok (), c) =>
            match c.pagedPool with
            | none => (.error (.pool .panicked), c, caches)
            | some pool => c.restoreInto pool id sequence caches restored contents

end CachePool

/-! ## Fresh blocks -/

namespace PagedBlockPool

/-- The pool has the counts of `base` and one reference to each fresh block. -/
structure Holds (base pool : PagedBlockPool τ) (fresh : List PagedBlockId) : Prop where
  counted : Counted pool
  nodup : fresh.Nodup
  free : ∀ b ∈ fresh, base.refcount b = 0
  refcount_eq : ∀ b, pool.refcount b = if b ∈ fresh then 1 else base.refcount b

section Holds

variable {base pool pool' : PagedBlockPool τ} {fresh fresh' : List PagedBlockId} {b : PagedBlockId}

lemma Holds.none (h : Counted pool) : Holds pool pool [] :=
  ⟨h, nodup_nil, by simp, by simp⟩

section

variable (h : Holds base pool fresh)

include h

lemma Holds.perm (hperm : fresh.Perm fresh') :
    Holds base pool fresh' := by
  refine ⟨h.counted, hperm.nodup_iff.mp h.nodup, fun b hb => h.free b (hperm.mem_iff.mpr hb), ?_⟩
  intro b
  rw [h.refcount_eq]
  simp only [hperm.mem_iff]

lemma Holds.notMem (hb : pool.refcount b = 0) : b ∉ fresh := by
  intro hmem
  rw [h.refcount_eq, if_pos hmem] at hb
  exact one_ne_zero hb

lemma Holds.mem_iff :
    b ∈ fresh ↔ base.refcount b = 0 ∧ 0 < pool.refcount b := by
  constructor
  · intro hb
    rw [h.refcount_eq, if_pos hb]
    exact ⟨h.free b hb, Nat.one_pos⟩
  · rintro ⟨hfree, hlive⟩
    by_contra hb
    rw [h.refcount_eq, if_neg hb, hfree] at hlive
    exact lt_irrefl _ hlive

lemma Holds.acquire (hacquired : Recounted pool pool' b 1) (hb : pool.refcount b = 0) :
    Holds base pool' (fresh ++ [b]) := by
  have hnotMem := h.notMem hb
  refine .perm ⟨hacquired.counted, nodup_cons.mpr ⟨hnotMem, h.nodup⟩, ?_, ?_⟩
    (perm_append_singleton b fresh).symm
  · intro b' hb'
    rcases mem_cons.mp hb' with rfl | hb'
    · rwa [h.refcount_eq, if_neg hnotMem] at hb
    · exact h.free b' hb'
  · intro b'
    rw [hacquired.refcount_eq, h.refcount_eq]
    by_cases heq : b' = b
    · simp [heq]
    · simp [heq]

end

lemma Holds.release (h : Holds base pool (b :: fresh)) :
    ∃ pool', pool.releaseBlock b = (.ok (), pool') ∧ Holds base pool' fresh := by
  obtain ⟨hnotMem, hnodup⟩ := nodup_cons.mp h.nodup
  have hone : pool.refcount b = 1 := by rw [h.refcount_eq, if_pos mem_cons_self]
  rcases releaseBlock_counted h.counted b with ⟨_, pool', heq, hreleased⟩ | ⟨hzero, _⟩
  · refine ⟨pool', heq, hreleased.counted, hnodup,
      fun b' hb' => h.free b' (mem_cons_of_mem b hb'), ?_⟩
    intro b'
    rw [hreleased.refcount_eq, hone, h.refcount_eq]
    by_cases hb' : b' = b
    · simp [hb', hnotMem, h.free b mem_cons_self]
    · simp [hb']
  · rw [hone] at hzero
    exact absurd hzero one_ne_zero

lemma releaseAll_holds (h : Holds base pool fresh) :
    Holds base (releaseAll pool fresh).2 [] := by
  induction fresh generalizing pool with
  | nil => exact h
  | cons b fresh ih =>
    obtain ⟨pool', heq, hreleased⟩ := h.release
    rw [releaseAll, heq]
    exact ih hreleased

lemma releaseTail_holds {ids : List PagedBlockId} (h : Holds base pool (ids ++ fresh)) :
    ∃ pool', releaseTail ids.length pool ids = (.ok (), pool', []) ∧ Holds base pool' fresh := by
  induction ids using reverseRecOn generalizing pool with
  | nil => exact ⟨pool, rfl, h⟩
  | append_singleton ids b ih =>
    have hlast : Holds base pool (b :: (ids ++ fresh)) :=
      h.perm (by simp)
    obtain ⟨pool₁, heq, hreleased⟩ := hlast.release
    obtain ⟨pool₂, htail, hrest⟩ := ih hreleased
    refine ⟨pool₂, ?_, hrest⟩
    rw [length_append, length_singleton, releaseTail, getLast?_concat]
    simp only [heq, dropLast_concat]
    exact htail

/-- **A table over fresh blocks** is released without an error and leaves the base. -/
lemma releaseLayers_holds {layers : List PagedLayerState}
    (h : Holds base pool (layers.flatMap PagedLayerState.blockIds)) :
    (pool.releaseLayers layers).1 = .ok () ∧ Holds base (pool.releaseLayers layers).2.1 [] := by
  induction layers generalizing pool with
  | nil => exact ⟨rfl, h⟩
  | cons layer layers ih =>
    obtain ⟨pool', heq, hrest⟩ := releaseTail_holds h
    rw [releaseLayers, heq]
    exact ih hrest

lemma Holds.liveBlockCount_eq (h : Holds base pool []) :
    pool.liveBlockCount = base.liveBlockCount := by
  have hlive : ∀ (pool : PagedBlockPool τ) (b : PagedBlockId),
      (∃ record ∈ pool.blocks.lookup b, decide (0 < record.refcount) = true) ↔
        0 < pool.refcount b := by
    intro pool b
    rw [refcount]
    cases pool.blocks.lookup b <;> simp
  refine length_filter_eq (p := fun record : PagedBlockRecord => decide (0 < record.refcount))
    fun b => ?_
  rw [hlive, hlive, h.refcount_eq]
  simp

end Holds

/-! ## Materializing -/

/-- The fresh blocks hold the contents, each on the layer of its contents. -/
structure Materialized (base pool : PagedBlockPool τ) (contents : List (PagedBlockContents τ))
    (fresh : List PagedBlockId) : Prop where
  holds : Holds base pool fresh
  layerOf_eq : Forall₂ (fun content b => pool.layerOf b = some content.layerIdx) contents fresh

lemma Materialized.acquire {base pool pool' : PagedBlockPool τ}
    {contents : List (PagedBlockContents τ)} {fresh : List PagedBlockId}
    (h : Materialized base pool contents fresh)
    {content : PagedBlockContents τ} {b : PagedBlockId} (hacquired : Recounted pool pool' b 1)
    (hfree : pool.refcount b = 0) (hlayer : pool'.layerOf b = some content.layerIdx) :
    Materialized base pool' (contents ++ [content]) (fresh ++ [b]) :=
  ⟨h.holds.acquire hacquired hfree,
    rel_append (h.layerOf_eq.imp fun _ _ => hacquired.layerOf_eq) (.cons hlayer .nil)⟩

/-- The map over contents and their fresh blocks. -/
def freshMap (contents : List (PagedBlockContents τ)) (fresh : List PagedBlockId)
    (map : BlockMap) : BlockMap :=
  (contents.zip fresh).foldl (fun map x => map.insert x.1.blockId x.2) map

section Materialize

variable [Zero τ] {base pool : PagedBlockPool τ}

/-- A block that could not be written is given back. -/
lemma acquireAndWriteBlock_counted (h : Counted pool) (l : ℕ) (k v : MlxArray τ) :
    (∃ b pool', pool.acquireAndWriteBlock l k v = (.ok b, pool') ∧ Recounted pool pool' b 1 ∧
      pool.refcount b = 0 ∧ pool'.layerOf b = some l) ∨
      ∃ fault pool', pool.acquireAndWriteBlock l k v = (.error fault, pool') ∧ Counted pool' ∧
        (fault ≠ .panicked → ∀ b, pool'.refcount b = pool.refcount b) := by
  rcases acquireBlock_counted h l with ⟨b, pool₁, heq, hacquired, hfree, hlayer⟩ | ⟨fault, heq⟩
  · have hsame := sameLedger_writeBlock pool₁ b l 0 k v
    have hcounted := hsame.counted hacquired.counted
    simp only [acquireAndWriteBlock, heq]
    generalize pool₁.writeBlock b l 0 k v = out at hsame hcounted ⊢
    obtain ⟨fault | _, pool₂⟩ := out
    · by_cases hfault : fault = .panicked
      · subst hfault
        exact .inr ⟨.panicked, pool₂, rfl, hcounted, fun hne => absurd rfl hne⟩
      · refine .inr ⟨fault, (pool₂.releaseBlock b).2, ?_, counted_releaseBlock hcounted b, ?_⟩
        · cases fault <;> first | rfl | exact absurd rfl hfault
        · have hone : pool₂.refcount b = 1 := by
            rw [hsame.refcount_eq, hacquired.refcount_eq, if_pos rfl]
          rcases releaseBlock_counted hcounted b with ⟨_, pool₃, hrel, hreleased⟩ | ⟨hzero, _⟩
          · intro _ b'
            rw [hrel, hreleased.refcount_eq, hone, hsame.refcount_eq, hacquired.refcount_eq]
            by_cases hb : b' = b
            · simp [hb, hfree]
            · simp [hb]
          · rw [hone] at hzero
            exact absurd hzero one_ne_zero
    · refine .inl ⟨b, pool₂, rfl, ⟨hcounted, ?_, ?_⟩, hfree, ?_⟩
      · intro b'
        rw [hsame.refcount_eq, hacquired.refcount_eq]
      · intro b' l' hl'
        rw [hsame.layerOf_eq]
        exact hacquired.layerOf_eq hl'
      · rw [hsame.layerOf_eq, hlayer]
  · refine .inr ⟨fault, pool, ?_, h, fun _ _ => rfl⟩
    rw [acquireAndWriteBlock, heq]

/-- **The loop over the contents** holds one fresh block for each, or none at all. -/
lemma materializeBlocks_spec (contents : List (PagedBlockContents τ))
    {before : List (PagedBlockContents τ)} {acquired : List PagedBlockId}
    (h : Materialized base pool before acquired) (map : BlockMap) :
    (∃ fresh pool', materializeBlocks contents pool acquired map =
        (.ok (acquired ++ fresh, freshMap contents fresh map), pool') ∧
      Materialized base pool' (before ++ contents) (acquired ++ fresh)) ∨
      ∃ fault pool', materializeBlocks contents pool acquired map = (.error fault, pool') ∧
        Counted pool' ∧ (fault ≠ .panicked → Holds base pool' []) := by
  induction contents generalizing pool before acquired map with
  | nil =>
    refine .inl ⟨[], pool, ?_, by simpa using h⟩
    rw [append_nil]
    rfl
  | cons content contents ih =>
    rw [materializeBlocks]
    rcases acquireAndWriteBlock_counted h.holds.counted content.layerIdx content.keys
      content.values with ⟨b, pool₁, heq, hacquired, hfree, hlayer⟩ |
        ⟨fault, pool₁, heq, hcounted, hsame⟩
    · simp only [heq]
      rcases ih (h.acquire hacquired hfree hlayer) (map.insert content.blockId b) with
        ⟨fresh, pool', hloop, hmaterialized⟩ | hfailed
      · refine .inl ⟨b :: fresh, pool', ?_, ?_⟩
        · rw [hloop, append_assoc]
          rfl
        · simpa only [append_assoc, singleton_append] using hmaterialized
      · exact .inr hfailed
    · simp only [heq]
      by_cases hfault : fault = .panicked
      · subst hfault
        exact .inr ⟨.panicked, pool₁, rfl, hcounted, fun hne => absurd rfl hne⟩
      · have hholds : Holds base pool₁ acquired := by
          refine ⟨hcounted, h.holds.nodup, h.holds.free, fun b => ?_⟩
          rw [hsame hfault, h.holds.refcount_eq]
        have hreleased := releaseAll_holds hholds
        refine .inr ⟨fault, (releaseAll pool₁ acquired).2, ?_, hreleased.counted,
          fun _ => hreleased⟩
        cases fault <;> first | rfl | exact absurd rfl hfault

/-- **Materializing** gives a table over fresh blocks, or takes them all back. -/
theorem materialize_spec (h : Counted pool) (layers : List PagedLayerState)
    (contents : List (PagedBlockContents τ)) :
    (∃ fresh layers' pool', pool.materialize layers contents = (.ok layers', pool') ∧
      Materialized pool pool' contents fresh ∧
      layers.mapM (remapLayer (freshMap contents fresh ∅)) = .ok layers') ∨
      ∃ fault pool', pool.materialize layers contents = (.error fault, pool') ∧ Counted pool' ∧
        (fault ≠ .pool .panicked → Holds pool pool' []) := by
  rw [materialize]
  rcases materializeBlocks_spec contents ⟨.none h, .nil⟩ ∅ with
    ⟨fresh, pool', hloop, hmaterialized⟩ | ⟨fault, pool', hloop, hcounted, hsame⟩
  · rw [hloop]
    simp only [nil_append] at hmaterialized ⊢
    cases hremap : layers.mapM (remapLayer (freshMap contents fresh ∅)) with
    | ok layers' => exact .inl ⟨fresh, layers', pool', rfl, hmaterialized, hremap⟩
    | error origin =>
      have hreleased := releaseAll_holds hmaterialized.holds
      exact .inr ⟨_, _, rfl, hreleased.counted, fun _ => hreleased⟩
  · rw [hloop]
    exact .inr ⟨_, pool', rfl, hcounted, fun hne => hsame fun heq => hne (heq ▸ rfl)⟩

end Materialize

end PagedBlockPool

/-! ## Restores into reachable pools -/

namespace CachePool

section Restore

variable {c : CachePool τ} {id : SequenceId} {sequence : SequenceCacheSet}
  {caches : List (LayerCache τ)} {restored : PagedSequenceState}
  {contents : List (PagedBlockContents τ)}

/-- What comes of a restore, with the pool `base` that is left without the sequence. -/
inductive Restored (base : PagedBlockPool τ) (c : CachePool τ) (id : SequenceId)
    (sequence : SequenceCacheSet) (caches : List (LayerCache τ)) (restored : PagedSequenceState)
    (contents : List (PagedBlockContents τ)) :
    Except RestoreFault Unit × CachePool τ × List (LayerCache τ) → Prop
  | failed {fault state} {pool : PagedBlockPool τ} (hcounted : pool.Counted)
      (hholds : fault ≠ .pool .panicked → Holds base pool []) :
      Restored base c id sequence caches restored contents
        (.error fault, c.install id sequence pool (some state), caches)
  | done {fresh layers} {pool : PagedBlockPool τ}
      (hmaterialized : Materialized base pool contents fresh)
      (hremap : restored.layers.mapM (remapLayer (freshMap contents fresh ∅)) = .ok layers) :
      Restored base c id sequence caches restored contents
        (.ok (), c.install id sequence pool (some ⟨restored.blockSize, layers⟩),
          restoredOffsets layers caches)

variable {base : PagedBlockPool τ}
  {out : Except RestoreFault Unit × CachePool τ × List (LayerCache τ)}

lemma Restored.counted (h : Restored base c id sequence caches restored contents out) :
    out.2.1.Counted := by
  cases h with
  | failed hcounted hholds => exact counted_of_pool rfl hcounted
  | done hmaterialized hremap => exact counted_of_pool rfl hmaterialized.holds.counted

lemma Restored.ready (h : Restored base c id sequence caches restored contents out)
    (hready : c.Ready) :
    out.2.1.Ready := by
  cases h with
  | failed hcounted hholds | done hmaterialized hremap =>
    exact hready.insert rfl (fun _ => rfl) fun _ => ⟨rfl, rfl⟩

variable [Zero τ]

lemma restoreInto_spec {pool : PagedBlockPool τ} {state : PagedSequenceState}
    (hpool : pool.Counted) (hstate : sequence.paged = some state) :
    Restored (pool.releaseSequence state).2.1 c id sequence caches restored contents
      (c.restoreInto pool id sequence caches restored contents) := by
  have hbase := counted_releaseSequence hpool state
  rw [restoreInto, hstate, releaseExisting]
  generalize pool.releaseSequence state = out at hbase ⊢
  obtain ⟨fault | _, base, state'⟩ := out
  · exact .failed hbase fun _ => .none hbase
  · simp only
    rcases materialize_spec hbase restored.layers contents with
      ⟨fresh, layers, pool', heq, hmaterialized, hremap⟩ | ⟨fault, pool', heq, hcounted, hholds⟩
    · rw [heq]
      exact .done hmaterialized hremap
    · rw [heq]
      exact .failed hcounted hholds

variable (id caches restored contents)

/-- **A restore** is refused without a change, or it goes into the pool. -/
theorem restorePagedStateWithContents_eq (hready : c.Ready) :
    (∃ fault, c.restorePagedStateWithContents id caches restored contents
      = (.error fault, c, caches)) ∨
      ∃ sequence state pool, c.active.lookup id = some sequence ∧
        sequence.paged = some state ∧ c.pagedPool = some pool ∧
        restored.blockSize = pool.layout.blockSize ∧
        restored.layers.length = pool.layout.numLayers ∧
        c.restorePagedStateWithContents id caches restored contents
          = c.restoreInto pool id sequence caches restored contents := by
  rw [restorePagedStateWithContents]
  cases hlookup : c.active.lookup id with
  | none => exact .inl ⟨_, rfl⟩
  | some sequence =>
    simp only
    by_cases hbackend : sequence.backend ≠ .pagedKvCache
    · exact .inl ⟨_, if_pos hbackend⟩
    rw [if_neg hbackend]
    obtain ⟨hpaged, hsome⟩ := hready id sequence hlookup (not_not.mp hbackend)
    obtain ⟨state, hstate⟩ := Option.isSome_iff_exists.mp hpaged
    obtain ⟨pool, hpool⟩ := Option.isSome_iff_exists.mp hsome
    by_cases hcaches : (caches.any fun cache => !cache.pagedBacked) = true
    · exact .inl ⟨_, if_pos hcaches⟩
    rw [if_neg hcaches]
    cases sequence.pagedLayout with
    | none => exact .inl ⟨_, rfl⟩
    | some layout =>
      simp only
      by_cases hsize : restored.blockSize ≠ layout.blockSize
      · exact .inl ⟨_, if_pos hsize⟩
      rw [if_neg hsize]
      by_cases hlayers : restored.layers.length ≠ layout.numLayers
      · exact .inl ⟨_, if_pos hlayers⟩
      rw [if_neg hlayers, ensurePagedPool, hpool]
      by_cases hlayout : pool.layout ≠ layout
      · simp only [if_pos hlayout]
        exact .inl ⟨_, rfl⟩
      · simp only [if_neg hlayout, hpool]
        rw [← not_not.mp hlayout] at hsize hlayers
        exact .inr ⟨sequence, state, pool, rfl, hstate, rfl, not_not.mp hsize,
          not_not.mp hlayers, rfl⟩

/-- In a pool with its ledger in order. -/
theorem restorePagedStateWithContents_spec (hcounted : c.Counted) (hready : c.Ready) :
    (∃ fault, c.restorePagedStateWithContents id caches restored contents
      = (.error fault, c, caches)) ∨
      ∃ sequence state pool, c.active.lookup id = some sequence ∧
        sequence.paged = some state ∧ c.pagedPool = some pool ∧
        Restored (pool.releaseSequence state).2.1 c id sequence caches restored contents
          (c.restorePagedStateWithContents id caches restored contents) := by
  rcases restorePagedStateWithContents_eq id caches restored contents hready with
    hrefused | ⟨sequence, state, pool, hlookup, hstate, hpool, _, _, heq⟩
  · exact .inl hrefused
  · rw [heq]
    exact .inr ⟨sequence, state, pool, hlookup, hstate, hpool,
      restoreInto_spec (hcounted pool hpool) hstate⟩

end Restore

end CachePool

/-- An acquired block is of its layer and had no reference, all other counts stay, and a failure
changes nothing. -/
def CachePool.GivesFresh (c : CachePool τ) : Prop := ∀ pool ∈ c.pagedPool, ∀ l,
  (∃ b pool', pool.acquireBlock l = (.ok b, pool') ∧ pool.refcount b = 0 ∧
    pool'.layerOf b = some l ∧ ∀ b', pool'.refcount b' = if b' = b then 1 else pool.refcount b') ∨
  ∃ fault, pool.acquireBlock l = (.error fault, pool)

/-! ## Runs with restores -/

/-- A call on a cache pool that also takes handoffs. `restore_paged_state`, which registers block ids
of its caller's choice and has no caller that the payload gate lets through, is not among them. -/
inductive Call (τ : Type)
  | op (op : Op τ)
  | restore (id : SequenceId) (caches : List (LayerCache τ)) (restored : PagedSequenceState)
      (contents : List (PagedBlockContents τ))

namespace World

variable [Zero τ]

def call (w : World τ) : Call τ → World τ
  | .op op => (w.step op).2
  | .restore id caches restored contents =>
    { w with cache := (w.cache.restorePagedStateWithContents id caches restored contents).2.1 }

def calls (maxSequences : ℕ) (calls : List (Call τ)) : World τ :=
  calls.foldl call (init maxSequences)

lemma sound_call {w : World τ} (h : w.cache.Sound) (call : Call τ) :
    (w.call call).cache.Sound := by
  cases call with
  | op op => exact sound_step h op
  | restore id caches restored contents =>
    rcases restorePagedStateWithContents_spec id caches restored contents h.1 h.2 with
      ⟨fault, heq⟩ | ⟨sequence, state, pool, _, _, _, hrestored⟩
    · simp only [call, heq]
      exact h
    · exact ⟨hrestored.counted, hrestored.ready h.2⟩

/-- **Every reachable pool** has its ledger in order and a table for each paged sequence. -/
theorem calls_spec (maxSequences : ℕ) (calls : List (Call τ)) :
    (World.calls maxSequences calls).cache.Counted ∧
      (World.calls maxSequences calls).cache.Ready := by
  rw [World.calls]
  induction calls using reverseRecOn with
  | nil =>
    refine ⟨fun pool hpool => ?_, fun id sequence hlookup => ?_⟩
    · simp [init, CachePool.new] at hpool
    · simp [init, CachePool.new] at hlookup
  | append_singleton calls call ih =>
    rw [foldl_append]
    exact sound_call ih call

/-- **No block in use is handed out**, whatever calls failed and whatever was restored before. -/
theorem givesFresh_calls (maxSequences : ℕ) (calls : List (Call τ)) :
    (World.calls maxSequences calls).cache.GivesFresh := by
  intro pool hpool l
  refine (acquireBlock_counted ((calls_spec maxSequences calls).1 pool hpool) l).imp_left ?_
  rintro ⟨b, pool', heq, hadjusted, hzero, hlayer⟩
  exact ⟨b, pool', heq, hzero, hlayer, hadjusted.refcount_eq⟩

end World

end Mlxcel.Paged
