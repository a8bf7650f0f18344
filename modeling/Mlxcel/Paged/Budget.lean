import Mlxcel.Handoff.Restore

/-!
# The block budget

`freeBlockBudget` promises that as many blocks can still be acquired, on any layers. But a freed
block is only reused on its own layer, and new ones are minted only up to the budget, with the freed
blocks of all layers counted. `room` is what one layer can really get, and `honest_iff` says when
the promise is kept: no layer misses a block that lies in the free list of another one, unless the
budget had been lowered under what was allocated.
-/

namespace Mlxcel.Paged

open List

variable {τ : Type}

namespace PagedBlockPool

variable (pool : PagedBlockPool τ)

/-- The blocks that can be acquired before the budget is hit, as the pool sees it. -/
def freeBlockBudget : Option ℕ :=
  pool.blockBudget.map fun max => max - pool.liveBlockCount

/-- Acquisitions on these layers, one after the other, all succeed. -/
def acquires : List ℕ → PagedBlockPool τ → Bool
  | [], _ => true
  | l :: ls, pool =>
    match pool.acquireBlock l with
    | (.ok _, pool) => acquires ls pool
    | (.error _, _) => false

/-- As many acquisitions succeed as the budget has left, on whatever layers. -/
def Honest : Prop :=
  ∀ n, pool.freeBlockBudget = some n → ∀ ls : List ℕ, ls.length ≤ n →
    (∀ l ∈ ls, l < pool.layout.numLayers) → acquires ls pool = true

/-- The freed blocks of the other layers. -/
def freedElsewhere (l : ℕ) : ℕ :=
  (pool.blocks.entries.filter fun e => e.2.refcount = 0 ∧ e.2.layerIdx ≠ l).length

/-- On no layer are more freed blocks out of reach than were allocated beyond the budget. -/
def Reusable : Prop :=
  ∀ max, pool.blockBudget = some max → ∀ l < pool.layout.numLayers,
    pool.freedElsewhere l ≤ pool.blocks.entries.length - max

/-- What a layer can get: its freed blocks, and new ones up to the budget. -/
def room (max l : ℕ) : ℕ :=
  (pool.layers l).freeList.length + (max - pool.blocks.entries.length)

section Room

variable {pool : PagedBlockPool τ} {max l : ℕ}

section

variable (h : Counted pool)

include h

lemma Counted.length_freeList (l : ℕ) :
    (pool.blocks.entries.filter fun e => e.2.refcount = 0 ∧ e.2.layerIdx = l).length
      = (pool.layers l).freeList.length := by
  have hnodup : ((pool.blocks.entries.filter fun e =>
      e.2.refcount = 0 ∧ e.2.layerIdx = l).map Sigma.fst).Nodup :=
    .sublist (filter_sublist.map Sigma.fst) pool.blocks.nodupKeys
  have hperm := (perm_ext_iff_of_nodup hnodup (h.free_nodup l)).mpr fun b => by
    rw [h.mem_free, ← Option.mem_def, AList.mem_lookup_iff]
    simp only [mem_map, mem_filter, decide_eq_true_eq]
    constructor
    · rintro ⟨⟨b', layer, count⟩, ⟨hmem, rfl, rfl⟩, rfl⟩
      exact hmem
    · intro hmem
      exact ⟨_, ⟨hmem, rfl, rfl⟩, rfl⟩
  simpa only [length_map] using hperm.length_eq

/-- A record is live, free on a layer or free on another one. -/
lemma Counted.length_entries (l : ℕ) : pool.blocks.entries.length
      = pool.liveBlockCount + ((pool.layers l).freeList.length + pool.freedElsewhere l) := by
  rw [← h.length_freeList l, liveBlockCount, freedElsewhere]
  induction pool.blocks.entries with
  | nil => rfl
  | cons e entries ih =>
    rw [length_cons, ih]
    by_cases hzero : e.2.refcount = 0
    · by_cases hl : e.2.layerIdx = l
      · simp [hzero, hl]
        omega
      · simp [hzero, hl]
        omega
    · simp [hzero, Nat.pos_of_ne_zero hzero]
      omega

section

variable (hmax : pool.blockBudget = some max)

include hmax

/-- **One acquisition** takes one off the room of its layer, and at most one off that of the
others; it fails when the layer has no room. -/
lemma acquireBlock_room (hl : l < pool.layout.numLayers) :
    (∃ b pool', pool.acquireBlock l = (.ok b, pool') ∧ Counted pool' ∧
      pool'.layout = pool.layout ∧ pool'.blockBudget = some max ∧
      pool'.room max l + 1 = pool.room max l ∧
      ∀ l', pool.room max l' ≤ pool'.room max l' + 1) ∨
      (pool.room max l = 0 ∧ ∃ fault, pool.acquireBlock l = (.error fault, pool)) := by
  have hkept := counted_acquireBlock h l
  rw [acquireBlock, if_neg (Nat.not_le.mpr hl)] at hkept ⊢
  cases hfree : (pool.layers l).freeList with
  | cons b rest =>
    have hrecord : pool.blocks.lookup b = some ⟨l, 0⟩ :=
      h.mem_free.mp (hfree ▸ mem_cons_self)
    simp only [hfree, setLayer, hrecord] at hkept ⊢
    have hlength := AssocMap.length_insert_of_some hrecord ⟨l, 1⟩
    refine .inl ⟨b, _, rfl, hkept, rfl, hmax, ?_, ?_⟩
    · simp only [room, Function.update_self, hfree, length_cons]
      omega
    · intro l'
      by_cases hl' : l' = l
      · simp only [hl', room, Function.update_self, hfree, length_cons]
        omega
      · simp only [room, Function.update_of_ne hl']
        omega
  | nil =>
    simp only [hfree] at hkept ⊢
    by_cases hfull : max ≤ pool.blocks.entries.length
    · rw [if_pos ⟨max, hmax, hfull⟩]
      refine .inr ⟨?_, _, rfl⟩
      rw [room, hfree, length_nil]
      omega
    · have hminted : ¬ ∃ m ∈ pool.blockBudget, m ≤ pool.blocks.entries.length := by
        rintro ⟨m, hm, hle⟩
        rw [hmax, Option.mem_some_iff] at hm
        exact hfull (hm ▸ hle)
      have hfresh : pool.blocks.lookup pool.nextBlockId = none :=
        AssocMap.lookup_eq_none_of_lt h.id_lt
      have hlength := AssocMap.length_insert_of_none hfresh ⟨l, 1⟩
      rw [if_neg hminted] at hkept ⊢
      refine .inl ⟨_, _, rfl, hkept, rfl, hmax, ?_, ?_⟩
      · simp only [room]
        omega
      · intro l'
        simp only [room]
        omega

/-- With room on every layer, every sequence of acquisitions succeeds. -/
lemma acquires_of_room {ls : List ℕ}
    (hroom : ∀ l < pool.layout.numLayers, ls.length ≤ pool.room max l)
    (hls : ∀ l ∈ ls, l < pool.layout.numLayers) : acquires ls pool = true := by
  induction ls generalizing pool with
  | nil => rfl
  | cons l ls ih =>
    have hl := hls l mem_cons_self
    rw [acquires]
    rcases acquireBlock_room h hmax hl with
      ⟨b, pool', heq, hcounted, hlayout, hmax', _, hothers⟩ | ⟨hzero, _⟩
    · rw [heq]
      refine ih hcounted hmax' ?_ ?_
      · intro l' hl'
        rw [hlayout] at hl'
        exact Nat.le_of_succ_le_succ ((hroom l' hl').trans (hothers l'))
      · intro l' hl'
        rw [hlayout]
        exact hls l' (mem_cons_of_mem l hl')
    · have := hroom l hl
      rw [hzero] at this
      exact absurd this (Nat.not_succ_le_zero _)

/-- As many acquisitions on one layer need as much room there. -/
lemma le_room_of_acquires {n : ℕ} (hl : l < pool.layout.numLayers)
    (hacquires : acquires (List.replicate n l) pool = true) :
    n ≤ pool.room max l := by
  induction n generalizing pool with
  | zero => exact Nat.zero_le _
  | succ n ih =>
    rw [replicate_succ, acquires] at hacquires
    rcases acquireBlock_room h hmax hl with
      ⟨b, pool', heq, hcounted, hlayout, hmax', hroom, _⟩ | ⟨_, fault, heq⟩
    · rw [heq] at hacquires
      rw [← hroom]
      exact Nat.succ_le_succ (ih hcounted hmax' (hlayout ▸ hl) hacquires)
    · rw [heq] at hacquires
      exact absurd hacquires Bool.false_ne_true

end

/-- The room of a layer covers what the budget has left if few freed blocks lie elsewhere. -/
lemma Counted.le_room_iff (max l : ℕ) : max - pool.liveBlockCount ≤ pool.room max l ↔
      pool.freedElsewhere l ≤ pool.blocks.entries.length - max := by
  have hlength := h.length_entries l
  rw [room]
  omega

end

end Room

end PagedBlockPool

open PagedBlockPool

/-- **The budget is honest** exactly when no layer misses blocks that lie in the free lists of
others. -/
theorem honest_iff [Zero τ] (maxSequences : ℕ) (calls : List (Call τ)) (pool : PagedBlockPool τ)
    (hpool : pool ∈ (World.calls maxSequences calls).cache.pagedPool) :
    pool.Honest ↔ pool.Reusable := by
  have h := (World.calls_spec maxSequences calls).1 pool hpool
  constructor
  · intro hhonest max hmax l hl
    rw [← h.le_room_iff max l]
    refine le_room_of_acquires h hmax hl (hhonest (max - pool.liveBlockCount) ?_ _ ?_ ?_)
    · rw [freeBlockBudget, hmax, Option.map_some]
    · rw [length_replicate]
    · intro l' hl'
      rw [eq_of_mem_replicate hl']
      exact hl
  · intro hreusable n hn ls hlength hls
    obtain ⟨max, hmax, rfl⟩ := Option.map_eq_some_iff.mp hn
    refine acquires_of_room h hmax (fun l hl => hlength.trans ?_) hls
    exact (h.le_room_iff max l).mpr (hreusable max hmax l hl)

/-- Two layers with blocks of one token. -/
def budgetLayout : PagedKvLayout where
  numLayers := 2
  blockSize := 1
  bytesPerBlock := [2, 2]
  cacheMode := .fp16
  turboSidecarBytesPerBlock := []
  blockSize_pos := Nat.one_pos
  numLayers_eq := rfl
  numLayers_pos := Nat.two_pos

/-- A sequence with one block on the first of two layers, under a budget. -/
def budgetCalls (budget : ℕ) : List (Call ℕ) :=
  [.op (.setPagedBlockBudget (some budget)),
    .op (.allocateWithLayout ⟨.pagedKvCache, some budgetLayout⟩),
    .op (.appendPagedTokens 0 0 1)]

/-- Nothing was freed yet: the second block of the budget can be had on both layers. -/
theorem honest_iff_fresh_pool :
    ∃ pool, (World.calls 1 (budgetCalls 2)).cache.pagedPool = some pool ∧
      pool.freeBlockBudget = some 1 ∧ pool.Honest := by
  refine ⟨_, rfl, rfl, (honest_iff 1 (budgetCalls 2) _ rfl).mpr ?_⟩
  rintro max ⟨⟩ l hl
  exact Nat.zero_le _

/-- The only block of the budget was freed on the first layer. The budget has a block left, but the
second layer cannot have it. -/
theorem freed_block_out_of_reach :
    ∃ pool, (World.calls 1 (budgetCalls 1 ++ [.op (.release 0)])).cache.pagedPool = some pool ∧
      pool.freeBlockBudget = some 1 ∧ 1 < pool.layout.numLayers ∧
      (pool.acquireBlock 1).1 = .error (.budgetExhausted 1 1) :=
  ⟨_, rfl, rfl, by decide, rfl⟩

end Mlxcel.Paged
