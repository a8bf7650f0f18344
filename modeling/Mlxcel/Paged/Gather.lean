import Mlxcel.Paged.Tables
import Mlxcel.Lib.Chunks
import Mathlib.Data.List.SplitBy

/-!
# Reading and writing the tokens of a table

`LayerHolds pool l layer data` says that a table has the tokens `data`: the token at position `p` is
in the slot `p % block_size` of the rows behind entry `p / block_size`. A gather reads such a table
back (`gatherVisible_eq`), a prefill appends to it (`LayerHolds.prefilled`) and a trim cuts it off
(`LayerHolds.take`).

The positions are integers of 32 bits in the source, so the blocks of a table must not have more
than `i32::MAX` slots together.
-/

namespace Mlxcel.Paged

open Option List MachineInt

variable {τ : Type}

namespace PagedBlockPool

/-! ## Gathering rows -/

/-- The row of an index, empty if there is none. -/
def rowAt (slabs : List (Slab τ)) (row : ℕ) : List τ :=
  (slabs.getD (row / poolSlabBlocks) []).getD (row % poolSlabBlocks) []

lemma rowAt_eq {slabs : List (Slab τ)} {row : ℕ} {slots : List τ}
    (h : rowOf slabs row = some slots) : rowAt slabs row = slots := by
  obtain ⟨slab, hslab, hrow⟩ := bind_eq_some_iff.mp h
  simp [rowAt, hslab, hrow]

/-- All rows of a run are in the slab of its first one. -/
lemma div_eq_of_isChain {first : ℕ} {rest : List ℕ}
    (h : (first :: rest).IsChain fun a b => (a / poolSlabBlocks == b / poolSlabBlocks) = true) :
    ∀ row ∈ first :: rest, first / poolSlabBlocks = row / poolSlabBlocks := by
  induction rest generalizing first with
  | nil => simp
  | cons second rest ih =>
    rw [isChain_cons_cons] at h
    have heq := beq_iff_eq.mp h.1
    intro row hrow
    rcases mem_cons.mp hrow with rfl | hrow
    · rfl
    · rw [heq]
      exact ih h.2 row hrow

/-- The runs of a gather are read from the right slabs. -/
lemma gatherRows_eq (slabs : List (Slab τ)) (rows : List ℕ) :
    gatherRows slabs rows = rows.map (rowAt slabs) := by
  have hrun : ∀ run ∈ rows.splitBy (fun a b => a / poolSlabBlocks == b / poolSlabBlocks),
      (run.map fun row => (slabs.getD (run.headD 0 / poolSlabBlocks) []).getD (row % poolSlabBlocks) [])
        = run.map (rowAt slabs) := by
    intro run hmem
    have hchain := isChain_of_mem_splitBy hmem
    have hslab : ∀ row ∈ run, run.headD 0 / poolSlabBlocks = row / poolSlabBlocks := by
      cases run with
      | nil => simp
      | cons first rest => exact div_eq_of_isChain hchain
    refine map_congr_left fun row hrow => ?_
    rw [rowAt, hslab row hrow]
  rw [gatherRows, flatMap_congr hrun]
  nth_rewrite 2 [← flatten_splitBy (fun a b => a / poolSlabBlocks == b / poolSlabBlocks) rows]
  rw [map_flatten, flatMap_def]

lemma getElem?_filterMap {α β : Type} {f : α → Option β} {xs : List α}
    (h : ∀ x ∈ xs, (f x).isSome) (i : ℕ) : (xs.filterMap f)[i]? = xs[i]?.bind f := by
  induction xs generalizing i with
  | nil => rfl
  | cons x xs ih =>
    obtain ⟨y, hy⟩ := isSome_iff_exists.mp (h x mem_cons_self)
    rw [filterMap_cons_some hy]
    cases i with
    | zero => simp [hy]
    | succ i =>
      exact ih (fun x hx => h x (mem_cons_of_mem _ hx)) i

lemma Ok.hasSlabs {refs : Multiset PagedBlockId} {pool : PagedBlockPool τ} (h : Ok refs pool)
    {l b row : ℕ} (hrow : (pool.layers l).blockRows.lookup b = some row) :
    ¬ ((pool.layers l).poolMeta = none ∨ (pool.layers l).poolK = [] ∨
      (pool.layers l).poolV = []) := by
  have hlt := (h.layerOk l).row_lt hrow
  refine fun hempty => Nat.not_lt_zero row ?_
  rcases hempty with hnone | hnil | hnil
  · rwa [LayerPool.capacity, hnone] at hlt
  · rwa [← (h.layerOk l).lengthK_eq, hnil, length_nil] at hlt
  · rwa [← (h.layerOk l).lengthV_eq, hnil, length_nil] at hlt

/-! ## The tokens of a table -/

/-- A table has the tokens `data`, as pairs of key and value. -/
structure LayerHolds (pool : PagedBlockPool τ) (l : ℕ) (layer : PagedLayerState)
    (data : List (τ × τ)) : Prop where
  logicalStart_eq : layer.logicalStart = 0
  len_eq : layer.len = data.length
  length_eq : layer.blockIds.length = layer.len ⌈/⌉ pool.layout.blockSize
  small : layer.blockIds ≠ [] → layer.blockIds.length * pool.layout.blockSize < 2 ^ 31
  slots : ∀ {p kv}, data[p]? = some kv →
    ∃ c, pool.tableRows l layer.blockIds (p / pool.layout.blockSize) = some c ∧
      c.1[p % pool.layout.blockSize]? = some kv.1 ∧ c.2[p % pool.layout.blockSize]? = some kv.2

section Gather

variable {refs : Multiset PagedBlockId} {pool : PagedBlockPool τ} {l : ℕ} {layer : PagedLayerState}
  {data : List (τ × τ)}

/-- Every block of the table has a row, as its first slot has a token. -/
lemma LayerHolds.exists_row (h : LayerHolds pool l layer data) {b : PagedBlockId}
    (hb : b ∈ layer.blockIds) : ∃ row, (pool.layers l).blockRows.lookup b = some row := by
  have hpos := pool.layout.blockSize_pos
  obtain ⟨i, hi⟩ := mem_iff_getElem?.mp hb
  have hlt : i * pool.layout.blockSize < data.length := by
    rw [← h.len_eq, ← lt_ceilDiv_iff hpos, ← h.length_eq]
    exact (List.getElem?_eq_some_iff.mp hi).1
  obtain ⟨c, hc, _⟩ := h.slots (getElem?_eq_getElem hlt)
  rw [Nat.mul_div_cancel _ hpos, tableRows_of_getElem? pool l hi] at hc
  obtain ⟨row, hrow, _⟩ := bind_eq_some_iff.mp hc
  exact ⟨row, hrow⟩

/-- The keys or the values of the tokens, gathered from one list of slabs. -/
lemma LayerHolds.take_gatherRows (h : LayerHolds pool l layer data) (slabs : List (Slab τ))
    (slots : List τ × List τ → List τ) (side : τ × τ → τ)
    (hrows : ∀ {b row}, (pool.layers l).blockRows.lookup b = some row → ∃ c,
      pool.contents l b = some c ∧ rowOf slabs row = some (slots c) ∧
      (slots c).length = pool.layout.blockSize)
    (hside : ∀ {c : List τ × List τ} {i : ℕ} {kv : τ × τ}, c.1[i]? = some kv.1 →
      c.2[i]? = some kv.2 → (slots c)[i]? = some (side kv)) :
    (gatherRows slabs (layer.blockIds.filterMap (pool.layers l).blockRows.lookup)).flatten.take
      data.length = data.map side := by
  have hsome : ∀ b ∈ layer.blockIds, ((pool.layers l).blockRows.lookup b).isSome :=
    fun b hb => isSome_iff_exists.mpr (h.exists_row hb)
  have hlength : ∀ row ∈ (layer.blockIds.filterMap (pool.layers l).blockRows.lookup).map
      (rowAt slabs), row.length = pool.layout.blockSize := by
    intro row hmem
    obtain ⟨row, hrow, rfl⟩ := mem_map.mp hmem
    obtain ⟨b, _, hrow⟩ := mem_filterMap.mp hrow
    obtain ⟨c, _, hrowOf, hlen⟩ := hrows hrow
    rw [rowAt_eq hrowOf]
    exact hlen
  rw [gatherRows_eq]
  refine ext_getElem? fun p => ?_
  by_cases hp : p < data.length
  · obtain ⟨c, hc, hk, hv⟩ := h.slots (getElem?_eq_getElem hp)
    obtain ⟨b, hb, hc⟩ := bind_eq_some_iff.mp hc
    obtain ⟨row, hrow⟩ := h.exists_row (mem_of_getElem? hb)
    obtain ⟨c', hc', hrowOf, _⟩ := hrows hrow
    obtain rfl : c' = c := some.inj (hc'.symm.trans hc)
    rw [getElem?_take_of_lt hp, Chunks.getElem?_flatten pool.layout.blockSize_pos hlength,
      getElem?_map, getElem?_filterMap hsome, hb, bind_some, hrow, map_some, bind_some,
      rowAt_eq hrowOf, hside hk hv, getElem?_map, getElem?_eq_getElem hp, map_some]
  · rw [getElem?_take_eq_none (Nat.le_of_not_lt hp), getElem?_map,
      getElem?_eq_none (Nat.le_of_not_lt hp), map_none]

/-- What a gather returns for the tokens `data`. -/
def gathered (data : List (τ × τ)) : Option (List τ × List τ) :=
  if data = [] then none else some (data.map Prod.fst, data.map Prod.snd)

/-- **A gather reads the tokens of the table.** -/
theorem gatherVisible_eq (hok : Ok refs pool) {state : PagedSequenceState}
    (hlayer : state.layers[l]? = some layer) (h : LayerHolds pool l layer data) :
    pool.gatherVisible state l = .ok (gathered data) := by
  rw [gatherVisible]
  simp only [hlayer]
  by_cases hempty : data = []
  · have hzero : layer.visibleLen = 0 := by
      rw [PagedLayerState.visibleLen, h.len_eq, hempty]
      exact Nat.zero_sub _
    rw [if_pos (.inl hzero), gathered, if_pos hempty]
  have hpos := pool.layout.blockSize_pos
  have hlen : 0 < data.length := length_pos_iff.mpr hempty
  have hcover : data.length ≤ layer.blockIds.length * pool.layout.blockSize := by
    rw [h.length_eq, h.len_eq]
    exact le_ceilDiv_mul hpos
  have hids : layer.blockIds ≠ [] := by
    intro hnil
    rw [hnil, length_nil] at hcover
    omega
  have hsmall := h.small hids
  have hle : pool.layout.blockSize ≤ layer.blockIds.length * pool.layout.blockSize :=
    Nat.le_mul_of_pos_left _ (length_pos_iff.mpr hids)
  have hbs : asI32 pool.layout.blockSize = pool.layout.blockSize :=
    asI32_natCast (lt_of_le_of_lt hle hsmall)
  have hrowLen : pool.rowLen = pool.layout.blockSize := by rw [rowLen, hbs, Int.toNat_natCast]
  have hvisible : ¬ (layer.visibleLen = 0 ∨ layer.blockIds = []) := by
    rw [PagedLayerState.visibleLen, h.logicalStart_eq, h.len_eq, not_or]
    exact ⟨hlen.ne', hids⟩
  -- The first block has a row, so the layer has slabs.
  have hstore : ¬ ((pool.layers l).poolMeta = none ∨ (pool.layers l).poolK = [] ∨
      (pool.layers l).poolV = []) := by
    obtain ⟨row, hrow⟩ := h.exists_row (head_mem hids)
    exact hok.hasSlabs hrow
  have hfind : (layer.blockIds.find? fun b => (pool.layers l).blockRows.lookup b = none) = none := by
    rw [find?_eq_none]
    intro b hb
    obtain ⟨row, hrow⟩ := h.exists_row hb
    simp [hrow]
  have hlengthRows : (layer.blockIds.filterMap (pool.layers l).blockRows.lookup).length
      = layer.blockIds.length := by
    rw [length_filterMap_eq_countP, countP_eq_length]
    exact fun b hb => isSome_iff_exists.mpr (h.exists_row hb)
  have hkeys := h.take_gatherRows (pool.layers l).poolK Prod.fst Prod.fst (fun hrow => by
    obtain ⟨kRow, vRow, hk, _, hc, hlen, _⟩ := exists_contents hok hrow
    exact ⟨(kRow, vRow), hc, hk, hlen.trans hrowLen⟩) fun hk _ => hk
  have hvalues := h.take_gatherRows (pool.layers l).poolV Prod.snd Prod.snd (fun hrow => by
    obtain ⟨kRow, vRow, _, hv, hc, _, hlen⟩ := exists_contents hok hrow
    exact ⟨(kRow, vRow), hc, hv, hlen.trans hrowLen⟩) fun _ hv => hv
  have hn : asI32 layer.len = data.length := by
    rw [h.len_eq]
    exact asI32_natCast (lt_of_le_of_lt hcover hsmall)
  have hblocks : asI32 layer.blockIds.length = layer.blockIds.length :=
    asI32_natCast (lt_of_le_of_lt (Nat.le_mul_of_pos_right _ hpos) hsmall)
  have hfits : ¬ asI32 (asI32 layer.blockIds.length * asI32 pool.layout.blockSize)
      < asI32 layer.len := by
    rw [hblocks, hbs, ← Nat.cast_mul, asI32_natCast hsmall, hn]
    exact_mod_cast not_lt.mpr hcover
  rw [if_neg hvisible, if_neg hstore, hfind]
  simp only [hlengthRows]
  rw [if_neg hfits]
  have hstart : (asI32 (layer.logicalStart : ℤ)).toNat = 0 := by
    rw [h.logicalStart_eq, asI32_natCast (Nat.two_pow_pos 31), Int.toNat_natCast]
  simp [sliceTokens, hstart, hn, hkeys, hvalues,
    gathered, if_neg hempty]

end Gather

/-! ## Windows -/

section Windows

variable {len total blockSize : ℕ}

lemma spanBlocks_eq (hpos : 0 < blockSize) (hlt : len < total) (hsmall : total < 2 ^ 31)
    : spanBlocks len total blockSize = some (len / blockSize, (total - 1) / blockSize) := by
  have hdiv : ∀ n : ℕ, n < 2 ^ 31 →
      (divI32 n blockSize).map asUsize = some (n / blockSize) := by
    intro n hn
    have hne : ¬ ((blockSize : ℤ) = 0 ∨ (n : ℤ) = -(2 ^ 31) ∧ (blockSize : ℤ) = -1) := by omega
    rw [divI32, if_neg hne, map_some, ← Int.ofNat_tdiv, asUsize_natCast]
    exact lt_of_le_of_lt (Nat.div_le_self _ _) (hn.trans (by norm_num))
  have hlast : asI32 ((total : ℤ) - 1) = ((total - 1 : ℕ) : ℤ) :=
    asI32_sub (Nat.one_le_of_lt hlt) hsmall
  have hfirst := hdiv len (hlt.trans hsmall)
  have hlast' := hdiv (total - 1) (by omega)
  rw [spanBlocks, hlast]
  obtain ⟨a, ha, ha'⟩ := map_eq_some_iff.mp hfirst
  obtain ⟨c, hc, hc'⟩ := map_eq_some_iff.mp hlast'
  simp only [ha, hc, ha', hc']

lemma window_eq {j : ℕ} (hfirst : len / blockSize ≤ j) (hlast : j * blockSize < total)
    (hpos : 0 < blockSize) (hlt : len < total) (hsmall : (j + 1) * blockSize < 2 ^ 31)
    (htotal : total < 2 ^ 31) :
    window len total blockSize j = some
      { slotStart := max len (j * blockSize) - j * blockSize
        tokStart := ((max len (j * blockSize) - len : ℕ) : ℤ)
        tokEnd := ((min total ((j + 1) * blockSize) - len : ℕ) : ℤ) } := by
  have hlen : len < (j + 1) * blockSize := Nat.lt_mul_of_div_lt (Nat.lt_succ_of_le hfirst) hpos
  have hmul : (j + 1) * blockSize = j * blockSize + blockSize := Nat.succ_mul _ _
  have hstart : asI32 (asI32 j * blockSize) = ((j * blockSize : ℕ) : ℤ) := by
    have hj : j ≤ j * blockSize := Nat.le_mul_of_pos_right _ hpos
    rw [asI32_natCast (by omega)]
    exact asI32_natCast (by omega)
  have hend : asI32 ((j * blockSize : ℕ) + blockSize) = (((j + 1) * blockSize : ℕ) : ℤ) := by
    rw [← Nat.cast_add, ← hmul]
    exact asI32_natCast hsmall
  simp only [window, hstart, hend, ← Nat.cast_max, ← Nat.cast_min]
  have hslots : max len (j * blockSize) < min total ((j + 1) * blockSize) := by omega
  have htokens : asI32 ((max len (j * blockSize) : ℕ) - len)
      = ((max len (j * blockSize) - len : ℕ) : ℤ) := asI32_sub (by omega) (by omega)
  rw [asI32_sub hslots.le (by omega), asI32_sub (le_max_right _ _) (by omega), htokens,
    ← Nat.cast_add, asI32_natCast (by omega), asUsize_natCast (by omega), if_neg (by omega)]
  congr 3
  omega

end Windows

/-! ## Writes and trims -/

section Writes

variable {pool pool' : PagedBlockPool τ} {l : ℕ} {layer layer' : PagedLayerState}
  {data : List (τ × τ)}

/-- A slot of the row that a window was written to: before the window it is the old one, and in the
window it is the token that belongs to its position. -/
lemma getElem?_window {row tokens : List τ} {len total j blockSize p : ℕ}
    (hp : p / blockSize = j) (hpos : 0 < blockSize) (hrow : row.length = blockSize)
    (htokens : tokens.length = total - len) (hlt : p < total) :
    (updateSlots row (max len (j * blockSize) - j * blockSize)
        (sliceTokens ((max len (j * blockSize) - len : ℕ) : ℤ)
          ((min total ((j + 1) * blockSize) - len : ℕ) : ℤ) tokens))[p % blockSize]?
      = if p < len then row[p % blockSize]? else tokens[p - len]? := by
  have hmod := Nat.div_add_mod' p blockSize
  rw [hp] at hmod
  have hmodlt := Nat.mod_lt p hpos
  have hmul : (j + 1) * blockSize = j * blockSize + blockSize := Nat.succ_mul _ _
  have hget : p % blockSize < row.length := hrow ▸ hmodlt
  rw [getElem?_updateSlots, getElem?_eq_getElem hget, map_some]
  split_ifs with hstart hold hold
  · omega
  · have hindex : max len (j * blockSize) - len
        + (p % blockSize - (max len (j * blockSize) - j * blockSize)) = p - len := by omega
    rw [getD_eq_getElem?_getD, sliceTokens, Int.toNat_natCast, Int.toNat_natCast,
      getElem?_take_of_lt (by omega), getElem?_drop, hindex,
      getElem?_eq_getElem (by omega), getD_some]
  · rfl
  · omega

/-- **A prefill appends its tokens.** -/
theorem LayerHolds.prefilled (h : LayerHolds pool l layer data) {k v : MlxArray τ}
    (hlayout : pool'.layout = pool.layout) (hprefilled : Prefilled pool pool' l layer layer' k v)
    (hsmall : (layer.len + k.tokens.length) ⌈/⌉ pool.layout.blockSize * pool.layout.blockSize
      < 2 ^ 31) :
    LayerHolds pool' l layer' (data ++ k.tokens.zip v.tokens) := by
  by_cases hempty : k.tokens = []
  · obtain ⟨rfl, rfl⟩ := hprefilled.empty hempty
    rw [hempty, zip_nil_left, append_nil]
    exact h
  have hpos := pool.layout.blockSize_pos
  have hn : 0 < k.tokens.length := length_pos_iff.mpr hempty
  have hcover := le_ceilDiv_mul (n := layer.len + k.tokens.length) hpos
  have hlen' : layer'.len = layer.len + k.tokens.length := by
    rw [hprefilled.len_eq hempty]
    exact Nat.mod_eq_of_lt (by omega)
  have htable : layer'.blockIds.length = layer'.len ⌈/⌉ pool.layout.blockSize := by
    rw [hprefilled.table_length hempty, h.length_eq]
    exact max_eq_right ((gc_mul_ceilDiv hpos).monotone_l (by omega))
  have hbs : asI32 pool.layout.blockSize = pool.layout.blockSize := by
    refine asI32_natCast (lt_of_le_of_lt (Nat.le_mul_of_pos_left _ ?_) hsmall)
    by_contra hzero
    rw [Nat.eq_zero_of_not_pos hzero] at hcover
    omega
  have hrowLen : pool.rowLen = pool.layout.blockSize := by rw [rowLen, hbs, Int.toNat_natCast]
  have hzip : (k.tokens.zip v.tokens).length = k.tokens.length := by
    rw [length_zip, hprefilled.length_eq, min_self]
  refine ⟨hprefilled.logicalStart_eq.trans h.logicalStart_eq, ?_, ?_, ?_, ?_⟩
  · rw [hlen', length_append, hzip, h.len_eq]
  · rw [hlayout]
    exact htable
  · intro _
    rw [hlayout, htable, hlen']
    exact hsmall
  · intro p kv hkv
    rw [hlayout]
    obtain ⟨first, last, hspan, hothers, hwritten⟩ := hprefilled.written hempty
    rw [hbs, asI32_natCast (by omega), ← Nat.cast_add, asI32_natCast (by omega)] at hspan hwritten
    rw [spanBlocks_eq hpos (by omega) (by omega), some.injEq] at hspan
    obtain ⟨rfl, rfl⟩ := hspan
    have hp : p < layer.len + k.tokens.length := by
      rw [h.len_eq, ← hzip, ← length_append]
      exact (List.getElem?_eq_some_iff.mp hkv).1
    have hkeep : p < layer.len → ∃ c,
        pool.tableRows l layer.blockIds (p / pool.layout.blockSize) = some c ∧
        c.1[p % pool.layout.blockSize]? = some kv.1 ∧
        c.2[p % pool.layout.blockSize]? = some kv.2 := by
      intro hlt
      rw [getElem?_append_left (h.len_eq ▸ hlt)] at hkv
      exact h.slots hkv
    by_cases hj : p / pool.layout.blockSize < layer.len / pool.layout.blockSize
    · obtain ⟨c, hc, hslots⟩ := hkeep (Nat.lt_of_div_lt_div hj)
      exact ⟨c, hothers _ (.inl hj) c hc, hslots⟩
    · have hstart : p / pool.layout.blockSize * pool.layout.blockSize ≤ p := Nat.div_mul_le_self _ _
      have hblock : p / pool.layout.blockSize
          < (layer.len + k.tokens.length) ⌈/⌉ pool.layout.blockSize :=
        (lt_ceilDiv_iff hpos).mpr (by omega)
      have hend := (Nat.mul_le_mul_right pool.layout.blockSize hblock).trans_lt hsmall
      have hwindow := window_eq (Nat.le_of_not_lt hj) (by omega) hpos
        (Nat.lt_add_of_pos_right hn) hend (by omega)
      have hle : p / pool.layout.blockSize
          ≤ (layer.len + k.tokens.length - 1) / pool.layout.blockSize :=
        Nat.div_le_div_right (by omega)
      obtain ⟨c, hk, hv, hsame, hnew⟩ := hwritten _ (Nat.le_of_not_lt hj) hle _ hwindow
      -- A slot before the old length has its old token, the others those of the prefill.
      have hold : p < layer.len → c.1[p % pool.layout.blockSize]? = some kv.1 ∧
          c.2[p % pool.layout.blockSize]? = some kv.2 := by
        intro hlt
        obtain ⟨c', hc', hslots⟩ := hkeep hlt
        rw [← hsame c' hc']
        exact hslots
      have htokens : ¬ p < layer.len → k.tokens[p - layer.len]? = some kv.1 ∧
          v.tokens[p - layer.len]? = some kv.2 := by
        intro hge
        rw [getElem?_append_right (h.len_eq ▸ Nat.le_of_not_lt hge), ← h.len_eq] at hkv
        exact getElem?_zip_eq_some.mp hkv
      refine ⟨_, hnew, ?_, ?_⟩
      · rw [getElem?_window rfl hpos (hk.trans hrowLen) (by omega) hp]
        split_ifs with hlt
        · exact (hold hlt).1
        · exact (htokens hlt).1
      · rw [getElem?_window rfl hpos (hv.trans hrowLen) (by rw [hprefilled.length_eq]; omega) hp]
        split_ifs with hlt
        · exact (hold hlt).2
        · exact (htokens hlt).2

/-- **A trim cuts the tokens off.** The rows of the blocks that stay do not change. -/
theorem LayerHolds.take (h : LayerHolds pool l layer data) {n k : ℕ}
    (hlayout : pool'.layout = pool.layout) (hids : layer'.blockIds = layer.blockIds.take k)
    (hstart : layer'.logicalStart = 0) (hlen : layer'.len = min n layer.len)
    (hlength : layer'.blockIds.length = layer'.len ⌈/⌉ pool.layout.blockSize)
    (hrows : ∀ i, pool'.tableRows l layer'.blockIds i = pool.tableRows l layer'.blockIds i) :
    LayerHolds pool' l layer' (data.take n) := by
  have hpos := pool.layout.blockSize_pos
  refine ⟨hstart, ?_, ?_, ?_, ?_⟩
  · rw [hlen, length_take, h.len_eq]
  · rw [hlayout]
    exact hlength
  · intro hne
    have hne' : layer.blockIds ≠ [] := by
      intro hnil
      rw [hids, hnil, take_nil] at hne
      exact hne rfl
    rw [hlayout, hids]
    refine lt_of_le_of_lt (Nat.mul_le_mul_right _ ?_) (h.small hne')
    exact length_take_le' _ _
  · intro p kv hkv
    have hp : p < min n layer.len := by
      have hlt := (List.getElem?_eq_some_iff.mp hkv).1
      rw [length_take, ← h.len_eq] at hlt
      exact hlt
    rw [getElem?_take_of_lt (by omega)] at hkv
    obtain ⟨c, hc, hslots⟩ := h.slots hkv
    rw [hlayout]
    refine ⟨c, ?_, hslots⟩
    have hblock : p / pool.layout.blockSize < layer'.blockIds.length := by
      rw [hlength, lt_ceilDiv_iff hpos]
      have hdiv := Nat.div_mul_le_self p pool.layout.blockSize
      omega
    rw [hrows, tableRows]
    rw [hids] at hblock ⊢
    rw [getElem?_take_of_lt (lt_of_lt_of_le hblock (length_take_le _ _))]
    exact hc

end Writes

end PagedBlockPool

end Mlxcel.Paged
