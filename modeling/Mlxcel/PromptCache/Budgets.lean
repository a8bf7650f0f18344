import Mlxcel.PromptCache.Pins

/-!
# Budgets of the prompt cache

The store has a cap on the number of its entries, one on their bytes, and two more of the same kind
for snapshots. A loop enforces a cap: it evicts the least recently used entry while the cap is
exceeded, and takes zero freed bytes as the sign that nothing is left.

**Zero bytes.** An entry of zero bytes is evicted like any other, and then ends the loop. Counts are
still within their caps, because an insert adds one entry and one eviction removes one. Bytes are
within theirs if no entry of zero bytes is reached before enough has been freed: what is last used
no earlier than it has to fit (`Clears`).

**One argument for both kinds.** Entries and snapshots are seen through a list of `Item`s, with what
the loops read of them. `Evicts` says what one eviction does to that list, and `enforced` what the
two loops do.
-/

namespace Mlxcel.PromptCache

open List hiding set
open AssocMap

variable {δ π : Type}

/-! ## Items -/

/-- What the cap loops read of an entry or a snapshot. -/
structure Item where
  lastUsed : Instant
  sizeBytes : ℕ
deriving DecidableEq

/-- The bytes of all items. -/
def totalSize (items : List Item) : ℕ := (items.map Item.sizeBytes).sum

/-- The bytes of the items that were last used at `t` or later. -/
def bytesSince (items : List Item) (t : Instant) : ℕ :=
  totalSize (items.filter fun x => decide (t ≤ x.lastUsed))

/-- Items of zero bytes are so recent that what was used since fits into the capacity. -/
def Clears (items : List Item) (capacity : ℕ) : Prop :=
  ∀ x ∈ items, x.sizeBytes = 0 → bytesSince items x.lastUsed ≤ capacity

instance (items : List Item) (capacity : ℕ) : Decidable (Clears items capacity) :=
  inferInstanceAs (Decidable (∀ x ∈ items, x.sizeBytes = 0 → _))

lemma totalSize_perm {items items' : List Item} (h : items.Perm items') :
    totalSize items = totalSize items' := (h.map Item.sizeBytes).sum_eq

lemma totalSize_cons (x : Item) (items : List Item) :
    totalSize (x :: items) = x.sizeBytes + totalSize items := sum_cons

lemma bytesSince_tail_le {items rest : List Item} {x : Item} (h : items.Perm (x :: rest))
    (t : Instant) : bytesSince rest t ≤ bytesSince items t := by
  have hfilter := totalSize_perm (h.filter fun y => decide (t ≤ y.lastUsed))
  rw [bytesSince, bytesSince, hfilter, filter_cons]
  split_ifs
  · exact Nat.le_add_left _ _
  · exact le_rfl

/-- What was used since the oldest item is everything. -/
lemma bytesSince_oldest {items : List Item} {x : Item}
    (h : ∀ y ∈ items, x.lastUsed ≤ y.lastUsed) : bytesSince items x.lastUsed = totalSize items := by
  rw [bytesSince, filter_eq_self.mpr]
  exact fun y hy => decide_eq_true (h y hy)

lemma Clears.tail {items rest : List Item} {x : Item} {capacity : ℕ}
    (h : Clears items capacity) (hperm : items.Perm (x :: rest)) : Clears rest capacity := by
  intro y hy hzero
  have hmem : y ∈ items := hperm.mem_iff.mpr (mem_cons_of_mem _ hy)
  exact (bytesSince_tail_le hperm _).trans (h y hmem hzero)

namespace Inner

/-! ## The cap loops -/

/-- `evict` removes an oldest item and returns its size, and does nothing if there is none. -/
structure Evicts (items : Inner δ π → List Item) (bytes : Inner δ π → ℕ)
    (evict : Inner δ π → ℕ × Inner δ π) : Prop where
  nothing : ∀ {s}, items s = [] → evict s = (0, s)
  oldest : ∀ {s}, items s ≠ [] → ∃ x, (∀ y ∈ items s, x.lastUsed ≤ y.lastUsed) ∧
    (items s).Perm (x :: items (evict s).2) ∧ (evict s).1 = x.sizeBytes ∧
    bytes (evict s).2 = bytes s - x.sizeBytes
  config_eq : ∀ s, (evict s).2.config = s.config

section Loops

variable {items : Inner δ π → List Item} {bytes : Inner δ π → ℕ}
  {evict : Inner δ π → ℕ × Inner δ π} {maxEntries capacity : PromptCacheConfig → ℕ}

/-- The counter is at most the bytes there are, and items of zero bytes do not end a loop early. -/
structure Evictable (items : Inner δ π → List Item) (bytes : Inner δ π → ℕ)
    (capacity : PromptCacheConfig → ℕ) (s : Inner δ π) : Prop where
  bytes_le : bytes s ≤ totalSize (items s)
  clears : Clears (items s) (capacity s.config)

variable {s : Inner δ π}

lemma Evictable.step (h : Evicts items bytes evict) (hs : Evictable items bytes capacity s) :
    Evictable items bytes capacity (evict s).2 := by
  by_cases hnil : items s = []
  · rw [h.nothing hnil]
    exact hs
  · obtain ⟨x, _, hperm, _, hbytes⟩ := h.oldest hnil
    have htotal := (totalSize_perm hperm).trans (totalSize_cons _ _)
    have hle := hs.bytes_le
    refine ⟨by omega, ?_⟩
    rw [h.config_eq]
    exact hs.clears.tail hperm

lemma length_evict_le (h : Evicts items bytes evict) (s : Inner δ π) :
    (items (evict s).2).length ≤ (items s).length := by
  by_cases hnil : items s = []
  · rw [h.nothing hnil]
  · obtain ⟨x, _, hperm, _, _⟩ := h.oldest hnil
    have hlen := hperm.length_eq
    rw [length_cons] at hlen
    omega

variable {exceeded : Inner δ π → Bool}

lemma evictWhile_of_not_exceeded (h : exceeded s = false) :
    ∀ fuel, evictWhile exceeded evict fuel s = (0, s) := by
  intro fuel
  cases fuel with
  | zero => rfl
  | succ fuel => simp [evictWhile, h]

section

variable (h : Evicts items bytes evict)

include h

/-- **By count.** One eviction is enough when there is one item too many, whatever it frees. -/
lemma evictWhile_count
    (hexceeded : ∀ s, exceeded s = decide (maxEntries s.config < (items s).length)) (fuel : ℕ)
    (hs : (items s).length ≤ maxEntries s.config + 1) :
    (items (evictWhile exceeded evict (fuel + 1) s).2).length
      ≤ maxEntries (evictWhile exceeded evict (fuel + 1) s).2.config := by
  by_cases hmore : maxEntries s.config < (items s).length
  · have hnil : items s ≠ [] := ne_nil_of_length_pos (by omega)
    obtain ⟨x, _, hperm, _, _⟩ := h.oldest hnil
    have hlen := hperm.length_eq
    rw [length_cons] at hlen
    have hle : (items (evict s).2).length ≤ maxEntries (evict s).2.config := by
      rw [h.config_eq]
      omega
    have hdone : exceeded (evict s).2 = false := by
      rw [hexceeded]
      exact decide_eq_false (not_lt.mpr hle)
    rw [evictWhile, hexceeded, if_pos (decide_eq_true hmore)]
    simp only [evictWhile_of_not_exceeded hdone]
    split_ifs
    · exact hle
    · exact hle
  · rw [evictWhile_of_not_exceeded]
    · exact not_lt.mp hmore
    · rw [hexceeded]
      exact decide_eq_false hmore

/-- **By bytes.** The loop ends within the capacity: were the oldest item of zero bytes, everything
would be used since, and fit. -/
lemma evictWhile_bytes (hexceeded : ∀ s, exceeded s = decide (capacity s.config < bytes s)) :
    ∀ (fuel : ℕ) {s : Inner δ π}, (items s).length < fuel → Evictable items bytes capacity s →
      bytes (evictWhile exceeded evict fuel s).2
        ≤ capacity (evictWhile exceeded evict fuel s).2.config := by
  intro fuel
  induction fuel with
  | zero => exact fun hlen => absurd hlen (Nat.not_lt_zero _)
  | succ fuel ih =>
    intro s hlen hs
    by_cases hmore : capacity s.config < bytes s
    · have hnil : items s ≠ [] := by
        intro hnil
        have hle := hs.bytes_le
        rw [hnil] at hle
        exact absurd (hle.trans (Nat.zero_le _)) (not_le.mpr hmore)
      obtain ⟨x, hold, hperm, hfreed, _⟩ := h.oldest hnil
      have hsize : x.sizeBytes ≠ 0 := by
        intro hzero
        have hmem : x ∈ items s := hperm.mem_iff.mpr mem_cons_self
        have hsince := hs.clears x hmem hzero
        rw [bytesSince_oldest hold] at hsince
        exact absurd (hs.bytes_le.trans hsince) (not_le.mpr hmore)
      have hlength := hperm.length_eq
      rw [length_cons] at hlength
      rw [evictWhile, hexceeded, if_pos (decide_eq_true hmore)]
      rw [if_neg (hfreed ▸ hsize)]
      exact ih (by omega) (hs.step h)
    · rw [evictWhile_of_not_exceeded]
      · exact not_lt.mp hmore
      · rw [hexceeded]
        exact decide_eq_false hmore

/-- **Both loops** bring a store with one item too many within both caps. -/
lemma enforced {byCount byBytes : Inner δ π → Bool}
    (hcount : ∀ s, byCount s = decide (maxEntries s.config < (items s).length))
    (hbytes : ∀ s, byBytes s = decide (capacity s.config < bytes s)) {fuel fuel' : ℕ}
    {t : Inner δ π} (ht : t = (evictWhile byCount evict (fuel + 1) s).2)
    (hfuel : (items t).length < fuel') (hs : (items s).length ≤ maxEntries s.config + 1)
    (hevictable : Evictable items bytes capacity s) :
    (items (evictWhile byBytes evict fuel' t).2).length
        ≤ maxEntries (evictWhile byBytes evict fuel' t).2.config ∧
      bytes (evictWhile byBytes evict fuel' t).2
        ≤ capacity (evictWhile byBytes evict fuel' t).2.config := by
  have hfew : (items t).length ≤ maxEntries t.config := ht ▸ evictWhile_count h hcount fuel hs
  have hevictable' : Evictable items bytes capacity t :=
    ht ▸ evictWhile_induct (fun _ hs => hs.step h) _ hevictable
  have hkeep : ∀ s : Inner δ π, (items s).length ≤ maxEntries s.config →
      (items (evict s).2).length ≤ maxEntries (evict s).2.config := by
    intro s hs
    rw [h.config_eq]
    exact (length_evict_le h s).trans hs
  exact ⟨evictWhile_induct hkeep _ hfew, evictWhile_bytes h hbytes _ hfuel hevictable'⟩

end

end Loops

/-! ## Evictions -/

def items (s : Inner δ π) : List Item :=
  s.entries.entries.map fun e => ⟨s.lastUsed e.2.entry, e.2.entry.sizeBytes⟩

def snapshotItems (s : Inner δ π) : List Item :=
  s.snapshots.entries.map fun e => ⟨e.2.entry.lastUsed, e.2.entry.sizeBytes⟩

lemma totalSize_items (s : Inner δ π) : totalSize s.items = residentBytes s.entries := by
  rw [totalSize, items, map_map]
  rfl

lemma totalSize_snapshotItems (s : Inner δ π) :
    totalSize s.snapshotItems = residentSnapshotBytes s.snapshots := by
  rw [totalSize, snapshotItems, map_map]
  rfl

lemma lastUsed_takeDetached (s : Inner δ π) (entry e : CacheEntry) :
    (s.takeDetached entry).2.lastUsed e = s.lastUsed e := by
  rw [takeDetached]
  cases hcell : s.cells[entry.cell]? with
  | none => rfl
  | some cell =>
    simp only [lastUsed, getElem?_set]
    split_ifs with heq hlt
    · rw [← heq, hcell]
      rfl
    · rw [← heq, getElem?_eq_none (not_lt.mp hlt)]
    · rfl

lemma lastUsed_stash (s : Inner δ π) (entry e : CacheEntry) :
    (s.stashPagedPinsForRelease entry).lastUsed e = s.lastUsed e := by
  rw [← lastUsed_takeDetached s entry e, stashPagedPinsForRelease]
  rcases s.takeDetached entry with ⟨_ | set | set, t⟩ <;> rfl

lemma lastUsed_removeEntry (s : Inner δ π) (d : PromptCacheKeyDigest) (e : CacheEntry) :
    (s.removeEntry d).2.lastUsed e = s.lastUsed e := by
  rw [removeEntry]
  cases s.entries.lookup d with
  | none => rfl
  | some slot =>
    simp only
    rcases removeFromTrie_spec (stashPagedPinsForRelease _ slot.entry) slot.sessionless
      slot.entry.tokens d with ⟨tries, htries, _⟩
    rw [htries]
    exact lastUsed_stash _ _ _

variable {ν : Type} {s : Inner δ π} {key : PromptCacheKey}

variable (o : HashOrder) (m : AList fun _ : PromptCacheKeyDigest => ν)

/-- The entry whose digest a minimum over the hash map returns. -/
lemma exists_oldest (f : Sigma (fun _ : PromptCacheKeyDigest => ν) → ℕ) (hm : m.entries ≠ []) :
    ∃ d v, ((o.order m.entries).argmin f).map Sigma.fst = some d ∧ m.lookup d = some v ∧
      ∀ e ∈ m.entries, f ⟨d, v⟩ ≤ f e := by
  have hperm := o.perm m.entries
  cases hmin : (o.order m.entries).argmin f with
  | none =>
    have hnil : o.order m.entries = [] := argmin_eq_none.mp hmin
    exact absurd (hnil ▸ hperm).nil_eq.symm hm
  | some e =>
    have hmem : e ∈ m.entries := hperm.mem_iff.mp (argmin_mem hmin)
    refine ⟨e.1, e.2, rfl, AList.mem_lookup_iff.mpr hmem, ?_⟩
    intro e' he'
    exact le_of_mem_argmin (hperm.mem_iff.mpr he') hmin

lemma argmin_of_entries_nil {m : AList fun _ : PromptCacheKeyDigest => ν}
    (f : Sigma (fun _ : PromptCacheKeyDigest => ν) → ℕ) (hm : m.entries = []) :
    (o.order m.entries).argmin f = none := by
  rw [argmin_eq_none, hm]
  exact perm_nil.mp (o.perm [])

lemma evicts_evictOldest : Evicts (@items δ π) totalBytes (evictOldest o) := by
  refine ⟨?_, ?_, fun s => (upkeep_keeps.evictOldest o s).config_eq⟩
  · intro s hnil
    rw [evictOldest, argmin_of_entries_nil o _ (map_eq_nil_iff.mp hnil)]
    rfl
  · intro s hnil
    rcases exists_oldest o s.entries (fun e => s.lastUsed e.2.entry)
      (fun h => hnil (map_eq_nil_iff.mpr h)) with ⟨d, slot, hmin, hslot, hold⟩
    have hremoved := entryRemoved_removeEntry hslot
    have hevict : s.evictOldest o = (slot.entry.sizeBytes, (s.removeEntry d).2) := by
      rw [evictOldest, hmin, evictDigest, removeEntry, hslot]
    rw [hevict]
    refine ⟨⟨s.lastUsed slot.entry, slot.entry.sizeBytes⟩, ?_, ?_, rfl, hremoved.totalBytes_eq⟩
    · intro y hy
      obtain ⟨e, he, rfl⟩ := mem_map.mp hy
      exact hold e he
    · simp only [items, hremoved.entries_eq, lastUsed_removeEntry]
      exact (entries_perm hslot).map _

lemma evicts_evictOldestSnapshot :
    Evicts (@snapshotItems δ π) snapshotBytes (evictOldestSnapshot o) := by
  refine ⟨?_, ?_, fun s => (upkeep_keeps.evictOldestSnapshot o s).config_eq⟩
  · intro s hnil
    rw [evictOldestSnapshot, argmin_of_entries_nil o _ (map_eq_nil_iff.mp hnil)]
    rfl
  · intro s hnil
    rcases exists_oldest o s.snapshots (fun e => e.2.entry.lastUsed)
      (fun h => hnil (map_eq_nil_iff.mpr h)) with ⟨d, slot, hmin, hslot, hold⟩
    have hevict : s.evictOldestSnapshot o = (slot.entry.sizeBytes, { s with
        snapshots := s.snapshots.erase d
        snapshotBytes := s.snapshotBytes - slot.entry.sizeBytes }) := by
      rw [evictOldestSnapshot, hmin, evictDigest, removeSnapshot, hslot]
    rw [hevict]
    refine ⟨⟨slot.entry.lastUsed, slot.entry.sizeBytes⟩, ?_, ?_, rfl, rfl⟩
    · intro y hy
      obtain ⟨e, he, rfl⟩ := mem_map.mp hy
      exact hold e he
    · exact (entries_perm hslot).map _

/-! ## Budgets -/

/-- All four caps hold. -/
structure Budgeted (s : Inner δ π) : Prop where
  entries_le : s.entries.entries.length ≤ s.config.maxEntries
  totalBytes_le : s.totalBytes ≤ s.config.capacityBytes
  snapshots_le : s.snapshots.entries.length ≤ s.config.snapshotMaxEntries
  snapshotBytes_le : s.snapshotBytes ≤ s.config.snapshotCapacityBytes

/-- The counters, whose additions saturate, are at most the resident sums. -/
structure Counted (s : Inner δ π) : Prop where
  totalBytes_le : s.totalBytes ≤ residentBytes s.entries
  snapshotBytes_le : s.snapshotBytes ≤ residentSnapshotBytes s.snapshots

/-- Nothing was added. -/
structure Shrinks (s s' : Inner δ π) : Prop where
  config_eq : s'.config = s.config
  entries_le : s'.entries.entries.length ≤ s.entries.entries.length
  totalBytes_le : s'.totalBytes ≤ s.totalBytes
  snapshots_le : s'.snapshots.entries.length ≤ s.snapshots.entries.length
  snapshotBytes_le : s'.snapshotBytes ≤ s.snapshotBytes
  counted : Counted s → Counted s'

lemma Shrinks.refl (s : Inner δ π) : Shrinks s s := ⟨rfl, le_rfl, le_rfl, le_rfl, le_rfl, id⟩

lemma Shrinks.trans {t u : Inner δ π} (h : Shrinks s t) (h' : Shrinks t u) : Shrinks s u :=
  ⟨h'.config_eq.trans h.config_eq, h'.entries_le.trans h.entries_le,
    h'.totalBytes_le.trans h.totalBytes_le, h'.snapshots_le.trans h.snapshots_le,
    h'.snapshotBytes_le.trans h.snapshotBytes_le, fun hs => h'.counted (h.counted hs)⟩

lemma Shrinks.budgeted {s' : Inner δ π} (h : Shrinks s s') (hs : Budgeted s) : Budgeted s' := by
  refine ⟨?_, ?_, ?_, ?_⟩ <;> rw [h.config_eq]
  · exact h.entries_le.trans hs.entries_le
  · exact h.totalBytes_le.trans hs.totalBytes_le
  · exact h.snapshots_le.trans hs.snapshots_le
  · exact h.snapshotBytes_le.trans hs.snapshotBytes_le

lemma SameIndex.shrinks {s' : Inner δ π} (h : SameIndex s s') : Shrinks s s' := by
  refine ⟨h.config_eq, ?_, h.totalBytes_eq.le, ?_, h.snapshotBytes_eq.le, ?_⟩
  · rw [h.entries_eq]
  · rw [h.snapshots_eq]
  · intro hs
    refine ⟨?_, ?_⟩
    · rw [h.totalBytes_eq, h.entries_eq]
      exact hs.totalBytes_le
    · rw [h.snapshotBytes_eq, h.snapshots_eq]
      exact hs.snapshotBytes_le

lemma length_erase_le (d : PromptCacheKeyDigest) : (m.erase d).entries.length ≤ m.entries.length :=
  (kerase_sublist d m.entries).length_le

lemma shrinks_removeEntry (s : Inner δ π) (d : PromptCacheKeyDigest) :
    Shrinks s (s.removeEntry d).2 := by
  cases hslot : s.entries.lookup d with
  | none =>
    rw [removeEntry, hslot]
    exact .refl s
  | some slot =>
    have h := entryRemoved_removeEntry hslot
    refine ⟨h.config_eq, ?_, ?_, ?_, h.snapshotBytes_eq.le, ?_⟩
    · rw [h.entries_eq]
      exact length_erase_le _ _
    · rw [h.totalBytes_eq]
      exact Nat.sub_le _ _
    · rw [h.snapshots_eq]
    · intro hs
      have hle := hs.totalBytes_le
      rw [residentBytes_erase hslot] at hle
      refine ⟨?_, ?_⟩
      · rw [h.totalBytes_eq, h.entries_eq]
        omega
      · rw [h.snapshotBytes_eq, h.snapshots_eq]
        exact hs.snapshotBytes_le

lemma shrinks_removeSnapshot (s : Inner δ π) (d : PromptCacheKeyDigest) :
    Shrinks s (s.removeSnapshot d).2 := by
  rw [removeSnapshot]
  cases hslot : s.snapshots.lookup d with
  | none => exact .refl s
  | some slot =>
    refine ⟨rfl, le_rfl, le_rfl, length_erase_le _ _, Nat.sub_le _ _, ?_⟩
    intro hs
    have hle := hs.snapshotBytes_le
    rw [residentSnapshotBytes_erase hslot] at hle
    exact ⟨hs.totalBytes_le, Nat.sub_le_iff_le_add'.mpr hle⟩

lemma shrinks_touchSnapshot {e : Sigma fun _ : PromptCacheKeyDigest => SnapshotSlot}
    (he : e ∈ s.snapshots.entries) (now : Instant) : Shrinks s (s.touchSnapshot e now) := by
  refine ⟨rfl, le_rfl, le_rfl, ?_, le_rfl, ?_⟩
  · have hlookup : s.snapshots.lookup e.1 = some e.2 := AList.mem_lookup_iff.mpr he
    have hlen := (entries_perm hlookup).length_eq
    rw [hlen, touchSnapshot]
    exact le_rfl
  · intro hs
    refine ⟨hs.totalBytes_le, ?_⟩
    rw [sum_touchSnapshot he]
    exact hs.snapshotBytes_le

lemma upkeep_shrinks : Upkeep (@Shrinks δ π) :=
  ⟨.refl, .trans, shrinks_removeEntry, shrinks_removeSnapshot,
    fun _ _ _ => SameIndex.shrinks ⟨rfl, rfl, rfl, rfl, rfl, rfl, length_modify _ _ _⟩,
    shrinks_touchSnapshot⟩

/-! ## Insertion -/

/-- The caps on entries hold again after one was added to a store within its caps. -/
lemma budgeted_enforceCaps
    (hentries : s.entries.entries.length ≤ s.config.maxEntries + 1) (hcounted : Counted s)
    (hclears : Clears s.items s.config.capacityBytes)
    (hsnapshots : s.snapshots.entries.length ≤ s.config.snapshotMaxEntries)
    (hbytes : s.snapshotBytes ≤ s.config.snapshotCapacityBytes) : Budgeted (s.enforceCaps o).2 := by
  have hlen : ∀ t : Inner δ π, t.items.length = t.entries.entries.length :=
    fun _ => length_map _
  have hcaps : (s.enforceCaps o).2.items.length ≤ (s.enforceCaps o).2.config.maxEntries ∧
      (s.enforceCaps o).2.totalBytes ≤ (s.enforceCaps o).2.config.capacityBytes := by
    refine enforced (evicts_evictOldest o) (fun t => ?_) (fun _ => rfl) rfl ?_
      ((hlen s).symm ▸ hentries) ⟨(totalSize_items s).symm ▸ hcounted.totalBytes_le, hclears⟩
    · rw [hlen]
    · rw [hlen]
      exact Nat.lt_succ_self _
  have hshrinks := upkeep_shrinks.enforceCaps o s
  rw [hlen] at hcaps
  refine ⟨hcaps.1, hcaps.2, ?_, ?_⟩ <;> rw [hshrinks.config_eq]
  · exact hshrinks.snapshots_le.trans hsnapshots
  · exact hshrinks.snapshotBytes_le.trans hbytes

lemma budgeted_enforceSnapshotCaps
    (hsnapshots : s.snapshots.entries.length ≤ s.config.snapshotMaxEntries + 1)
    (hcounted : Counted s) (hclears : Clears s.snapshotItems s.config.snapshotCapacityBytes)
    (hentries : s.entries.entries.length ≤ s.config.maxEntries)
    (hbytes : s.totalBytes ≤ s.config.capacityBytes) : Budgeted (s.enforceSnapshotCaps o).2 := by
  have hlen : ∀ t : Inner δ π, t.snapshotItems.length = t.snapshots.entries.length :=
    fun _ => length_map _
  have hcaps : (s.enforceSnapshotCaps o).2.snapshotItems.length
        ≤ (s.enforceSnapshotCaps o).2.config.snapshotMaxEntries ∧
      (s.enforceSnapshotCaps o).2.snapshotBytes
        ≤ (s.enforceSnapshotCaps o).2.config.snapshotCapacityBytes := by
    refine enforced (evicts_evictOldestSnapshot o) (fun t => ?_) (fun _ => rfl) rfl ?_
      ((hlen s).symm ▸ hsnapshots)
      ⟨(totalSize_snapshotItems s).symm ▸ hcounted.snapshotBytes_le, hclears⟩
    · rw [hlen]
    · rw [hlen]
      exact Nat.lt_succ_self _
  have hshrinks := upkeep_shrinks.enforceSnapshotCaps o s
  rw [hlen] at hcaps
  refine ⟨?_, ?_, hcaps.1, hcaps.2⟩ <;> rw [hshrinks.config_eq]
  · exact hshrinks.entries_le.trans hentries
  · exact hshrinks.totalBytes_le.trans hbytes

/-- The items with a new entry in place of the one under its key. -/
def itemsWith (s : Inner δ π) (key : PromptCacheKey) (sizeBytes : ℕ) (now : Instant) : List Item :=
  ⟨now, sizeBytes⟩ :: (s.entries.erase key.digest).entries.map fun e =>
    ⟨s.lastUsed e.2.entry, e.2.entry.sizeBytes⟩

def snapshotItemsWith (s : Inner δ π) (key : PromptCacheKey) (entry : ModelSnapshotEntry) :
    List Item :=
  ⟨entry.lastUsed, entry.sizeBytes⟩ :: (s.snapshots.erase key.digest).entries.map fun e =>
    ⟨e.2.entry.lastUsed, e.2.entry.sizeBytes⟩

lemma entries_insert_erase (d : PromptCacheKeyDigest)
    (v : ν) : ((m.erase d).insert d v).entries = ⟨d, v⟩ :: (m.erase d).entries :=
  AList.entries_insert_of_notMem (AList.lookup_eq_none.mp (AList.lookup_erase _ _))

variable {tokens : List Token} {sizeBytes : ℕ} {set : DetachedKvSet δ π}

/-- The cell of a new entry has the time of its making, and those of other entries keep theirs. -/
lemma lastUsed_newEntry {now : Instant} (entry : CacheEntry) (hcell : entry.cell ≤ s.cells.length) :
    (s.newEntry tokens sizeBytes set now).2.lastUsed entry
      = if entry.cell = s.cells.length then now else s.lastUsed entry := by
  simp only [lastUsed, newEntry]
  split_ifs with hnew
  · rw [hnew, getElem?_append_right le_rfl, Nat.sub_self]
    rfl
  · rw [getElem?_append_left (lt_of_le_of_ne hcell hnew)]

lemma counted_addEntry (entry : CacheEntry) (hs : Counted s)
    (hfree : s.entries.lookup key.digest = none) : Counted (s.addEntry key entry) := by
  refine ⟨?_, hs.snapshotBytes_le⟩
  have hadd : (s.addEntry key entry).totalBytes ≤ s.totalBytes + entry.sizeBytes := min_le_left _ _
  have hle := hs.totalBytes_le
  show _ ≤ residentBytes (s.entries.insert _ _)
  rw [residentBytes_insert hfree]
  dsimp only
  omega

/-- The items of a store to which an entry was added in place of the one under its key. -/
lemma items_replaced {now : Instant} {stored : CacheEntry} (hok : Ok none s)
    (hcell : stored.cell = s.cells.length) (hsize : stored.sizeBytes = sizeBytes) :
    ((((s.newEntry tokens sizeBytes set now).2).removeEntry key.digest).2.addEntry key stored).items
      = s.itemsWith key sizeBytes now := by
  have hused : ∀ e, ((((s.newEntry tokens sizeBytes set now).2).removeEntry
      key.digest).2.addEntry key stored).lastUsed e
        = (s.newEntry tokens sizeBytes set now).2.lastUsed e :=
    fun e => lastUsed_removeEntry _ _ _
  have hentries : ((s.newEntry tokens sizeBytes set now).2.removeEntry key.digest).2.entries
      = s.entries.erase key.digest := entries_removeEntry _ _
  have hnew : (s.newEntry tokens sizeBytes set now).2.lastUsed stored = now := by
    rw [lastUsed_newEntry stored hcell.le, if_pos hcell]
  rw [items]
  simp only [hused]
  rw [addEntry]
  simp only [hentries]
  rw [entries_insert_erase, map_cons, hnew, hsize]
  congr 1
  refine map_congr_left fun e he => ?_
  have hlookup : s.entries.lookup e.1 = some e.2 :=
    (lookup_erase_eq_some.mp (AList.mem_lookup_iff.mpr he)).2
  have hlt := hok.cell_lt hlookup
  rw [lastUsed_newEntry _ hlt.le, if_neg hlt.ne]

/-- **Insertion** of an entry keeps the budgets if the items with it clear the capacity. -/
lemma budgeted_insert {o : HashOrder} {now : Instant} (hok : Ok none s) (hs : Budgeted s)
    (hcounted : Counted s)
    (hclears : Accepts s.config key sizeBytes s.config.capacityBytes →
      Clears (s.itemsWith key sizeBytes now) s.config.capacityBytes) :
    Budgeted ((s.newEntry tokens sizeBytes set now).2.insert o key
        (s.newEntry tokens sizeBytes set now).1).2 ∧
      Counted ((s.newEntry tokens sizeBytes set now).2.insert o key
        (s.newEntry tokens sizeBytes set now).1).2 := by
  have hn : Budgeted (s.newEntry tokens sizeBytes set now).2 := ⟨hs.1, hs.2, hs.3, hs.4⟩
  have hn' : Counted (s.newEntry tokens sizeBytes set now).2 := ⟨hcounted.1, hcounted.2⟩
  have hstash := (stash_spec (s.newEntry tokens sizeBytes set now).2
    (s.newEntry tokens sizeBytes set now).1).1.shrinks
  have hdeclined := And.intro (hstash.budgeted hn) (hstash.counted hn')
  rw [insert]
  split_ifs with henabled hlong hsmall
  iterate 3 exact hdeclined
  simp only
  have hshrinks := shrinks_removeEntry (s.newEntry tokens sizeBytes set now).2 key.digest
  generalize hstored : withApcBlockHashes _ key (s.newEntry tokens sizeBytes set now).1 = stored
  have hcell : stored.cell = s.cells.length := by
    rw [← hstored, cell_withApcBlockHashes]
    rfl
  have hsize : stored.sizeBytes = sizeBytes := by
    rw [← hstored, sizeBytes_withApcBlockHashes]
    rfl
  have hitems := @items_replaced _ _ s key tokens sizeBytes set now stored hok hcell hsize
  have hentries := entries_removeEntry (s.newEntry tokens sizeBytes set now).2 key.digest
  generalize ((s.newEntry tokens sizeBytes set now).2.removeEntry key.digest).2 = t
    at hshrinks hitems hentries ⊢
  have ht := hshrinks.budgeted hn
  have hfree : t.entries.lookup key.digest = none := by rw [hentries, AList.lookup_erase]
  have hadded := counted_addEntry stored (hshrinks.counted hn') hfree
  have hconfig : (t.addEntry key stored).config = s.config := hshrinks.config_eq
  refine ⟨budgeted_enforceCaps o ?_ hadded ?_ ht.snapshots_le ht.snapshotBytes_le,
    (upkeep_shrinks.enforceCaps o _).counted hadded⟩
  · have hlen : (t.addEntry key stored).entries.entries.length = t.entries.entries.length + 1 :=
      congrArg length (AList.entries_insert_of_notMem (AList.lookup_eq_none.mp hfree))
    rw [hlen]
    exact Nat.succ_le_succ ht.entries_le
  · rw [hitems, hconfig]
    exact hclears ⟨eq_true_of_ne_false henabled, not_lt.mp hlong, not_lt.mp hsmall⟩

lemma budgeted_insertSnapshot {o : HashOrder} {entry : ModelSnapshotEntry} (hs : Budgeted s)
    (hcounted : Counted s)
    (hclears : Accepts s.config key entry.sizeBytes s.config.snapshotCapacityBytes →
      Clears (s.snapshotItemsWith key entry) s.config.snapshotCapacityBytes) :
    Budgeted (s.insertSnapshot o key entry).2 ∧ Counted (s.insertSnapshot o key entry).2 := by
  rw [insertSnapshot]
  split_ifs with henabled hlong hsmall
  iterate 3 exact ⟨hs, hcounted⟩
  simp only
  have hshrinks := shrinks_removeSnapshot s key.digest
  have hsnapshots := snapshots_removeSnapshot s key.digest
  generalize (s.removeSnapshot key.digest).2 = t at hshrinks hsnapshots ⊢
  have ht := hshrinks.budgeted hs
  have htcounted := hshrinks.counted hcounted
  have hfree : t.snapshots.lookup key.digest = none := by rw [hsnapshots, AList.lookup_erase]
  have hcounted' : Counted ({ t with
      snapshotBytes := saturatingAdd t.snapshotBytes entry.sizeBytes
      snapshots := t.snapshots.insert key.digest ⟨entry, .fromKey key, .fromKey key⟩ } :
        Inner δ π) := by
    refine ⟨htcounted.totalBytes_le, ?_⟩
    rw [residentSnapshotBytes_insert hfree, Nat.add_comm]
    exact (min_le_left _ _).trans (Nat.add_le_add_right htcounted.snapshotBytes_le _)
  refine ⟨budgeted_enforceSnapshotCaps o ?_ hcounted' ?_ ht.entries_le ht.totalBytes_le,
    (upkeep_shrinks.enforceSnapshotCaps o _).counted hcounted'⟩
  · rw [hsnapshots, entries_insert_erase]
    exact Nat.succ_le_succ (hsnapshots ▸ ht.snapshots_le)
  · rw [snapshotItems, hsnapshots, entries_insert_erase, hshrinks.config_eq]
    exact hclears ⟨eq_true_of_ne_false henabled, not_lt.mp hlong, not_lt.mp hsmall⟩

/-- No entry of zero bytes is among the least recently used ones, unless it is the only entry. -/
def OldestHasBytes (s : Inner δ π) : Prop :=
  s.items.length ≤ 1 ∨ ∀ x ∈ s.items, x.sizeBytes = 0 → ∃ y ∈ s.items, y.lastUsed < x.lastUsed

lemma entries_nil_of_evictOneLru {o : HashOrder} (h : s.OldestHasBytes)
    (hzero : (s.evictOneLru o).1 = 0) : (s.evictOneLru o).2.entries.entries = [] := by
  refine map_eq_nil_iff.mp (?_ : (s.evictOldest o).2.items = [])
  by_cases hnil : s.items = []
  · rw [(evicts_evictOldest o).nothing hnil]
    exact hnil
  · obtain ⟨x, hold, hperm, hfreed, _⟩ := (evicts_evictOldest o).oldest hnil
    rcases h with hone | hbytes
    · have hlen := hperm.length_eq
      rw [length_cons] at hlen
      exact length_eq_zero_iff.mp (by omega)
    · have hmem : x ∈ s.items := hperm.mem_iff.mpr mem_cons_self
      obtain ⟨y, hy, hlt⟩ := hbytes x hmem (hfreed ▸ hzero)
      exact absurd (hold y hy) (not_le.mpr hlt)

end Inner

/-! ## Runs -/

namespace World

open Mlxcel.PromptCache.Inner

/-- What a call promises of the budgets: an insert that succeeds leaves all caps intact, and
`evict_one_lru` returns zero only when nothing is left to evict. -/
def BudgetsHold (s : Inner δ π) : Op δ π → Prop
  | .insert o key tokens sizeBytes set now =>
    let new := s.newEntry tokens sizeBytes set now
    (new.2.insert o key new.1).1 = .ok () → Budgeted (new.2.insert o key new.1).2
  | .insertSnapshot o key entry =>
    (s.insertSnapshot o key entry).1 = .ok () → Budgeted (s.insertSnapshot o key entry).2
  | .evictOneLru o => (s.evictOneLru o).1 = 0 → (s.evictOneLru o).2.entries.entries = []
  | _ => True

/-- No item of zero bytes ends the evictions of the call before they are done. -/
def NotCutShort (s : Inner δ π) : Op δ π → Prop
  | .insert _ key _ sizeBytes _ now =>
    Accepts s.config key sizeBytes s.config.capacityBytes →
      Clears (s.itemsWith key sizeBytes now) s.config.capacityBytes
  | .insertSnapshot _ key entry =>
    Accepts s.config key entry.sizeBytes s.config.snapshotCapacityBytes →
      Clears (s.snapshotItemsWith key entry) s.config.snapshotCapacityBytes
  | .evictOneLru _ => s.OldestHasBytes
  | _ => True

/-- **One call** keeps the budgets, and the counters below the resident sums. -/
theorem budgeted_step {w : World δ π} {op : Op δ π} (hok : Ok none w.inner)
    (hop : NotCutShort w.inner op) (hs : Budgeted w.inner) (hcounted : Counted w.inner) :
    Budgeted (w.step op).inner ∧ Counted (w.step op).inner := by
  have hshrinks : ∀ {s : Inner δ π}, Shrinks w.inner s → Budgeted s ∧ Counted s :=
    fun h => ⟨h.budgeted hs, h.counted hcounted⟩
  cases op with
  | insert o key tokens sizeBytes set now => exact budgeted_insert hok hs hcounted hop
  | insertSnapshot o key entry => exact budgeted_insertSnapshot hs hcounted hop
  | lookupLongestPrefix o key tokens now touched =>
    exact hshrinks (upkeep_shrinks.lookupLongestPrefix o w.inner key tokens now touched)
  | lookupSnapshotPrefix o key tokens now touched =>
    exact hshrinks (upkeep_shrinks.lookupSnapshotPrefix o w.inner key tokens now touched)
  | takeDetached adopter entry => exact hshrinks (takeDetached_spec w.inner entry).1.shrinks
  | evictIfNeeded o now now' => exact hshrinks (upkeep_shrinks.evictIfNeeded o w.inner now now')
  | evictOneLru o => exact hshrinks (upkeep_shrinks.evictOldest o w.inner)
  | releaseSession o sessionKey =>
    exact hshrinks (upkeep_shrinks.releaseSession o w.inner sessionKey)
  | drainPendingPagedReleases => exact ⟨⟨hs.1, hs.2, hs.3, hs.4⟩, ⟨hcounted.1, hcounted.2⟩⟩

/-- **All calls** keep them. -/
theorem budgeted_run (config : PromptCacheConfig) (ops : List (Op δ π))
    (h : ∀ before op after, ops = before ++ op :: after →
      NotCutShort (run config before).inner op) :
    Budgeted (run config ops).inner ∧ Counted (run config ops).inner := by
  induction ops using reverseRecOn with
  | nil =>
    exact ⟨⟨Nat.zero_le _, Nat.zero_le _, Nat.zero_le _, Nat.zero_le _⟩, ⟨le_rfl, le_rfl⟩⟩
  | append_singleton ops op ih =>
    have hbefore := ih (Calls.forall_calls_append h)
    rw [run_concat]
    exact budgeted_step (conserved_run config ops).ok (h ops op [] rfl) hbefore.1 hbefore.2

/-- **The budgets hold** in every run in which no item of zero bytes cuts an eviction short: after
each successful insert all four caps are kept, and `evict_one_lru` returns zero only when nothing is
left. -/
theorem budgetsHold_of_notCutShort (config : PromptCacheConfig) (ops : List (Op δ π))
    (h : ∀ before op after, ops = before ++ op :: after →
      NotCutShort (run config before).inner op) :
    ∀ before op after, ops = before ++ op :: after → BudgetsHold (run config before).inner op := by
  intro before op after hops
  have hop := h before op after hops
  have hbefore := budgeted_run config before (Calls.forall_calls_append (hops ▸ h))
  have hstep := budgeted_step (conserved_run config before).ok hop hbefore.1 hbefore.2
  cases op with
  | insert o key tokens sizeBytes set now => exact fun _ => hstep.1
  | insertSnapshot o key entry => exact fun _ => hstep.1
  | evictOneLru o => exact fun hzero => entries_nil_of_evictOneLru hop hzero
  | lookupLongestPrefix o key tokens now touched | lookupSnapshotPrefix o key tokens now touched
  | takeDetached adopter entry | evictIfNeeded o now now' | releaseSession o sessionKey
  | drainPendingPagedReleases => trivial

/-- A store for ten bytes. -/
def smallConfig : PromptCacheConfig :=
  { hugeConfig with capacityBytes := 10, snapshotCapacityBytes := 10 }

/-- The insert under the one-token key of `token` at the time `now`. -/
def insertAt (token : Token) (sizeBytes : ℕ) (now : Instant) : Op Unit ℕ :=
  .insert insertionOrder (oneKey token) [token] sizeBytes (.paged 7) now

/-- An entry of zero bytes between two of six: the first makes room for the last. -/
theorem budgetsHold_three_inserts :
    (run smallConfig [insertAt 1 6 1, insertAt 2 0 2, insertAt 3 6 3]).inner.totalBytes = 6 ∧
      BudgetsHold (run smallConfig [insertAt 1 6 1, insertAt 2 0 2]).inner (insertAt 3 6 3) := by
  refine ⟨by decide +kernel, ?_⟩
  refine budgetsHold_of_notCutShort smallConfig
    [insertAt 1 6 1, insertAt 2 0 2, insertAt 3 6 3] ?_ [insertAt 1 6 1, insertAt 2 0 2]
    (insertAt 3 6 3) [] rfl
  simp only [Calls.forall_calls_cons]
  refine ⟨fun _ => ?_, fun _ => ?_, fun _ => ?_, by simp⟩
  all_goals decide +kernel

/-- An entry of zero bytes is the oldest: the next insert that has to make room evicts it and stops
two bytes over the capacity, and `evict_one_lru` returns zero with an entry of six bytes left. -/
theorem not_budgetsHold_zero_oldest :
    ¬ BudgetsHold (run smallConfig [insertAt 1 0 1, insertAt 2 6 2]).inner (insertAt 3 6 3) ∧
      ¬ BudgetsHold (run smallConfig [insertAt 1 0 1, insertAt 2 6 2]).inner
        (.evictOneLru insertionOrder) := by
  refine ⟨?_, ?_⟩
  · intro h
    have hbytes := (h (by decide +kernel)).totalBytes_le
    revert hbytes
    decide +kernel
  · intro h
    have hnil := h (by decide +kernel)
    revert hnil
    decide +kernel

end World

end Mlxcel.PromptCache
