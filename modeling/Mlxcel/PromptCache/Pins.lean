import Mlxcel.PromptCache.Store
import Mlxcel.Lib.AssocMap
import Mlxcel.Lib.Calls
import Mathlib.Algebra.Order.Group.Multiset
import Mathlib.Tactic.Abel

/-!
# Paged pins and indexes of the prompt cache

A paged detached set pins blocks of a pool that the store cannot reach. Whatever happens to the
entry that holds it, the set has to end with someone who can release it.

**One step.** Everything that removes entries is made of `removeEntry`. `Keeps` collects what it
preserves: the well-formedness `Ok` of the indexes, the paged sets in cells and queue, and the byte
counters. It is reflexive and transitive, so that the sweeps, the cap loops, the lookups and the
release of a session keep all of it because one removal and one touch do. `Upkeep` makes that
argument once, for every such relation.

**All runs.** `World` adds to a store what left it: the sets taken by adopters and the outputs of
drains. `pins_conserved` says that in every run of calls each paged set that was passed to `insert`
is in exactly one place, that the tries index exactly the resident entries, and that the byte
counters are exact as long as no addition was cut off at the largest `usize`.
-/

namespace Mlxcel.PromptCache

open AList DetachedKvSet Option
open List hiding set
open AssocMap

variable {δ π : Type}

/-! ## Paged sets -/

def DetachedKvSet.paged? : DetachedKvSet δ π → Option π
  | .paged set => some set
  | .dense _ => none

def Cell.paged? (cell : Cell δ π) : Option π := cell.detached.bind DetachedKvSet.paged?

namespace Inner

/-- The paged set in a cell. -/
def pagedAt (s : Inner δ π) (i : ℕ) : Option π := s.cells[i]?.bind Cell.paged?

/-- The paged sets in all cells and in the queue. -/
def pins (s : Inner δ π) : Multiset π :=
  (s.cells.filterMap Cell.paged? : Multiset π) +
    (s.pendingPagedReleases.filterMap paged? : Multiset π)

variable {i : ℕ}

/-- Replacing an element trades what it contributes. -/
lemma coe_filterMap_set {α β : Type} (f : α → Option β) {l : List α} {a b : α}
    (h : l[i]? = some a) :
    ((l.set i b).filterMap f : Multiset β) + ((f a).toList : Multiset β)
      = (l.filterMap f : Multiset β) + ((f b).toList : Multiset β) := by
  have hcons : ∀ (x : α) (l : List α), ((x :: l).filterMap f : Multiset β)
      = ((f x).toList : Multiset β) + (l.filterMap f : Multiset β) := by
    intro x l
    cases hx : f x <;> simp [hx]
  induction l generalizing i with
  | nil => simp at h
  | cons x l ih =>
    cases i with
    | zero =>
      rw [getElem?_cons_zero, some.injEq] at h
      rw [set_cons_zero, hcons, hcons, h]
      abel
    | succ i =>
      rw [set_cons_succ, hcons, hcons, add_assoc, ih h, add_assoc]

/-! ## Well-formed stores -/

/-- The pairs in the trie of a bucket. -/
def storedIn (s : Inner δ π) (b : SessionlessBucketKey) :
    List (List Token × PromptCacheKeyDigest) :=
  (s.tries.lookup b).elim [] RadixTrie.stored

/-- Entries have cells of their own, every paged set in a cell is that of an entry (or of the one
that is being inserted, whose cell is `loose`), the tries index the entries, and with automatic
prefix caching an entry has its block hashes. -/
structure Ok (loose : Option ℕ) (s : Inner δ π) : Prop where
  cell_lt : ∀ {d slot}, s.entries.lookup d = some slot → slot.entry.cell < s.cells.length
  cell_inj : ∀ {d d' slot slot'}, s.entries.lookup d = some slot →
    s.entries.lookup d' = some slot' → slot.entry.cell = slot'.entry.cell → d = d'
  loose_lt : ∀ i ∈ loose, i < s.cells.length
  loose_ne : ∀ i ∈ loose, ∀ {d slot}, s.entries.lookup d = some slot → slot.entry.cell ≠ i
  owned : ∀ {i set}, s.pagedAt i = some set → i ∈ loose ∨
    ∃ d slot, s.entries.lookup d = some slot ∧ slot.entry.cell = i
  indexed : ∀ {b tokens d}, (tokens, d) ∈ s.storedIn b ↔
    ∃ slot, s.entries.lookup d = some slot ∧ slot.sessionless = b ∧ slot.entry.tokens = tokens
  hashed : s.config.apcEnabled = true → ∀ {d slot}, s.entries.lookup d = some slot →
    slot.entry.apcBlockHashes = some (blockHashChain slot.entry.tokens s.config.apc.blockSize
      s.config.apc.hash slot.sessionless.mmDigest)

/-- The bytes of the resident entries. -/
def residentBytes (entries : AList fun _ : PromptCacheKeyDigest => EntrySlot) : ℕ :=
  (entries.entries.map fun e => e.2.entry.sizeBytes).sum

def residentSnapshotBytes (snapshots : AList fun _ : PromptCacheKeyDigest => SnapshotSlot) : ℕ :=
  (snapshots.entries.map fun e => e.2.entry.sizeBytes).sum

section Bytes

variable {d : PromptCacheKeyDigest}

lemma residentBytes_erase {entries : AList fun _ : PromptCacheKeyDigest => EntrySlot}
    {slot : EntrySlot} (h : entries.lookup d = some slot) :
    residentBytes entries = slot.entry.sizeBytes + residentBytes (entries.erase d) :=
  sum_erase h fun slot => slot.entry.sizeBytes

lemma residentBytes_insert {entries : AList fun _ : PromptCacheKeyDigest => EntrySlot}
    (h : entries.lookup d = none) (slot : EntrySlot) :
    residentBytes (entries.insert d slot) = slot.entry.sizeBytes + residentBytes entries := by
  nth_rewrite 2 [← erase_eq_self h]
  exact sum_insert _ _ _ fun slot : EntrySlot => slot.entry.sizeBytes

variable {snapshots : AList fun _ : PromptCacheKeyDigest => SnapshotSlot}

lemma residentSnapshotBytes_erase {slot : SnapshotSlot} (h : snapshots.lookup d = some slot) :
    residentSnapshotBytes snapshots
      = slot.entry.sizeBytes + residentSnapshotBytes (snapshots.erase d) :=
  sum_erase h fun slot => slot.entry.sizeBytes

lemma residentSnapshotBytes_insert (h : snapshots.lookup d = none) (slot : SnapshotSlot) :
    residentSnapshotBytes (snapshots.insert d slot)
      = slot.entry.sizeBytes + residentSnapshotBytes snapshots := by
  nth_rewrite 2 [← erase_eq_self h]
  exact sum_insert _ _ _ fun slot : SnapshotSlot => slot.entry.sizeBytes

end Bytes

/-- The byte counters are exact. -/
structure BytesExact (s : Inner δ π) : Prop where
  totalBytes_eq : s.totalBytes = residentBytes s.entries
  snapshotBytes_eq : s.snapshotBytes = residentSnapshotBytes s.snapshots

/-- What everything that removes or touches entries preserves. -/
structure Keeps (s s' : Inner δ π) : Prop where
  config_eq : s'.config = s.config
  ok : ∀ {loose}, Ok loose s → Ok loose s'
  pins_eq : s'.pins = s.pins
  bytesExact : BytesExact s → BytesExact s'

lemma Keeps.refl (s : Inner δ π) : Keeps s s := ⟨rfl, id, rfl, id⟩

variable {s : Inner δ π} {entry : CacheEntry} {key : PromptCacheKey}

lemma Keeps.trans {t u : Inner δ π} (h : Keeps s t) (h' : Keeps t u) : Keeps s u :=
  ⟨h'.config_eq.trans h.config_eq, fun hs => h'.ok (h.ok hs), h'.pins_eq.trans h.pins_eq,
    fun hs => h'.bytesExact (h.bytesExact hs)⟩

/-! ## Taking the set out of a cell -/

lemma pagedAt_set {i j : ℕ} {cell : Cell δ π} (hi : i < s.cells.length) :
    ({ s with cells := s.cells.set i cell } : Inner δ π).pagedAt j
      = if j = i then cell.paged? else s.pagedAt j := by
  unfold pagedAt
  rw [getElem?_set]
  by_cases hji : j = i
  · rw [hji, if_pos rfl, if_pos rfl, if_pos hi, bind_some]
  · rw [if_neg (Ne.symm hji), if_neg hji]

/-- Only cells and the release queue differ. -/
structure SameIndex (s s' : Inner δ π) : Prop where
  config_eq : s'.config = s.config
  entries_eq : s'.entries = s.entries
  tries_eq : s'.tries = s.tries
  snapshots_eq : s'.snapshots = s.snapshots
  totalBytes_eq : s'.totalBytes = s.totalBytes
  snapshotBytes_eq : s'.snapshotBytes = s.snapshotBytes
  length_cells : s'.cells.length = s.cells.length

variable {s' : Inner δ π}

lemma SameIndex.bytesExact (h : SameIndex s s') (hs : BytesExact s) :
    BytesExact s' := by
  refine ⟨?_, ?_⟩
  · rw [h.totalBytes_eq, h.entries_eq]
    exact hs.totalBytes_eq
  · rw [h.snapshotBytes_eq, h.snapshots_eq]
    exact hs.snapshotBytes_eq

variable {loose : Option ℕ}

lemma SameIndex.ok (h : SameIndex s s')
    (hpaged : ∀ {i set}, s'.pagedAt i = some set → s.pagedAt i = some set) (hs : Ok loose s) :
    Ok loose s' := by
  refine ⟨?_, ?_, ?_, ?_, ?_, ?_, ?_⟩
  · rw [h.entries_eq, h.length_cells]
    exact hs.cell_lt
  · rw [h.entries_eq]
    exact hs.cell_inj
  · rw [h.length_cells]
    exact hs.loose_lt
  · rw [h.entries_eq]
    exact hs.loose_ne
  · rw [h.entries_eq]
    exact fun hset => hs.owned (hpaged hset)
  · unfold storedIn
    rw [h.tries_eq, h.entries_eq]
    exact hs.indexed
  · rw [h.config_eq, h.entries_eq]
    exact hs.hashed

/-- The set leaves its cell and nothing else changes. -/
lemma takeDetached_spec (s : Inner δ π) (entry : CacheEntry) :
    SameIndex s (s.takeDetached entry).2 ∧
      (∀ j, (s.takeDetached entry).2.pagedAt j
        = if j = entry.cell then none else s.pagedAt j) ∧
      (s.takeDetached entry).2.pendingPagedReleases = s.pendingPagedReleases ∧
      (s.takeDetached entry).2.pins
        + (((s.takeDetached entry).1.bind paged?).toList : Multiset π) = s.pins := by
  cases hcell : s.cells[entry.cell]? with
  | none =>
    have htake : s.takeDetached entry = (none, s) := by rw [takeDetached, hcell]
    rw [htake]
    refine ⟨⟨rfl, rfl, rfl, rfl, rfl, rfl, rfl⟩, ?_, rfl, by simp⟩
    intro j
    split_ifs with hj
    · rw [hj, pagedAt, hcell, bind_none]
    · rfl
  | some cell =>
    have htake : s.takeDetached entry = (cell.detached,
        { s with cells := s.cells.set entry.cell { cell with detached := none } }) := by
      rw [takeDetached, hcell]
    have hlt : entry.cell < s.cells.length := (List.getElem?_eq_some_iff.mp hcell).1
    rw [htake]
    refine ⟨⟨rfl, rfl, rfl, rfl, rfl, rfl, length_set⟩, fun j => pagedAt_set hlt, rfl, ?_⟩
    have hset := coe_filterMap_set Cell.paged? hcell (b := { cell with detached := none })
    have hnone : Cell.paged? ({ cell with detached := none } : Cell δ π) = none := rfl
    rw [hnone, toList_none, Multiset.coe_nil, add_zero] at hset
    rw [pins, pins, ← hset]
    abel

lemma stash_spec (s : Inner δ π) (entry : CacheEntry) :
    SameIndex s (s.stashPagedPinsForRelease entry) ∧
      (∀ j, (s.stashPagedPinsForRelease entry).pagedAt j
        = if j = entry.cell then none else s.pagedAt j) ∧
      (s.stashPagedPinsForRelease entry).pins = s.pins := by
  obtain ⟨hsame, hpaged, hpending, hpins⟩ := takeDetached_spec s entry
  rcases htake : s.takeDetached entry with ⟨set, t⟩
  rw [htake] at hsame hpaged hpending hpins
  rcases set with _ | set | set <;> rw [stashPagedPinsForRelease, htake]
  · simp only [bind_none, toList_none, Multiset.coe_nil, add_zero] at hpins
    exact ⟨hsame, hpaged, hpins⟩
  · simp only [bind_some, paged?, toList_none, Multiset.coe_nil, add_zero] at hpins
    exact ⟨hsame, hpaged, hpins⟩
  · refine ⟨⟨hsame.1, hsame.2, hsame.3, hsame.4, hsame.5, hsame.6, hsame.7⟩, hpaged, ?_⟩
    rw [← hpins]
    simp only [pins, filterMap_append, ← Multiset.coe_add, ← add_assoc]
    rfl

/-! ## Removing an entry -/

lemma removeFromTrie_spec (s : Inner δ π) (b : SessionlessBucketKey) (tokens : List Token)
    (d : PromptCacheKeyDigest) :
    ∃ tries, s.removeFromTrie b tokens d = { s with tries := tries } ∧
      ∀ b' x, x ∈ ({ s with tries := tries } : Inner δ π).storedIn b' ↔
        x ∈ s.storedIn b' ∧ ¬ (b' = b ∧ x = (tokens, d)) := by
  have hother : ∀ b' x, b' ≠ b →
      (x ∈ s.storedIn b' ↔ x ∈ s.storedIn b' ∧ ¬ (b' = b ∧ x = (tokens, d))) := by
    intro b' x hb
    exact ⟨fun hx => ⟨hx, fun h => hb h.1⟩, fun hx => hx.1⟩
  rw [removeFromTrie]
  cases htrie : s.tries.lookup b with
  | none =>
    refine ⟨s.tries, rfl, ?_⟩
    intro b' x
    by_cases hb : b' = b
    · have hnil : s.storedIn b' = [] := by rw [storedIn, hb, htrie, elim_none]
      rw [hnil]
      simp
    · exact hother b' x hb
  | some trie =>
    have hstored : s.storedIn b = trie.stored := by rw [storedIn, htrie, elim_some]
    have hremove := @RadixTrie.mem_stored_remove trie tokens d
    simp only
    split_ifs with hlen
    · refine ⟨s.tries.erase b, rfl, ?_⟩
      intro b' x
      by_cases hb : b' = b
      · have hnil : (trie.remove tokens d).1.stored = [] := by
          rw [RadixTrie.len_eq] at hlen
          exact length_eq_zero_iff.mp hlen
        have hx := hremove.2 x
        rw [hnil] at hx
        rw [hb, hstored, storedIn, lookup_erase]
        simpa using hx
      · rw [storedIn, lookup_erase_ne hb]
        exact hother b' x hb
    · refine ⟨s.tries.insert b (trie.remove tokens d).1, rfl, ?_⟩
      intro b' x
      by_cases hb : b' = b
      · rw [hb, hstored, storedIn, lookup_insert, elim_some, hremove.2]
        simp
      · rw [storedIn, lookup_insert_ne hb]
        exact hother b' x hb

/-- `s'` is `s` without the entry under `d`, whose paged set moved to the queue. -/
structure EntryRemoved (s : Inner δ π) (d : PromptCacheKeyDigest) (slot : EntrySlot)
    (s' : Inner δ π) : Prop where
  config_eq : s'.config = s.config
  entries_eq : s'.entries = s.entries.erase d
  snapshots_eq : s'.snapshots = s.snapshots
  totalBytes_eq : s'.totalBytes = s.totalBytes - slot.entry.sizeBytes
  snapshotBytes_eq : s'.snapshotBytes = s.snapshotBytes
  length_cells : s'.cells.length = s.cells.length
  pagedAt_eq : ∀ j, s'.pagedAt j = if j = slot.entry.cell then none else s.pagedAt j
  stored_iff : ∀ b x, x ∈ s'.storedIn b ↔
    x ∈ s.storedIn b ∧ ¬ (b = slot.sessionless ∧ x = (slot.entry.tokens, d))
  pins_eq : s'.pins = s.pins

variable {slot : EntrySlot}

lemma entryRemoved_removeEntry {d : PromptCacheKeyDigest} (hslot : s.entries.lookup d = some slot) :
    EntryRemoved s d slot (s.removeEntry d).2 := by
  simp only [removeEntry, hslot]
  generalize hs₁ : ({ s with
    entries := s.entries.erase d
    totalBytes := s.totalBytes - slot.entry.sizeBytes } : Inner δ π) = s₁
  obtain ⟨hsame, hpaged, hpins⟩ := stash_spec s₁ slot.entry
  generalize s₁.stashPagedPinsForRelease slot.entry = s₂ at hsame hpaged hpins ⊢
  obtain ⟨tries, htries, hstored⟩ := removeFromTrie_spec s₂ slot.sessionless slot.entry.tokens d
  have hstoredIn : ∀ b, s₂.storedIn b = s.storedIn b := by
    intro b
    rw [storedIn, hsame.tries_eq, ← hs₁]
    rfl
  subst hs₁
  rw [htries]
  refine ⟨hsame.config_eq, hsame.entries_eq, hsame.snapshots_eq, hsame.totalBytes_eq,
    hsame.snapshotBytes_eq, hsame.length_cells, hpaged, ?_, hpins⟩
  intro b x
  rw [hstored, hstoredIn]

lemma EntryRemoved.ok {d : PromptCacheKeyDigest} (h : EntryRemoved s d slot s')
    (hslot : s.entries.lookup d = some slot) (hs : Ok loose s) :
    Ok loose s' := by
  have hlookup : ∀ {d' slot'}, s'.entries.lookup d' = some slot' ↔
      d' ≠ d ∧ s.entries.lookup d' = some slot' := by
    rw [h.entries_eq]
    exact lookup_erase_eq_some
  refine ⟨?_, ?_, ?_, ?_, ?_, ?_, ?_⟩
  · intro d' slot' hd
    rw [h.length_cells]
    exact hs.cell_lt (hlookup.mp hd).2
  · intro d₁ d₂ slot₁ slot₂ h₁ h₂
    exact hs.cell_inj (hlookup.mp h₁).2 (hlookup.mp h₂).2
  · rw [h.length_cells]
    exact hs.loose_lt
  · intro i hi d' slot' hd
    exact hs.loose_ne i hi (hlookup.mp hd).2
  · intro i set hset
    rw [h.pagedAt_eq] at hset
    split_ifs at hset with hi
    rcases hs.owned hset with hloose | ⟨d', slot', hd, hcell⟩
    · exact .inl hloose
    · refine .inr ⟨d', slot', hlookup.mpr ⟨?_, hd⟩, hcell⟩
      rintro rfl
      rw [hslot, some.injEq] at hd
      rw [hd] at hi
      exact hi hcell.symm
  · intro b tokens d'
    rw [h.stored_iff, hs.indexed]
    constructor
    · rintro ⟨⟨slot', hd, hb, htokens⟩, hne⟩
      refine ⟨slot', hlookup.mpr ⟨?_, hd⟩, hb, htokens⟩
      rintro rfl
      rw [hslot, some.injEq] at hd
      exact hne ⟨by rw [← hb, hd], by rw [← htokens, hd]⟩
    · rintro ⟨slot', hd, hb, htokens⟩
      rw [hlookup] at hd
      exact ⟨⟨slot', hd.2, hb, htokens⟩, fun heq => hd.1 (Prod.mk.inj heq.2).2⟩
  · rw [h.config_eq]
    intro hon d' slot' hd
    exact hs.hashed hon (hlookup.mp hd).2

/-- **Removing an entry** keeps everything: its paged set moves to the queue, its pair leaves its
trie, and its bytes leave the counter. -/
theorem keeps_removeEntry (s : Inner δ π) (d : PromptCacheKeyDigest) :
    Keeps s (s.removeEntry d).2 := by
  cases hslot : s.entries.lookup d with
  | none =>
    rw [removeEntry, hslot]
    exact .refl s
  | some slot =>
    have h := entryRemoved_removeEntry hslot
    refine ⟨h.config_eq, h.ok hslot, h.pins_eq, ?_⟩
    intro hbytes
    refine ⟨?_, ?_⟩
    · rw [h.totalBytes_eq, h.entries_eq, hbytes.totalBytes_eq, residentBytes_erase hslot,
        Nat.add_sub_cancel_left]
    · rw [h.snapshotBytes_eq, h.snapshots_eq]
      exact hbytes.snapshotBytes_eq

lemma keeps_removeSnapshot (s : Inner δ π) (d : PromptCacheKeyDigest) :
    Keeps s (s.removeSnapshot d).2 := by
  rw [removeSnapshot]
  cases hslot : s.snapshots.lookup d with
  | none => exact .refl s
  | some slot =>
    refine ⟨rfl, fun hs => ⟨hs.1, hs.2, hs.3, hs.4, hs.5, hs.6, hs.7⟩, rfl, ?_⟩
    intro hbytes
    refine ⟨hbytes.totalBytes_eq, ?_⟩
    show s.snapshotBytes - slot.entry.sizeBytes = residentSnapshotBytes (s.snapshots.erase d)
    rw [hbytes.snapshotBytes_eq, residentSnapshotBytes_erase hslot, Nat.add_sub_cancel_left]

/-! ## Touches -/

lemma keeps_touch (s : Inner δ π) (entry : CacheEntry) (now : Instant) :
    Keeps s (s.touch entry now) := by
  have hpaged : ∀ i, (s.touch entry now).pagedAt i = s.pagedAt i := by
    intro i
    unfold pagedAt touch
    rw [getElem?_modify]
    cases s.cells[i]? with
    | none => rfl
    | some cell => by_cases hi : entry.cell = i <;> simp [hi, Cell.paged?]
  have hcells : ∀ (cells : List (Cell δ π)) (i : ℕ),
      (cells.modify i fun cell => { cell with lastUsed := now }).filterMap Cell.paged?
        = cells.filterMap Cell.paged? := by
    intro cells
    induction cells with
    | nil => simp
    | cons cell cells ih =>
      intro i
      cases i with
      | zero =>
        rfl
      | succ i => rw [modify_succ_cons, filterMap_cons, ih, filterMap_cons]
  have hsame : SameIndex s (s.touch entry now) :=
    ⟨rfl, rfl, rfl, rfl, rfl, rfl, length_modify _ _ _⟩
  refine ⟨rfl, hsame.ok fun hset => by rwa [← hpaged], ?_, hsame.bytesExact⟩
  rw [pins, touch, hcells]
  rfl

/-- The snapshot of `e` with a new last use. -/
def touchSnapshot (s : Inner δ π) (e : Sigma fun _ : PromptCacheKeyDigest => SnapshotSlot)
    (now : Instant) : Inner δ π :=
  { s with snapshots :=
      s.snapshots.insert e.1 { e.2 with entry := { e.2.entry with lastUsed := now } } }

/-- A touched snapshot is one of the map, with its size unchanged. -/
lemma sum_touchSnapshot {e : Sigma fun _ : PromptCacheKeyDigest => SnapshotSlot}
    (he : e ∈ s.snapshots.entries) (now : Instant) :
    residentSnapshotBytes (s.touchSnapshot e now).snapshots
      = residentSnapshotBytes s.snapshots := by
  have hlookup : s.snapshots.lookup e.1 = some e.2 := mem_lookup_iff.mpr he
  have hsize := sum_erase hlookup fun slot => slot.entry.sizeBytes
  exact (sum_insert _ _ _ fun slot : SnapshotSlot => slot.entry.sizeBytes).trans hsize.symm

lemma keeps_touchSnapshot {e : Sigma fun _ : PromptCacheKeyDigest => SnapshotSlot}
    (he : e ∈ s.snapshots.entries) (now : Instant) : Keeps s (s.touchSnapshot e now) := by
  refine ⟨rfl, fun hs => ⟨hs.1, hs.2, hs.3, hs.4, hs.5, hs.6, hs.7⟩, rfl, ?_⟩
  intro hbytes
  refine ⟨hbytes.totalBytes_eq, ?_⟩
  rw [sum_touchSnapshot he]
  exact hbytes.snapshotBytes_eq

lemma mem_of_foldl_betterSnapshot {e : Sigma fun _ : PromptCacheKeyDigest => SnapshotSlot} :
    ∀ {l : List (Sigma fun _ : PromptCacheKeyDigest => SnapshotSlot)} {best},
      l.foldl betterSnapshot best = some e → e ∈ l ∨ best = some e := by
  intro l best
  refine l.foldlRecOn (motive := fun b => b = some e → _) betterSnapshot .inr fun b hb a ha h => ?_
  unfold betterSnapshot at h
  split at h
  · exact .inl (some.inj h ▸ ha)
  · split_ifs at h
    · exact .inl (some.inj h ▸ ha)
    · exact hb h

/-! ## Sweeps, caps, lookups and releases -/

/-- A cap loop keeps what one eviction keeps. -/
lemma evictWhile_induct {exceeded : Inner δ π → Bool} {evict : Inner δ π → ℕ × Inner δ π}
    {P : Inner δ π → Prop} (hevict : ∀ s, P s → P (evict s).2) :
    ∀ (fuel : ℕ) {s : Inner δ π}, P s → P (evictWhile exceeded evict fuel s).2 := by
  intro fuel
  induction fuel with
  | zero => exact id
  | succ fuel ih =>
    intro s hs
    rw [evictWhile]
    simp only
    split_ifs
    · exact hevict s hs
    · exact ih (hevict s hs)
    · exact hs

/-- A relation between a state and a later one that holds when one entry or one snapshot is removed
or touched. -/
structure Upkeep (R : Inner δ π → Inner δ π → Prop) : Prop where
  refl : ∀ s, R s s
  trans : ∀ {s t u}, R s t → R t u → R s u
  removeEntry : ∀ s d, R s (s.removeEntry d).2
  removeSnapshot : ∀ s d, R s (s.removeSnapshot d).2
  touch : ∀ s entry now, R s (s.touch entry now)
  touchSnapshot : ∀ {s e}, e ∈ s.snapshots.entries → ∀ now, R s (s.touchSnapshot e now)

lemma upkeep_keeps : Upkeep (@Keeps δ π) :=
  ⟨.refl, .trans, keeps_removeEntry, keeps_removeSnapshot, keeps_touch,
    keeps_touchSnapshot⟩

namespace Upkeep

variable {R : Inner δ π → Inner δ π → Prop}

section Remove

variable {α : Type} {remove : Inner δ π → PromptCacheKeyDigest → Option (BucketKey × α) × Inner δ π}
  {sizeBytes : α → ℕ}

lemma removeAll (hR : Upkeep R) (hremove : ∀ s d, R s (remove s d).2) :
    ∀ (digests : List PromptCacheKeyDigest) (s : Inner δ π),
      R s (Inner.removeAll remove sizeBytes s digests).2 := by
  intro digests
  induction digests with
  | nil => exact hR.refl
  | cons d digests ih =>
    intro s
    have h := hremove s d
    rw [Inner.removeAll]
    generalize remove s d = result at h ⊢
    obtain ⟨_ | ⟨_, entry⟩, t⟩ := result
    all_goals exact hR.trans h (ih t)

lemma evictDigest (hR : Upkeep R) (hremove : ∀ s d, R s (remove s d).2) (s : Inner δ π)
    (digest : Option PromptCacheKeyDigest) :
    R s (Inner.evictDigest remove sizeBytes s digest).2 := by
  cases digest with
  | none => exact hR.refl s
  | some d =>
    have h := hremove s d
    rw [Inner.evictDigest]
    generalize remove s d = result at h ⊢
    obtain ⟨_ | ⟨_, entry⟩, t⟩ := result
    · exact h
    · exact h

end Remove

section

variable (hR : Upkeep R)

include hR

lemma removeEntries (s : Inner δ π) (digests : List PromptCacheKeyDigest) :
    R s (s.removeEntries digests).2 := hR.removeAll hR.removeEntry digests s

lemma removeSnapshots (s : Inner δ π) (digests : List PromptCacheKeyDigest) :
    R s (s.removeSnapshots digests).2 := hR.removeAll hR.removeSnapshot digests s

variable (o : HashOrder) (s : Inner δ π)

variable (now : Instant)

lemma sweepTtl (s : Inner δ π) : R s (s.sweepTtl o now).2 := by
  rw [Inner.sweepTtl]
  split_ifs
  · exact hR.refl s
  · exact hR.removeEntries s _

lemma sweepSnapshotTtl (s : Inner δ π) : R s (s.sweepSnapshotTtl o now).2 := by
  rw [Inner.sweepSnapshotTtl]
  split_ifs
  · exact hR.refl s
  · exact hR.removeSnapshots s _

lemma sweepDrained : R s (s.sweepDrained o).2 := by
  rw [Inner.sweepDrained]
  split_ifs
  · exact hR.refl s
  · exact hR.removeEntries s _

lemma sweepForLookup (s : Inner δ π) : R s (s.sweepForLookup o now) :=
  hR.trans (hR.sweepDrained o s) (hR.sweepTtl o now _)

lemma evictOldest : R s (s.evictOldest o).2 :=
  hR.evictDigest hR.removeEntry s _

lemma evictOldestSnapshot : R s (s.evictOldestSnapshot o).2 :=
  hR.evictDigest hR.removeSnapshot s _

lemma evictWhile {exceeded : Inner δ π → Bool}
    {evict : Inner δ π → ℕ × Inner δ π} (hevict : ∀ s, R s (evict s).2) (fuel : ℕ)
    (s : Inner δ π) : R s (Inner.evictWhile exceeded evict fuel s).2 :=
  evictWhile_induct (fun t ht => hR.trans ht (hevict t)) fuel (hR.refl s)

lemma enforceCaps : R s (s.enforceCaps o).2 :=
  hR.trans (hR.evictWhile (hR.evictOldest o) _ s) (hR.evictWhile (hR.evictOldest o) _ _)

lemma enforceSnapshotCaps : R s (s.enforceSnapshotCaps o).2 :=
  hR.trans (hR.evictWhile (hR.evictOldestSnapshot o) _ s)
    (hR.evictWhile (hR.evictOldestSnapshot o) _ _)

lemma evictIfNeeded (now now' : Instant) : R s (s.evictIfNeeded o now now').2 := by
  rw [Inner.evictIfNeeded]
  split_ifs
  · exact hR.refl s
  · simp only
    have hdrained := hR.sweepDrained o s
    generalize (s.sweepDrained o).2 = s₁ at hdrained ⊢
    have hexpired := hR.sweepTtl o now s₁
    generalize (s₁.sweepTtl o now).2 = s₂ at hexpired ⊢
    have hcapped := hR.enforceCaps o s₂
    generalize (s₂.enforceCaps o).2 = s₃ at hcapped ⊢
    have hsnapshots := hR.sweepSnapshotTtl o now' s₃
    generalize (s₃.sweepSnapshotTtl o now').2 = s₄ at hsnapshots ⊢
    exact hR.trans hdrained (hR.trans hexpired (hR.trans hcapped (hR.trans hsnapshots
      (hR.enforceSnapshotCaps o s₄))))

lemma releaseSession (sessionKey : String) :
    R s (s.releaseSession o sessionKey).2 := by
  rw [Inner.releaseSession]
  split_ifs
  · exact hR.refl s
  · exact hR.trans (hR.removeEntries s _) (hR.removeSnapshots _ _)

lemma lookupLongestPrefix (key : PromptCacheKey)
    (tokens : List Token) (now touched : Instant) :
    R s (s.lookupLongestPrefix o key tokens now touched).2 := by
  have hsweep := hR.sweepForLookup o now s
  rw [Inner.lookupLongestPrefix]
  split
  · exact hR.refl s
  · simp only
    split
    · exact hsweep
    · split
      · exact hsweep
      · split
        · exact hsweep
        · split_ifs
          · exact hsweep
          · exact hR.trans hsweep (hR.touch _ _ _)

lemma lookupSnapshotPrefix (key : PromptCacheKey)
    (tokens : List Token) (now touched : Instant) :
    R s (s.lookupSnapshotPrefix o key tokens now touched).2 := by
  rw [Inner.lookupSnapshotPrefix]
  split_ifs
  · exact hR.refl s
  have hsweep := hR.sweepSnapshotTtl o now s
  simp only
  generalize (s.sweepSnapshotTtl o now).2 = t at hsweep ⊢
  split
  · exact hsweep
  · next e hbest =>
    have hmem : e ∈ t.snapshots.entries := by
      rcases mem_of_foldl_betterSnapshot hbest with h | h
      · exact (o.perm _).mem_iff.mp (mem_of_mem_filter h)
      · exact absurd h (by simp)
    exact hR.trans hsweep (hR.touchSnapshot hmem touched)

end

end Upkeep

/-! ## Insertion -/

lemma saturatingAdd_eq {a b : ℕ} (h : a + b ≤ usizeMax) : saturatingAdd a b = a + b :=
  min_eq_left h

lemma Ok.close (hs : Ok (some i) s) (hi : s.pagedAt i = none) : Ok none s := by
  refine ⟨hs.cell_lt, hs.cell_inj, by simp, by simp, ?_, hs.indexed, hs.hashed⟩
  intro j set hset
  rcases hs.owned hset with hj | hslot
  · rw [mem_def, some.injEq] at hj
    rw [← hj, hi] at hset
    simp at hset
  · exact .inr hslot

/-- An entry that is declined leaves its paged set in the queue. -/
lemma stash_declined (hs : Ok (some entry.cell) s) : Ok none (s.stashPagedPinsForRelease entry) ∧
      (s.stashPagedPinsForRelease entry).pins = s.pins ∧
      (BytesExact s → BytesExact (s.stashPagedPinsForRelease entry)) ∧
      (s.stashPagedPinsForRelease entry).config = s.config := by
  obtain ⟨hsame, hpaged, hpins⟩ := stash_spec s entry
  refine ⟨(hsame.ok ?_ hs).close ?_, hpins, hsame.bytesExact, hsame.config_eq⟩
  · intro i set hset
    rw [hpaged] at hset
    split_ifs at hset
    exact hset
  · rw [hpaged, if_pos rfl]

/-- The pair of the new entry is added to the trie of its bucket. -/
lemma mem_storedIn_addEntry {b : SessionlessBucketKey} {x : List Token × PromptCacheKeyDigest} :
    x ∈ (s.addEntry key entry).storedIn b ↔
      (b = SessionlessBucketKey.fromKey key ∧ x = (entry.tokens, key.digest)) ∨
        x ∈ s.storedIn b := by
  by_cases hb : b = .fromKey key
  · have hold : ((s.tries.lookup b).getD .empty).stored = s.storedIn b := by
      rw [storedIn]
      cases s.tries.lookup b with
      | none => rfl
      | some trie => rfl
    subst hb
    rw [← hold, storedIn, addEntry, lookup_insert, elim_some,
      RadixTrie.mem_stored_insert]
    simp
  · rw [storedIn, addEntry]
    simp only [lookup_insert_ne hb, hb, false_and, false_or]
    rfl

/-- The entry under a digest that was free takes its loose cell into the store. -/
lemma ok_addEntry (hs : Ok (some entry.cell) s) (hfree : s.entries.lookup key.digest = none)
    (hhashes : s.config.apcEnabled = true → entry.apcBlockHashes = some (blockHashChain entry.tokens
      s.config.apc.blockSize s.config.apc.hash key.mmDigest)) :
    Ok none (s.addEntry key entry) := by
  have hlookup : ∀ {d slot}, (s.addEntry key entry).entries.lookup d = some slot →
      (d = key.digest ∧
        slot = ⟨entry, .fromKey key, .fromKey key⟩) ∨
      (d ≠ key.digest ∧ s.entries.lookup d = some slot) := by
    intro d slot h
    by_cases hd : d = key.digest
    · rw [hd, addEntry, lookup_insert, some.injEq] at h
      exact .inl ⟨hd, h.symm⟩
    · rw [addEntry, lookup_insert_ne hd] at h
      exact .inr ⟨hd, h⟩
  have hnew : (s.addEntry key entry).entries.lookup key.digest
      = some ⟨entry, .fromKey key, .fromKey key⟩ :=
    lookup_insert _
  have hold : ∀ {d slot}, s.entries.lookup d = some slot →
      (s.addEntry key entry).entries.lookup d = some slot := by
    intro d slot h
    have hd : d ≠ key.digest := by
      rintro rfl
      rw [hfree] at h
      simp at h
    exact (lookup_insert_ne hd).trans h
  have hloose : entry.cell ∈ some entry.cell := rfl
  refine ⟨?_, ?_, by simp, by simp, ?_, ?_, ?_⟩
  · intro d slot h
    rcases hlookup h with ⟨_, rfl⟩ | ⟨_, h⟩
    · exact hs.loose_lt _ hloose
    · exact hs.cell_lt h
  · intro d d' slot slot' h h' hcell
    rcases hlookup h with ⟨rfl, rfl⟩ | ⟨_, h⟩ <;> rcases hlookup h' with ⟨rfl, rfl⟩ | ⟨_, h'⟩
    · rfl
    · exact absurd hcell.symm (hs.loose_ne _ hloose h')
    · exact absurd hcell (hs.loose_ne _ hloose h)
    · exact hs.cell_inj h h' hcell
  · intro i set hset
    right
    rcases hs.owned hset with hi | ⟨d, slot, h, hcell⟩
    · exact ⟨_, _, hnew, some.inj hi⟩
    · exact ⟨d, slot, hold h, hcell⟩
  · intro b tokens d
    rw [mem_storedIn_addEntry, hs.indexed]
    constructor
    · rintro (⟨rfl, heq⟩ | ⟨slot, h, hb, htokens⟩)
      · obtain ⟨rfl, rfl⟩ := Prod.mk.inj heq
        exact ⟨_, hnew, rfl, rfl⟩
      · exact ⟨slot, hold h, hb, htokens⟩
    · rintro ⟨slot, h, hb, htokens⟩
      rcases hlookup h with ⟨rfl, rfl⟩ | ⟨_, h⟩
      · exact .inl ⟨hb.symm, by rw [← htokens]⟩
      · exact .inr ⟨slot, h, hb, htokens⟩
  · intro hon d slot h
    rcases hlookup h with ⟨_, rfl⟩ | ⟨_, h⟩
    · exact hhashes hon
    · exact hs.hashed hon h

variable (config : PromptCacheConfig)

@[simp] lemma cell_withApcBlockHashes (key : PromptCacheKey) (entry : CacheEntry) :
    (withApcBlockHashes config key entry).cell = entry.cell := by
  rw [withApcBlockHashes]
  split_ifs <;> rfl

@[simp] lemma sizeBytes_withApcBlockHashes (key : PromptCacheKey) (entry : CacheEntry) :
    (withApcBlockHashes config key entry).sizeBytes = entry.sizeBytes := by
  rw [withApcBlockHashes]
  split_ifs <;> rfl

lemma entries_removeEntry (s : Inner δ π) (d : PromptCacheKeyDigest) :
    (s.removeEntry d).2.entries = s.entries.erase d := by
  cases hslot : s.entries.lookup d with
  | none => rw [removeEntry, hslot, erase_eq_self hslot]
  | some slot => exact (entryRemoved_removeEntry hslot).entries_eq

lemma snapshots_removeSnapshot (s : Inner δ π) (d : PromptCacheKeyDigest) :
    (s.removeSnapshot d).2.snapshots = s.snapshots.erase d := by
  rw [removeSnapshot]
  cases hslot : s.snapshots.lookup d with
  | none => exact (erase_eq_self hslot).symm
  | some slot => rfl

/-- The store takes an entry of this size under this key. -/
structure Accepts (config : PromptCacheConfig) (key : PromptCacheKey) (sizeBytes capacity : ℕ) :
    Prop where
  enabled : config.isEnabled = true
  long : config.minPrefixTokens ≤ key.effectivePrefixLen
  small : sizeBytes ≤ capacity

variable {o : HashOrder}

/-- **Insertion**, accepted or declined, takes the entry with its loose cell into the store or its
paged set into the queue. The counter is exact if the bytes that stay and the new ones fit. -/
theorem insert_spec (hs : Ok (some entry.cell) s) :
    Ok none (s.insert o key entry).2 ∧ (s.insert o key entry).2.pins = s.pins ∧
      (s.insert o key entry).2.config = s.config ∧
      ((Accepts s.config key entry.sizeBytes s.config.capacityBytes →
          residentBytes (s.entries.erase key.digest) + entry.sizeBytes ≤ usizeMax) →
        BytesExact s → BytesExact (s.insert o key entry).2) := by
  obtain ⟨hok, hpins, hbytes, hconfig⟩ := stash_declined hs
  rw [insert]
  split_ifs with henabled hlong hsmall
  iterate 3 exact ⟨hok, hpins, hconfig, fun _ => hbytes⟩
  · have hremoved := keeps_removeEntry s key.digest
    have hentries := entries_removeEntry s key.digest
    simp only
    generalize (s.removeEntry key.digest).2 = t at hremoved hentries ⊢
    have hfree : t.entries.lookup key.digest = none := by rw [hentries, lookup_erase]
    generalize hstored : withApcBlockHashes t.config key entry = stored
    have hcell : stored.cell = entry.cell := by rw [← hstored, cell_withApcBlockHashes]
    have hsize : stored.sizeBytes = entry.sizeBytes := by
      rw [← hstored, sizeBytes_withApcBlockHashes]
    have hok : Ok none (t.addEntry key stored) := by
      refine ok_addEntry (hcell ▸ hremoved.ok hs) hfree ?_
      intro hon
      rw [← hstored, withApcBlockHashes, if_pos hon]
    have hcaps := upkeep_keeps.enforceCaps o (t.addEntry key stored)
    refine ⟨hcaps.ok hok, hcaps.pins_eq.trans hremoved.pins_eq,
      hcaps.config_eq.trans hremoved.config_eq, ?_⟩
    intro hfits hexact
    have ht := hremoved.bytesExact hexact
    refine hcaps.bytesExact ⟨?_, ht.snapshotBytes_eq⟩
    show saturatingAdd t.totalBytes stored.sizeBytes = residentBytes (t.entries.insert _ _)
    rw [residentBytes_insert hfree, ht.totalBytes_eq, hsize, saturatingAdd_eq, Nat.add_comm]
    rw [hentries]
    exact hfits ⟨eq_true_of_ne_false henabled, not_lt.mp hlong, not_lt.mp hsmall⟩

lemma insertSnapshot_spec {entry : ModelSnapshotEntry} :
    (∀ {loose}, Ok loose s → Ok loose (s.insertSnapshot o key entry).2) ∧
      (s.insertSnapshot o key entry).2.pins = s.pins ∧
      (s.insertSnapshot o key entry).2.config = s.config ∧
      ((Accepts s.config key entry.sizeBytes s.config.snapshotCapacityBytes →
          residentSnapshotBytes (s.snapshots.erase key.digest) + entry.sizeBytes ≤ usizeMax) →
        BytesExact s → BytesExact (s.insertSnapshot o key entry).2) := by
  rw [insertSnapshot]
  split_ifs with henabled hlong hsmall
  iterate 3 exact ⟨id, rfl, rfl, fun _ => id⟩
  have hremoved := keeps_removeSnapshot s key.digest
  have hsnapshots := snapshots_removeSnapshot s key.digest
  simp only
  generalize (s.removeSnapshot key.digest).2 = t at hremoved hsnapshots ⊢
  have hcaps := upkeep_keeps.enforceSnapshotCaps o ({ t with
    snapshotBytes := saturatingAdd t.snapshotBytes entry.sizeBytes
    snapshots := t.snapshots.insert key.digest ⟨entry, .fromKey key, .fromKey key⟩ } : Inner δ π)
  refine ⟨fun hs => hcaps.ok ?_, hcaps.pins_eq.trans hremoved.pins_eq,
    hcaps.config_eq.trans hremoved.config_eq, ?_⟩
  · have ht := hremoved.ok hs
    exact ⟨ht.1, ht.2, ht.3, ht.4, ht.5, ht.6, ht.7⟩
  intro hfits hexact
  have ht := hremoved.bytesExact hexact
  refine hcaps.bytesExact ⟨ht.totalBytes_eq, ?_⟩
  have hfree : t.snapshots.lookup key.digest = none := by rw [hsnapshots, lookup_erase]
  rw [residentSnapshotBytes_insert hfree, ht.snapshotBytes_eq, saturatingAdd_eq]
  · exact Nat.add_comm _ _
  · rw [hsnapshots]
    exact hfits ⟨eq_true_of_ne_false henabled, not_lt.mp hlong, not_lt.mp hsmall⟩

end Inner

/-! ## Runs -/

open Mlxcel.PromptCache.Inner

/-- A call on the store, with the order and the clock that it meets, or an adopter that takes the
detached set of an entry it holds. -/
inductive Op (δ π : Type)
  | insert (o : HashOrder) (key : PromptCacheKey) (tokens : List Token) (sizeBytes : ℕ)
      (set : DetachedKvSet δ π) (now : Instant)
  | insertSnapshot (o : HashOrder) (key : PromptCacheKey) (entry : ModelSnapshotEntry)
  | lookupLongestPrefix (o : HashOrder) (key : PromptCacheKey) (tokens : List Token)
      (now touched : Instant)
  | lookupSnapshotPrefix (o : HashOrder) (key : PromptCacheKey) (tokens : List Token)
      (now touched : Instant)
  | takeDetached (adopter : ℕ) (entry : CacheEntry)
  | evictIfNeeded (o : HashOrder) (now now' : Instant)
  | evictOneLru (o : HashOrder)
  | releaseSession (o : HashOrder) (sessionKey : String)
  | drainPendingPagedReleases

/-- A store with the paged sets that were passed to it, that adopters took from it, and that its
drains returned. -/
structure World (δ π : Type) where
  inner : Inner δ π
  passed : List π
  adopted : List (ℕ × π)
  drained : List (List π)

namespace World

variable (config : PromptCacheConfig) (ops : List (Op δ π))

def init : World δ π := ⟨Inner.new config, [], [], []⟩

def step (w : World δ π) : Op δ π → World δ π
  | .insert o key tokens sizeBytes set now =>
    let new := w.inner.newEntry tokens sizeBytes set now
    { w with inner := (new.2.insert o key new.1).2, passed := w.passed ++ set.paged?.toList }
  | .insertSnapshot o key entry => { w with inner := (w.inner.insertSnapshot o key entry).2 }
  | .lookupLongestPrefix o key tokens now touched =>
    { w with inner := (w.inner.lookupLongestPrefix o key tokens now touched).2 }
  | .lookupSnapshotPrefix o key tokens now touched =>
    { w with inner := (w.inner.lookupSnapshotPrefix o key tokens now touched).2 }
  | .takeDetached adopter entry =>
    let taken := w.inner.takeDetached entry
    let paged := (taken.1.bind paged?).toList
    { w with inner := taken.2, adopted := w.adopted ++ paged.map fun set => (adopter, set) }
  | .evictIfNeeded o now now' => { w with inner := (w.inner.evictIfNeeded o now now').2 }
  | .evictOneLru o => { w with inner := (w.inner.evictOneLru o).2 }
  | .releaseSession o sessionKey => { w with inner := (w.inner.releaseSession o sessionKey).2 }
  | .drainPendingPagedReleases =>
    let out := w.inner.drainPendingPagedReleases
    { w with inner := out.2, drained := w.drained ++ [out.1] }

/-- The world after a sequence of calls on a new store. -/
def run : World δ π :=
  ops.foldl step (init config)

/-- The counters can hold what the call adds. -/
def Fits (s : Inner δ π) : Op δ π → Prop
  | .insert _ key _ sizeBytes _ _ =>
    Accepts s.config key sizeBytes s.config.capacityBytes →
      residentBytes (s.entries.erase key.digest) + sizeBytes ≤ usizeMax
  | .insertSnapshot _ key entry =>
    Accepts s.config key entry.sizeBytes s.config.snapshotCapacityBytes →
      residentSnapshotBytes (s.snapshots.erase key.digest) + entry.sizeBytes ≤ usizeMax
  | _ => True

/-- The store has its configuration and is well-formed, and cells, queue, adopters and drains
together have what was passed. -/
structure Conserved (config : PromptCacheConfig) (w : World δ π) : Prop where
  config_eq : w.inner.config = config
  ok : Ok none w.inner
  passed_eq : (w.passed : Multiset π)
    = w.inner.pins + (w.adopted.map Prod.snd : Multiset π) + (w.drained.flatten : Multiset π)

/-- A new entry has a loose cell that holds its set. -/
lemma newEntry_spec (s : Inner δ π) (tokens : List Token) (sizeBytes : ℕ)
    (set : DetachedKvSet δ π) (now : Instant) :
    (Ok none s → Ok (some s.cells.length) (s.newEntry tokens sizeBytes set now).2) ∧
      (s.newEntry tokens sizeBytes set now).2.pins
        = s.pins + (set.paged?.toList : Multiset π) := by
  have hcells : (s.newEntry tokens sizeBytes set now).2.cells = s.cells ++ [⟨some set, now⟩] := rfl
  refine ⟨?_, ?_⟩
  · intro hs
    have hlt : ∀ {d slot}, s.entries.lookup d = some slot →
        slot.entry.cell < (s.newEntry tokens sizeBytes set now).2.cells.length := by
      intro d slot h
      rw [hcells, length_append]
      exact Nat.lt_add_right _ (hs.cell_lt h)
    refine ⟨hlt, hs.cell_inj, ?_, ?_, ?_, hs.indexed, hs.hashed⟩
    · simp [hcells]
    · intro i hi d slot h
      rw [mem_def, some.injEq] at hi
      rw [← hi]
      exact (hs.cell_lt h).ne
    · intro i set' hset
      by_cases hi : i < s.cells.length
      · rw [pagedAt, hcells, getElem?_append_left hi] at hset
        exact .inr ((hs.owned hset).resolve_left (by simp))
      · rw [pagedAt, hcells, bind_eq_some_iff] at hset
        obtain ⟨cell, hcell, _⟩ := hset
        have hlen := (List.getElem?_eq_some_iff.mp hcell).1
        rw [length_append, length_singleton] at hlen
        exact .inl (congrArg some (by omega : s.cells.length = i))
  · have hset : ([⟨some set, now⟩] : List (Cell δ π)).filterMap Cell.paged?
        = set.paged?.toList := by
      cases set with
      | dense set => rfl
      | paged set => rfl
    rw [pins, pins, hcells, filterMap_append, hset, ← Multiset.coe_add]
    abel

variable {w : World δ π}

/-- **One call** keeps every passed set in one place. -/
theorem conserved_step {config : PromptCacheConfig} (h : Conserved config w) (op : Op δ π) :
    Conserved config (w.step op) := by
  have hkeeps : ∀ {s : Inner δ π}, Keeps w.inner s → Conserved config { w with inner := s } := by
    intro s hs
    exact ⟨hs.config_eq.trans h.config_eq, hs.ok h.ok, by rw [h.passed_eq, ← hs.pins_eq]⟩
  cases op with
  | insert o key tokens sizeBytes set now =>
    obtain ⟨hok, hpins⟩ := newEntry_spec w.inner tokens sizeBytes set now
    obtain ⟨hok', hpins', hconfig, _⟩ :=
      @insert_spec _ _ _ (w.inner.newEntry tokens sizeBytes set now).1 key o (hok h.ok)
    refine ⟨hconfig.trans h.config_eq, hok', ?_⟩
    simp only [step]
    rw [hpins', hpins, ← Multiset.coe_add, h.passed_eq]
    abel
  | insertSnapshot o key entry =>
    obtain ⟨hok, hpins, hconfig, _⟩ := @insertSnapshot_spec _ _ w.inner key o entry
    exact ⟨hconfig.trans h.config_eq, hok h.ok, h.passed_eq.trans (by rw [← hpins]; rfl)⟩
  | lookupLongestPrefix o key tokens now touched =>
    exact hkeeps (upkeep_keeps.lookupLongestPrefix o w.inner key tokens now touched)
  | lookupSnapshotPrefix o key tokens now touched =>
    exact hkeeps (upkeep_keeps.lookupSnapshotPrefix o w.inner key tokens now touched)
  | takeDetached adopter entry =>
    obtain ⟨hsame, hpaged, _, hpins⟩ := takeDetached_spec w.inner entry
    refine ⟨hsame.config_eq.trans h.config_eq, hsame.ok ?_ h.ok, ?_⟩
    · intro i set hset
      rw [hpaged] at hset
      split_ifs at hset
      exact hset
    · simp only [step, map_append, List.map_map, Function.comp_def, List.map_id']
      rw [h.passed_eq, ← hpins, ← Multiset.coe_add]
      abel
  | evictIfNeeded o now now' => exact hkeeps (upkeep_keeps.evictIfNeeded o w.inner now now')
  | evictOneLru o => exact hkeeps (upkeep_keeps.evictOldest o w.inner)
  | releaseSession o sessionKey => exact hkeeps (upkeep_keeps.releaseSession o w.inner sessionKey)
  | drainPendingPagedReleases =>
    have hout : w.inner.drainPendingPagedReleases
        = (w.inner.pendingPagedReleases.filterMap paged?,
          { w.inner with pendingPagedReleases := [] }) := rfl
    refine ⟨h.config_eq, ⟨h.ok.1, h.ok.2, h.ok.3, h.ok.4, h.ok.5, h.ok.6, h.ok.7⟩, ?_⟩
    simp only [step, hout, flatten_append, flatten_cons, flatten_nil,
      append_nil]
    rw [h.passed_eq, ← Multiset.coe_add]
    simp only [pins]
    abel

/-- **One call** keeps the counters exact if they can hold what it adds. -/
theorem bytesExact_step (h : Ok none w.inner) {op : Op δ π} (hfits : Fits w.inner op)
    (hexact : BytesExact w.inner) : BytesExact (w.step op).inner := by
  cases op with
  | insert o key tokens sizeBytes set now =>
    have hnew : BytesExact (w.inner.newEntry tokens sizeBytes set now).2 := ⟨hexact.1, hexact.2⟩
    exact (insert_spec ((newEntry_spec w.inner tokens sizeBytes set now).1 h)).2.2.2 hfits hnew
  | insertSnapshot o key entry => exact insertSnapshot_spec.2.2.2 hfits hexact
  | lookupLongestPrefix o key tokens now touched =>
    exact (upkeep_keeps.lookupLongestPrefix o w.inner key tokens now touched).bytesExact hexact
  | lookupSnapshotPrefix o key tokens now touched =>
    exact (upkeep_keeps.lookupSnapshotPrefix o w.inner key tokens now touched).bytesExact hexact
  | takeDetached adopter entry => exact (takeDetached_spec w.inner entry).1.bytesExact hexact
  | evictIfNeeded o now now' =>
    exact (upkeep_keeps.evictIfNeeded o w.inner now now').bytesExact hexact
  | evictOneLru o => exact (upkeep_keeps.evictOldest o w.inner).bytesExact hexact
  | releaseSession o sessionKey =>
    exact (upkeep_keeps.releaseSession o w.inner sessionKey).bytesExact hexact
  | drainPendingPagedReleases => exact ⟨hexact.1, hexact.2⟩

lemma run_concat (op : Op δ π) : run config (ops ++ [op]) = (run config ops).step op := by
  rw [run, foldl_append]
  rfl

lemma conserved_run : Conserved config (run config ops) := by
  induction ops using reverseRecOn with
  | nil =>
    refine ⟨rfl, ⟨?_, ?_, ?_, ?_, ?_, ?_, ?_⟩, rfl⟩
    all_goals simp [run, init, Inner.new, pagedAt, storedIn]
  | append_singleton ops op ih =>
    rw [run_concat]
    exact conserved_step ih op

lemma bytesExact_run (hfits : ∀ before op after, ops = before ++ op :: after →
      Fits (run config before).inner op) : BytesExact (run config ops).inner := by
  induction ops using reverseRecOn with
  | nil => exact ⟨rfl, rfl⟩
  | append_singleton ops op ih =>
    rw [run_concat]
    exact bytesExact_step (conserved_run config ops).ok (hfits ops op [] rfl)
      (ih (Calls.forall_calls_append hfits))

end World

namespace Inner

/-- The paged sets in the resident entries. -/
def resident (s : Inner δ π) : List π :=
  s.entries.entries.filterMap fun e => s.pagedAt e.2.entry.cell

/-- The paged sets that wait for release. -/
def pending (s : Inner δ π) : List π := s.pendingPagedReleases.filterMap paged?

variable {α β : Type}

lemma filterMap_eq_range (f : α → Option β) (l : List α) :
    l.filterMap f = (range l.length).filterMap fun i => l[i]?.bind f := by
  induction l with
  | nil => rfl
  | cons a l ih =>
    rw [length_cons, range_succ_eq_map, filterMap_cons, filterMap_cons,
      filterMap_map, ih]
    rfl

lemma filterMap_perm (f : α → Option β) {l l' : List α} (hl : l.Nodup) (hl' : l'.Nodup)
    (hmem : ∀ a, (f a).isSome → (a ∈ l ↔ a ∈ l')) :
    (l.filterMap f).Perm (l'.filterMap f) := by
  have hfilter : ∀ k : List α, k.filterMap f = (k.filter fun a => (f a).isSome).filterMap f := by
    intro k
    rw [filterMap_filter]
    refine filterMap_congr fun a _ => ?_
    cases f a <;> rfl
  rw [hfilter l, hfilter l']
  refine .filterMap f ((perm_ext_iff_of_nodup (hl.filter _) (hl'.filter _)).mpr ?_)
  intro a
  rw [mem_filter, mem_filter]
  exact and_congr_left (hmem a)

/-- The cells hold what the resident entries hold. -/
lemma resident_perm {s : Inner δ π} (hs : Ok none s) :
    (s.cells.filterMap Cell.paged?).Perm s.resident := by
  have hlookup : ∀ e ∈ s.entries.entries, s.entries.lookup e.1 = some e.2 :=
    fun e he => mem_lookup_iff.mpr he
  have hcells : (s.entries.entries.map fun e => e.2.entry.cell).Nodup := by
    refine (nodup_map_iff_inj_on (NodupKeys.nodup s.entries.nodupKeys)).mpr ?_
    intro e he e' he' hcell
    have hkey := hs.cell_inj (hlookup e he) (hlookup e' he') hcell
    have hslot := hlookup e he
    rw [hkey, hlookup e' he', some.injEq] at hslot
    exact Sigma.ext hkey (heq_of_eq hslot.symm)
  have hresident : s.resident
      = (s.entries.entries.map fun e => e.2.entry.cell).filterMap s.pagedAt := by
    rw [filterMap_map]
    rfl
  have hparked : s.cells.filterMap Cell.paged?
      = (range s.cells.length).filterMap s.pagedAt := filterMap_eq_range _ _
  rw [hresident, hparked]
  refine filterMap_perm s.pagedAt nodup_range hcells fun i hi => ?_
  -- A cell with a paged set belongs to an entry, and an entry's cell exists.
  obtain ⟨set, hset⟩ := isSome_iff_exists.mp hi
  rw [mem_range, List.mem_map]
  constructor
  · intro _
    obtain ⟨d, slot, hslot, hcell⟩ := (hs.owned hset).resolve_left (by simp)
    exact ⟨⟨d, slot⟩, mem_lookup_iff.mp hslot, hcell⟩
  · rintro ⟨e, he, rfl⟩
    exact hs.cell_lt (hlookup e he)

end Inner

namespace World

/-- **Conservation.** After every sequence of calls, the paged sets passed to `insert` are those of
the resident entries, those that wait for release, those that adopters took and those that past
drains returned, each as often as it was passed. The byte counters are the resident sums as long
as they could hold them, and the tries index exactly the resident entries, each in its own
bucket. -/
theorem pins_conserved (config : PromptCacheConfig) (ops : List (Op δ π)) :
    (run config ops).passed.Perm
        ((run config ops).inner.resident ++ (run config ops).inner.pending
          ++ (run config ops).adopted.map Prod.snd ++ (run config ops).drained.flatten) ∧
      ((∀ before op after, ops = before ++ op :: after → Fits (run config before).inner op) →
        (run config ops).inner.totalBytes = residentBytes (run config ops).inner.entries ∧
          (run config ops).inner.snapshotBytes
            = residentSnapshotBytes (run config ops).inner.snapshots) ∧
      ∀ bucket tokens digest, (tokens, digest) ∈ (run config ops).inner.storedIn bucket ↔
        ∃ slot, (run config ops).inner.entries.lookup digest = some slot ∧
          slot.sessionless = bucket ∧ slot.entry.tokens = tokens := by
  have h := conserved_run config ops
  refine ⟨?_, ?_, fun bucket tokens digest => h.ok.indexed⟩
  · have hresident : ((run config ops).inner.cells.filterMap Cell.paged? : Multiset π)
        = (run config ops).inner.resident := Multiset.coe_eq_coe.mpr (resident_perm h.ok)
    have hpins := h.passed_eq
    rw [pins, hresident] at hpins
    exact Multiset.coe_eq_coe.mp hpins
  · intro hfits
    have hexact := bytesExact_run config ops hfits
    exact ⟨hexact.totalBytes_eq, hexact.snapshotBytes_eq⟩

/-- A store as large as `usize` allows, without hash chains. -/
def hugeConfig : PromptCacheConfig :=
  { enabled := true, capacityBytes := usizeMax, maxEntries := 8, ttl := 0, minPrefixTokens := 0
    apc := { enabled := false, blockSize := 16, hash := .sha256 }
    snapshotCapacityBytes := usizeMax, snapshotMaxEntries := 8, snapshotTtl := 0 }

/-- Iteration in the order of insertion. -/
def insertionOrder : HashOrder := ⟨id, fun _ => Perm.refl _⟩

def oneKey (token : Token) : PromptCacheKey :=
  { modelId := "m", loraId := none, templateSig := "t", sessionKey := none
    mmDigest := Digest.zero, tokens := [token], prefixLen := 1 }

/-- The insert of a paged set under the one-token key of `token`. -/
def insertOne (token : Token) (sizeBytes set : ℕ) : Op Unit ℕ :=
  .insert insertionOrder (oneKey token) [token] sizeBytes (.paged set) 0

/-- Two entries of `2 ^ 63` bytes: the counter stops at `usize::MAX`. -/
theorem totalBytes_saturates :
    (run hugeConfig [insertOne 1 (2 ^ 63) 7, insertOne 2 (2 ^ 63) 8]).inner.totalBytes
      ≠ residentBytes
        (run hugeConfig [insertOne 1 (2 ^ 63) 7, insertOne 2 (2 ^ 63) 8]).inner.entries := by
  decide +kernel

/-- An entry is replaced, an adopter takes the set of another one, a third one is evicted, and a drain
comes between. -/
def replacingRun : List (Op Unit ℕ) :=
  [insertOne 1 5 7, insertOne 1 6 8, .drainPendingPagedReleases, insertOne 2 4 9,
    .takeDetached 3 ⟨[2], 4, none, 2⟩, insertOne 3 2 10, .evictOneLru insertionOrder]

theorem pins_conserved_replacingRun :
    ∃ w, w = run hugeConfig replacingRun ∧ w.inner.resident = [8] ∧ w.inner.pending = [10] ∧
      w.adopted = [(3, 9)] ∧ w.drained = [[7]] ∧ w.passed.Perm [8, 10, 9, 7] ∧
      w.inner.totalBytes = residentBytes w.inner.entries := by
  have heval : (run hugeConfig replacingRun).inner.resident = [8] ∧
      (run hugeConfig replacingRun).inner.pending = [10] ∧
      (run hugeConfig replacingRun).adopted = [(3, 9)] ∧
      (run hugeConfig replacingRun).drained = [[7]] := by
    decide +kernel
  obtain ⟨hresident, hpending, hadopted, hdrained⟩ := heval
  have h := pins_conserved hugeConfig replacingRun
  refine ⟨_, rfl, hresident, hpending, hadopted, hdrained, ?_, (h.2.1 ?_).1⟩
  · have hpassed := h.1
    rw [hresident, hpending, hadopted, hdrained] at hpassed
    exact hpassed
  · rw [replacingRun]
    simp only [Calls.forall_calls_cons]
    refine ⟨fun _ => ?_, fun _ => ?_, trivial, fun _ => ?_, trivial, fun _ => ?_, trivial, by simp⟩
    all_goals decide +kernel

end World

end Mlxcel.PromptCache
