import Mlxcel.PromptCache.Key
import Mlxcel.PromptCache.TrieMatch
import Mathlib.Data.List.AList
import Mathlib.Data.List.MinMax

/-!
# The prompt-cache store

`Inner` is the state behind the lock of the store: the entries under their digests, a trie for each
bucket, the snapshots, the two byte counters and the queue of paged sets that wait for release. The
functions are those of `store.rs`, with the state passed along.

**Shared entries.** A lookup hands out an `Arc` of an entry that may later leave the store. The
two fields of an entry that change, its detached set and its last use, sit behind mutexes that all
holders share. Here they are a `Cell`, the state has all cells, and an entry names its own.

**Hash maps.** A map is an association list without duplicate keys. Where the source iterates over
a hash map, a `HashOrder` decides on the order, and every function that iterates takes one.

**Time.** Each function that reads the clock takes what it read.

The counters and metrics of the source are not modelled; no function reads them.
-/

namespace Mlxcel.PromptCache

/-- Nanoseconds on the monotonic clock. -/
abbrev Instant := ℕ

def usizeMax : ℕ := 2 ^ 64 - 1

def saturatingAdd (a b : ℕ) : ℕ := min (a + b) usizeMax

/-- An order of iteration over hash maps. -/
structure HashOrder where
  order : {α : Type} → List α → List α
  perm : ∀ {α : Type} (l : List α), (order l).Perm l

inductive DetachedKvSet (δ π : Type)
  | dense (set : δ)
  | paged (set : π)

/-- What sits behind the mutexes of an entry. -/
structure Cell (δ π : Type) where
  detached : Option (DetachedKvSet δ π)
  lastUsed : Instant

structure CacheEntry where
  tokens : List Token
  sizeBytes : ℕ
  apcBlockHashes : Option (List ApcBlockHash)
  cell : ℕ
deriving DecidableEq

structure EntrySlot where
  entry : CacheEntry
  bucket : BucketKey
  sessionless : SessionlessBucketKey
deriving DecidableEq

structure ModelSnapshotEntry where
  tokens : List Token
  lastUsed : Instant
  sizeBytes : ℕ
deriving DecidableEq

structure SnapshotSlot where
  entry : ModelSnapshotEntry
  bucket : BucketKey
  sessionless : SessionlessBucketKey
deriving DecidableEq

structure Inner (δ π : Type) where
  config : PromptCacheConfig
  entries : AList fun _ : PromptCacheKeyDigest => EntrySlot
  tries : AList fun _ : SessionlessBucketKey => RadixTrie
  snapshots : AList fun _ : PromptCacheKeyDigest => SnapshotSlot
  totalBytes : ℕ
  snapshotBytes : ℕ
  pendingPagedReleases : List (DetachedKvSet δ π)
  cells : List (Cell δ π)

inductive InsertError
  | disabled
  | prefixTooShort (got minRequired : ℕ)
  | oversizedEntry (entryBytes capacityBytes : ℕ)
deriving DecidableEq

namespace Inner

variable {δ π : Type}

def new (config : PromptCacheConfig) : Inner δ π := ⟨config, ∅, ∅, ∅, 0, 0, [], []⟩

/-! ## Entries and their cells -/

variable (o : HashOrder) (s : Inner δ π) (key : PromptCacheKey) (entry : CacheEntry)

/-- `CacheEntry::new`: an entry with a cell of its own. -/
def newEntry (tokens : List Token) (sizeBytes : ℕ) (set : DetachedKvSet δ π)
    (now : Instant) : CacheEntry × Inner δ π :=
  (⟨tokens, sizeBytes, none, s.cells.length⟩, { s with cells := s.cells ++ [⟨some set, now⟩] })

def takeDetached : Option (DetachedKvSet δ π) × Inner δ π :=
  match s.cells[entry.cell]? with
  | none => (none, s)
  | some cell =>
    (cell.detached, { s with cells := s.cells.set entry.cell { cell with detached := none } })

def hasDetached : Bool :=
  (s.cells[entry.cell]?).any fun cell => cell.detached.isSome

def lastUsed (s : Inner δ π) (entry : CacheEntry) : Instant :=
  (s.cells[entry.cell]?).elim 0 fun cell => cell.lastUsed

def touch (now : Instant) : Inner δ π :=
  { s with cells := s.cells.modify entry.cell fun cell => { cell with lastUsed := now } }

/-! ## Removal -/

/-- A paged set is queued for the owner of the pool. A dense set is freed where it drops. -/
def stashPagedPinsForRelease : Inner δ π :=
  match s.takeDetached entry with
  | (some (.paged set), s) =>
    { s with pendingPagedReleases := s.pendingPagedReleases ++ [.paged set] }
  | (_, s) => s

/-- The digest leaves the trie of the bucket, and an empty trie leaves the map. -/
def removeFromTrie (sessionless : SessionlessBucketKey) (tokens : List Token)
    (digest : PromptCacheKeyDigest) : Inner δ π :=
  match s.tries.lookup sessionless with
  | none => s
  | some trie =>
    let trie := (trie.remove tokens digest).1
    if trie.len = 0 then { s with tries := s.tries.erase sessionless }
    else { s with tries := s.tries.insert sessionless trie }

def removeEntry (digest : PromptCacheKeyDigest) : Option (BucketKey × CacheEntry) × Inner δ π :=
  match s.entries.lookup digest with
  | none => (none, s)
  | some slot =>
    let s := { s with
      entries := s.entries.erase digest
      totalBytes := s.totalBytes - slot.entry.sizeBytes }
    let s := s.stashPagedPinsForRelease slot.entry
    let s := s.removeFromTrie slot.sessionless slot.entry.tokens digest
    (some (slot.bucket, slot.entry), s)

def removeSnapshot (digest : PromptCacheKeyDigest) :
    Option (BucketKey × ModelSnapshotEntry) × Inner δ π :=
  match s.snapshots.lookup digest with
  | none => (none, s)
  | some slot =>
    (some (slot.bucket, slot.entry), { s with
      snapshots := s.snapshots.erase digest
      snapshotBytes := s.snapshotBytes - slot.entry.sizeBytes })

section Remove

variable {α : Type} (remove : Inner δ π → PromptCacheKeyDigest → Option (BucketKey × α) × Inner δ π)
  (sizeBytes : α → ℕ)

/-- Remove what is under the listed digests. Returns its bytes and its number. -/
def removeAll : Inner δ π → List PromptCacheKeyDigest → (ℕ × ℕ) × Inner δ π
  | s, [] => ((0, 0), s)
  | s, digest :: digests =>
    match remove s digest with
    | (none, s) => removeAll s digests
    | (some (_, entry), s) =>
      let rest := removeAll s digests
      ((sizeBytes entry + rest.1.1, rest.1.2 + 1), rest.2)

/-- Remove what is under the digest, if there is one. Returns its bytes. -/
def evictDigest (s : Inner δ π) : Option PromptCacheKeyDigest → ℕ × Inner δ π
  | none => (0, s)
  | some digest =>
    match remove s digest with
    | (some (_, entry), s) => (sizeBytes entry, s)
    | (none, s) => (0, s)

end Remove

def removeEntries : Inner δ π → List PromptCacheKeyDigest → (ℕ × ℕ) × Inner δ π :=
  removeAll removeEntry CacheEntry.sizeBytes

def removeSnapshots : Inner δ π → List PromptCacheKeyDigest → (ℕ × ℕ) × Inner δ π :=
  removeAll removeSnapshot ModelSnapshotEntry.sizeBytes

/-! ## Sweeps and caps -/

def sweepTtl (now : Instant) (s : Inner δ π) : (ℕ × ℕ) × Inner δ π :=
  if s.config.ttl = 0 ∨ s.entries.entries = [] then ((0, 0), s)
  else
    let stale := ((o.order s.entries.entries).filter fun e =>
      decide (s.config.ttl ≤ now - s.lastUsed e.2.entry)).map Sigma.fst
    let removed := s.removeEntries stale
    ((removed.1.1, stale.length), removed.2)

def sweepSnapshotTtl (now : Instant) (s : Inner δ π) : (ℕ × ℕ) × Inner δ π :=
  if s.config.snapshotTtl = 0 ∨ s.snapshots.entries = [] then ((0, 0), s)
  else
    let stale := ((o.order s.snapshots.entries).filter fun e =>
      decide (s.config.snapshotTtl ≤ now - e.2.entry.lastUsed)).map Sigma.fst
    let removed := s.removeSnapshots stale
    ((removed.1.1, stale.length), removed.2)

/-- Remove the entries whose detached set was taken by an adopter. -/
def sweepDrained : (ℕ × ℕ) × Inner δ π :=
  if s.entries.entries = [] then ((0, 0), s)
  else
    let drained := ((o.order s.entries.entries).filter fun e =>
      !s.hasDetached e.2.entry).map Sigma.fst
    let removed := s.removeEntries drained
    ((removed.1.1, drained.length), removed.2)

/-- Evict the first of the least recently used entries. Returns its bytes. -/
def evictOldest : ℕ × Inner δ π :=
  evictDigest removeEntry CacheEntry.sizeBytes s
    (((o.order s.entries.entries).argmin fun e => s.lastUsed e.2.entry).map Sigma.fst)

def evictOldestSnapshot : ℕ × Inner δ π :=
  evictDigest removeSnapshot ModelSnapshotEntry.sizeBytes s
    (((o.order s.snapshots.entries).argmin fun e => e.2.entry.lastUsed).map Sigma.fst)

/-- One loop of `enforce_caps`: evict while a cap is exceeded, and stop when nothing was freed. -/
def evictWhile (exceeded : Inner δ π → Bool) (evict : Inner δ π → ℕ × Inner δ π) :
    ℕ → Inner δ π → ℕ × Inner δ π
  | 0, s => (0, s)
  | fuel + 1, s =>
    if exceeded s then
      let evicted := evict s
      if evicted.1 = 0 then (0, evicted.2)
      else
        let rest := evictWhile exceeded evict fuel evicted.2
        (evicted.1 + rest.1, rest.2)
    else (0, s)

/-- Every round but the last removes an entry, so that the loops end within their bounds. -/
def enforceCaps : ℕ × Inner δ π :=
  let byCount := evictWhile (fun s => s.config.maxEntries < s.entries.entries.length)
    (evictOldest o) (s.entries.entries.length + 1) s
  let byBytes := evictWhile (fun s => s.config.capacityBytes < s.totalBytes)
    (evictOldest o) (byCount.2.entries.entries.length + 1) byCount.2
  (byCount.1 + byBytes.1, byBytes.2)

def enforceSnapshotCaps : ℕ × Inner δ π :=
  let byCount := evictWhile (fun s => s.config.snapshotMaxEntries < s.snapshots.entries.length)
    (evictOldestSnapshot o) (s.snapshots.entries.length + 1) s
  let byBytes := evictWhile (fun s => s.config.snapshotCapacityBytes < s.snapshotBytes)
    (evictOldestSnapshot o) (byCount.2.snapshots.entries.length + 1) byCount.2
  (byCount.1 + byBytes.1, byBytes.2)

/-! ## Insertion -/

/-- The entry as it is stored: with its block hashes when automatic prefix caching is on. -/
def withApcBlockHashes (config : PromptCacheConfig) (key : PromptCacheKey) (entry : CacheEntry) :
    CacheEntry :=
  if config.apcEnabled then
    let hashes := blockHashChain entry.tokens config.apc.blockSize config.apc.hash key.mmDigest
    { entry with apcBlockHashes := some hashes }
  else entry

/-- The entry is added to the map and to the trie of its bucket. -/
def addEntry : Inner δ π :=
  let sessionless := SessionlessBucketKey.fromKey key
  let trie := (s.tries.lookup sessionless).getD RadixTrie.empty
  { s with
    totalBytes := saturatingAdd s.totalBytes entry.sizeBytes
    entries := s.entries.insert key.digest ⟨entry, BucketKey.fromKey key, sessionless⟩
    tries := s.tries.insert sessionless (trie.insert entry.tokens key.digest) }

def insert : Except InsertError Unit × Inner δ π :=
  if s.config.isEnabled = false then
    (.error .disabled, s.stashPagedPinsForRelease entry)
  else if key.effectivePrefixLen < s.config.minPrefixTokens then
    (.error (.prefixTooShort key.effectivePrefixLen s.config.minPrefixTokens),
      s.stashPagedPinsForRelease entry)
  else if s.config.capacityBytes < entry.sizeBytes then
    (.error (.oversizedEntry entry.sizeBytes s.config.capacityBytes),
      s.stashPagedPinsForRelease entry)
  else
    let s := (s.removeEntry key.digest).2
    let s := s.addEntry key (withApcBlockHashes s.config key entry)
    (.ok (), (s.enforceCaps o).2)

def insertSnapshot (entry : ModelSnapshotEntry) : Except InsertError Unit × Inner δ π :=
  if s.config.isEnabled = false then (.error .disabled, s)
  else if key.effectivePrefixLen < s.config.minPrefixTokens then
    (.error (.prefixTooShort key.effectivePrefixLen s.config.minPrefixTokens), s)
  else if s.config.snapshotCapacityBytes < entry.sizeBytes then
    (.error (.oversizedEntry entry.sizeBytes s.config.snapshotCapacityBytes), s)
  else
    let s := (s.removeSnapshot key.digest).2
    let s := { s with
      snapshotBytes := saturatingAdd s.snapshotBytes entry.sizeBytes
      snapshots := s.snapshots.insert key.digest
        ⟨entry, BucketKey.fromKey key, SessionlessBucketKey.fromKey key⟩ }
    (.ok (), (s.enforceSnapshotCaps o).2)

/-! ## Selection -/

end Inner

structure BestCandidate where
  digest : PromptCacheKeyDigest
  matched : ℕ
  lastUsed : Instant
deriving DecidableEq

/-- A longer match wins, then the more recent one. -/
def BestCandidate.beats (a b : BestCandidate) : Bool :=
  if a.matched ≠ b.matched then b.matched < a.matched else b.lastUsed < a.lastUsed

/-- The candidate that a tier holds after one more was seen. -/
def keepBest (best : Option BestCandidate) (candidate : BestCandidate) : BestCandidate :=
  match best with
  | none => candidate
  | some existing => if candidate.beats existing then candidate else existing

/-- One candidate is seen. It comes with whether it is of the session of the caller, and the two
tiers are kept apart. -/
def considerCandidate (best : Option BestCandidate × Option BestCandidate)
    (candidate : Bool × BestCandidate) : Option BestCandidate × Option BestCandidate :=
  if candidate.1 then (some (keepBest best.1 candidate.2), best.2)
  else (best.1, some (keepBest best.2 candidate.2))

/-- The other session wins only with a strictly longer match. -/
def preferSession : Option BestCandidate → Option BestCandidate → Option BestCandidate
  | some same, some other => if same.matched < other.matched then some other else some same
  | some same, none => some same
  | none, other => other

/-- What both selections do with the candidates that pass their filters. -/
def selectCandidate (candidates : List (Bool × BestCandidate)) : Option BestCandidate :=
  let best := candidates.foldl considerCandidate (none, none)
  preferSession best.1 best.2

namespace Inner

variable {δ π : Type}

def sameSession (slot : EntrySlot) (key : PromptCacheKey) : Bool :=
  match slot.bucket.sessionKey, key.sessionKey with
  | some a, some b => a = b
  | none, none => true
  | _, _ => false

variable (o : HashOrder) (s : Inner δ π) (key : PromptCacheKey) (tokens : List Token)
  (minLen : ℕ) (apcPartialAllowed : Bool)

/-- The candidate that `select_best` makes of a digest below the matched subtree. -/
def trieCandidate (matchDepth : ℕ) (dl : DigestAndLen) : Option (Bool × BestCandidate) :=
  match s.entries.lookup dl.digest with
  | none => none
  | some slot =>
    let matched := min matchDepth dl.tokenLen
    if s.hasDetached slot.entry = false then none
    else if tokens.length < dl.tokenLen ∧ apcPartialAllowed = false then none
    else if apcPartialAllowed = false ∧ matched ≠ dl.tokenLen then none
    else if matched < minLen then none
    else some (sameSession slot key, ⟨dl.digest, matched, s.lastUsed slot.entry⟩)

def selectBest (trie : RadixTrie) (key : PromptCacheKey)
    (tokens : List Token) (minLen : ℕ) (apcPartialAllowed : Bool) : Option BestCandidate :=
  match trie.findLongestPrefix tokens minLen with
  | none => none
  | some found => selectCandidate ((o.order found.candidates).filterMap
      (s.trieCandidate key tokens minLen apcPartialAllowed found.depth))

/-- The candidate that the scan makes of an entry. -/
def scanCandidate (e : Sigma fun _ : PromptCacheKeyDigest => EntrySlot) :
    Option (Bool × BestCandidate) :=
  let slot := e.2
  let tokenLen := slot.entry.tokens.length
  let common :=
    if apcPartialAllowed then CommonPrefix.commonPrefixLen slot.entry.tokens tokens else tokenLen
  if slot.sessionless ≠ SessionlessBucketKey.fromKey key ∨ s.hasDetached slot.entry = false then
    none
  else if tokenLen < minLen then none
  else if apcPartialAllowed = false ∧
      (tokens.length < tokenLen ∨ slot.entry.tokens ≠ tokens.take tokenLen) then none
  else if common < minLen then none
  else some (sameSession slot key, ⟨e.1, common, s.lastUsed slot.entry⟩)

def selectBestByScan : Option BestCandidate :=
  selectCandidate ((o.order s.entries.entries).filterMap
    (s.scanCandidate key tokens minLen apcPartialAllowed))

/-- The winner of the trie, or of the scan when the trie has none. -/
def bestCandidate (trie : RadixTrie) (key : PromptCacheKey)
    (tokens : List Token) : Option BestCandidate :=
  (s.selectBest o trie key tokens s.config.minPrefixTokens s.config.apcEnabled).or
    (s.selectBestByScan o key tokens s.config.minPrefixTokens s.config.apcEnabled)

/-- The matched length that is reported for a winner: clamped by the block hashes of the entry if
automatic prefix caching is on and the entry has any. -/
def verifiedLen (config : PromptCacheConfig) (key : PromptCacheKey) (tokens : List Token)
    (entry : CacheEntry) (matched : ℕ) : ℕ :=
  match if config.apcEnabled then entry.apcBlockHashes else none with
  | some hashes => apcConsistentPrefixLen tokens hashes config.apc.blockSize config.apc.hash
      key.mmDigest matched
  | none => matched

/-- The state that a lookup selects from: without drained and expired entries. -/
def sweepForLookup (now : Instant) (s : Inner δ π) : Inner δ π :=
  (sweepTtl o now (sweepDrained o s).2).2

/-- `lookup_longest_prefix`, which reads the clock for the sweep and for the touch. -/
def lookupLongestPrefix (now touched : Instant) : Option (CacheEntry × ℕ) × Inner δ π :=
  if s.config.isEnabled = false then (none, s)
  else
    let s := s.sweepForLookup o now
    match s.tries.lookup (SessionlessBucketKey.fromKey key) with
    | none => (none, s)
    | some trie =>
      match s.bestCandidate o trie key tokens with
      | none => (none, s)
      | some winner =>
        match s.entries.lookup winner.digest with
        | none => (none, s)
        | some slot =>
          let matched := verifiedLen s.config key tokens slot.entry winner.matched
          if matched < s.config.minPrefixTokens then (none, s)
          else (some (slot.entry, matched), s.touch slot.entry touched)

/-! ## Snapshots -/

/-- A snapshot that a lookup may restore: of the bucket and the session of the key, and with all
its tokens at the start of the request. -/
def snapshotMatches (slot : SnapshotSlot) : Bool :=
  decide (slot.sessionless = SessionlessBucketKey.fromKey key) &&
    decide (slot.bucket.sessionKey = key.sessionKey) &&
    decide (minLen ≤ slot.entry.tokens.length) &&
    decide (slot.entry.tokens.length ≤ tokens.length) &&
    decide (slot.entry.tokens = tokens.take slot.entry.tokens.length)

/-- The longest match, and of equally long ones the most recent. -/
def betterSnapshot (best : Option (Sigma fun _ : PromptCacheKeyDigest => SnapshotSlot))
    (e : Sigma fun _ : PromptCacheKeyDigest => SnapshotSlot) :
    Option (Sigma fun _ : PromptCacheKeyDigest => SnapshotSlot) :=
  match best with
  | none => some e
  | some b =>
    if b.2.entry.tokens.length < e.2.entry.tokens.length ∨
        (e.2.entry.tokens.length = b.2.entry.tokens.length ∧
          b.2.entry.lastUsed < e.2.entry.lastUsed) then some e
    else some b

def lookupSnapshotPrefix (now touched : Instant) : Option (ModelSnapshotEntry × ℕ) × Inner δ π :=
  if s.config.isEnabled = false then (none, s)
  else
    let s := (s.sweepSnapshotTtl o now).2
    let best := ((o.order s.snapshots.entries).filter fun e =>
      snapshotMatches key tokens s.config.minPrefixTokens e.2).foldl betterSnapshot none
    match best with
    | none => (none, s)
    | some e =>
      let entry := { e.2.entry with lastUsed := touched }
      (some (entry, entry.tokens.length),
        { s with snapshots := s.snapshots.insert e.1 { e.2 with entry := entry } })

/-! ## Eviction and release -/

/-- `evict_if_needed`, which reads the clock twice. -/
def evictIfNeeded (now now' : Instant) : ℕ × Inner δ π :=
  if s.config.isEnabled = false then (0, s)
  else
    let drained := s.sweepDrained o
    let expired := drained.2.sweepTtl o now
    let capped := expired.2.enforceCaps o
    let expiredSnapshots := capped.2.sweepSnapshotTtl o now'
    let cappedSnapshots := expiredSnapshots.2.enforceSnapshotCaps o
    (drained.1.1 + expired.1.1 + capped.1 + expiredSnapshots.1.1 + cappedSnapshots.1,
      cappedSnapshots.2)

def evictOneLru : ℕ × Inner δ π := s.evictOldest o

inductive ReleaseStatus
  | releasedNow
  | nothingMatched
  | refusedSharedBucket
deriving DecidableEq

structure ReleaseOutcome where
  status : ReleaseStatus
  matchedEntries : ℕ
  matchedSnapshots : ℕ
  releasedBytes : ℕ
deriving DecidableEq

/-- Remove all entries and snapshots of a session. The bucket shared by all callers without a
session is refused. -/
def releaseSession (sessionKey : String) : ReleaseOutcome × Inner δ π :=
  if sessionKey = "" ∨ sessionKey = anonymousSessionSentinel then
    (⟨.refusedSharedBucket, 0, 0, 0⟩, s)
  else
    let entryDigests := ((o.order s.entries.entries).filter fun e =>
      decide (e.2.bucket.sessionKey = some sessionKey)).map Sigma.fst
    let snapshotDigests := ((o.order s.snapshots.entries).filter fun e =>
      decide (e.2.bucket.sessionKey = some sessionKey)).map Sigma.fst
    let entries := s.removeEntries entryDigests
    let snapshots := entries.2.removeSnapshots snapshotDigests
    let status := if 0 < entries.1.2 + snapshots.1.2 then ReleaseStatus.releasedNow
      else .nothingMatched
    (⟨status, entries.1.2, snapshots.1.2, saturatingAdd entries.1.1 snapshots.1.1⟩, snapshots.2)

/-- The paged sets that wait for release are handed to the owner of the pool. -/
def drainPendingPagedReleases : List π × Inner δ π :=
  (s.pendingPagedReleases.filterMap fun set =>
    match set with
    | .paged set => some set
    | .dense _ => none,
    { s with pendingPagedReleases := [] })

end Inner

end Mlxcel.PromptCache
