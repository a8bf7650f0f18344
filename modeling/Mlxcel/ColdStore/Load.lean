import Mlxcel.ColdStore.Store
import Mlxcel.Lib.CommonPrefix
import Mathlib.Data.List.TakeWhile

/-!
# Loading a prefix from the cold store

This file models `load_prefix_longer_than` with everything below it that reads blocks, and shows
that a load is fail-closed on identity: the state it offers for the first `n` tokens of a request
was stored for exactly these tokens, whatever the directories contain.

**The three ways a load can end with a result.**
* Tier 1, `exactLookup`: the floor covers every whole block of the request, so only a manifest of
  the whole request can be longer, and its address is computed;
* the scan, `scan`: every committed manifest with the request's identity is a candidate, its
  matched length is the number of leading block hashes it shares with the request, and the
  candidates above the floor are tried from the longest to the shortest.

In both cases `assembleBlocks` has to accept the manifest: it reads every block, re-derives the
block hashes from the tokens in the block headers and compares them with the manifest.

**What is assumed of the hash.** `CollisionFree sha S` says that `sha` has no collision on `S` and
sends nothing of `S` to the zero digest that chains start from. `loadPreimages` collects what a
load hashes: the chain and the address of the request, and those of the manifests on disk.
-/

namespace Mlxcel.ColdStore

open List Text Chunks HashChain Digest Option Fallible

section Load

variable {κ : Type} (sha : List UInt8 → Digest)
  (readKvCache : List UInt8 → ℕ → Outcome κ) (mergeLayer : List κ → ℕ → Int32 → Outcome κ)

/-! ## Blocks -/

/-- The file of one layer, numbered with four digits. -/
def layerFileName (index : ℕ) : String :=
  let digits := toString index
  "layer_" ++ String.ofList (List.replicate (4 - digits.length) '0') ++ digits ++ ".bin"

def readLayer (node : Node) (metadata : LayerMetadata) (expectedIndex : ℕ) : Outcome κ :=
  if metadata.index ≠ expectedIndex then
    throw (invalidData (s!"block header layer slot {expectedIndex} declares index " ++
      s!"{metadata.index} — the layer table is out of order or corrupted, and the payload read " ++
      "below would be attributed to the wrong layer"))
  else do
    let bytes ← node.readFile (layerFileName expectedIndex)
    if bytes.length ≠ metadata.byteLen then
      throw (invalidData s!"layer {expectedIndex} length mismatch")
    else if sha bytes ≠ metadata.sha256 then
      throw (invalidData s!"layer {expectedIndex} checksum mismatch")
    else
      readKvCache bytes expectedIndex

variable (store : BlockColdStore) (disk : Disk) (manifest : Manifest) (request : LoadRequest)
  (requestHashes : List Digest)

/-- The header of a block, checked against the address it was asked for under. -/
def readHeader (blockHash : Digest) : Outcome (Node × BlockHeader) :=
  match lookup disk.blocks (hexDigest blockHash) with
  | none => throw (.err .noMatch)
  | some node => do
    let bytes ← node.readFile "header.bin"
    let header ← decodeBlockHeader bytes
    if header.blockHash ≠ blockHash then throw (invalidData "block hash mismatch")
    else return (node, header)

def readBlock (blockHash : Digest) : Outcome (List Token × DetachedCacheSet κ) := do
  let (node, header) ← readHeader disk blockHash
  let caches ← header.layers.zipIdx.mapM fun layer =>
    readLayer sha readKvCache node layer.1 layer.2
  return (header.tokens, ⟨caches, header.tokenCount, Int32.ofNat header.tokenCount⟩)

/-- The address check: the stored tokens have to re-derive the block hashes of the manifest. -/
def verifyManifestAddresses (storedTokens : List Token) (kvModeConfig : String) : Outcome Unit := do
  let rederived ← computeBlockHashes sha storedTokens manifest.blockSize kvModeConfig
  if rederived = manifest.blockHashes then
    return ()
  else
    let firstBad := (rederived.zip manifest.blockHashes).findIdx? fun p => p.1 != p.2
    let divergence := match firstBad with
      | some i => toString i
      | none => "length"
    throw (invalidData ("the stored token list does not re-derive this manifest's block " ++
      s!"addresses (manifest {manifest.blockHashes.length} blocks / {manifest.totalTokens} " ++
      s!"tokens, re-derived {rederived.length} blocks from {storedTokens.length} stored tokens; " ++
      s!"first divergence at block {divergence}). The payload bytes may be perfectly intact — " ++
      "what failed is the claim that they belong to THESE tokens. Adopting this state would " ++
      "attach a KV prefix to a conversation it did not come from."))

/-- The layer-wise join of blocks that have been read. -/
def mergeReadBlocks (blocks : List (DetachedCacheSet κ)) (manifest : Manifest) :
    Outcome (DetachedCacheSet κ) :=
  match blocks with
  | [] => throw (invalidData "merge_read_blocks: no blocks")
  | first :: _ =>
    let layerCount := first.caches.length
    match blocks.zipIdx.find? fun b => b.1.caches.length != layerCount with
    | some (b, i) =>
      throw (invalidData (s!"assemble_blocks: block {i} has {b.caches.length} layers but " ++
        s!"block 0 has {layerCount} — the manifest mixes structurally incompatible blocks"))
    | none => do
      let caches ← (List.range layerCount).mapM fun layerIdx =>
        mergeLayer (blocks.filterMap fun b => b.caches[layerIdx]?) layerIdx
          (Int32.ofNat manifest.totalTokens)
      return ⟨caches, manifest.promptLen, Int32.ofNat manifest.totalTokens⟩

def assembleBlocks (kvModeConfig : String) : Outcome (DetachedCacheSet κ) :=
  if manifest.blockHashes.isEmpty then
    throw (invalidData "manifest has no blocks")
  else do
    let read ← manifest.blockHashes.mapM (readBlock sha readKvCache disk)
    verifyManifestAddresses sha manifest (read.flatMap Prod.fst) kvModeConfig
    mergeReadBlocks mergeLayer (read.map Prod.snd) manifest

/-! ## The load -/

structure LoadRequest where
  modelId : String
  templateSig : String
  tokens : List Token
  plan : LayerPlan
  floorTokens : ℕ

/-- What a load serves: the cache set and the matched length that it returns, and the manifest
that its log line names. -/
structure Served (κ : Type) where
  manifest : Manifest
  cacheSet : DetachedCacheSet κ
  matchedTokens : ℕ
deriving DecidableEq, Repr

def LoadRequest.cacheId : String :=
  cacheComputationId sha store.runtimeFingerprint request.plan

/-- Tier 1: one addressed read of the manifest of the whole request. -/
def exactLookup : Outcome (Option (Served κ)) := do
  let exact := Manifest.hashOf sha store.runtimeFingerprint request.modelId request.templateSig
    requestHashes
  match ← attempt (readManifest sha disk exact) with
  | .error _ => return none
  | .ok manifest =>
    match ← attempt (assembleBlocks sha readKvCache mergeLayer disk manifest
        (request.cacheId sha store)) with
    | .ok cacheSet => return some ⟨manifest, cacheSet, request.tokens.length⟩
    | .error _ => return none

/-- The number of leading block hashes that a manifest shares with the request. -/
def matchedBlocks : ℕ :=
  ((manifest.blockHashes.zip requestHashes).takeWhile fun p => p.1 == p.2).length

/-- What one entry of the manifests directory contributes to the scan. -/
def candidate (entry : Entry) : Outcome (Option (Manifest × ℕ)) := do
  match ← attempt (committedManifestHash entry) with
  | .error _ => return none
  | .ok none => return none
  | .ok (some manifestHash) =>
    match ← attempt (readManifest sha disk manifestHash) with
    | .error _ => return none
    | .ok manifest =>
      if manifest.runtimeFingerprint ≠ store.runtimeFingerprint ∨
          manifest.modelId ≠ request.modelId ∨ manifest.templateSig ≠ request.templateSig then
        return none
      else
        let matched := matchedBlocks manifest requestHashes
        if matched = 0 then return none
        else return some (manifest, matched * store.blockSize)

/-- The candidates of a listing, in its order. -/
def candidates (store : BlockColdStore) (disk : Disk) (request : LoadRequest)
    (requestHashes : List Digest) : List Entry → Outcome (List (Manifest × ℕ))
  | [] => return []
  | entry :: entries => do
    let first ← candidate sha store disk request requestHashes entry
    let rest ← candidates store disk request requestHashes entries
    return first.toList ++ rest

/-- Longer matches first, and among equal ones the most recent manifest first. -/
def rankedBefore (a b : Manifest × ℕ) : Prop :=
  b.2 < a.2 ∨ b.2 = a.2 ∧ b.1.timestampNanos ≤ a.1.timestampNanos

instance : DecidableRel rankedBefore := fun a b => by
  unfold rankedBefore
  infer_instance

/-- The first candidate that can be assembled. -/
def firstServed (store : BlockColdStore) (disk : Disk) (request : LoadRequest) :
    List (Manifest × ℕ) → Outcome (Option (Served κ))
  | [] => throw (.err .noMatch)
  | (manifest, matched) :: rest => do
    match ← attempt (assembleBlocks sha readKvCache mergeLayer disk manifest
        (request.cacheId sha store)) with
    | .ok cacheSet => return some ⟨manifest, cacheSet, min matched request.tokens.length⟩
    | .error _ => firstServed store disk request rest

/-- The candidates that can beat the floor, in the order in which they are tried. -/
def ranked (found : List (Manifest × ℕ)) : List (Manifest × ℕ) :=
  (found.insertionSort rankedBefore).filter fun c =>
    request.floorTokens < min c.2 request.tokens.length

/-- The scan of every manifest, with the floor filter. -/
def scan (entries : List Entry) : Outcome (Option (Served κ)) := do
  let found ← candidates sha store disk request requestHashes entries
  if (ranked request found).isEmpty then
    if found.isEmpty then throw (.err .noMatch) else return none
  else
    firstServed sha readKvCache mergeLayer store disk request (ranked request found)

def loadPrefixLongerThan : Outcome (Option (Served κ)) :=
  if request.tokens.length ≤ request.floorTokens then
    return none
  else
    match disk.manifests with
    | none => throw (.err .noMatch)
    | some entries => do
      let requestHashes ← computeBlockHashes sha request.tokens store.blockSize
        (request.cacheId sha store)
      let wholeBlockCeiling := request.tokens.length / store.blockSize * store.blockSize
      if wholeBlockCeiling ≤ request.floorTokens then
        exactLookup sha readKvCache mergeLayer store disk request requestHashes
      else
        scan sha readKvCache mergeLayer store disk request requestHashes entries

/-! ## What an accepted manifest has passed -/

/-- The tokens in the headers of a manifest's blocks, in order. -/
def storedTokens : Outcome (List Token) := do
  let headers ← manifest.blockHashes.mapM (readHeader disk)
  return headers.flatMap fun h => h.2.tokens

lemma readBlock_eq_ok {disk : Disk} {h : Digest} {block : List Token × DetachedCacheSet κ}
    (hb : readBlock sha readKvCache disk h = .ok block) :
    ∃ node header, readHeader disk h = .ok (node, header) ∧ block.1 = header.tokens := by
  simp only [readBlock, bind_eq_ok] at hb
  obtain ⟨⟨node, header⟩, hheader, caches, _, hblock⟩ := hb
  rw [pure_eq_ok] at hblock
  exact ⟨node, header, hheader, by rw [← hblock]⟩

/-- Reading the blocks reads their headers, and the tokens come from there. -/
lemma headers_of_readBlocks {disk : Disk} :
    ∀ {hashes : List Digest} {read : List (List Token × DetachedCacheSet κ)},
      hashes.mapM (readBlock sha readKvCache disk) = .ok read →
      ∃ headers, hashes.mapM (readHeader disk) = .ok headers ∧
        headers.flatMap (fun h => h.2.tokens) = read.flatMap Prod.fst := by
  intro hashes
  induction hashes with
  | nil =>
    intro read hread
    rw [mapM_nil, pure_eq_ok] at hread
    exact ⟨[], by rfl, by rw [← hread]; rfl⟩
  | cons h hashes ih =>
    intro read hread
    simp only [mapM_cons, bind_eq_ok] at hread
    obtain ⟨block, hblock, rest, hrest, hread⟩ := hread
    obtain ⟨node, header, hheader, htokens⟩ := readBlock_eq_ok sha readKvCache hblock
    obtain ⟨headers, hheaders, hflat⟩ := ih hrest
    refine ⟨(node, header) :: headers, ?_, ?_⟩
    · simp only [mapM_cons, bind_eq_ok]
      exact ⟨_, hheader, _, hheaders, rfl⟩
    · rw [pure_eq_ok] at hread
      rw [← hread, flatMap_cons, flatMap_cons, hflat, htokens]

variable {m : Manifest}

/-- **Nothing is assembled before the address check.** The tokens in the block headers re-derive
the block hashes of an assembled manifest, of which there is at least one. -/
lemma assembleBlocks_eq_ok {disk : Disk} {cfg : String} {set : DetachedCacheSet κ}
    (h : assembleBlocks sha readKvCache mergeLayer disk m cfg = .ok set) :
    m.blockHashes ≠ [] ∧ ∃ T, storedTokens disk m = .ok T ∧
      computeBlockHashes sha T m.blockSize cfg = .ok m.blockHashes := by
  rw [assembleBlocks] at h
  split_ifs at h with hempty
  simp only [bind_eq_ok] at h
  obtain ⟨read, hread, _, hverify, _⟩ := h
  obtain ⟨headers, hheaders, hflat⟩ := headers_of_readBlocks sha readKvCache hread
  refine ⟨by simpa using hempty, read.flatMap Prod.fst, ?_, ?_⟩
  · simp only [storedTokens, bind_eq_ok]
    exact ⟨headers, hheaders, by rw [hflat]; rfl⟩
  · simp only [verifyManifestAddresses, bind_eq_ok] at hverify
    obtain ⟨rederived, hrederived, hcheck⟩ := hverify
    split_ifs at hcheck with heq
    · rw [hrederived, heq]

/-! ## What equal block hashes say about the tokens -/

/-- `sha` has no collision on `S`, and sends nothing of `S` to the digest that chains start
from. -/
structure CollisionFree (S : Set (List UInt8)) : Prop where
  injOn : Set.InjOn sha S
  ne_zero : ∀ x ∈ S, sha x ≠ zero

section Chains

variable {sha} {S : Set (List UInt8)} {cfg : String} {bs bs' : ℕ} {T U : List Token}
  {hs rs : List Digest}

lemma computeBlockHashes_eq_ok (h : computeBlockHashes sha T bs cfg = .ok hs) :
    0 < bs ∧ hs = chain sha (blockPreimage bs cfg) zero (chunks bs T) := by
  rw [computeBlockHashes] at h
  split_ifs at h with hbs
  rw [pure_eq_ok, chainChunks_eq] at h
  exact ⟨Nat.pos_of_ne_zero hbs, h.symm⟩

lemma length_chunk_lt_of_mem {own : List Token} (hbs : bs < 256 ^ 8) (h : own ∈ chunks bs T) :
    own.length < 256 ^ 8 :=
  lt_of_le_of_lt (length_le_of_mem_chunks h) hbs

/-- Under one configuration, equal links have equal block sizes, predecessors and chunks. -/
lemma blockPreimage_link_inj (hbs : bs < 256 ^ 8) (hbs' : bs' < 256 ^ 8) :
    ∀ p q, ∀ own ∈ chunks bs T, ∀ own' ∈ chunks bs' U,
      blockPreimage bs cfg p own = blockPreimage bs' cfg q own' →
      bs = bs' ∧ p = q ∧ own = own' := by
  intro p q own hown own' hown' h
  rcases blockPreimage_inj (P := True) hbs hbs' (length_chunk_lt_of_mem hbs hown)
    (length_chunk_lt_of_mem hbs' hown') (fun x y hxy => ⟨trivial, append_cancel_left hxy⟩) h
    with ⟨hpq, hsize, _, hown⟩
  exact ⟨hsize, hpq, hown⟩

variable (hsha : CollisionFree sha S) (hT : computeBlockHashes sha T bs cfg = .ok hs)
  (hU : computeBlockHashes sha U bs' cfg = .ok rs)
  (hTS : ∀ x ∈ blockPreimages sha T bs cfg, x ∈ S)
  (hUS : ∀ x ∈ blockPreimages sha U bs' cfg, x ∈ S) (hbs : bs < 256 ^ 8) (hbs' : bs' < 256 ^ 8)

include hsha hT hU hTS hUS hbs hbs'

variable {d : Digest}

/-- Two chains that agree at an index have the same block size and the same chunks up to it. -/
lemma chunks_eq_of_hash_eq {i : ℕ} (hi : hs[i]? = some d) (hi' : rs[i]? = some d) :
    bs = bs' ∧ ∀ j ≤ i, (chunks bs T)[j]? = (chunks bs' U)[j]? := by
  rw [(computeBlockHashes_eq_ok hT).2] at hi
  rw [(computeBlockHashes_eq_ok hU).2] at hi'
  exact chain_inj hsha.injOn hTS hUS (blockPreimage_link_inj hbs hbs') hi hi'

/-- A digest recurs in another chain only at the index where it stands. -/
lemma index_eq_of_hash_eq {i j : ℕ} (hi : hs[i]? = some d) (hj : rs[j]? = some d) : i = j := by
  rw [(computeBlockHashes_eq_ok hT).2] at hi
  rw [(computeBlockHashes_eq_ok hU).2] at hj
  exact chain_index_inj hsha.injOn hsha.ne_zero hTS hUS
    (fun p q b hb c hc h => (blockPreimage_link_inj hbs hbs' p q b hb c hc h).2.1) hi hj

/-- Chains that end in the same digest come from the same tokens. -/
lemma tokens_eq_of_getLast_eq (hlast : hs.getLast? = some d) (hlast' : rs.getLast? = some d) :
    bs = bs' ∧ T = U := by
  rw [getLast?_eq_getElem?] at hlast hlast'
  have hindex := index_eq_of_hash_eq hsha hT hU hTS hUS hbs hbs' hlast hlast'
  rw [← hindex] at hlast'
  obtain ⟨hsize, hchunks⟩ := chunks_eq_of_hash_eq hsha hT hU hTS hUS hbs hbs' hlast hlast'
  subst hsize
  refine ⟨rfl, eq_of_chunks_eq (computeBlockHashes_eq_ok hT).1 ?_⟩
  have hlenT : hs.length = (chunks bs T).length := by
    rw [(computeBlockHashes_eq_ok hT).2, length_chain]
  have hlenU : rs.length = (chunks bs U).length := by
    rw [(computeBlockHashes_eq_ok hU).2, length_chain]
  apply ext_getElem?
  intro j
  rcases Nat.lt_or_ge (hs.length - 1) j with hj | hj
  · rw [getElem?_eq_none (by omega), getElem?_eq_none (by omega)]
  · exact hchunks j hj

end Chains

/-! ## Where a served result comes from -/

lemma attempt_eq_ok_ok {α : Type} {x : Outcome α} {a : α} :
    attempt x = .ok (.ok a) ↔ x = .ok a := by
  rcases x with (e | message) | a'
  all_goals simp [attempt]

/-- Up to the matched length, manifest and request have the same block hashes. -/
lemma getElem?_of_lt_matchedBlocks {rs : List Digest} {j : ℕ} (h : j < matchedBlocks m rs) :
    ∃ d, m.blockHashes[j]? = some d ∧ rs[j]? = some d := by
  obtain ⟨hlt, -, htake⟩ := CommonPrefix.le_commonPrefixLen_iff.mp h
  have hsame := congrArg (·[j]?) htake
  simp only [getElem?_take_of_lt (Nat.lt_succ_self j)] at hsame
  have hget := getElem?_eq_getElem hlt
  exact ⟨_, hget, hsame.symm.trans hget⟩

section Provenance

variable {sha} {readKvCache} {mergeLayer} {store : BlockColdStore} {disk : Disk}
  {request : LoadRequest} {rs : List Digest}

/-- A candidate is a readable manifest of the request's identity, with its matched length. -/
structure IsCandidate (sha : List UInt8 → Digest) (store : BlockColdStore) (disk : Disk)
    (request : LoadRequest) (rs : List Digest) (c : Manifest × ℕ) : Prop where
  readable : ∃ h, readManifest sha disk h = .ok c.1
  runtimeFingerprint_eq : c.1.runtimeFingerprint = store.runtimeFingerprint
  modelId_eq : c.1.modelId = request.modelId
  templateSig_eq : c.1.templateSig = request.templateSig
  matched_pos : 0 < matchedBlocks c.1 rs
  length_eq : c.2 = matchedBlocks c.1 rs * store.blockSize

variable {c : Manifest × ℕ}

lemma candidate_eq_some {entry : Entry}
    (h : candidate sha store disk request rs entry = .ok (some c)) :
    IsCandidate sha store disk request rs c ∧ ∃ a, committedManifestHash entry = .ok (some a) ∧
      readManifest sha disk a = .ok c.1 := by
  simp only [candidate, bind_eq_ok] at h
  obtain ⟨committed, hcommitted, h⟩ := h
  rcases committed with e | (_ | manifestHash)
  · simp at h
  · simp at h
  · simp only [bind_eq_ok] at h
    obtain ⟨result, hresult, h⟩ := h
    cases result with
    | error e => simp at h
    | ok m =>
      rw [attempt_eq_ok_ok] at hcommitted hresult
      simp only at h
      split_ifs at h with hid hmatched
      · simp at h
      · simp at h
      · simp only [not_or, not_not] at hid
        rw [pure_eq_ok, some.injEq] at h
        subst h
        exact ⟨⟨⟨_, hresult⟩, hid.1, hid.2.1, hid.2.2, Nat.pos_of_ne_zero hmatched, rfl⟩,
          manifestHash, hcommitted, hresult⟩

lemma exists_entry_of_mem_candidates :
    ∀ {entries : List Entry} {found : List (Manifest × ℕ)},
      candidates sha store disk request rs entries = .ok found → c ∈ found →
      ∃ entry ∈ entries, candidate sha store disk request rs entry = .ok (some c) := by
  intro entries
  induction entries with
  | nil =>
    intro found h hc
    rw [candidates, pure_eq_ok] at h
    rw [← h] at hc
    exact absurd hc not_mem_nil
  | cons entry entries ih =>
    intro found h hc
    simp only [candidates, bind_eq_ok] at h
    obtain ⟨first, hfirst, rest, hrest, h⟩ := h
    rw [pure_eq_ok] at h
    rw [← h, mem_append, mem_toList] at hc
    rcases hc with hc | hc
    · exact ⟨entry, mem_cons_self, hc ▸ hfirst⟩
    · obtain ⟨e, he, hcand⟩ := ih hrest hc
      exact ⟨e, mem_cons_of_mem _ he, hcand⟩

variable {entries : List Entry} {found : List (Manifest × ℕ)}

lemma isCandidate_of_mem_candidates (h : candidates sha store disk request rs entries = .ok found)
    (hc : c ∈ found) :
    IsCandidate sha store disk request rs c := by
  obtain ⟨_, _, hcand⟩ := exists_entry_of_mem_candidates h hc
  exact (candidate_eq_some hcand).1

variable {served : Served κ}

lemma firstServed_eq_some : ∀ {kept : List (Manifest × ℕ)},
      firstServed sha readKvCache mergeLayer store disk request kept = .ok (some served) →
      ∃ matched, (served.manifest, matched) ∈ kept ∧
        assembleBlocks sha readKvCache mergeLayer disk served.manifest (request.cacheId sha store)
          = .ok served.cacheSet ∧
        served.matchedTokens = min matched request.tokens.length := by
  intro kept
  induction kept with
  | nil => intro h; exact absurd h throw_ne_ok
  | cons c kept ih =>
    intro h
    obtain ⟨m, matched⟩ := c
    simp only [firstServed, bind_eq_ok] at h
    obtain ⟨result, hresult, h⟩ := h
    cases result with
    | error e =>
      obtain ⟨matched', hmem, hrest⟩ := ih h
      exact ⟨matched', mem_cons_of_mem _ hmem, hrest⟩
    | ok set =>
      rw [attempt_eq_ok_ok] at hresult
      rw [pure_eq_ok, some.injEq] at h
      subst h
      exact ⟨matched, mem_cons_self, hresult, rfl⟩

lemma mem_ranked : c ∈ ranked request found ↔
      c ∈ found ∧ request.floorTokens < min c.2 request.tokens.length := by
  rw [ranked, mem_filter, mem_insertionSort, decide_eq_true_eq]

lemma scan_eq_some
    (h : scan sha readKvCache mergeLayer store disk request rs entries = .ok (some served)) :
    ∃ matched, IsCandidate sha store disk request rs (served.manifest, matched) ∧
      assembleBlocks sha readKvCache mergeLayer disk served.manifest (request.cacheId sha store)
        = .ok served.cacheSet ∧
      served.matchedTokens = min matched request.tokens.length ∧
      request.floorTokens < served.matchedTokens := by
  simp only [scan, bind_eq_ok] at h
  obtain ⟨found, hfound, h⟩ := h
  split_ifs at h
  · simp at h
  · obtain ⟨matched, hmem, hset, hlen⟩ := firstServed_eq_some h
    rw [mem_ranked] at hmem
    exact ⟨matched, isCandidate_of_mem_candidates hfound hmem.1, hset, hlen, hlen ▸ hmem.2⟩

lemma exactLookup_eq_some
    (h : exactLookup sha readKvCache mergeLayer store disk request rs = .ok (some served)) :
    readManifest sha disk (Manifest.hashOf sha store.runtimeFingerprint request.modelId
        request.templateSig rs) = .ok served.manifest ∧
      assembleBlocks sha readKvCache mergeLayer disk served.manifest (request.cacheId sha store)
        = .ok served.cacheSet ∧
      served.matchedTokens = request.tokens.length := by
  simp only [exactLookup, bind_eq_ok] at h
  obtain ⟨read, hread, h⟩ := h
  cases read with
  | error e => simp at h
  | ok m =>
    simp only [bind_eq_ok] at h
    obtain ⟨result, hresult, h⟩ := h
    cases result with
    | error e => simp at h
    | ok set =>
      rw [attempt_eq_ok_ok] at hread hresult
      rw [pure_eq_ok, some.injEq] at h
      subst h
      exact ⟨hread, hresult, rfl⟩

/-! ## Fail-closed loads -/

/-- The tuple of the manifest that would hold the whole request. -/
def LoadRequest.exactKey (store : BlockColdStore) (request : LoadRequest) (rs : List Digest) :
    ManifestKey :=
  ⟨store.runtimeFingerprint, request.modelId, request.templateSig, rs⟩

/-- What a load hashes into block and manifest addresses: for the request, and for the manifests
on disk that can be read. -/
def loadPreimages (sha : List UInt8 → Digest) (store : BlockColdStore) (disk : Disk)
    (request : LoadRequest) : Set (List UInt8) :=
  {x | x ∈ blockPreimages sha request.tokens store.blockSize (request.cacheId sha store) ∨
    (∃ rs, computeBlockHashes sha request.tokens store.blockSize (request.cacheId sha store)
      = .ok rs ∧ x = (request.exactKey store rs).preimage) ∨
    ∃ h m, readManifest sha disk h = .ok m ∧ (x = m.key.preimage ∨
      ∃ T, storedTokens disk m = .ok T ∧
        x ∈ blockPreimages sha T m.blockSize (request.cacheId sha store))}

section Matched

variable (hsha : CollisionFree sha (loadPreimages sha store disk request))
  (hrs : computeBlockHashes sha request.tokens store.blockSize (request.cacheId sha store)
    = .ok rs) {m : Manifest} {T : List Token} {h : Digest}
  (hread : readManifest sha disk h = .ok m) (hT : storedTokens disk m = .ok T)
  (hhashes : computeBlockHashes sha T m.blockSize (request.cacheId sha store)
    = .ok m.blockHashes) (hmatched : 0 < matchedBlocks m rs)

include hsha hrs hread hT hhashes hmatched

/-- An assembled manifest that matches a block of the request has the block size of the store, and
the matched chunks of its tokens are those of the request. -/
lemma chunks_eq_of_matched : m.blockSize = store.blockSize ∧ ∀ j < matchedBlocks m rs,
      (chunks m.blockSize T)[j]? = (chunks store.blockSize request.tokens)[j]? := by
  have hsize : m.blockSize < 256 ^ 8 :=
    lt_of_le_of_lt (readManifest_eq_ok sha hread).2.1 (by decide)
  obtain ⟨d, hd, hd'⟩ := getElem?_of_lt_matchedBlocks (Nat.sub_lt hmatched Nat.one_pos)
  rcases chunks_eq_of_hash_eq hsha hhashes hrs
    (fun x hx => .inr (.inr ⟨h, m, hread, .inr ⟨T, hT, hx⟩⟩)) (fun x hx => .inl hx)
    hsize store.blockSize_lt hd hd' with ⟨hbs, hchunks⟩
  exact ⟨hbs, fun j hj => hchunks j (by omega)⟩

/-- The tokens of an assembled manifest agree with the request over the matched blocks. -/
lemma take_eq_of_matched : T.take (matchedBlocks m rs * store.blockSize)
      = request.tokens.take (matchedBlocks m rs * store.blockSize) := by
  obtain ⟨hbs, hchunks⟩ := chunks_eq_of_matched hsha hrs hread hT hhashes hmatched
  refine take_eq_of_chunks_eq (computeBlockHashes_eq_ok hrs).1 fun j hj => ?_
  rw [← hchunks j hj, hbs]

end Matched

/-- The tokens of a manifest assembled from the exact address are the request. -/
lemma eq_of_exact (hsha : CollisionFree sha (loadPreimages sha store disk request))
    (hrs : computeBlockHashes sha request.tokens store.blockSize (request.cacheId sha store)
      = .ok rs) (hne : request.tokens ≠ []) {m : Manifest} {T : List Token}
    (hread : readManifest sha disk (Manifest.hashOf sha store.runtimeFingerprint request.modelId
      request.templateSig rs) = .ok m) (hT : storedTokens disk m = .ok T)
    (hempty : m.blockHashes ≠ [])
    (hhashes : computeBlockHashes sha T m.blockSize (request.cacheId sha store)
      = .ok m.blockHashes) : m.blockSize = store.blockSize ∧ T = request.tokens := by
  obtain ⟨hhash, hle, _⟩ := readManifest_eq_ok sha hread
  have hpre : m.key.preimage = (request.exactKey store rs).preimage :=
    hsha.injOn (.inr (.inr ⟨_, m, hread, .inl rfl⟩)) (.inr (.inl ⟨rs, hrs, rfl⟩)) hhash
  obtain ⟨hpos, hchain⟩ := computeBlockHashes_eq_ok hrs
  have hrsne : rs ≠ [] := by
    intro hnil
    have hlen := congrArg List.length (hchain.symm.trans hnil)
    rw [length_chain, length_nil] at hlen
    have hfirst := (lt_length_chunks_iff hpos request.tokens 0).mpr
      (by simpa using length_pos_of_ne_nil hne)
    omega
  -- The two strings end in the last digest of either chain.
  have hlast : m.blockHashes.getLast hempty = rs.getLast hrsne := by
    have hsplit : ∀ k : ManifestKey, ∀ hk : k.blockHashes ≠ [], k.preimage =
        (k.runtimeFingerprint.bytes ++ utf8 k.modelId ++ utf8 k.templateSig ++
          k.blockHashes.dropLast.flatMap bytes) ++ (k.blockHashes.getLast hk).bytes := by
      intro k hk
      conv_lhs => rw [ManifestKey.preimage, ManifestKey.body,
        ← dropLast_append_getLast hk]
      simp
    rw [hsplit m.key hempty, hsplit (request.exactKey store rs) hrsne] at hpre
    exact bytes_injective (append_inj_right' hpre (by simp))
  exact tokens_eq_of_getLast_eq hsha hhashes hrs
    (fun x hx => .inr (.inr ⟨_, m, hread, .inr ⟨T, hT, hx⟩⟩)) (fun x hx => .inl hx)
    (lt_of_le_of_lt hle (by decide)) store.blockSize_lt
    (getLast?_eq_some_getLast hempty) (hlast ▸ getLast?_eq_some_getLast hrsne)

/-- **A load never offers state for a prefix it was not computed from.** Whatever is on disk, the
served manifest was read from it and assembled, the matched length is above the floor and within
the request, and over that length the tokens stored in the manifest's block headers are the tokens
of the request. -/
theorem loadPrefixLongerThan_fail_closed (store : BlockColdStore) (disk : Disk)
    (request : LoadRequest) (served : Served κ)
    (hsha : CollisionFree sha (loadPreimages sha store disk request))
    (h : loadPrefixLongerThan sha readKvCache mergeLayer store disk request
      = .ok (some served)) :
    readManifest sha disk (served.manifest.hash sha) = .ok served.manifest ∧
    assembleBlocks sha readKvCache mergeLayer disk served.manifest (request.cacheId sha store)
      = .ok served.cacheSet ∧
    request.floorTokens < served.matchedTokens ∧
    served.matchedTokens ≤ request.tokens.length ∧
    ∃ T, storedTokens disk served.manifest = .ok T ∧ served.matchedTokens ≤ T.length ∧
      T.take served.matchedTokens = request.tokens.take served.matchedTokens := by
  rw [loadPrefixLongerThan] at h
  split_ifs at h with hfloor
  · simp at h
  · split at h
    · exact absurd h throw_ne_ok
    · simp only [bind_eq_ok] at h
      obtain ⟨rs, hrs, h⟩ := h
      split_ifs at h with hceiling
      · -- Tier 1: the manifest of the whole request
        obtain ⟨hread, hset, hlen⟩ := exactLookup_eq_some h
        obtain ⟨hempty, T, hT, hhashes⟩ :=
          assembleBlocks_eq_ok sha readKvCache mergeLayer hset
        have hne : request.tokens ≠ [] := by
          intro hnil
          rw [hnil] at hfloor
          exact hfloor (Nat.zero_le _)
        obtain ⟨_, htokens⟩ := eq_of_exact hsha hrs hne hread hT hempty hhashes
        refine ⟨?_, hset, by omega, hlen.le, T, hT, ?_, ?_⟩
        · rw [(readManifest_eq_ok sha hread).1]
          exact hread
        · rw [htokens, hlen]
        · rw [htokens]
      · obtain ⟨matched, hcand, hset, hlen, habove⟩ := scan_eq_some h
        obtain ⟨_, hread⟩ := hcand.readable
        obtain ⟨_, T, hT, hhashes⟩ := assembleBlocks_eq_ok sha readKvCache mergeLayer hset
        have htake := take_eq_of_matched hsha hrs hread hT hhashes hcand.matched_pos
        rw [← hcand.length_eq] at htake
        have hprefix : T.take served.matchedTokens
            = request.tokens.take served.matchedTokens := by
          have := congrArg (List.take served.matchedTokens) htake
          rwa [take_take, take_take, Nat.min_eq_left (by omega)] at this
        refine ⟨?_, hset, habove, by omega, T, hT, ?_, hprefix⟩
        · rw [(readManifest_eq_ok sha hread).1]
          exact hread
        · have := congrArg List.length hprefix
          simp only [length_take] at this
          omega

end Provenance

end Load

/-! ## A small store

A disk with one manifest, of one block of at most two tokens without layers. -/

/-- A store with blocks of two tokens. -/
def twoTokenStore : BlockColdStore := ⟨zero, 2, two_lt_two_pow⟩

def sampleId : String := cacheComputationId sha256 zero []

def sampleHashes (tokens : List Token) : List Digest :=
  chainChunks sha256 2 sampleId zero (chunks 2 tokens)

def sampleManifest (modelId templateSig : String) (tokens : List Token) : Manifest :=
  ⟨zero, modelId, templateSig, 2, sampleHashes tokens, tokens.length, tokens.length, 7⟩

def sampleBytes (m : Manifest) : List UInt8 :=
  match encodeManifest m with
  | .ok bytes => bytes
  | .error _ => []

def sampleDisk (m : Manifest) (tokens : List Token) : Disk where
  blocks := some (m.blockHashes.map fun h => ⟨hexDigest h, .dir [("header.bin",
    encodeBlockHeader ⟨4, h, tokens.length, tokens, 0, []⟩)]⟩)
  manifests := some [⟨hexDigest (m.hash sha256), .dir [("manifest.bin", sampleBytes m)]⟩]
  epoch := none

/-- What a load from the small store hashes. -/
def sampleStrings (m : Manifest) (stored : List Token) (request : LoadRequest) :
    List (List UInt8) :=
  blockPreimages sha256 request.tokens 2 (request.cacheId sha256 twoTokenStore) ++
    (request.exactKey twoTokenStore (chainChunks sha256 2 (request.cacheId sha256 twoTokenStore)
      zero (chunks 2 request.tokens))).preimage ::
    m.key.preimage ::
    blockPreimages sha256 stored m.blockSize (request.cacheId sha256 twoTokenStore)

variable {tokens : List Token}

lemma eq_of_readManifest_sample {m m' : Manifest} {h : Digest}
    (hdec : decodeManifest (sampleBytes m) = .ok m)
    (hm : readManifest sha256 (sampleDisk m tokens) h = .ok m') : m' = m := by
  rw [readManifest] at hm
  split at hm
  · exact absurd hm throw_ne_ok
  · rename_i node hnode
    have hentry : node = .dir [("manifest.bin", sampleBytes m)] := by
      simp only [lookup, sampleDisk, bind_some, find?_cons, map_eq_some_iff] at hnode
      obtain ⟨entry, hentry, rfl⟩ := hnode
      split at hentry
      · rw [← some.inj hentry]
      · exact absurd hentry (by simp)
    subst hentry
    simp only [bind_eq_ok] at hm
    obtain ⟨bytes, hbytes, m'', hm'', hm⟩ := hm
    have hbytes : sampleBytes m = bytes := pure_eq_ok.mp hbytes
    rw [← hbytes, hdec, Except.ok.injEq] at hm''
    split_ifs at hm
    rw [pure_eq_ok] at hm
    rw [← hm, hm'']

/-- The strings of a load from the small store are the listed ones. -/
lemma sample_collisionFree {m : Manifest} {request : LoadRequest}
    (hdec : decodeManifest (sampleBytes m) = .ok m)
    (hstored : storedTokens (sampleDisk m tokens) m = .ok tokens)
    (hinj : ∀ x ∈ sampleStrings m tokens request, ∀ y ∈ sampleStrings m tokens request,
      sha256 x = sha256 y → x = y)
    (hzero : ∀ x ∈ sampleStrings m tokens request, sha256 x ≠ zero) :
    CollisionFree sha256 (loadPreimages sha256 twoTokenStore (sampleDisk m tokens) request) := by
  have hsub : ∀ x ∈ loadPreimages sha256 twoTokenStore (sampleDisk m tokens) request,
      x ∈ sampleStrings m tokens request := by
    rintro x (hx | ⟨rs, hrs, rfl⟩ | ⟨h, m', hm', hx⟩)
    · exact mem_append_left _ hx
    · rw [← (pure_eq_ok.mp hrs : _ = rs)]
      exact mem_append_right _ mem_cons_self
    · rw [eq_of_readManifest_sample hdec hm'] at hx
      refine mem_append_right _ (mem_cons_of_mem _ ?_)
      rcases hx with rfl | ⟨T, hT, hx⟩
      · exact mem_cons_self
      · rw [hstored, Except.ok.injEq] at hT
        rw [← hT] at hx
        exact mem_cons_of_mem _ hx
  exact ⟨fun x hx y hy h => hinj x (hsub x hx) y (hsub y hy) h, fun x hx => hzero x (hsub x hx)⟩

/-- The request `1, 2, 9` is served the two tokens that are stored. -/
theorem loadPrefixLongerThan_shared_block : let m := sampleManifest "m" "t" [1, 2]
    ∃ T, storedTokens (sampleDisk m [1, 2]) m = .ok T ∧ 2 ≤ T.length ∧
      T.take 2 = [1, 2, 9].take 2 := by
  intro m
  have heval : decodeManifest (sampleBytes m) = .ok m ∧
      storedTokens (sampleDisk m [1, 2]) m = .ok [1, 2] ∧
      (∀ x ∈ sampleStrings m [1, 2] ⟨"m", "t", [1, 2, 9], [], 0⟩,
        ∀ y ∈ sampleStrings m [1, 2] ⟨"m", "t", [1, 2, 9], [], 0⟩, sha256 x = sha256 y → x = y) ∧
      (∀ x ∈ sampleStrings m [1, 2] ⟨"m", "t", [1, 2, 9], [], 0⟩, sha256 x ≠ zero) ∧
      loadPrefixLongerThan sha256 (fun _ _ => .ok ()) (fun _ _ _ => .ok ()) twoTokenStore
        (sampleDisk m [1, 2]) ⟨"m", "t", [1, 2, 9], [], 0⟩
        = .ok (some ⟨m, ⟨[], 2, 2⟩, 2⟩) := by
    decide +kernel
  obtain ⟨hdec, hstored, hinj, hzero, hload⟩ := heval
  exact (loadPrefixLongerThan_fail_closed twoTokenStore _ _ _
    (sample_collisionFree hdec hstored hinj hzero) hload).2.2.2.2

end Mlxcel.ColdStore
