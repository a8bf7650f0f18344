import Mlxcel.ColdStore.Load

/-!
# The exact-address tier against the scan

When the floor covers every whole block of a request, `loadPrefixLongerThan` does not scan the
manifests: it computes the address of the manifest that holds the whole request and reads only
that one. This file compares the two.

**Why the tier loses nothing.** Above the floor a candidate has to share every block hash of the
request, the partial last one included. A manifest that goes on after these hashes cannot be
assembled, because a partial chunk is the last of its chain. So the only candidate that the scan
can serve is filed under the address that the tier reads (`ranked_served`).

**Where they differ.** The tier reads by address and does not compare the identity. A manifest
whose model id and template signature are the bytes of the request's, split elsewhere, has the
same address: the tier serves it and the scan does not. `exactLookup_agrees_iff` says that this,
and a panic in the assembly of a manifest that the scan may try first, are the only differences.
-/

namespace Mlxcel.ColdStore

open List Text Chunks Option Except Fallible

/-! ## Names of committed manifests -/

/-- The two bytes that render a byte in hexadecimal. -/
def hexBytes (b : UInt8) : List UInt8 := (hexByte b).map fun c => UInt8.ofNat c.val.toNat

variable (bs : List UInt8)

lemma utf8_hex : utf8 (hex bs) = bs.flatMap hexBytes := by
  have hascii : ∀ c ∈ bs.flatMap hexByte, c.val.toNat ≤ 127 := by
    intro c hc
    obtain ⟨b, _, hb⟩ := mem_flatMap.mp hc
    exact hexByte_ascii hb
  rw [hex, utf8_ofList_ascii hascii, map_flatMap]
  rfl

/-- A byte is read back from its rendering, which starts neither inside a character nor with a
dot. -/
lemma hexPair_hexBytes : ∀ b : UInt8, ∃ x y, hexBytes b = [x, y] ∧ hexPair x y = some b ∧
    x.toNat / 64 ≠ 2 ∧ x ≠ 46 := by
  have h : ∀ n < 256, hexPair (.ofNat (hexDigit (n / 16)).val.toNat)
      (.ofNat (hexDigit (n % 16)).val.toNat) = some (.ofNat n) ∧
      (UInt8.ofNat (hexDigit (n / 16)).val.toNat).toNat / 64 ≠ 2 ∧
      UInt8.ofNat (hexDigit (n / 16)).val.toNat ≠ 46 := by decide +kernel
  intro b
  have hb := h b.toNat b.toNat_lt
  rw [UInt8.ofNat_toNat] at hb
  exact ⟨_, _, rfl, hb⟩

lemma parseHexPairs_flatMap :
    parseHexPairs (bs.flatMap hexBytes) = .ok (some bs) := by
  induction bs with
  | nil => rfl
  | cons b bs ih =>
    obtain ⟨x, y, hxy, hpair, _⟩ := hexPair_hexBytes b
    have hhead : ¬ ((bs.flatMap hexBytes).head?.any fun c => c.toNat / 64 = 2) = true := by
      cases bs with
      | nil => simp
      | cons b' bs =>
        obtain ⟨x', y', hxy', _, hx', _⟩ := hexPair_hexBytes b'
        simpa [hxy'] using hx'
    rw [flatMap_cons, hxy, cons_append, cons_append, nil_append,
      parseHexPairs, if_neg hhead, hpair]
    simp only [ih]
    rfl

variable (d : Digest)

lemma parseHexDigest_hexDigest : parseHexDigest (hexDigest d) = .ok (some d) := by
  rw [parseHexDigest, if_pos (length_utf8_hexDigest d), hexDigest, utf8_hex,
    parseHexPairs_flatMap]
  show ok _ = _
  rw [bind_some, dif_pos d.length_bytes]

/-- A directory named after a digest is committed under it. -/
lemma committedManifestHash_hexDigest (files : List (String × List UInt8)) :
    committedManifestHash ⟨hexDigest d, .dir files⟩ = .ok (some d) := by
  have hdot : ¬ (utf8 ".tmp.").isPrefixOf (utf8 (hexDigest d)) = true := by
    have htmp : utf8 ".tmp." = 46 :: utf8 "tmp." := by decide
    have hlen := d.length_bytes
    rw [hexDigest, utf8_hex, htmp]
    cases hbytes : d.bytes with
    | nil => rw [hbytes] at hlen; simp at hlen
    | cons b bs =>
      obtain ⟨x, y, hxy, _, _, hx⟩ := hexPair_hexBytes b
      simp [hxy, hx.symm]
  rw [committedManifestHash, if_neg hdot, parseHexDigest_hexDigest]

section Tiers

variable {κ : Type} {sha : List UInt8 → Digest} {readKvCache : List UInt8 → ℕ → Outcome κ}
  {mergeLayer : List κ → ℕ → Int32 → Outcome κ} {store : BlockColdStore} {disk : Disk}
  {request : LoadRequest} {rs : List Digest} {entries : List Entry}

/-- The address that the tier reads. -/
def LoadRequest.exactAddress (sha : List UInt8 → Digest) (store : BlockColdStore)
    (request : LoadRequest) (rs : List Digest) : Digest :=
  Manifest.hashOf sha store.runtimeFingerprint request.modelId request.templateSig rs

/-- Every entry of the manifests directory is a committed manifest that can be read. -/
def AllReadable (sha : List UInt8 → Digest) (disk : Disk) (entries : List Entry) : Prop :=
  ∀ entry ∈ entries, ∃ h m, committedManifestHash entry = .ok (some h) ∧
    readManifest sha disk h = .ok m

/-- The assembly of a manifest panics. -/
def AssemblyPanics (sha : List UInt8 → Digest) (readKvCache : List UInt8 → ℕ → Outcome κ)
    (mergeLayer : List κ → ℕ → Int32 → Outcome κ) (disk : Disk) (m : Manifest) (cfg : String) :
    Prop :=
  ∃ message, assembleBlocks sha readKvCache mergeLayer disk m cfg = .error (.panic message)

/-! ## Candidates of a readable directory -/

variable {m : Manifest}

variable {entry : Entry}

/-- What a readable entry contributes: nothing, or its manifest with the matched length. -/
lemma candidate_of_readable {h : Digest} (hcommitted : committedManifestHash entry = .ok (some h))
    (hread : readManifest sha disk h = .ok m) :
    candidate sha store disk request rs entry = .ok
      (if m.runtimeFingerprint = store.runtimeFingerprint ∧ m.modelId = request.modelId ∧
          m.templateSig = request.templateSig ∧ matchedBlocks m rs ≠ 0
        then some (m, matchedBlocks m rs * store.blockSize) else none) := by
  simp only [candidate, hcommitted, hread, attempt, bind, Except.bind]
  by_cases hid : m.runtimeFingerprint ≠ store.runtimeFingerprint ∨
      m.modelId ≠ request.modelId ∨ m.templateSig ≠ request.templateSig
  · rw [if_pos hid, if_neg (by tauto)]
    rfl
  · simp only [not_or, not_not] at hid
    rw [if_neg (by tauto)]
    by_cases hzero : matchedBlocks m rs = 0
    · rw [if_pos hzero, if_neg (by tauto)]
      rfl
    · rw [if_neg hzero, if_pos ⟨hid.1, hid.2.1, hid.2.2, hzero⟩]
      rfl

/-- A readable directory is scanned to the end, and its candidates are those of its entries. -/
lemma candidates_of_readable (hreadable : AllReadable sha disk entries) :
    ∃ found, candidates sha store disk request rs entries = .ok found ∧
      ∀ entry ∈ entries, ∀ c, candidate sha store disk request rs entry = .ok (some c) →
        c ∈ found := by
  induction entries with
  | nil => exact ⟨[], rfl, fun entry h => absurd h not_mem_nil⟩
  | cons entry entries ih =>
    obtain ⟨rest, hrest, hmem⟩ := ih (fun e he => hreadable e (mem_cons_of_mem _ he))
    obtain ⟨h, m, hcommitted, hread⟩ := hreadable entry mem_cons_self
    have hcand : candidate sha store disk request rs entry = .ok _ :=
      candidate_of_readable hcommitted hread
    refine ⟨_, by simp only [candidates, hcand, hrest]; rfl, ?_⟩
    intro e he c hc
    rw [mem_append, mem_toList]
    rcases mem_cons.mp he with rfl | he
    · rw [hcand, ok.injEq] at hc
      exact .inl hc
    · exact .inr (hmem e he c hc)

/-- The manifest under an address is listed under the address's name. -/
lemma exists_entry_of_readManifest {h : Digest} (hentries : disk.manifests = some entries)
    (hread : readManifest sha disk h = .ok m) :
    ∃ entry ∈ entries, entry.name = hexDigest h := by
  have hsome := (readManifest_eq_ok sha hread).2.2
  rw [lookup, hentries, bind_some, isSome_map, find?_isSome] at hsome
  obtain ⟨entry, hmem, hname⟩ := hsome
  exact ⟨entry, hmem, by simpa using hname⟩

/-! ## Candidates above the floor -/

/-- The number of chunks of a request with a partial tail. -/
lemma length_requestHashes
    (hrs : computeBlockHashes sha request.tokens store.blockSize (request.cacheId sha store)
      = .ok rs)
    (hshort : request.tokens.length / store.blockSize * store.blockSize
      < request.tokens.length) :
    rs.length = request.tokens.length / store.blockSize + 1 := by
  obtain ⟨hpos, hchain⟩ := computeBlockHashes_eq_ok hrs
  rw [hchain, HashChain.length_chain]
  have hlt := (lt_length_chunks_iff hpos request.tokens
    (request.tokens.length / store.blockSize)).mpr hshort
  have hge : ¬ request.tokens.length / store.blockSize + 1
      < (chunks store.blockSize request.tokens).length := by
    rw [lt_length_chunks_iff hpos, Nat.succ_mul]
    have := Nat.lt_div_mul_add hpos (a := request.tokens.length)
    omega
  omega

lemma matchedBlocks_le_length (m : Manifest) (rs : List Digest) :
    matchedBlocks m rs ≤ rs.length :=
  CommonPrefix.commonPrefixLen_le_right _ _

/-- All block hashes of the request are matched by the manifests that start with them. -/
lemma matchedBlocks_eq_length_iff :
    matchedBlocks m rs = rs.length ↔ rs <+: m.blockHashes := by
  have hiff : rs.length ≤ matchedBlocks m rs ↔ _ := CommonPrefix.le_commonPrefixLen_iff
  rw [← (matchedBlocks_le_length m rs).ge_iff_eq, hiff, take_length, prefix_iff_eq_take]
  exact ⟨fun h => h.2.2.symm, fun h => ⟨prefix_iff_eq_take.mpr h |>.length_le, le_rfl, h.symm⟩⟩

/-! ## The two lookups side by side -/

variable {served : Served κ}

lemma exactLookup_eq_some_iff :
    exactLookup sha readKvCache mergeLayer store disk request rs = .ok (some served) ↔
      readManifest sha disk (request.exactAddress sha store rs) = .ok served.manifest ∧
      assembleBlocks sha readKvCache mergeLayer disk served.manifest (request.cacheId sha store)
        = .ok served.cacheSet ∧
      served.matchedTokens = request.tokens.length := by
  constructor
  · intro h
    exact exactLookup_eq_some h
  · rintro ⟨hread, hset, hlen⟩
    rw [LoadRequest.exactAddress] at hread
    simp only [exactLookup, hread, hset, attempt, bind, Except.bind, ← hlen]
    rfl

/-- The scan does not get past a panic. -/
lemma not_assemblyPanics_of_firstServed :
    ∀ {kept : List (Manifest × ℕ)},
      firstServed sha readKvCache mergeLayer store disk request kept = .ok (some served) →
      ∀ c ∈ kept.takeWhile fun c => c.1 != served.manifest,
        ¬ AssemblyPanics sha readKvCache mergeLayer disk c.1 (request.cacheId sha store) := by
  intro kept
  induction kept with
  | nil => intro _ c hc; exact absurd hc not_mem_nil
  | cons c kept ih =>
    intro h c' hc'
    rw [takeWhile_cons] at hc'
    split_ifs at hc' with hne
    · simp only [firstServed, bind_eq_ok] at h
      obtain ⟨result, hresult, h⟩ := h
      rcases mem_cons.mp hc' with rfl | hc'
      · rintro ⟨message, hpanic⟩
        rw [hpanic] at hresult
        exact absurd hresult (by simp [attempt])
      · cases result with
        | error e => exact ih h c' hc'
        | ok set =>
          rw [pure_eq_ok, some.injEq] at h
          rw [← h] at hne
          simp at hne
    · exact absurd hc' not_mem_nil

/-- The scan reaches a manifest that assembles when everything before it fails with an error. -/
lemma firstServed_reaches {set : DetachedCacheSet κ}
    (hset : assembleBlocks sha readKvCache mergeLayer disk m (request.cacheId sha store)
      = .ok set) :
    ∀ {kept : List (Manifest × ℕ)},
      (∀ c ∈ kept.takeWhile fun c => c.1 != m, ∃ e,
        assembleBlocks sha readKvCache mergeLayer disk c.1 (request.cacheId sha store)
          = .error (.err e)) →
      (∃ n, (m, n) ∈ kept) →
      (∀ c ∈ kept, min c.2 request.tokens.length = request.tokens.length) →
      firstServed sha readKvCache mergeLayer store disk request kept
        = .ok (some ⟨m, set, request.tokens.length⟩) := by
  intro kept
  induction kept with
  | nil => rintro _ ⟨n, hn⟩ _; exact absurd hn not_mem_nil
  | cons c kept ih =>
    obtain ⟨m', matched⟩ := c
    rintro hbefore ⟨n, hn⟩ hlen
    rw [takeWhile_cons] at hbefore
    by_cases hm : m' = m
    · subst hm
      have hlen := hlen _ mem_cons_self
      simp only [firstServed, hset, hlen]
      rfl
    · have hne : (m' != m) = true := by simpa using hm
      rw [if_pos hne] at hbefore
      obtain ⟨e, he⟩ := hbefore _ mem_cons_self
      have hrest := ih (fun c hc => hbefore c (mem_cons_of_mem _ hc))
        ⟨n, (mem_cons.mp hn).resolve_left (by rintro ⟨⟩; exact hm rfl)⟩
        (fun c hc => hlen c (mem_cons_of_mem _ hc))
      simp only [firstServed, he]
      exact hrest

/-- A listed manifest of the request's identity that starts with all block hashes of the
request. -/
structure Extends (sha : List UInt8 → Digest) (store : BlockColdStore) (disk : Disk)
    (request : LoadRequest) (rs : List Digest) (entries : List Entry) (c : Manifest) : Prop where
  listed : ∃ entry ∈ entries, ∃ h, committedManifestHash entry = .ok (some h) ∧
    readManifest sha disk h = .ok c
  runtimeFingerprint_eq : c.runtimeFingerprint = store.runtimeFingerprint
  modelId_eq : c.modelId = request.modelId
  templateSig_eq : c.templateSig = request.templateSig
  hashes_prefix : rs <+: c.blockHashes

lemma Extends.candidate_eq {h : Digest} (hm : Extends sha store disk request rs entries m)
    (hcommitted : committedManifestHash entry = .ok (some h))
    (hread : readManifest sha disk h = .ok m) (hrsne : rs ≠ []) :
    candidate sha store disk request rs entry = .ok (some (m, rs.length * store.blockSize)) := by
  have hfull := matchedBlocks_eq_length_iff.mpr hm.hashes_prefix
  rw [candidate_of_readable hcommitted hread, if_pos, hfull]
  refine ⟨hm.runtimeFingerprint_eq, hm.modelId_eq, hm.templateSig_eq, ?_⟩
  rw [hfull]
  exact (length_pos_of_ne_nil hrsne).ne'

/-- When the tier and the scan agree: the manifest that the tier assembles carries the model id
and the template signature of the request, and no manifest that is at least as recent and extends
the request makes the assembly panic. -/
def TierServesOwn (sha : List UInt8 → Digest) (readKvCache : List UInt8 → ℕ → Outcome κ)
    (mergeLayer : List κ → ℕ → Int32 → Outcome κ) (store : BlockColdStore) (disk : Disk)
    (request : LoadRequest) (rs : List Digest) (entries : List Entry) : Prop :=
  ∀ m set, readManifest sha disk (request.exactAddress sha store rs) = .ok m →
    assembleBlocks sha readKvCache mergeLayer disk m (request.cacheId sha store) = .ok set →
    (m.modelId = request.modelId ∧ m.templateSig = request.templateSig) ∧
    ∀ c, Extends sha store disk request rs entries c → m.timestampNanos ≤ c.timestampNanos →
      ¬ AssemblyPanics sha readKvCache mergeLayer disk c (request.cacheId sha store)

/-- In a readable directory, the entry named after an address is committed under it. -/
lemma committed_of_name {h h' : Digest} (hname : entry.name = hexDigest h)
    (hcommitted : committedManifestHash entry = .ok (some h')) : h' = h := by
  rw [committedManifestHash] at hcommitted
  split at hcommitted
  · exact absurd hcommitted throw_ne_ok
  · simp at hcommitted
  · split_ifs at hcommitted
    · simp at hcommitted
    · rw [hname, parseHexDigest_hexDigest, ok.injEq, some.injEq] at hcommitted
      exact hcommitted.symm

variable {found : List (Manifest × ℕ)}

variable {listing : List Entry}

/-- A manifest of the request's model and template under the exact address is a candidate. -/
lemma mem_candidates_of_exact (hsha : CollisionFree sha (loadPreimages sha store disk request))
    (hentries : disk.manifests = some entries) (hlisting : listing.Perm entries)
    (hreadable : AllReadable sha disk entries)
    (hrs : computeBlockHashes sha request.tokens store.blockSize (request.cacheId sha store)
      = .ok rs)
    (hread : readManifest sha disk (request.exactAddress sha store rs) = .ok m)
    (hmodel : m.modelId = request.modelId) (htemplate : m.templateSig = request.templateSig)
    (hne : m.blockHashes ≠ []) (hfound : candidates sha store disk request rs listing = .ok found) :
    (m, rs.length * store.blockSize) ∈ found := by
  have hkey : m.key = request.exactKey store rs := by
    have hpre : m.key.preimage = (request.exactKey store rs).preimage :=
      hsha.injOn (.inr (.inr ⟨_, m, hread, .inl rfl⟩)) (.inr (.inl ⟨rs, hrs, rfl⟩))
        (readManifest_eq_ok sha hread).1
    refine ((ManifestKey.preimage_eq_iff _ _).mp hpre).resolve_right ?_
    rintro ⟨_, _, h | h⟩
    · exact h (by rw [Manifest.key, LoadRequest.exactKey, hmodel])
    · exact h (by rw [Manifest.key, LoadRequest.exactKey, htemplate])
  have hhashes : m.blockHashes = rs := congrArg ManifestKey.blockHashes hkey
  obtain ⟨entry, hentry, hname⟩ := exists_entry_of_readManifest hentries hread
  obtain ⟨h, m', hcommitted, _⟩ := hreadable entry hentry
  rw [committed_of_name hname hcommitted] at hcommitted
  have hextends : Extends sha store disk request rs entries m :=
    ⟨⟨entry, hentry, _, hcommitted, hread⟩, congrArg ManifestKey.runtimeFingerprint hkey, hmodel,
      htemplate, hhashes ▸ prefix_refl rs⟩
  have hcand := hextends.candidate_eq hcommitted hread (hhashes ▸ hne)
  obtain ⟨found', hfound', hmem⟩ :=
    candidates_of_readable fun e he => hreadable e (hlisting.mem_iff.mp he)
  rw [hfound, ok.injEq] at hfound'
  rw [hfound']
  exact hmem entry (hlisting.mem_iff.mpr hentry) _ hcand

/-! ## The order of the candidates -/

instance : Std.Total rankedBefore where
  total a b := by
    unfold rankedBefore
    omega

instance : IsTrans (Manifest × ℕ) rankedBefore where
  trans a b c hab hbc := by
    unfold rankedBefore at *
    omega

variable {c : Manifest × ℕ}

lemma rankedBefore_of_mem_takeWhile {n : ℕ} (hmem : (m, n) ∈ ranked request found)
    (hc : c ∈ (ranked request found).takeWhile fun c => c.1 != m) :
    rankedBefore c (m, n) := by
  have hsorted : (ranked request found).Pairwise rankedBefore :=
    (pairwise_insertionSort rankedBefore found).filter _
  rw [← takeWhile_append_dropWhile (p := fun c : Manifest × ℕ => c.1 != m)
    (l := ranked request found), pairwise_append] at hsorted
  refine hsorted.2.2 c hc (m, n) ?_
  rw [← takeWhile_append_dropWhile (p := fun c : Manifest × ℕ => c.1 != m)
    (l := ranked request found), mem_append] at hmem
  refine hmem.resolve_left fun h => ?_
  simpa using mem_takeWhile_imp h

/-- A candidate that is listed first is tried before everything that it is ranked before. -/
lemma mem_takeWhile_filter_orderedInsert {α : Type} {r : α → α → Prop} [DecidableRel r]
    {p q : α → Bool} {a : α} (hp : p a = true) (hq : q a = true) :
    ∀ {l : List α}, (∀ b ∈ l, p b = false → r a b) →
      a ∈ ((l.orderedInsert r a).filter q).takeWhile p := by
  intro l
  induction l with
  | nil => intro _; simp [hp, hq]
  | cons b l ih =>
    intro hl
    rw [orderedInsert_cons]
    split_ifs with hab
    · rw [filter_cons_of_pos hq, takeWhile_cons_of_pos hp]
      exact mem_cons_self
    · have hpb : p b = true := by
        by_contra hpb
        exact hab (hl b mem_cons_self (by simpa using hpb))
      have hrest := ih fun b' hb' => hl b' (mem_cons_of_mem _ hb')
      by_cases hqb : q b = true
      · rw [filter_cons_of_pos hqb, takeWhile_cons_of_pos hpb]
        exact mem_cons_of_mem _ hrest
      · rwa [filter_cons_of_neg hqb]

/-! ## Agreement -/

lemma extends_of_mem (hlisting : listing.Perm entries)
    (hfound : candidates sha store disk request rs listing = .ok found) (hc : c ∈ found)
    (hfull : matchedBlocks c.1 rs = rs.length) :
    Extends sha store disk request rs entries c.1 := by
  obtain ⟨entry, hentry, hcandidate⟩ := exists_entry_of_mem_candidates hfound hc
  obtain ⟨hcand, h, hcommitted, hread⟩ := candidate_eq_some hcandidate
  exact ⟨⟨entry, hlisting.mem_iff.mp hentry, h, hcommitted, hread⟩, hcand.runtimeFingerprint_eq,
    hcand.modelId_eq, hcand.templateSig_eq, matchedBlocks_eq_length_iff.mp hfull⟩

section Agreement

variable (hsha : CollisionFree sha (loadPreimages sha store disk request))
  (hrs : computeBlockHashes sha request.tokens store.blockSize (request.cacheId sha store)
    = .ok rs)
  (hceiling : request.tokens.length / store.blockSize * store.blockSize ≤ request.floorTokens)
  (hfloor : request.floorTokens < request.tokens.length)

include hrs hceiling hfloor

lemma floor_lt_full :
    request.floorTokens < min (rs.length * store.blockSize) request.tokens.length := by
  rw [length_requestHashes hrs (by omega), Nat.succ_mul]
  have := Nat.lt_div_mul_add (computeBlockHashes_eq_ok hrs).1 (a := request.tokens.length)
  omega

variable {c : Manifest × ℕ}

/-- Above the floor, a candidate matches all block hashes of the request. -/
lemma matched_of_ranked (hcand : IsCandidate sha store disk request rs c)
    (habove : request.floorTokens < min c.2 request.tokens.length) :
    matchedBlocks c.1 rs = rs.length ∧ min c.2 request.tokens.length = request.tokens.length := by
  have hlen := length_requestHashes hrs (by omega)
  have hle := matchedBlocks_le_length c.1 rs
  rw [hcand.length_eq] at habove ⊢
  have hlt : request.tokens.length / store.blockSize < matchedBlocks c.1 rs := by
    by_contra hge
    have := Nat.mul_le_mul_right store.blockSize (Nat.le_of_not_lt hge)
    omega
  have hall : matchedBlocks c.1 rs = rs.length := by omega
  refine ⟨hall, Nat.min_eq_right ?_⟩
  rw [hall, hlen, Nat.succ_mul]
  exact (Nat.lt_div_mul_add (computeBlockHashes_eq_ok hrs).1).le

include hsha

/-- **What the scan can serve is filed under the exact address.** A candidate above the floor that
assembles has the block hashes of the request and nothing after them. -/
lemma ranked_served {set : DetachedCacheSet κ} (hcand : IsCandidate sha store disk request rs c)
    (habove : request.floorTokens < min c.2 request.tokens.length)
    (hset : assembleBlocks sha readKvCache mergeLayer disk c.1 (request.cacheId sha store)
      = .ok set) :
    readManifest sha disk (request.exactAddress sha store rs) = .ok c.1 := by
  obtain ⟨h, hread⟩ := hcand.readable
  obtain ⟨_, T, hT, hhashes⟩ := assembleBlocks_eq_ok sha readKvCache mergeLayer hset
  have hmatched := matched_of_ranked hrs hceiling hfloor hcand habove
  have htake := take_eq_of_matched hsha hrs hread hT hhashes hcand.matched_pos
  have hsize := (chunks_eq_of_matched hsha hrs hread hT hhashes hcand.matched_pos).1
  -- The request ends inside its last chunk, so the stored tokens end there too.
  have hlong : request.tokens.length < c.2 := by
    rw [hcand.length_eq, hmatched.1, length_requestHashes hrs (by omega), Nat.succ_mul]
    exact Nat.lt_div_mul_add (computeBlockHashes_eq_ok hrs).1
  have hwhole : request.tokens.take c.2 = request.tokens := take_of_length_le hlong.le
  rw [← hcand.length_eq, hwhole] at htake
  have htokens : T = request.tokens := by
    have hlen := congrArg length htake
    rw [length_take] at hlen
    rwa [take_of_length_le (by omega)] at htake
  rw [htokens, hsize, hrs, ok.injEq] at hhashes
  have haddress : request.exactAddress sha store rs = h := by
    rw [← (readManifest_eq_ok sha hread).1, Manifest.hash, hcand.runtimeFingerprint_eq,
      hcand.modelId_eq, hcand.templateSig_eq, ← hhashes]
    rfl
  rw [haddress]
  exact hread

variable {served : Served κ}

variable {listing : List Entry}

/-- What the scan serves, the tier serves. -/
lemma exactLookup_of_scan
    (hscan : scan sha readKvCache mergeLayer store disk request rs listing = .ok (some served)) :
    exactLookup sha readKvCache mergeLayer store disk request rs = .ok (some served) := by
  obtain ⟨matched, hcand, hset, hmatched, habove⟩ := scan_eq_some hscan
  rw [hmatched] at habove
  refine exactLookup_eq_some_iff.mpr
    ⟨ranked_served hsha hrs hceiling hfloor hcand habove hset, hset, ?_⟩
  rw [hmatched]
  exact (matched_of_ranked hrs hceiling hfloor hcand habove).2

/-- What the tier serves, the scan serves when `TierServesOwn` holds. -/
lemma scan_of_exactLookup (hentries : disk.manifests = some entries)
    (hlisting : listing.Perm entries) (hreadable : AllReadable sha disk entries)
    (hown : TierServesOwn sha readKvCache mergeLayer store disk request rs entries)
    (hexact : exactLookup sha readKvCache mergeLayer store disk request rs = .ok (some served)) :
    scan sha readKvCache mergeLayer store disk request rs listing = .ok (some served) := by
  obtain ⟨hread, hset, hlen⟩ := exactLookup_eq_some_iff.mp hexact
  obtain ⟨⟨hmodel, htemplate⟩, hpanic⟩ := hown _ _ hread hset
  have hne := (assembleBlocks_eq_ok sha readKvCache mergeLayer hset).1
  have hreadable' : AllReadable sha disk listing := fun e he =>
    hreadable e (hlisting.mem_iff.mp he)
  obtain ⟨found, hfound, _⟩ := candidates_of_readable hreadable'
  have hcand : ∀ c ∈ ranked request found, IsCandidate sha store disk request rs c :=
    fun c hc => isCandidate_of_mem_candidates hfound (mem_ranked.mp hc).1
  have hmem : (served.manifest, rs.length * store.blockSize) ∈ ranked request found :=
    mem_ranked.mpr ⟨mem_candidates_of_exact hsha hentries hlisting hreadable hrs hread hmodel
      htemplate hne hfound, floor_lt_full hrs hceiling hfloor⟩
  -- Before it, a candidate can neither panic nor be served: only this one is filed there.
  have hbefore : ∀ c ∈ (ranked request found).takeWhile fun c => c.1 != served.manifest, ∃ e,
      assembleBlocks sha readKvCache mergeLayer disk c.1 (request.cacheId sha store)
        = .error (.err e) := by
    intro c hc
    have hc' := (List.takeWhile_prefix _).subset hc
    cases hassemble : assembleBlocks sha readKvCache mergeLayer disk c.1
        (request.cacheId sha store) with
    | ok set' =>
      have hsame := ranked_served hsha hrs hceiling hfloor (hcand c hc')
        (mem_ranked.mp hc').2 hassemble
      rw [hread, ok.injEq] at hsame
      have := mem_takeWhile_imp hc
      simp [hsame] at this
    | error fault =>
      cases fault with
      | err e => exact ⟨e, rfl⟩
      | panic message =>
        have hfull := (matched_of_ranked hrs hceiling hfloor (hcand c hc')
          (mem_ranked.mp hc').2).1
        refine absurd ⟨message, hassemble⟩ (hpanic c.1 ?_ ?_)
        · exact extends_of_mem hlisting hfound (mem_ranked.mp hc').1 hfull
        · have hrank := rankedBefore_of_mem_takeWhile hmem hc
          have hlength := (hcand c hc').length_eq
          rw [hfull] at hlength
          simp only [rankedBefore, hlength, lt_self_iff_false, false_or, true_and] at hrank
          exact hrank
  have hserved := firstServed_reaches hset hbefore ⟨_, hmem⟩ fun c hc =>
    (matched_of_ranked hrs hceiling hfloor (hcand c hc) (mem_ranked.mp hc).2).2
  have hnonempty : ¬ (ranked request found).isEmpty = true := by
    rw [List.isEmpty_iff]
    exact ne_nil_of_mem hmem
  simp only [scan, hfound, bind, Except.bind]
  rw [if_neg hnonempty, hserved, ← hlen]

omit hsha in
/-- In a listing that starts with a manifest as recent as the one served, that manifest is tried
first, so it does not panic. -/
lemma not_assemblyPanics_of_scan {entry : Entry} {rest : List Entry} {h : Digest} {c : Manifest}
    (hcommitted : committedManifestHash entry = .ok (some h))
    (hread : readManifest sha disk h = .ok c) (hc : Extends sha store disk request rs entries c)
    (hrecent : served.manifest.timestampNanos ≤ c.timestampNanos) (hrsne : rs ≠ [])
    (hscan : scan sha readKvCache mergeLayer store disk request rs (entry :: rest)
      = .ok (some served))
    (hset : assembleBlocks sha readKvCache mergeLayer disk served.manifest
        (request.cacheId sha store) = .ok served.cacheSet) :
    ¬ AssemblyPanics sha readKvCache mergeLayer disk c (request.cacheId sha store) := by
  by_cases hsame : c = served.manifest
  · rintro ⟨message, hpanic⟩
    rw [hsame, hset] at hpanic
    simp at hpanic
  simp only [scan, bind_eq_ok] at hscan
  obtain ⟨found, hfound, hscan⟩ := hscan
  simp only [candidates, bind_eq_ok] at hfound
  obtain ⟨first, hfirst, others, hothers, hfound⟩ := hfound
  rw [hc.candidate_eq hcommitted hread hrsne, ok.injEq] at hfirst
  rw [pure_eq_ok, ← hfirst] at hfound
  split_ifs at hscan
  · simp at hscan
  refine not_assemblyPanics_of_firstServed hscan (c, rs.length * store.blockSize) ?_
  rw [← hfound]
  refine mem_takeWhile_filter_orderedInsert (by simpa using hsame)
    (by simpa using floor_lt_full hrs hceiling hfloor) ?_
  intro b hb hbm
  -- Nothing has a longer match than a full one.
  have hb' := isCandidate_of_mem_candidates hothers ((mem_insertionSort rankedBefore).mp hb)
  have hle := Nat.mul_le_mul_right store.blockSize (matchedBlocks_le_length b.1 rs)
  rw [← hb'.length_eq] at hle
  have hbm : b.1 = served.manifest := by simpa using hbm
  simp only [rankedBefore, hbm]
  omega

end Agreement

/-- **The exact-address tier against the scan.** Over readable manifests: when the floor is at the
length of the request, the scan serves nothing. When the floor is below it but covers every whole
block, tier and scan serve the same manifest with the same matched length, or both nothing, in
whatever order the directory is listed, exactly when `TierServesOwn` holds. -/
theorem exactLookup_agrees_iff (store : BlockColdStore) (disk : Disk) (request : LoadRequest)
    (rs : List Digest) (entries : List Entry)
    (hsha : CollisionFree sha (loadPreimages sha store disk request))
    (hentries : disk.manifests = some entries) (hreadable : AllReadable sha disk entries)
    (hrs : computeBlockHashes sha request.tokens store.blockSize (request.cacheId sha store)
      = .ok rs) :
    (request.tokens.length ≤ request.floorTokens →
      ∀ listing : List Entry, listing.Perm entries → ∀ served : Served κ,
        scan sha readKvCache mergeLayer store disk request rs listing ≠ .ok (some served)) ∧
    (request.tokens.length / store.blockSize * store.blockSize ≤ request.floorTokens →
      request.floorTokens < request.tokens.length →
      ((∀ listing : List Entry, listing.Perm entries → ∀ served : Served κ,
          exactLookup sha readKvCache mergeLayer store disk request rs = .ok (some served) ↔
          scan sha readKvCache mergeLayer store disk request rs listing = .ok (some served)) ↔
        TierServesOwn sha readKvCache mergeLayer store disk request rs entries)) := by
  constructor
  · intro hlen listing _ served hscan
    obtain ⟨matched, _, _, hmatched, habove⟩ := scan_eq_some hscan
    omega
  intro hceiling hfloor
  constructor
  · intro hagree m set hread hset
    have hserves := fun listing (hlisting : Perm listing entries) =>
      (hagree listing hlisting ⟨m, set, request.tokens.length⟩).mp
        (exactLookup_eq_some_iff.mpr ⟨hread, hset, rfl⟩)
    obtain ⟨_, hcand, _⟩ := scan_eq_some (hserves entries (.refl _))
    refine ⟨⟨hcand.modelId_eq, hcand.templateSig_eq⟩, ?_⟩
    intro c hc hrecent
    obtain ⟨entry, hentry, h, hcommitted, hread'⟩ := hc.listed
    have hrsne : rs ≠ [] := by
      rw [← length_pos_iff, length_requestHashes hrs (by omega)]
      exact Nat.succ_pos _
    exact not_assemblyPanics_of_scan hrs hceiling hfloor hcommitted hread' hc hrecent hrsne
      (hserves (entry :: entries.erase entry) (perm_cons_erase hentry).symm) hset
  · intro hown listing hlisting served
    exact ⟨scan_of_exactLookup hsha hrs hceiling hfloor hentries hlisting hreadable hown,
      exactLookup_of_scan hsha hrs hceiling hfloor⟩

end Tiers

/-- The one-token request that is stored under its own identity is served by tier and scan
alike. -/
theorem exactLookup_agrees_stored_token :
    let m := sampleManifest "m" "t" [1]
    let request : LoadRequest := ⟨"m", "t", [1], [], 0⟩
    ∀ served : Served Unit,
      exactLookup sha256 (fun _ _ => .ok ()) (fun _ _ _ => .ok ()) twoTokenStore
        (sampleDisk m [1]) request m.blockHashes = .ok (some served) ↔
      scan sha256 (fun _ _ => .ok ()) (fun _ _ _ => .ok ()) twoTokenStore (sampleDisk m [1])
        request m.blockHashes [⟨hexDigest (m.hash sha256), .dir [("manifest.bin", sampleBytes m)]⟩]
        = .ok (some served) := by
  intro m request
  have heval : decodeManifest (sampleBytes m) = .ok m ∧
      storedTokens (sampleDisk m [1]) m = .ok [1] ∧
      (∀ x ∈ sampleStrings m [1] request, ∀ y ∈ sampleStrings m [1] request,
        sha256 x = sha256 y → x = y) ∧
      (∀ x ∈ sampleStrings m [1] request, sha256 x ≠ .zero) ∧
      readManifest sha256 (sampleDisk m [1]) (m.hash sha256) = .ok m := by
    decide +kernel
  obtain ⟨hdec, hstored, hinj, hzero, hread⟩ := heval
  have hreadable : AllReadable sha256 (sampleDisk m [1])
      [⟨hexDigest (m.hash sha256), .dir [("manifest.bin", sampleBytes m)]⟩] := by
    intro entry hentry
    rw [mem_singleton.mp hentry]
    exact ⟨m.hash sha256, m, committedManifestHash_hexDigest _ _, hread⟩
  refine ((@exactLookup_agrees_iff Unit sha256 (fun _ _ => .ok ()) (fun _ _ _ => .ok ())
    twoTokenStore (sampleDisk m [1]) request m.blockHashes _
    (sample_collisionFree hdec hstored hinj hzero) rfl hreadable rfl).2 (by decide)
    (by decide)).mpr ?_ _ (.refl _)
  intro m' set hread' hset
  have hm' := eq_of_readManifest_sample hdec hread'
  refine ⟨by rw [hm']; exact ⟨rfl, rfl⟩, ?_⟩
  rintro c hc _ ⟨message, hpanic⟩
  obtain ⟨_, _, h, _, hreadc⟩ := hc.listed
  rw [hm'] at hset
  rw [eq_of_readManifest_sample hdec hreadc, hset] at hpanic
  simp at hpanic

/-- A store that holds one manifest, of model `ab` with template `c`, and a request for model `a`
with template `bc`: the tier serves the manifest, the scan finds no candidate. -/
theorem exactLookup_serves_foreign_manifest :
    let m := sampleManifest "ab" "c" [1]
    let request : LoadRequest := ⟨"a", "bc", [1], [], 0⟩
    exactLookup sha256 (fun _ _ => .ok ()) (fun _ _ _ => .ok ()) twoTokenStore
      (sampleDisk m [1]) request m.blockHashes = .ok (some ⟨m, ⟨[], 1, 1⟩, 1⟩) ∧
    (scan sha256 (fun _ _ => .ok ()) (fun _ _ _ => .ok ()) twoTokenStore (sampleDisk m [1])
      request m.blockHashes [⟨hexDigest (m.hash sha256), .dir [("manifest.bin", sampleBytes m)]⟩] :
        Outcome (Option (Served Unit))) = .error (.err .noMatch) := by
  decide +kernel

end Mlxcel.ColdStore
