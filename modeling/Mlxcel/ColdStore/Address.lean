import Mlxcel.Lib.Chunks
import Mlxcel.Lib.Fallible
import Mlxcel.Lib.HashChain
import Mlxcel.Lib.Sha256
import Mlxcel.Lib.Text
import Mlxcel.Token

/-!
# Block addresses of the cold store

The v4 cold store keeps the KV state of a conversation in blocks of tokens, and files every block
under a digest. This file models how `block_cold_store.rs` computes that address and shows what it
commits to.

**Failures.** `ColdStoreError` is the error type of the store. A Rust call can also panic, and a
panic passes through every caller that only handles errors, so an `Outcome` ends in a value, in an
error or in a panic.

**Addresses.**
* `canonicalLayerIdentity`, `modeWireTag` and `cacheComputationId` render everything that
  determines a block's bytes apart from its tokens;
* `blockHashMerkle` hashes one block after the digest of the block before it, and
  `computeBlockHashes` runs it along the chunks of a token list.

**The hash.** Everything is generic in `sha`, which stands for the SHA-256 of the `sha2` crate;
`sha256` is an instance. No function into 32 bytes is injective on all byte strings, so the
results ask that `sha` has no collision among the strings that the two computations at hand feed
to it (`BlockInput.preimages`).

The main result is `blockHashes_eq_iff`: equal addresses mean equal identity and equal tokens, and
conversely.
-/

namespace Mlxcel.ColdStore

open List Delimited Text Chunks HashChain

/-! ## Failures -/

/-- The kinds of `io::Error` that the store builds or meets. -/
inductive IoErrorKind
  | invalidData | unexpectedEof | notFound | other
deriving DecidableEq, Repr

inductive ColdStoreError
  | io (kind : IoErrorKind) (detail : String)
  | weightMismatch (stored current : String)
  | formatVersionMismatch (stored current : ℕ)
  | corruptLayer (layer : ℕ) (detail : String)
  | noMatch
  | workerDied
deriving DecidableEq, Repr

/-- How a call ends when it returns no value. -/
inductive Fault
  | err (e : ColdStoreError)
  | panic (message : String)
deriving DecidableEq, Repr

/-- The result of a call that can return an error or panic. -/
abbrev Outcome := Except Fault

def invalidData (detail : String) : Fault := .err (.io .invalidData detail)

@[simp] lemma throw_ne_ok {α : Type} {e : Fault} {b : α} : (throw e : Outcome α) ≠ .ok b := by
  simp

/-! ## What determines a block's bytes -/

inductive KVCacheMode
  | fp16 | int8 | turbo4Asym | turbo3Asym | turbo4 | turbo4Delegated | kvarn8
deriving DecidableEq, Repr

/-- The `(mode, v_bits)` pair of every layer. -/
abbrev LayerPlan := List (KVCacheMode × UInt8)

/-- Only `KVarN8` has a width that the mode does not already name. -/
def canonicalLayerIdentity : KVCacheMode → UInt8 → KVCacheMode × UInt8
  | .fp16, _ => (.fp16, 0)
  | .int8, _ => (.int8, 0)
  | .turbo4Asym, _ => (.turbo4Asym, 0)
  | .turbo3Asym, _ => (.turbo3Asym, 0)
  | .turbo4, _ => (.turbo4, 0)
  | .turbo4Delegated, _ => (.turbo4Delegated, 0)
  | .kvarn8, vBits => (.kvarn8, vBits)

def modeWireTag : KVCacheMode → String
  | .fp16 => "fp16"
  | .int8 => "int8"
  | .turbo4Asym => "turbo4asym"
  | .turbo3Asym => "turbo3asym"
  | .turbo4 => "turbo4"
  | .turbo4Delegated => "turbo4delegated"
  | .kvarn8 => "kvarn8"

/-- The plan with every layer in canonical form. -/
def canonicalPlan (plan : LayerPlan) : LayerPlan :=
  plan.map fun layer => canonicalLayerIdentity layer.1 layer.2

/-- What one layer adds to the plan digest: the length of its wire tag, the tag and the width. -/
def layerField (layer : KVCacheMode × UInt8) : List UInt8 :=
  leBytes 8 (utf8 (modeWireTag layer.1)).length ++ utf8 (modeWireTag layer.1) ++ [layer.2]

/-- The string hashed into the plan digest. -/
def planPreimage (plan : LayerPlan) : List UInt8 :=
  leBytes 8 plan.length ++
    plan.flatMap fun layer => layerField (canonicalLayerIdentity layer.1 layer.2)

def hexDigest (d : Digest) : String := hex d.bytes

variable (sha : List UInt8 → Digest)

def cacheComputationId (runtimeFingerprint : Digest) (plan : LayerPlan) : String :=
  "v3|rt:" ++ hexDigest runtimeFingerprint ++ "|n:" ++ toString plan.length ++
    "|plan:" ++ hexDigest (sha (planPreimage plan))

/-! ## The Merkle chain -/

/-- The string hashed into a block address. -/
def blockPreimage (blockSize : ℕ) (kvModeConfig : String) (prevHash : Digest)
    (ownTokens : List Token) : List UInt8 :=
  prevHash.bytes ++ leBytes 8 blockSize ++ utf8 kvModeConfig ++ leBytes 8 ownTokens.length ++
    ownTokens.flatMap tokenBytes

def blockHashMerkle (prevHash : Digest) (blockSize : ℕ)
    (kvModeConfig : String) (ownTokens : List Token) : Digest :=
  sha (blockPreimage blockSize kvModeConfig prevHash ownTokens)

/-- The loop of `compute_block_hashes` over the chunks that are left. -/
def chainChunks (blockSize : ℕ) (kvModeConfig : String) (prevHash : Digest) :
    List (List Token) → List Digest
  | [] => []
  | chunk :: chunks =>
    let hash := blockHashMerkle sha prevHash blockSize kvModeConfig chunk
    hash :: chainChunks blockSize kvModeConfig hash chunks

/-- The addresses of the chunks of a token list, each hashed after the one before it. Rust's
`chunks` panics on a chunk size of zero. -/
def computeBlockHashes (tokens : List Token) (blockSize : ℕ)
    (kvModeConfig : String) : Outcome (List Digest) :=
  if blockSize = 0 then
    throw (.panic "chunk size must be non-zero")
  else
    pure (chainChunks sha blockSize kvModeConfig Digest.zero (chunks blockSize tokens))

lemma chainChunks_eq (blockSize : ℕ) (kvModeConfig : String) (prevHash : Digest)
    (chunks : List (List Token)) : chainChunks sha blockSize kvModeConfig prevHash chunks =
      chain sha (blockPreimage blockSize kvModeConfig) prevHash chunks := by
  induction chunks generalizing prevHash with
  | nil => rfl
  | cons chunk chunks ih => simp [chainChunks, chain, blockHashMerkle, ih]

/-- The strings that `computeBlockHashes` hashes. -/
def blockPreimages (tokens : List Token) (blockSize : ℕ)
    (kvModeConfig : String) : List (List UInt8) :=
  links sha (blockPreimage blockSize kvModeConfig) Digest.zero (chunks blockSize tokens)

/-! ## Every field of an address can be read back -/

lemma length_utf8_hexDigest (d : Digest) : (utf8 (hexDigest d)).length = 64 := by
  rw [hexDigest, length_utf8_hex, d.length_bytes]

lemma hexDigest_injective : Function.Injective hexDigest := by
  intro a b h
  exact Digest.bytes_injective (hex_inj (by simp) h)

lemma hexDigest_selfDelimiting : SelfDelimitingOn Set.univ (fun d : Digest => utf8 (hexDigest d)) :=
  .of_length_eq 64 length_utf8_hexDigest (utf8_injective.comp hexDigest_injective).injOn

lemma modeWireTag_injective : Function.Injective modeWireTag := by
  intro a b h
  cases a <;> cases b <;> first | rfl | exact absurd h (by decide)

lemma length_utf8_modeWireTag_lt (mode : KVCacheMode) :
    (utf8 (modeWireTag mode)).length < 256 ^ 8 := by
  cases mode <;> decide

lemma layerField_selfDelimiting : SelfDelimitingOn Set.univ layerField := by
  rintro ⟨m, v⟩ _ ⟨m', v'⟩ _ x y h
  simp only [layerField, append_assoc] at h
  rcases leBytes_selfDelimitingOn 8 _ (length_utf8_modeWireTag_lt m) _
    (length_utf8_modeWireTag_lt m') _ _ h with ⟨hlen, htag⟩
  obtain ⟨htag, hrest⟩ := append_inj htag hlen
  have hm : m = m' := modeWireTag_injective (utf8_injective htag)
  simp only [singleton_append, cons.injEq] at hrest
  exact ⟨by rw [hm, hrest.1], hrest.2⟩

lemma planPreimage_eq (plan : LayerPlan) :
    planPreimage plan = leBytes 8 plan.length ++ (canonicalPlan plan).flatMap layerField := by
  rw [planPreimage, canonicalPlan, flatMap_map]

variable {plan plan' : LayerPlan}

/-- The plan digest commits to the canonical plan once the number of layers is known. -/
lemma canonicalPlan_eq_of_planPreimage_eq (hlen : plan.length = plan'.length)
    (h : planPreimage plan = planPreimage plan') :
    canonicalPlan plan = canonicalPlan plan' := by
  rw [planPreimage_eq, planPreimage_eq, hlen, append_cancel_left_eq] at h
  refine (layerField_selfDelimiting.flatMap (x := []) (y := []) (by simp) (by simp) ?_ ?_).1
  · simp [canonicalPlan, hlen]
  · rw [h]

/-- The computation identity depends on the plan through its canonical form only. -/
lemma cacheComputationId_congr (fp : Digest) (h : canonicalPlan plan = canonicalPlan plan') :
    cacheComputationId sha fp plan = cacheComputationId sha fp plan' := by
  have hlen : plan.length = plan'.length := by
    simpa [canonicalPlan] using congrArg List.length h
  rw [cacheComputationId, cacheComputationId, planPreimage_eq, planPreimage_eq, hlen, h]

/-- The computation identity can be read back from any string that starts with it: its fields have
fixed widths, except for the layer count, which ends at the first `|`. -/
lemma cacheComputationId_delimited {sha : List UInt8 → Digest} {fp fp' : Digest}
    {x y : List UInt8}
    (h : utf8 (cacheComputationId sha fp plan) ++ x
      = utf8 (cacheComputationId sha fp' plan') ++ y) :
    fp = fp' ∧ plan.length = plan'.length ∧
      sha (planPreimage plan) = sha (planPreimage plan') ∧ x = y := by
  have hdec : ∀ n, (124 : UInt8) ∉ decimal n := by
    intro n hn
    exact absurd (mem_decimal hn).2 (by decide)
  simp only [cacheComputationId, utf8_append, append_assoc] at h
  have h := append_cancel_left h
  obtain ⟨hfp, h⟩ := hexDigest_selfDelimiting fp trivial fp' trivial _ _ h
  have h := append_cancel_left h
  obtain ⟨hlen, h⟩ := append_cons_inj_of_notMem (hdec _) (hdec _) h
  have h := append_cancel_left h
  obtain ⟨hplan, hxy⟩ := hexDigest_selfDelimiting _ trivial _ trivial _ _ h
  exact ⟨hfp, decimal_injective hlen, hplan, hxy⟩

/-- A block preimage can be taken apart once the configuration strings are known to be read back
by `P`. -/
lemma blockPreimage_inj {bs bs' : ℕ} {cfg cfg' : String} {prev prev' : Digest}
    {own own' : List Token} {P : Prop} (hbs : bs < 256 ^ 8) (hbs' : bs' < 256 ^ 8)
    (hown : own.length < 256 ^ 8) (hown' : own'.length < 256 ^ 8)
    (hcfg : ∀ x y, utf8 cfg ++ x = utf8 cfg' ++ y → P ∧ x = y)
    (h : blockPreimage bs cfg prev own = blockPreimage bs' cfg' prev' own') :
    prev = prev' ∧ bs = bs' ∧ P ∧ own = own' := by
  simp only [blockPreimage, append_assoc] at h
  obtain ⟨hprev, h⟩ := Digest.selfDelimiting prev trivial prev' trivial _ _ h
  obtain ⟨hbs, h⟩ := leBytes_selfDelimitingOn 8 bs hbs bs' hbs' _ _ h
  obtain ⟨hP, h⟩ := hcfg _ _ h
  obtain ⟨hlen, h⟩ := leBytes_selfDelimitingOn 8 _ hown _ hown' _ _ h
  refine ⟨hprev, hbs, hP, ?_⟩
  refine (tokenBytes_selfDelimiting.flatMap (x := []) (y := []) (by simp) (by simp) hlen ?_).1
  rw [h]

/-! ## What an address commits to -/

/-- The inputs that a chain of block addresses is computed from. The block size is a positive
`usize`. -/
structure BlockInput where
  runtimeFingerprint : Digest
  plan : LayerPlan
  blockSize : ℕ
  blockSize_pos : 0 < blockSize
  blockSize_lt : blockSize < 2 ^ 64
  tokens : List Token

open BlockInput

namespace BlockInput

variable (sha : List UInt8 → Digest) (a : BlockInput)

def cacheId : String := cacheComputationId sha a.runtimeFingerprint a.plan

/-- The chain as both sides of the store compute it. -/
def blockHashes : Outcome (List Digest) :=
  computeBlockHashes sha a.tokens a.blockSize (a.cacheId sha)

/-- Everything that is hashed on the way to the chain. -/
def preimages : List (List UInt8) :=
  planPreimage a.plan :: blockPreimages sha a.tokens a.blockSize (a.cacheId sha)

/-- The chunk that the address at index `i` is about. -/
def chunk (i : ℕ) : Option (List Token) := (chunks a.blockSize a.tokens)[i]?

lemma blockHashes_eq : a.blockHashes sha = .ok (chain sha
    (blockPreimage a.blockSize (a.cacheId sha)) Digest.zero (chunks a.blockSize a.tokens)) := by
  rw [blockHashes, computeBlockHashes, if_neg a.blockSize_pos.ne', chainChunks_eq]
  rfl

lemma length_chunk_lt {own : List Token} (h : own ∈ chunks a.blockSize a.tokens) :
    own.length < 256 ^ 8 := by
  have := length_le_of_mem_chunks h
  have := a.blockSize_lt
  omega

end BlockInput

/-- **A block address commits to its identity and its tokens.** Under one hash without collisions
on what is hashed, the addresses of two inputs at an index of both chains are equal exactly when
fingerprint, canonical plan and block size agree and the token lists have the same chunks up to
that index. -/
theorem blockHashes_eq_iff (sha : List UInt8 → Digest) (a b : BlockInput)
    (hsha : Set.InjOn sha {x | x ∈ a.preimages sha ∨ x ∈ b.preimages sha}) :
    ∃ as bs : List Digest, a.blockHashes sha = .ok as ∧ b.blockHashes sha = .ok bs ∧
      ∀ i, i < as.length → i < bs.length →
        (as[i]? = bs[i]? ↔
          a.runtimeFingerprint = b.runtimeFingerprint ∧
          canonicalPlan a.plan = canonicalPlan b.plan ∧
          a.blockSize = b.blockSize ∧
          ∀ j ≤ i, a.chunk j = b.chunk j) := by
  refine ⟨_, _, a.blockHashes_eq sha, b.blockHashes_eq sha, ?_⟩
  intro i hia hib
  have hplanA : planPreimage a.plan ∈ {x | x ∈ a.preimages sha ∨ x ∈ b.preimages sha} :=
    .inl (by simp [preimages])
  have hplanB : planPreimage b.plan ∈ {x | x ∈ a.preimages sha ∨ x ∈ b.preimages sha} :=
    .inr (by simp [preimages])
  constructor
  · intro h
    have hcfg : ∀ x y, utf8 (a.cacheId sha) ++ x = utf8 (b.cacheId sha) ++ y →
        (a.runtimeFingerprint = b.runtimeFingerprint ∧
          canonicalPlan a.plan = canonicalPlan b.plan) ∧ x = y := by
      intro x y hxy
      obtain ⟨hfp, hlen, hplan, hrest⟩ := cacheComputationId_delimited hxy
      exact ⟨⟨hfp, canonicalPlan_eq_of_planPreimage_eq hlen (hsha hplanA hplanB hplan)⟩, hrest⟩
    have henc : ∀ p q, ∀ own ∈ chunks a.blockSize a.tokens,
        ∀ own' ∈ chunks b.blockSize b.tokens,
        blockPreimage a.blockSize (a.cacheId sha) p own
          = blockPreimage b.blockSize (b.cacheId sha) q own' →
        (a.blockSize = b.blockSize ∧ a.runtimeFingerprint = b.runtimeFingerprint ∧
          canonicalPlan a.plan = canonicalPlan b.plan) ∧ p = q ∧ own = own' := by
      intro p q own hown own' hown' heq
      rcases blockPreimage_inj a.blockSize_lt b.blockSize_lt (a.length_chunk_lt hown)
        (b.length_chunk_lt hown') hcfg heq with ⟨hpq, hbs, hid, hown⟩
      exact ⟨⟨hbs, hid⟩, hpq, hown⟩
    rw [getElem?_eq_getElem hia] at h
    rcases chain_inj hsha (fun x hx => .inl (by simp [preimages,
      blockPreimages, hx])) (fun x hx => .inr (by simp [preimages, blockPreimages,
      hx])) henc (getElem?_eq_getElem hia) h.symm with ⟨⟨hbs, hfp, hplan⟩, hchunk⟩
    exact ⟨hfp, hplan, hbs, hchunk⟩
  · rintro ⟨hfp, hplan, hbs, hchunk⟩
    have hid : a.cacheId sha = b.cacheId sha := by
      rw [cacheId, cacheId, hfp, cacheComputationId_congr sha _ hplan]
    rw [hid, hbs]
    refine getElem?_chain_congr fun j hj => ?_
    have hj := hchunk j hj
    rwa [chunk, hbs] at hj

lemma two_lt_two_pow : 2 < 2 ^ 64 := by decide

/-- A two-layer input of three tokens in blocks of two. The width of its `Fp16` layer is inert. -/
def threeTokens (vBits : UInt8) (last : Token) : BlockInput :=
  ⟨Digest.zero, [(.fp16, vBits), (.kvarn8, 4)], 2, Nat.two_pos, two_lt_two_pow, [1, 2, last]⟩

lemma threeTokens_collisionFree : Set.InjOn sha256 {x | x ∈ (threeTokens 8 3).preimages sha256 ∨
      x ∈ (threeTokens 0 4).preimages sha256} := by
  have h : ∀ x ∈ (threeTokens 8 3).preimages sha256 ++ (threeTokens 0 4).preimages sha256,
      ∀ y ∈ (threeTokens 8 3).preimages sha256 ++ (threeTokens 0 4).preimages sha256,
        sha256 x = sha256 y → x = y := by decide +kernel
  intro x hx y hy
  exact h x (mem_append.mpr hx) y (mem_append.mpr hy)

theorem threeTokens_share_first_block :
    ∃ as bs : List Digest, (threeTokens 8 3).blockHashes sha256 = .ok as ∧
      (threeTokens 0 4).blockHashes sha256 = .ok bs ∧ as[0]? = bs[0]? ∧ as[1]? ≠ bs[1]? := by
  rcases blockHashes_eq_iff sha256 (threeTokens 8 3) (threeTokens 0 4)
    threeTokens_collisionFree with ⟨as, bs, has, hbs, h⟩
  have hlenA : as.length = 2 := by
    rw [blockHashes_eq, Except.ok.injEq] at has
    rw [← has]
    rfl
  have hlenB : bs.length = 2 := by
    rw [blockHashes_eq, Except.ok.injEq] at hbs
    rw [← hbs]
    rfl
  refine ⟨as, bs, has, hbs, ?_, ?_⟩
  · exact (h 0 (by omega) (by omega)).mpr (by decide)
  · intro h1
    have hchunk := ((h 1 (by omega) (by omega)).mp h1).2.2.2 1 le_rfl
    exact absurd hchunk (by decide)

end Mlxcel.ColdStore
