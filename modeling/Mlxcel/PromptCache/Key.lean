import Mlxcel.Lib.Blake3
import Mlxcel.Lib.Chunks
import Mlxcel.Lib.HashChain
import Mlxcel.Lib.Text
import Mlxcel.PromptCache.Trie

/-!
# Keys, buckets and block hashes of the prompt cache

A request is identified by a `PromptCacheKey`. Its digest is the key of the primary map; the part
without tokens names a bucket, and the part without the session the trie that indexes the bucket.
Automatic prefix caching adds a hash chain over fixed-size blocks of the tokens of an entry, seeded
with the digest of the multimodal payload. `PromptCacheConfig` holds the limits of a store.
-/

namespace Mlxcel.PromptCache

open Delimited Text Chunks

abbrev MultimodalDigest := Digest

/-! ## Keys -/

structure PromptCacheKey where
  modelId : String
  loraId : Option String
  templateSig : String
  sessionKey : Option String
  mmDigest : MultimodalDigest
  tokens : List Token
  prefixLen : ℕ
deriving DecidableEq

/-- The session-sensitive identity of an entry. -/
structure BucketKey where
  modelId : String
  loraId : Option String
  templateSig : String
  mmDigest : MultimodalDigest
  sessionKey : Option String
deriving DecidableEq

/-- The identity that indexes the tries. -/
structure SessionlessBucketKey where
  modelId : String
  loraId : Option String
  templateSig : String
  mmDigest : MultimodalDigest
deriving DecidableEq

def BucketKey.fromKey (key : PromptCacheKey) : BucketKey :=
  ⟨key.modelId, key.loraId, key.templateSig, key.mmDigest, key.sessionKey⟩

def SessionlessBucketKey.fromKey (key : PromptCacheKey) : SessionlessBucketKey :=
  ⟨key.modelId, key.loraId, key.templateSig, key.mmDigest⟩

/-- A field with its length in front. -/
def writeField (bytes : List UInt8) : List UInt8 := leBytes 8 bytes.length ++ bytes

namespace PromptCacheKey

variable (key : PromptCacheKey)

def effectivePrefixLen : ℕ := min key.prefixLen key.tokens.length

/-- The string hashed into the digest. A missing adapter or session is an empty field. -/
def preimage : List UInt8 :=
  utf8 "mlxcel:prompt-cache:v2" ++ writeField (utf8 key.modelId) ++
    writeField ((key.loraId.map utf8).getD []) ++ writeField (utf8 key.templateSig) ++
    writeField ((key.sessionKey.map utf8).getD []) ++ key.mmDigest.bytes ++
    leBytes 8 key.effectivePrefixLen ++
    (key.tokens.take key.effectivePrefixLen).flatMap tokenBytes

def digest : PromptCacheKeyDigest := blake3 key.preimage

end PromptCacheKey

def anonymousSessionSentinel : String := "__mlxcel_anon__"

/-! ## Block hashes -/

inductive ApcHashAlgo
  | sha256
  | blake3
deriving DecidableEq

def apcHash : ApcHashAlgo → List UInt8 → Digest
  | .sha256 => sha256
  | .blake3 => blake3

abbrev ApcBlockHash := Digest

def defaultApcBlockSize : ℕ := 16

/-- The string hashed into a block hash. -/
def apcBlockPreimage (extra parent : Digest) (tokens : List Token) : List UInt8 :=
  utf8 "mlxcel:apc:block:v1" ++ parent.bytes ++ leBytes 8 tokens.length ++
    tokens.flatMap tokenBytes ++ extra.bytes

/-- `BlockHashChain::compute`: one hash for each full or partial block. A release build replaces a
block size of zero by the default. -/
def blockHashChain (tokens : List Token) (blockSize : ℕ) (algo : ApcHashAlgo)
    (extraHash : Digest) : List ApcBlockHash :=
  let blockSize := if blockSize = 0 then defaultApcBlockSize else blockSize
  HashChain.chain (apcHash algo) (apcBlockPreimage extraHash) Digest.zero (chunks blockSize tokens)

/-- The tokens of the request that agree with the chain of a candidate, in whole blocks. -/
def apcConsistentPrefixLen (requestTokens : List Token) (candidateHashes : List ApcBlockHash)
    (blockSize : ℕ) (algo : ApcHashAlgo) (extraHash : Digest) (matchedLen : ℕ) : ℕ :=
  if blockSize = 0 ∨ matchedLen < blockSize then 0
  else
    let coverableBlocks := min (matchedLen / blockSize) candidateHashes.length
    if coverableBlocks = 0 then 0
    else
      let capTokens := min (coverableBlocks * blockSize) requestTokens.length
      let requestChain := blockHashChain (requestTokens.take capTokens) blockSize algo extraHash
      let upper := min coverableBlocks requestChain.length
      let consistentBlocks := (((requestChain.zip candidateHashes).take upper).takeWhile
        fun p => decide (p.1 = p.2)).length
      consistentBlocks * blockSize

/-! ## Configuration -/

structure ApcConfig where
  enabled : Bool
  blockSize : ℕ
  hash : ApcHashAlgo
deriving DecidableEq

def ApcConfig.isEnabled (config : ApcConfig) : Bool := config.enabled && 0 < config.blockSize

/-- The limits of a store. Durations are in nanoseconds. -/
structure PromptCacheConfig where
  enabled : Bool
  capacityBytes : ℕ
  maxEntries : ℕ
  ttl : ℕ
  minPrefixTokens : ℕ
  apc : ApcConfig
  snapshotCapacityBytes : ℕ
  snapshotMaxEntries : ℕ
  snapshotTtl : ℕ
deriving DecidableEq

namespace PromptCacheConfig

def isEnabled (config : PromptCacheConfig) : Bool :=
  config.enabled && 0 < config.capacityBytes && 0 < config.maxEntries

def apcEnabled (config : PromptCacheConfig) : Bool := config.isEnabled && config.apc.isEnabled

end PromptCacheConfig

end Mlxcel.PromptCache
