import Mlxcel.ColdStore.Address

/-!
# Manifests and block headers

A manifest names the blocks of one conversation, and a block header carries the tokens of one
block. This file models their binary form and the manifest address.

**Binary form.** A `Reader` consumes a byte string from the front, as the `read_*` helpers of the
source consume a cursor, and stops with the error of the first read that fails. Counts are checked
against their limits before anything of that size is read; bytes after the last field are ignored.

**Manifest address.** `hashOf` feeds the model id, the template signature and the block hashes to
the hasher one after the other, with nothing in between. `Resplits` says that two tuples split the
same bytes at different places, which is exactly how the address of one tuple can be the address of
another.
-/

namespace Mlxcel.ColdStore

open Delimited Text Except

def v4FormatVersion : ℕ := 4
def maxBlockSize : ℕ := 8192
def maxStringBytes : ℕ := 1024 * 1024
def maxTokens : ℕ := 2000000
def maxLayers : ℕ := 1024

structure Manifest where
  runtimeFingerprint : Digest
  modelId : String
  templateSig : String
  blockSize : ℕ
  blockHashes : List Digest
  promptLen : ℕ
  totalTokens : ℕ
  timestampNanos : ℕ
deriving DecidableEq, Repr

structure LayerMetadata where
  index : ℕ
  byteLen : ℕ
  sha256 : Digest
deriving DecidableEq, Repr

structure BlockHeader where
  formatVersion : ℕ
  blockHash : Digest
  tokenCount : ℕ
  tokens : List Token
  layerCount : ℕ
  layers : List LayerMetadata
deriving DecidableEq, Repr

/-! ## Reading fields -/

/-- A computation that consumes a byte string from the front. -/
abbrev Reader := StateT (List UInt8) Outcome

def unexpectedEof : Fault := .err (.io .unexpectedEof "failed to fill whole buffer")

def readExact (n : ℕ) : Reader (List UInt8) := fun bytes =>
  if n ≤ bytes.length then .ok (bytes.take n, bytes.drop n) else .error unexpectedEof

def readDigest : Reader Digest := fun bytes =>
  if h : 32 ≤ bytes.length then .ok (⟨bytes.take 32, by simp [h]⟩, bytes.drop 32)
  else .error unexpectedEof

def readI32 : Reader Token := do return Int32.ofNat (leNat (← readExact 4))

def readU32 : Reader ℕ := do return leNat (← readExact 4)

def readU64 : Reader ℕ := do return leNat (← readExact 8)

def readU128 : Reader ℕ := do return leNat (← readExact 16)

/-- A count that was read from disk, checked against its limit. -/
def boundedUsize (value maximum : ℕ) (field : String) : Outcome ℕ :=
  if maximum < value then
    throw (invalidData s!"{field} {value} exceeds limit {maximum}")
  else
    pure value

def readBoundedString : Reader String := do
  let len ← boundedUsize (← readU32) maxStringBytes "string length"
  let bytes ← readExact len
  match String.fromUTF8? ⟨bytes.toArray⟩ with
  | some s => return s
  | none => throw (invalidData "invalid UTF-8")

/-- The same field, `n` times. -/
def readMany {α : Type} (read : Reader α) : ℕ → Reader (List α)
  | 0 => return []
  | n + 1 => do
    let a ← read
    let as ← readMany read n
    return a :: as

def readFormatVersion : Reader ℕ := do
  let formatVersion ← readU32
  if formatVersion ≠ v4FormatVersion then
    throw (.err (.formatVersionMismatch formatVersion v4FormatVersion))
  return formatVersion

/-! ## Manifests and headers in binary -/

def readManifestFields : Reader Manifest := do
  let _ ← readFormatVersion
  let runtimeFingerprint ← readDigest
  let modelId ← readBoundedString
  let templateSig ← readBoundedString
  let blockSize ← boundedUsize (← readU64) maxBlockSize "block size"
  let blockCount ← boundedUsize (← readU64) maxTokens "block count"
  let blockHashes ← readMany readDigest blockCount
  let promptLen ← boundedUsize (← readU64) maxTokens "prompt length"
  let totalTokens ← boundedUsize (← readU64) maxTokens "total tokens"
  let timestampNanos ← readU128
  return ⟨runtimeFingerprint, modelId, templateSig, blockSize, blockHashes, promptLen, totalTokens,
    timestampNanos⟩

def decodeManifest (bytes : List UInt8) : Outcome Manifest := readManifestFields.run' bytes

def writeBoundedString (value : String) : Outcome (List UInt8) :=
  if (utf8 value).length < 2 ^ 32 then
    pure (leBytes 4 (utf8 value).length ++ utf8 value)
  else
    throw (invalidData "string exceeds u32")

def encodeManifest (m : Manifest) : Outcome (List UInt8) := do
  let modelId ← writeBoundedString m.modelId
  let templateSig ← writeBoundedString m.templateSig
  return leBytes 4 v4FormatVersion ++ m.runtimeFingerprint.bytes ++ modelId ++ templateSig ++
    leBytes 8 m.blockSize ++ leBytes 8 m.blockHashes.length ++ m.blockHashes.flatMap Digest.bytes ++
    leBytes 8 m.promptLen ++ leBytes 8 m.totalTokens ++ leBytes 16 m.timestampNanos

def readLayerMetadata : Reader LayerMetadata := do
  let index ← readU32
  let byteLen ← readU64
  let sha256 ← readDigest
  return ⟨index, byteLen, sha256⟩

def readBlockHeaderFields : Reader BlockHeader := do
  let formatVersion ← readFormatVersion
  let blockHash ← readDigest
  let tokenCount ← boundedUsize (← readU64) maxTokens "token count"
  let tokens ← readMany readI32 tokenCount
  let layerCount ← boundedUsize (← readU32) maxLayers "layer count"
  let layers ← readMany readLayerMetadata layerCount
  return ⟨formatVersion, blockHash, tokenCount, tokens, layerCount, layers⟩

def decodeBlockHeader (bytes : List UInt8) : Outcome BlockHeader :=
  readBlockHeaderFields.run' bytes

def encodeBlockHeader (header : BlockHeader) : List UInt8 :=
  leBytes 4 header.formatVersion ++ header.blockHash.bytes ++ leBytes 8 header.tokenCount ++
    header.tokens.flatMap tokenBytes ++ leBytes 4 header.layerCount ++
    header.layers.flatMap fun layer =>
      leBytes 4 layer.index ++ leBytes 8 layer.byteLen ++ layer.sha256.bytes

section Returns

variable {α β : Type}

/-- Every value that the reader returns, on any input, satisfies `P`. -/
def Returns (P : α → Prop) (x : Reader α) : Prop :=
  ∀ bytes a rest, x bytes = .ok (a, rest) → P a

variable {P : α → Prop}

lemma Returns.pure {a : α} (ha : P a) : Returns P (Pure.pure a : Reader α) := by
  intro bytes a' rest h
  cases h
  exact ha

/-- What every continuation returns is what the composition returns. -/
lemma Returns.bind {P : β → Prop} {Q : α → Prop} {x : Reader α} {f : α → Reader β}
    (hx : Returns Q x) (hf : ∀ a, Q a → Returns P (f a)) : Returns P (x >>= f) := by
  intro bytes b rest h
  have h : (x bytes >>= fun p => f p.1 p.2) = .ok (b, rest) := h
  cases hp : x bytes with
  | error e => rw [hp] at h; exact absurd h (by simp [Bind.bind, Except.bind])
  | ok p =>
    rw [hp] at h
    exact hf p.1 (hx bytes p.1 p.2 hp) p.2 b rest h

lemma Returns.skip {P : β → Prop} {x : Reader α} {f : α → Reader β}
    (hf : ∀ a, Returns P (f a)) : Returns P (x >>= f) :=
  .bind (Q := fun _ => True) (fun _ _ _ _ => trivial) fun a _ => hf a

lemma Returns.lift {x : Outcome α} (h : ∀ a, x = .ok a → P a) :
    Returns P (liftM x : Reader α) := by
  intro bytes a rest hx
  refine h a ?_
  cases x with
  | error e => exact absurd hx (by simp [liftM, monadLift, MonadLift.monadLift, StateT.lift])
  | ok a' =>
    simp only [liftM, monadLift, MonadLift.monadLift, StateT.lift, Bind.bind, Except.bind,
      Pure.pure, Except.pure, ok.injEq, Prod.mk.injEq] at hx
    rw [hx.1]

lemma Returns.throw (e : Fault) : Returns P (MonadExcept.throw e : Reader α) := by
  intro bytes a rest h
  cases h

lemma Returns.run' {x : Reader α} (hx : Returns P x) {bytes : List UInt8} {a : α}
    (h : x.run' bytes = .ok a) : P a := by
  simp only [StateT.run', Functor.map, Except.map] at h
  cases hp : x bytes with
  | error e => rw [hp] at h; exact absurd h (by simp)
  | ok p =>
    rw [hp, ok.injEq] at h
    exact h ▸ hx bytes p.1 p.2 hp

end Returns

lemma le_of_boundedUsize {value maximum n : ℕ} {field : String}
    (h : boundedUsize value maximum field = .ok n) : n ≤ maximum := by
  simp only [boundedUsize] at h
  split_ifs at h with hle
  simp only [pure, Except.pure, ok.injEq] at h
  omega

/-- A decoded manifest has a block size within the limit, whatever its bytes were. -/
lemma blockSize_le_of_decodeManifest {bytes : List UInt8} {m : Manifest}
    (h : decodeManifest bytes = .ok m) : m.blockSize ≤ maxBlockSize := by
  refine Returns.run' (P := fun m => m.blockSize ≤ maxBlockSize) ?_ h
  refine .skip fun _ => .skip fun _ => .skip fun _ => .skip fun _ => .skip fun size => ?_
  refine .bind (.lift fun n => le_of_boundedUsize) fun n hn => ?_
  refine .skip fun _ => .skip fun _ => .skip fun _ => .skip fun _ => .skip fun _ => .skip fun _ => ?_
  exact .skip fun _ => .skip fun _ => .pure hn

/-! ## The manifest address -/

/-- The tuple that a manifest address is computed from. -/
structure ManifestKey where
  runtimeFingerprint : Digest
  modelId : String
  templateSig : String
  blockHashes : List Digest
deriving DecidableEq, Repr

namespace ManifestKey

/-- What follows the fingerprint in the string hashed into the address. -/
def body (k : ManifestKey) : List UInt8 :=
  utf8 k.modelId ++ utf8 k.templateSig ++ k.blockHashes.flatMap Digest.bytes

/-- The string hashed into the address. -/
def preimage (k : ManifestKey) : List UInt8 := k.runtimeFingerprint.bytes ++ k.body

/-- The two tuples carry the same fingerprint and the same bytes after it, but the bytes belong to
different fields. -/
def Resplits (a b : ManifestKey) : Prop :=
  a.runtimeFingerprint = b.runtimeFingerprint ∧ a.body = b.body ∧
    ((utf8 a.modelId).length ≠ (utf8 b.modelId).length ∨
      (utf8 a.templateSig).length ≠ (utf8 b.templateSig).length)

instance (a b : ManifestKey) : Decidable (Resplits a b) := by
  unfold Resplits
  infer_instance

end ManifestKey

namespace Manifest

variable (sha : List UInt8 → Digest)

def hashOf (runtimeFingerprint : Digest)
    (modelId templateSig : String) (blockHashes : List Digest) : Digest :=
  sha (ManifestKey.preimage ⟨runtimeFingerprint, modelId, templateSig, blockHashes⟩)

def key (m : Manifest) : ManifestKey :=
  ⟨m.runtimeFingerprint, m.modelId, m.templateSig, m.blockHashes⟩

def hash (m : Manifest) : Digest :=
  hashOf sha m.runtimeFingerprint m.modelId m.templateSig m.blockHashes

end Manifest

/-- A list of digests is read back from its bytes: they all have the same width. -/
lemma flatMap_bytes_injective : Function.Injective fun ds : List Digest => ds.flatMap Digest.bytes := by
  intro ds es h
  have hlength : ∀ ds : List Digest, (ds.flatMap Digest.bytes).length = 32 * ds.length := by
    intro ds
    induction ds with
    | nil => rfl
    | cons d ds ih => simp; omega
  have hlen : ds.length = es.length := by
    have := congrArg List.length h
    simp only [hlength] at this
    omega
  refine (Digest.selfDelimiting.flatMap (x := []) (y := []) (by simp) (by simp) hlen ?_).1
  exact congrArg (· ++ []) h

/-- Equal preimages are either equal tuples or the same bytes split at other places. -/
lemma ManifestKey.preimage_eq_iff (a b : ManifestKey) :
    a.preimage = b.preimage ↔ a = b ∨ a.Resplits b := by
  constructor
  · intro h
    obtain ⟨hfp, hbody⟩ := Digest.selfDelimiting _ trivial _ trivial _ _ h
    by_cases hlen : (utf8 a.modelId).length = (utf8 b.modelId).length ∧
        (utf8 a.templateSig).length = (utf8 b.templateSig).length
    · left
      have hsplit := hbody
      simp only [body, List.append_assoc] at hsplit
      obtain ⟨hmodel, hrest⟩ := List.append_inj hsplit hlen.1
      obtain ⟨htemplate, hhashes⟩ := List.append_inj hrest hlen.2
      obtain ⟨fp, model, template, hashes⟩ := a
      simp only at hfp hmodel htemplate hhashes
      rw [hfp, utf8_injective hmodel, utf8_injective htemplate, flatMap_bytes_injective hhashes]
    · right
      refine ⟨hfp, hbody, ?_⟩
      rcases not_and_or.mp hlen with hlen | hlen
      · exact .inl hlen
      · exact .inr hlen
  · rintro (rfl | ⟨hfp, hbody, _⟩)
    · rfl
    · rw [preimage, preimage, hfp, hbody]

lemma ManifestKey.not_resplits_self (a : ManifestKey) : ¬ a.Resplits a := by
  rintro ⟨_, _, h | h⟩
  · exact h rfl
  · exact h rfl

/-- A manifest address pins its tuple down exactly when the other tuple does not split the same
bytes at different places. -/
lemma ManifestKey.hash_inj_iff {sha : List UInt8 → Digest} {a b : ManifestKey}
    (hsha : Set.InjOn sha {a.preimage, b.preimage}) :
    (sha a.preimage = sha b.preimage → a = b) ↔ ¬ a.Resplits b := by
  constructor
  · intro h hsplit
    have hab := h (congrArg sha ((preimage_eq_iff a b).mpr (.inr hsplit)))
    rw [hab] at hsplit
    exact b.not_resplits_self hsplit
  · intro hsplit h
    have hpre := hsha (by simp) (by simp) h
    exact ((preimage_eq_iff a b).mp hpre).resolve_right hsplit

end Mlxcel.ColdStore
