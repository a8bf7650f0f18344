import Mlxcel.ColdStore.Manifest
import Mathlib.Data.List.Sort

/-!
# The cold store on disk

This file models the directories of a `BlockColdStore` and the calls that read and publish
manifests and blocks.

**The disk.** A `Disk` holds the listings of the `blocks` and `manifests` directories, each of
which may be missing, and the file of the publication epoch. Nothing is assumed about the bytes in
it: a header or a `manifest.bin` may be absent, truncated or arbitrary, and a name in a listing may
be anything.

**Reading.** `readManifest`, `readBlock`, `assembleBlocks` and `loadPrefixLongerThan` follow the
functions of the same name. They are generic in the KV state `κ` of a layer, in the decoder
`readKvCache` of one layer file and in `mergeLayer`, which joins the pieces of one layer: what is
proved here holds for every decoder and every merge. `attempt` is a `match` on a `Result`, which
sees an error but lets a panic pass.

**Publishing.** `writeManifest` runs in `StoreM`: what it has changed on disk stays changed when a
later step fails.
-/

namespace Mlxcel.ColdStore

open Text ManifestKey Fallible

/-! ## Directories -/

/-- A directory entry: a file, a directory of files, or something whose type cannot be read. -/
inductive Node
  | file (bytes : List UInt8)
  | dir (files : List (String × List UInt8))
  | unreadable
deriving DecidableEq, Repr

structure Entry where
  name : String
  node : Node
deriving DecidableEq, Repr

/-- The directories of a store; `none` is a directory or file that does not exist. -/
structure Disk where
  blocks : Option (List Entry)
  manifests : Option (List Entry)
  epoch : Option (List UInt8)
deriving DecidableEq, Repr

/-- The entry of a directory under a name. -/
def lookup (directory : Option (List Entry)) (name : String) : Option Node :=
  directory.bind fun entries => (entries.find? fun entry => entry.name == name).map Entry.node

def notFound : Fault := .err (.io .notFound "No such file or directory (os error 2)")

/-- The contents of a file below a directory entry. -/
def Node.readFile : Node → String → Outcome (List UInt8)
  | .dir files, name =>
    match files.lookup name with
    | some bytes => pure bytes
    | none => throw notFound
  | .file _, _ => throw (.err (.io .other "Not a directory (os error 20)"))
  | .unreadable, _ => throw (.err (.io .other "Permission denied (os error 13)"))

/-- A `match` on the `Result` of a call: errors become values, panics pass. -/
def attempt {α : Type} : Outcome α → Outcome (Except ColdStoreError α)
  | .ok a => .ok (.ok a)
  | .error (.err e) => .ok (.error e)
  | .error (.panic message) => .error (.panic message)

/-- A value digit of `u8::from_str_radix` in base 16. -/
def hexValue (b : UInt8) : Option ℕ :=
  if 48 ≤ b.toNat ∧ b.toNat ≤ 57 then some (b.toNat - 48)
  else if 97 ≤ b.toNat ∧ b.toNat ≤ 102 then some (b.toNat - 87)
  else if 65 ≤ b.toNat ∧ b.toNat ≤ 70 then some (b.toNat - 55)
  else none

/-- `u8::from_str_radix` on two bytes; a leading `+` is a sign. -/
def hexPair (a b : UInt8) : Option UInt8 :=
  if a = 43 then (hexValue b).map UInt8.ofNat
  else do return UInt8.ofNat (16 * (← hexValue a) + (← hexValue b))

/-- The digits of a name, two bytes at a time. Slicing a `str` off a character boundary panics. -/
def parseHexPairs : List UInt8 → Outcome (Option (List UInt8))
  | a :: b :: rest =>
    if rest.head?.any fun c => c.toNat / 64 = 2 then
      throw (.panic "byte index is not a char boundary")
    else
      match hexPair a b with
      | none => pure none
      | some byte => do return (← parseHexPairs rest).map (byte :: ·)
  | _ => pure (some [])

def parseHexDigest (name : String) : Outcome (Option Digest) :=
  if (utf8 name).length = 64 then do
    let bytes ← parseHexPairs (utf8 name)
    return bytes.bind fun bytes => if h : bytes.length = 32 then some ⟨bytes, h⟩ else none
  else
    pure none

/-- The address that an entry of the manifests directory is committed under, if it is. -/
def committedManifestHash (entry : Entry) : Outcome (Option Digest) :=
  match entry.node with
  | .unreadable => throw (.err (.io .other "Permission denied (os error 13)"))
  | .file _ => pure none
  | .dir _ =>
    if (utf8 ".tmp.").isPrefixOf (utf8 entry.name) then pure none
    else parseHexDigest entry.name

structure BlockColdStore where
  runtimeFingerprint : Digest
  blockSize : ℕ
  blockSize_lt : blockSize < 2 ^ 64

/-- The KV state of a whole sequence, one cache a layer. -/
structure DetachedCacheSet (κ : Type) where
  caches : List κ
  promptLen : ℕ
  currentOffset : Int32
deriving DecidableEq, Repr

/-! ## Manifests -/

section Manifests

variable (sha : List UInt8 → Digest)

def readManifest (disk : Disk) (manifestHash : Digest) : Outcome Manifest :=
  match lookup disk.manifests (hexDigest manifestHash) with
  | none => throw (.err .noMatch)
  | some node => do
    let bytes ← node.readFile "manifest.bin"
    let manifest ← decodeManifest bytes
    if manifest.hash sha ≠ manifestHash then throw (invalidData "manifest hash mismatch")
    else return manifest

/-- A call that changes the disk; its changes stay when it fails. -/
abbrev StoreM := ExceptT Fault (StateM Disk)

variable (blockHash : Digest)

def refcountName : String := hexDigest blockHash ++ ".refcount"

def getRefcount (disk : Disk) (blockHash : Digest) : Outcome ℕ :=
  match lookup disk.blocks (refcountName blockHash) with
  | none => pure 0
  | some (.file bytes) =>
    if bytes.length ≠ 8 then throw (invalidData "refcount file corrupt")
    else pure (Delimited.leNat bytes)
  | some _ => throw (.err (.io .other "Is a directory (os error 21)"))

/-- The directory with `node` under `name`, in place of what was there. -/
def putEntry (name : String) (node : Node) (entries : List Entry) : List Entry :=
  ⟨name, node⟩ :: entries.filter fun entry => entry.name != name

def setRefcount (count : ℕ) : StoreM Unit := do
  let disk ← get
  match disk.blocks with
  | none => throw notFound
  | some entries =>
    set { disk with blocks := some (putEntry (refcountName blockHash)
      (.file (Delimited.leBytes 8 count)) entries) }

def incrementRefcount : StoreM Unit := do
  let current ← getRefcount (← get) blockHash
  setRefcount blockHash (current + 1)

/-- The publication epoch; a missing or malformed file reads as the largest `u64`. -/
def readPublicationEpoch (disk : Disk) : ℕ :=
  match disk.epoch with
  | some bytes => if bytes.length = 8 then Delimited.leNat bytes else 2 ^ 64 - 1
  | none => 2 ^ 64 - 1

def nextEpoch (current : ℕ) : ℕ := if current = 2 ^ 64 - 1 then 1 else current + 1

def bumpPublicationEpoch : StoreM Unit := do
  let disk ← get
  set { disk with epoch := some (Delimited.leBytes 8 (nextEpoch (readPublicationEpoch disk))) }

def requireBlock : StoreM Unit := do
  if (lookup (← get).blocks (hexDigest blockHash)).isNone then
    throw (invalidData ("write_manifest: block " ++ hexDigest blockHash ++
      " is absent at publication time — it was collected or never installed. The manifest is NOT " ++
      "published; reinstall the block and retry rather than committing a reference to missing data."))

/-- One publication with nothing else running: the reference counts, the staged directory, the
check of every block, the epoch and the rename that commits. -/
def writeManifest (manifest : Manifest) : StoreM Unit := do
  let name := hexDigest (manifest.hash sha)
  let staged := ".tmp." ++ name
  let disk ← get
  if (lookup disk.manifests name).isSome then
    return ()
  else
    manifest.blockHashes.forM incrementRefcount
    modify fun disk =>
      { disk with manifests := some (putEntry staged (.dir []) (disk.manifests.getD [])) }
    let bytes ← encodeManifest manifest
    modify fun disk =>
      { disk with manifests := some (putEntry staged (.dir [("manifest.bin", bytes)])
          (disk.manifests.getD [])) }
    manifest.blockHashes.forM requireBlock
    bumpPublicationEpoch
    modify fun disk =>
      { disk with manifests := some (putEntry name (.dir [("manifest.bin", bytes)])
          ((disk.manifests.getD []).filter fun entry => entry.name != staged)) }

/-- What is read back under an address hashes to that address. -/
lemma readManifest_eq_ok {disk : Disk} {h : Digest} {m : Manifest}
    (hm : readManifest sha disk h = .ok m) :
    m.hash sha = h ∧ m.blockSize ≤ maxBlockSize ∧
      (lookup disk.manifests (hexDigest h)).isSome := by
  rw [readManifest] at hm
  split at hm
  · exact absurd hm throw_ne_ok
  · rename_i node hnode
    simp only [bind_eq_ok] at hm
    obtain ⟨bytes, _, m', hdec, hm⟩ := hm
    split_ifs at hm with hhash
    rw [pure_eq_ok] at hm
    subst hm
    rw [hnode]
    exact ⟨not_not.mp hhash, blockSize_le_of_decodeManifest hdec, rfl⟩

/-- The early return: under an address that is taken, nothing is published. -/
lemma writeManifest_of_isSome {disk : Disk} {m : Manifest}
    (h : (lookup disk.manifests (hexDigest (m.hash sha))).isSome) :
    (writeManifest sha m).run disk = (.ok (), disk) := by
  simp only [writeManifest, ExceptT.run, bind, ExceptT.bind, ExceptT.mk, StateT.bind, get, getThe,
    MonadStateOf.get, liftM, monadLift, MonadLift.monadLift, ExceptT.lift, StateT.get, pure,
    ExceptT.bindCont, Functor.map, StateT.map, h]
  rfl

/-- **When an address stands for one manifest.** Two manifests with the same address have the same
tuple exactly when their tuples do not split the same bytes at different places. For a manifest
`b` found under the address of `a`, the same condition decides whether `b` carries the identity of
`a`, and whether the early return of `writeManifest` skipped `a` for a manifest with its tuple. -/
theorem manifestAddress_injective_iff (a b : Manifest)
    (hsha : Set.InjOn sha {a.key.preimage, b.key.preimage}) :
    ((a.hash sha = b.hash sha → a.key = b.key) ↔ ¬ a.key.Resplits b.key) ∧
    ∀ disk, readManifest sha disk (a.hash sha) = .ok b →
      ((b.runtimeFingerprint = a.runtimeFingerprint ∧ b.modelId = a.modelId ∧
        b.templateSig = a.templateSig) ↔ ¬ a.key.Resplits b.key) ∧
      (writeManifest sha a).run disk = (.ok (), disk) ∧
      (a.key = b.key ↔ ¬ a.key.Resplits b.key) := by
  have hinj := hash_inj_iff hsha
  refine ⟨hinj, ?_⟩
  intro disk hread
  obtain ⟨hhash, _, hsome⟩ := readManifest_eq_ok sha hread
  have hkey : a.key = b.key ↔ ¬ a.key.Resplits b.key := by
    rw [← hinj]
    exact ⟨fun h _ => h, fun h => h hhash.symm⟩
  refine ⟨?_, writeManifest_of_isSome sha hsome, hkey⟩
  rw [← hkey]
  constructor
  · rintro ⟨_, hmodel, htemplate⟩
    refine hkey.mpr ?_
    rintro ⟨_, _, h | h⟩
    · exact h (by rw [Manifest.key, Manifest.key, hmodel])
    · exact h (by rw [Manifest.key, Manifest.key, htemplate])
  · intro h
    exact ⟨(congrArg runtimeFingerprint h).symm, (congrArg modelId h).symm,
      (congrArg templateSig h).symm⟩

/-- A manifest of one block, under a model id and a template signature. -/
def oneBlock (modelId templateSig : String) : Manifest :=
  ⟨Digest.zero, modelId, templateSig, 2048, [Digest.zero], 2048, 2048, 1⟩

theorem manifestAddress_injective_iff_same_model :
    ((oneBlock "m" "t").hash sha256 = (oneBlock "m" "u").hash sha256 →
      (oneBlock "m" "t").key = (oneBlock "m" "u").key) ∧
    ¬ (oneBlock "m" "t").key.Resplits (oneBlock "m" "u").key := by
  have hne : sha256 (oneBlock "m" "t").key.preimage ≠ sha256 (oneBlock "m" "u").key.preimage := by
    decide +kernel
  have hsha : Set.InjOn sha256 {(oneBlock "m" "t").key.preimage,
      (oneBlock "m" "u").key.preimage} := by
    rintro x (rfl | rfl) y (rfl | rfl) h
    · rfl
    · exact absurd h hne
    · exact absurd h.symm hne
    · rfl
  have hsplit : ¬ (oneBlock "m" "t").key.Resplits (oneBlock "m" "u").key := by decide
  exact ⟨(manifestAddress_injective_iff sha256 (oneBlock "m" "t") (oneBlock "m" "u")
    hsha).1.mpr hsplit, hsplit⟩

/-- Model `ab` with template `c` and model `a` with template `bc` share an address: the second is
served the manifest of the first, and is never published. -/
theorem manifestAddress_shared : let disk : Disk := ((writeManifest sha256 (oneBlock "ab" "c")).run
      ⟨some [⟨hexDigest Digest.zero, .dir []⟩], none, none⟩).2
    let again : Except Fault Unit × Disk := (writeManifest sha256 (oneBlock "a" "bc")).run disk
    (oneBlock "a" "bc").key ≠ (oneBlock "ab" "c").key ∧
    (oneBlock "a" "bc").hash sha256 = (oneBlock "ab" "c").hash sha256 ∧
    readManifest sha256 disk ((oneBlock "a" "bc").hash sha256) = .ok (oneBlock "ab" "c") ∧
    again = (.ok (), disk) := by
  decide +kernel

end Manifests

end Mlxcel.ColdStore
