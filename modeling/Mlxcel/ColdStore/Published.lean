import Mlxcel.ColdStore.Load
import Mlxcel.ColdStore.Generations

/-!
# What is published can be read

A manifest, a block header and a session index each have a writer and a reader, and each reader has
limits of its own: one MiB for a string, 8192 for a block size, two million tokens or blocks, 1024
layers, 64 MiB for an index. The writers check none of them. This file says exactly when the
matching reader returns what was published.

**Enough.** `Reads x bytes a` says that the reader `x` consumes `bytes` and returns `a`, whatever
follows. It composes like the readers do, so that the proof for a record follows the order of its
fields.

**Necessary.** Whatever a reader returns is within its limits (`Returns`), so that a value outside
is never returned.
-/

namespace Mlxcel.ColdStore

open List Delimited Text Calls SessionWorld Except Fallible

/-! ## Readers on what was written -/

section Reads

variable {α β : Type}

/-- The reader consumes the bytes and returns the value, whatever follows. -/
def Reads (x : Reader α) (bytes : List UInt8) (a : α) : Prop :=
  ∀ rest, x (bytes ++ rest) = .ok (a, rest)

lemma Reads.pure (a : α) : Reads (Pure.pure a) [] a := fun _ => rfl

variable {bytes : List UInt8} {a : α} {n : ℕ}

variable {f : α → Reader β}

variable {x : Reader α} {b : β}

lemma Reads.bind {bytes' : List UInt8} (hx : Reads x bytes a) (hf : Reads (f a) bytes' b) :
    Reads (x >>= f) (bytes ++ bytes') b := by
  intro rest
  show (x (bytes ++ bytes' ++ rest) >>= fun p => f p.1 p.2) = _
  rw [append_assoc, hx]
  exact hf rest

lemma Reads.check {x : Outcome α} (hx : x = .ok a) (hf : Reads (f a) bytes b) :
    Reads (liftM x >>= f) bytes b := by
  have hlift : Reads (liftM x) [] a := by
    intro rest
    rw [hx]
    rfl
  exact hlift.bind hf

lemma Reads.last (hx : Reads x bytes a) (hf : Reads (f a) [] b) :
    Reads (x >>= f) bytes b := by
  rw [← append_nil bytes]
  exact hx.bind hf

lemma Reads.run' (h : Reads x bytes a) : x.run' bytes = .ok a := by
  have hx := h []
  rw [append_nil] at hx
  simp only [StateT.run', hx]
  rfl

lemma reads_readExact (h : bytes.length = n) : Reads (readExact n) bytes bytes := by
  intro rest
  rw [readExact, if_pos (by simp [h]), take_left' h, drop_left' h]

lemma reads_number {w : ℕ} (h : n < 256 ^ w) :
    Reads (do return leNat (← readExact w)) (leBytes w n) n := by
  refine .last (reads_readExact (length_leBytes w n)) ?_
  rw [leNat_leBytes_of_lt h]
  exact .pure n

lemma reads_readU32 (h : n < 2 ^ 32) : Reads readU32 (leBytes 4 n) n := reads_number h

lemma reads_readU64 (h : n < 2 ^ 64) : Reads readU64 (leBytes 8 n) n := reads_number h

lemma reads_readU128 (h : n < 2 ^ 128) : Reads readU128 (leBytes 16 n) n := reads_number h

lemma reads_readDigest (d : Digest) : Reads readDigest d.bytes d := by
  intro rest
  have hlen : 32 ≤ (d.bytes ++ rest).length := by simp
  rw [readDigest, dif_pos hlen]
  simp

lemma reads_readI32 (t : Token) : Reads readI32 (tokenBytes t) t := by
  have hlt : t.toUInt32.toNat < 256 ^ 4 := t.toUInt32.toNat_lt
  have hval : .ofNat t.toUInt32.toNat = t := by
    simp [Int32.ofNat]
  refine .last (reads_readExact (length_leBytes 4 t.toUInt32.toNat)) ?_
  rw [tokenBytes, leNat_leBytes_of_lt hlt, hval]
  exact .pure t

lemma reads_readMany {read : Reader α} {encode : α → List UInt8} {as : List α}
    (h : ∀ a ∈ as, Reads read (encode a) a) :
    Reads (readMany read as.length) (as.flatMap encode) as := by
  induction as with
  | nil => exact .pure []
  | cons a as ih =>
    have has := ih fun b hb => h b (mem_cons_of_mem a hb)
    exact .bind (h a mem_cons_self) (.last has (.pure (a :: as)))

lemma boundedUsize_of_le {value maximum : ℕ} (field : String) (h : value ≤ maximum) :
    boundedUsize value maximum field = .ok value := by
  rw [boundedUsize, if_neg (not_lt.mpr h)]
  rfl

lemma reads_readBoundedString {s : String} (h : (utf8 s).length ≤ maxStringBytes) :
    Reads readBoundedString (leBytes 4 (utf8 s).length ++ utf8 s) s := by
  have hlt : (utf8 s).length < 2 ^ 32 := by
    rw [maxStringBytes] at h
    omega
  have hvalid : String.fromUTF8? ⟨(utf8 s).toArray⟩ = some s := ofUtf8?_utf8 s
  refine .bind (reads_readU32 hlt) (.check (boundedUsize_of_le _ h) ?_)
  refine .last (reads_readExact rfl) ?_
  rw [hvalid]
  exact .pure s

lemma reads_readFormatVersion :
    Reads readFormatVersion (leBytes 4 v4FormatVersion) v4FormatVersion :=
  .last (reads_readU32 (by decide)) (.pure _)

end Reads

/-! ## What a reader returns -/

section Limits

variable {α : Type}

lemma returns_readExact (n : ℕ) : Returns (fun bytes => bytes.length = n) (readExact n) := by
  intro bytes a rest h
  rw [readExact] at h
  split_ifs at h with hle
  rw [ok.injEq, Prod.mk.injEq] at h
  rw [← h.1, length_take, min_eq_left hle]

lemma returns_readMany (read : Reader α) (n : ℕ) :
    Returns (fun as => as.length = n) (readMany read n) := by
  induction n with
  | zero => exact .pure rfl
  | succ n ih =>
    refine .skip fun a => .bind ih fun as has => .pure ?_
    rw [length_cons, has]

lemma returns_readBoundedString :
    Returns (fun s => (utf8 s).length ≤ maxStringBytes) readBoundedString := by
  refine .skip fun _ => .bind (.lift fun _ => le_of_boundedUsize) fun len hlen => ?_
  refine .bind (returns_readExact len) fun bytes hbytes => ?_
  split
  · rename_i s hs
    refine .pure ?_
    rw [utf8_of_ofUtf8? hs, hbytes]
    exact hlen
  · exact .throw _

/-- The limits of `decode_manifest`. -/
structure Manifest.WithinLimits (m : Manifest) : Prop where
  modelId : (utf8 m.modelId).length ≤ maxStringBytes
  templateSig : (utf8 m.templateSig).length ≤ maxStringBytes
  blockSize : m.blockSize ≤ maxBlockSize
  blockHashes : m.blockHashes.length ≤ maxTokens
  promptLen : m.promptLen ≤ maxTokens
  totalTokens : m.totalTokens ≤ maxTokens

lemma returns_readManifestFields : Returns Manifest.WithinLimits readManifestFields := by
  refine .skip fun _ => .skip fun _ => ?_
  refine .bind returns_readBoundedString fun modelId hmodel => ?_
  refine .bind returns_readBoundedString fun templateSig htemplate => ?_
  refine .skip fun _ => .bind (.lift fun _ => le_of_boundedUsize) fun blockSize hsize => ?_
  refine .skip fun _ => .bind (.lift fun _ => le_of_boundedUsize) fun blockCount hcount => ?_
  refine .bind (returns_readMany readDigest blockCount) fun blockHashes hhashes => ?_
  refine .skip fun _ => .bind (.lift fun _ => le_of_boundedUsize) fun promptLen hprompt => ?_
  refine .skip fun _ => .bind (.lift fun _ => le_of_boundedUsize) fun totalTokens htotal => ?_
  exact .skip fun _ => .pure ⟨hmodel, htemplate, hsize, hhashes ▸ hcount, hprompt, htotal⟩

lemma returns_readBlockHeaderFields :
    Returns (fun header => header.tokenCount ≤ maxTokens ∧ header.layerCount ≤ maxLayers)
      readBlockHeaderFields := by
  refine .skip fun _ => .skip fun _ => .skip fun _ => ?_
  refine .bind (.lift fun _ => le_of_boundedUsize) fun tokenCount htokens => ?_
  refine .skip fun _ => .skip fun _ => ?_
  refine .bind (.lift fun _ => le_of_boundedUsize) fun layerCount hlayers => ?_
  exact .skip fun _ => .pure ⟨htokens, hlayers⟩

end Limits

/-! ## Records read back -/

variable {bytes : List UInt8}

lemma writeBoundedString_eq_ok {s : String} (h : writeBoundedString s = .ok bytes) :
    bytes = leBytes 4 (utf8 s).length ++ utf8 s := by
  rw [writeBoundedString] at h
  split_ifs at h
  exact (pure_eq_ok.mp h).symm

variable {m : Manifest}

lemma reads_readManifestFields (hbytes : encodeManifest m = .ok bytes) (hm : m.WithinLimits)
    (htime : m.timestampNanos < 2 ^ 128) :
    Reads readManifestFields bytes m := by
  simp only [encodeManifest, bind_eq_ok, pure_eq_ok] at hbytes
  obtain ⟨modelId, hmodel, templateSig, htemplate, rfl⟩ := hbytes
  rw [writeBoundedString_eq_ok hmodel, writeBoundedString_eq_ok htemplate]
  simp only [append_assoc]
  rw [← append_assoc (leBytes 4 _) (utf8 _), ← append_assoc (leBytes 4 _) (utf8 _)]
  refine .bind reads_readFormatVersion (.bind (reads_readDigest _) ?_)
  refine .bind (reads_readBoundedString hm.modelId) ?_
  refine .bind (reads_readBoundedString hm.templateSig) ?_
  refine .bind (reads_readU64 (hm.blockSize.trans_lt (by decide))) ?_
  refine .check (boundedUsize_of_le _ hm.blockSize) ?_
  refine .bind (reads_readU64 (hm.blockHashes.trans_lt (by decide))) ?_
  refine .check (boundedUsize_of_le _ hm.blockHashes) ?_
  refine .bind (reads_readMany fun d _ => reads_readDigest d) ?_
  refine .bind (reads_readU64 (hm.promptLen.trans_lt (by decide))) ?_
  refine .check (boundedUsize_of_le _ hm.promptLen) ?_
  refine .bind (reads_readU64 (hm.totalTokens.trans_lt (by decide))) ?_
  refine .check (boundedUsize_of_le _ hm.totalTokens) ?_
  exact .last (reads_readU128 htime) (.pure m)

/-- The manifest reader returns what was written exactly within its limits. -/
lemma decodeManifest_eq_ok_iff (hbytes : encodeManifest m = .ok bytes)
    (htime : m.timestampNanos < 2 ^ 128) :
    decodeManifest bytes = .ok m ↔ m.WithinLimits := by
  constructor
  · intro h
    exact returns_readManifestFields.run' h
  · intro h
    exact (reads_readManifestFields hbytes h htime).run'

lemma reads_readLayerMetadata {layer : LayerMetadata} (hindex : layer.index < 2 ^ 32)
    (hlen : layer.byteLen < 2 ^ 64) :
    Reads readLayerMetadata (leBytes 4 layer.index ++ leBytes 8 layer.byteLen ++ layer.sha256.bytes)
      layer := by
  rw [append_assoc]
  refine .bind (reads_readU32 hindex) (.bind (reads_readU64 hlen) ?_)
  exact .last (reads_readDigest _) (.pure layer)

variable (sha : List UInt8 → Digest)

/-- What `write_block` puts into a header. -/
def blockHeader (blockHash : Digest) (tokens : List Token)
    (layerBytes : List (List UInt8)) : BlockHeader where
  formatVersion := v4FormatVersion
  blockHash := blockHash
  tokenCount := tokens.length
  tokens := tokens
  layerCount := layerBytes.length
  layers := layerBytes.zipIdx.map fun layer => ⟨layer.2 % 2 ^ 32, layer.1.length, sha layer.1⟩

variable {blockHash : Digest} {tokens : List Token} {layerBytes : List (List UInt8)}

lemma reads_readBlockHeaderFields {sha : List UInt8 → Digest}
    (hlayers : ∀ bytes ∈ layerBytes, bytes.length < 2 ^ 64) (htokens : tokens.length ≤ maxTokens)
    (hcount : layerBytes.length ≤ maxLayers) :
    Reads readBlockHeaderFields (encodeBlockHeader (blockHeader sha blockHash tokens layerBytes))
      (blockHeader sha blockHash tokens layerBytes) := by
  have htokens64 : tokens.length < 2 ^ 64 := htokens.trans_lt (by decide)
  have hcount32 : layerBytes.length < 2 ^ 32 := hcount.trans_lt (by decide)
  have hmetadata : ∀ layer ∈ (blockHeader sha blockHash tokens layerBytes).layers,
      layer.index < 2 ^ 32 ∧ layer.byteLen < 2 ^ 64 := by
    intro layer hlayer
    obtain ⟨⟨bytes, i⟩, hmem, rfl⟩ := mem_map.mp hlayer
    exact ⟨Nat.mod_lt _ (by decide), hlayers bytes (fst_mem_of_mem_zipIdx hmem)⟩
  have hread := reads_readMany fun layer hlayer =>
    reads_readLayerMetadata (hmetadata layer hlayer).1 (hmetadata layer hlayer).2
  have hlength : (blockHeader sha blockHash tokens layerBytes).layers.length
      = layerBytes.length := by simp [blockHeader]
  rw [hlength] at hread
  simp only [encodeBlockHeader, append_assoc]
  refine .bind reads_readFormatVersion (.bind (reads_readDigest _) ?_)
  refine .bind (reads_readU64 htokens64) (.check (boundedUsize_of_le _ htokens) ?_)
  refine .bind (reads_readMany fun t _ => reads_readI32 t) ?_
  refine .bind (reads_readU32 hcount32) (.check (boundedUsize_of_le _ hcount) ?_)
  exact .last hread (.pure _)

/-- The header reader returns what was written exactly within its limits. -/
lemma decodeBlockHeader_eq_ok_iff {sha : List UInt8 → Digest}
    (hlayers : ∀ bytes ∈ layerBytes, bytes.length < 2 ^ 64) :
    decodeBlockHeader (encodeBlockHeader (blockHeader sha blockHash tokens layerBytes))
        = .ok (blockHeader sha blockHash tokens layerBytes) ↔
      tokens.length ≤ maxTokens ∧ layerBytes.length ≤ maxLayers := by
  constructor
  · intro h
    exact returns_readBlockHeaderFields.run' h
  · rintro ⟨htokens, hcount⟩
    exact (reads_readBlockHeaderFields hlayers htokens hcount).run'

/-! ## Publishing a block -/

/-- The files of a directory with `bytes` under `name`, in place of what was there. -/
def putFile (name : String) (bytes : List UInt8) (files : List (String × List UInt8)) :
    List (String × List UInt8) :=
  (name, bytes) :: files.filter fun file => file.1 != name

/-- The files that `create_dir_all` leaves in the staged directory: those of an earlier attempt that
did not get as far as its rename. -/
def stagedFiles (disk : Disk) (staged : String) : Outcome (List (String × List UInt8)) :=
  match lookup disk.blocks staged with
  | none => pure []
  | some (.dir files) => pure files
  | some (.file _) => throw (.err (.io .other "File exists (os error 17)"))
  | some .unreadable => throw (.err (.io .other "Permission denied (os error 13)"))

/-- The files of a block, the header first and then the layers in order. -/
def blockFiles (blockHash : Digest) (tokens : List Token)
    (layerBytes : List (List UInt8)) (files : List (String × List UInt8)) :
    List (String × List UInt8) :=
  layerBytes.zipIdx.foldl (fun files layer => putFile (layerFileName layer.2) layer.1 files)
    (putFile "header.bin" (encodeBlockHeader (blockHeader sha blockHash tokens layerBytes)) files)

/-- One publication of a block with nothing else running. `serialized` is what
`serialize_cache_set_layers` returns for the cache set. -/
def writeBlock (blockHash : Digest) (tokens : List Token)
    (serialized : Outcome (List (List UInt8))) : StoreM Unit := do
  let name := hexDigest blockHash
  let staged := ".tmp." ++ name
  let disk ← get
  if (lookup disk.blocks name).isSome then
    return ()
  else
    let layerBytes ← serialized
    let files ← stagedFiles disk staged
    modify fun disk =>
      { disk with blocks := some (putEntry staged
          (.dir (blockFiles sha blockHash tokens layerBytes files)) (disk.blocks.getD [])) }
    modify fun disk =>
      { disk with blocks := some (putEntry name
          (.dir (blockFiles sha blockHash tokens layerBytes files))
          ((disk.blocks.getD []).filter fun entry => entry.name != staged)) }

/-! ## What is on disk after a publication -/

section Publish

variable {sha : List UInt8 → Digest}

variable (name : String)

@[simp] lemma lookup_putEntry_self (node : Node) (entries : List Entry) :
    lookup (some (putEntry name node entries)) name = some node := by
  simp [lookup, putEntry]

lemma lookup_putFile_self (bytes : List UInt8) (files : List (String × List UInt8)) :
    (putFile name bytes files).lookup name = some bytes := by
  simp [putFile]

lemma lookup_putFile_of_ne {name other : String} (h : name ≠ other) (bytes : List UInt8)
    (files : List (String × List UInt8)) :
    (putFile other bytes files).lookup name = files.lookup name := by
  rw [putFile, lookup_cons, beq_false_of_ne h]
  induction files with
  | nil => rfl
  | cons file files ih =>
    obtain ⟨k, v⟩ := file
    by_cases hk : k = other
    · rw [filter_cons_of_neg (by simp [hk]), ih, lookup_cons, hk, beq_false_of_ne h]
    · rw [filter_cons_of_pos (by simp [hk])]
      simp only [lookup_cons] at ih ⊢
      rw [ih]

lemma layerFileName_ne_header (i : ℕ) : "header.bin" ≠ layerFileName i := by
  intro h
  have hheader : (utf8 "header.bin").head? = some 104 := by decide +kernel
  have hlayer : (utf8 "layer_").head? = some 108 := by decide +kernel
  rw [h, layerFileName] at hheader
  simp only [utf8_append, head?_append, hlayer] at hheader
  simp at hheader

/-- No layer file takes the place of the header. -/
lemma lookup_blockFiles (blockHash : Digest) (tokens : List Token)
    (layerBytes : List (List UInt8)) (files : List (String × List UInt8)) :
    (blockFiles sha blockHash tokens layerBytes files).lookup "header.bin"
      = some (encodeBlockHeader (blockHeader sha blockHash tokens layerBytes)) := by
  have hfold : ∀ (layers : List (List UInt8 × ℕ)) (files : List (String × List UInt8)),
      (layers.foldl (fun files layer => putFile (layerFileName layer.2) layer.1 files) files).lookup
        "header.bin" = files.lookup "header.bin" := by
    intro layers
    induction layers with
    | nil => intro files; rfl
    | cons layer layers ih =>
      intro files
      rw [foldl_cons, ih, lookup_putFile_of_ne (layerFileName_ne_header _)]
  rw [blockFiles, hfold, lookup_putFile_self]

variable {disk disk' : Disk}

lemma manifest_of_writeManifest {m : Manifest}
    (hfree : lookup disk.manifests (hexDigest (m.hash sha)) = none)
    (h : on (writeManifest sha m) disk = (.ok (), disk')) :
    ∃ bytes, encodeManifest m = .ok bytes ∧
      lookup disk'.manifests (hexDigest (m.hash sha)) = some (.dir [("manifest.bin", bytes)]) := by
  simp only [writeManifest, on_get_bind, hfree, Option.isSome_none, Bool.false_eq_true, if_false,
    on_bind_eq_ok, on_lift, Prod.mk.injEq] at h
  obtain ⟨_, _, _, _, _, _, bytes, _, ⟨hbytes, _⟩, _, _, _, _, _, _, _, _, _, _, rfl⟩ := h
  exact ⟨bytes, hbytes, lookup_putEntry_self _ _ _⟩

lemma header_of_writeBlock {blockHash : Digest} {tokens : List Token}
    {layerBytes : List (List UInt8)} (hfree : lookup disk.blocks (hexDigest blockHash) = none)
    (h : on (writeBlock sha blockHash tokens (.ok layerBytes)) disk = (.ok (), disk')) :
    ∃ files, lookup disk'.blocks (hexDigest blockHash) = some (.dir files) ∧
      files.lookup "header.bin"
        = some (encodeBlockHeader (blockHeader sha blockHash tokens layerBytes)) := by
  simp only [writeBlock, on_get_bind, hfree, Option.isSome_none, Bool.false_eq_true, if_false,
    on_bind_eq_ok] at h
  obtain ⟨_, _, ⟨⟨⟩, _⟩, files, _, _, _, _, _, _, rfl⟩ := h
  exact ⟨_, lookup_putEntry_self _ _ _, lookup_blockFiles blockHash tokens layerBytes files⟩

variable {root : String}

/-- The index after a recording that added an association to it. -/
lemma index_of_recordSessionManifest {env : Env} {key : String} {manifestHash : Digest}
    {dir dir' : SessionsDir} {f : SessionIndexFile} {a : SessionAssociation}
    (hf : indexIn sha root dir (sessionKeyDigest sha key) = .ok f) (hnew : a ∉ f.associations)
    (h : on (recordSessionManifest sha root env key manifestHash) dir = (.ok a, dir')) :
    dir'.index (sessionKeyDigest sha key) = some (encodeSessionIndexFile sha
      (sessionKeyDigest sha key) (f.associations ++ [a])) := by
  rcases recordSessionManifest_cases h with ⟨e, he, _⟩ | ⟨r, dir₁, hlocked, hcall⟩
  · cases he
  -- opening the registry does not touch the index
  have hsame : indexIn sha root dir₁ (sessionKeyDigest sha key) = .ok f := by
    rcases hlocked with ⟨_, rfl⟩ | ⟨_, _, _, _, rfl⟩
    · exact hf
    · exact hf
  rcases hcall with ⟨e, he, _⟩ | ⟨f', hf', hout, hcall⟩
  · cases he
  rw [hsame, ok.injEq] at hf'
  subst hf'
  rw [ok.injEq] at hout
  subst hout
  rcases hcall with ⟨hmem, _⟩ | ⟨_, hdir⟩
  · exact absurd hmem hnew
  · rw [hdir, SessionsDir.putIndex_self]

/-- The index reader returns what was written exactly up to the ceiling. -/
lemma indexIn_eq_ok_iff {dir : SessionsDir} {d : Digest} {entries : List SessionAssociation}
    (h : dir.index d = some (encodeSessionIndexFile sha d entries)) :
    indexIn sha root dir d = .ok ⟨some d, entries⟩ ↔ entries.length ≤ maxAssociations := by
  rw [indexIn, h, readSessionIndexFile_eq_ok, ← length_encodeSessionIndexFile_le_iff]
  constructor
  · rintro ⟨_, _, _, _, hmax⟩
    exact hmax
  · intro hmax
    exact ⟨d, entries, rfl, rfl, hmax⟩

end Publish

/-- **What is published can be read**, exactly within the limits of the readers: of a manifest under
a free address, of the header of a block under a free address, and of an index to which an
association was added. -/
theorem published_accepted_iff (sha : List UInt8 → Digest) (root : String) :
    (∀ (disk disk' : Disk) (m : Manifest), m.timestampNanos < 2 ^ 128 →
      lookup disk.manifests (hexDigest (m.hash sha)) = none →
      on (writeManifest sha m) disk = (.ok (), disk') →
      ∃ bytes,
        lookup disk'.manifests (hexDigest (m.hash sha)) = some (.dir [("manifest.bin", bytes)]) ∧
        (decodeManifest bytes = .ok m ↔ m.WithinLimits)) ∧
    (∀ (disk disk' : Disk) (blockHash : Digest) (tokens : List Token)
      (layerBytes : List (List UInt8)), (∀ bytes ∈ layerBytes, bytes.length < 2 ^ 64) →
      lookup disk.blocks (hexDigest blockHash) = none →
      on (writeBlock sha blockHash tokens (.ok layerBytes)) disk = (.ok (), disk') →
      ∃ files bytes, lookup disk'.blocks (hexDigest blockHash) = some (.dir files) ∧
        files.lookup "header.bin" = some bytes ∧
        (decodeBlockHeader bytes = .ok (blockHeader sha blockHash tokens layerBytes) ↔
          tokens.length ≤ maxTokens ∧ layerBytes.length ≤ maxLayers)) ∧
    (∀ (env : Env) (key : String) (manifestHash : Digest) (dir dir' : SessionsDir)
      (f : SessionIndexFile) (a : SessionAssociation),
      indexIn sha root dir (sessionKeyDigest sha key) = .ok f → a ∉ f.associations →
      on (recordSessionManifest sha root env key manifestHash) dir = (.ok a, dir') →
      (indexIn sha root dir' (sessionKeyDigest sha key)
          = .ok ⟨some (sessionKeyDigest sha key), f.associations ++ [a]⟩ ↔
        f.associations.length < maxAssociations)) := by
  refine ⟨?_, ?_, ?_⟩
  · intro disk disk' m htime hfree h
    obtain ⟨bytes, hbytes, hlookup⟩ := manifest_of_writeManifest hfree h
    exact ⟨bytes, hlookup, decodeManifest_eq_ok_iff hbytes htime⟩
  · intro disk disk' blockHash tokens layerBytes hlayers hfree h
    obtain ⟨files, hlookup, hheader⟩ := header_of_writeBlock hfree h
    exact ⟨files, _, hlookup, hheader, decodeBlockHeader_eq_ok_iff hlayers⟩
  · intro env key manifestHash dir dir' f a hf hnew h
    rw [indexIn_eq_ok_iff (index_of_recordSessionManifest hf hnew h), length_append]
    exact Nat.succ_le_iff

/-- A store with one block and no manifest. -/
def oneBlockDisk : Disk := ⟨some [⟨hexDigest Digest.zero, .dir []⟩], none, none⟩

/-- A manifest of one block, the header of another block and a first recording are published and
read back. -/
theorem published_accepted_iff_one_block :
    (∃ bytes, lookup (on (writeManifest sha256 (oneBlock "m" "t")) oneBlockDisk).2.manifests
        (hexDigest ((oneBlock "m" "t").hash sha256)) = some (.dir [("manifest.bin", bytes)]) ∧
      decodeManifest bytes = .ok (oneBlock "m" "t")) ∧
    (∃ files bytes, lookup (on (writeBlock sha256 (numbered 1) [5, 6] (.ok [[7], []]))
        oneBlockDisk).2.blocks (hexDigest (numbered 1)) = some (.dir files) ∧
      files.lookup "header.bin" = some bytes ∧
      decodeBlockHeader bytes = .ok (blockHeader sha256 (numbered 1) [5, 6] [[7], []])) ∧
    indexIn sha256 "sessions" (on (recordSessionManifest sha256 "sessions"
        (workingEnv (.ok firstIncarnation)) "s" (numbered 7)) init.dir).2 (sessionKeyDigest sha256 "s")
      = .ok ⟨some (sessionKeyDigest sha256 "s"),
          [(freshRegistry firstIncarnation).association (numbered 7)]⟩ := by
  have hpublished := published_accepted_iff sha256 "sessions"
  refine ⟨?_, ?_, ?_⟩
  · rcases hpublished.1 oneBlockDisk _ (oneBlock "m" "t") (by decide) (by decide +kernel)
      (Prod.ext (by decide +kernel) rfl) with ⟨bytes, hlookup, hdecode⟩
    refine ⟨bytes, hlookup, hdecode.mpr ?_⟩
    constructor <;> decide +kernel
  · rcases hpublished.2.1 oneBlockDisk _ (numbered 1) [5, 6] [[7], []] (by decide)
      (by decide +kernel) (Prod.ext (by decide +kernel) rfl) with
      ⟨files, bytes, hlookup, hheader, hdecode⟩
    exact ⟨files, bytes, hlookup, hheader, hdecode.mpr (by decide)⟩
  · exact (hpublished.2.2 (workingEnv (.ok firstIncarnation)) "s" (numbered 7) init.dir _
      ⟨none, []⟩ _ rfl (by simp) (Prod.ext (by decide +kernel) rfl)).mpr (by decide)

/-- A manifest with a block size of 16384 is published, and cannot be read. -/
theorem not_accepted_large_block_size :
    let m : Manifest := { oneBlock "m" "t" with blockSize := 16384 }
    let out : Except Fault Unit × Disk := on (writeManifest sha256 m) oneBlockDisk
    out.1 = .ok () ∧
    (lookup out.2.manifests (hexDigest (m.hash sha256))).isSome ∧
    readManifest sha256 out.2 (m.hash sha256)
      = .error (invalidData "block size 16384 exceeds limit 8192") := by
  decide +kernel

end Mlxcel.ColdStore
