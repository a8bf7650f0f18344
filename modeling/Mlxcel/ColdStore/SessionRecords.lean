import Mlxcel.ColdStore.Manifest
import Mlxcel.Lib.Slices

/-!
# The authority records of a session

Two small files per session key decide which manifests may be cleaned up: the registry, with the
generation that is open and the last one that was closed, and the index, with the manifests that
were recorded. Both are binary with fields of fixed width, and end in a digest of everything before
it.

**Canonical.** `readSessionIndexFile_eq_ok` and `readSessionRegistryFile_eq_ok` say exactly which
byte strings the readers accept: those that the writers render, within the size ceiling and with a
cutoff below the open generation. Everything else about the records follows from these two.

**Tampering.** A record that differs from a written one in one field, or is a part or an extension
of it, is not accepted: the digest covers the fields before it, and the length is fixed by the
declared count.

The reader takes the contents of the file, or `none` if there is no such file. Other failures of
the file system while reading are not modelled.
-/

namespace Mlxcel.ColdStore

open List Delimited Slices Text Digest Option Fallible

/-- The sixteen bytes of an `IncarnationId`. -/
structure IncarnationId where
  bytes : List UInt8
  length_bytes : bytes.length = 16
deriving DecidableEq, Repr

attribute [simp] IncarnationId.length_bytes

lemma IncarnationId.bytes_injective : Function.Injective IncarnationId.bytes := by
  rintro ⟨a, _⟩ ⟨b, _⟩ h
  simpa using h

structure SessionRegistry where
  incarnation : IncarnationId
  currentGeneration : UInt64
  closedThrough : Option UInt64
  lastEventId : Digest
deriving DecidableEq, Repr

structure SessionAssociation where
  incarnation : IncarnationId
  manifestHash : Digest
  generation : UInt64
deriving DecidableEq, Repr

/-- One parsed index file; without a key digest if there is no file. -/
structure SessionIndexFile where
  keyDigest : Option Digest
  associations : List SessionAssociation
deriving DecidableEq, Repr

def sessionIndexMagic : List UInt8 := utf8 "MLXSIDX1"
def sessionIndexVersion : ℕ := 3
def sessionRegistryMagic : List UInt8 := utf8 "MLXSGEN1"
def sessionRegistryVersion : ℕ := 2
def closedThroughNoneOnDisk : UInt64 := UInt64.ofNat (2 ^ 64 - 1)
def maxSessionIndexBytes : ℕ := 64 * 1024 * 1024
def authorityDigestLen : ℕ := 32

/-! ## Writing -/

def sealAuthorityRecord (sha : List UInt8 → Digest) (body : List UInt8) : List UInt8 :=
  body ++ (sha body).bytes

def encodeAssociation (a : SessionAssociation) : List UInt8 :=
  a.incarnation.bytes ++ (leBytes 8 a.generation.toNat ++ a.manifestHash.bytes)

/-- The index before it is sealed. The count is cast to `u32`. -/
def indexBody (keyDigest : Digest) (entries : List SessionAssociation) : List UInt8 :=
  sessionIndexMagic ++ (leBytes 4 sessionIndexVersion ++ (keyDigest.bytes ++
    (leBytes 4 entries.length ++ entries.flatMap encodeAssociation)))

def encodeSessionIndexFile (sha : List UInt8 → Digest) (keyDigest : Digest)
    (entries : List SessionAssociation) : List UInt8 :=
  sealAuthorityRecord sha (indexBody keyDigest entries)

def registryBody (keyDigest : Digest) (reg : SessionRegistry) : List UInt8 :=
  sessionRegistryMagic ++ (leBytes 4 sessionRegistryVersion ++ (keyDigest.bytes ++
    (reg.incarnation.bytes ++ (leBytes 8 reg.currentGeneration.toNat ++
      (leBytes 8 (reg.closedThrough.getD closedThroughNoneOnDisk).toNat ++
        reg.lastEventId.bytes)))))

/-- The bytes that `write_session_registry_file` writes. -/
def encodeSessionRegistryFile (sha : List UInt8 → Digest) (keyDigest : Digest)
    (reg : SessionRegistry) : List UInt8 :=
  sealAuthorityRecord sha (registryBody keyDigest reg)

/-! ## Reading -/

/-- Read a file only if its size is within the ceiling. -/
def readBounded (file : Option (List UInt8)) (max : ℕ) (malformed : String → Fault) :
    Outcome (Option (List UInt8)) :=
  match file with
  | none => pure none
  | some raw =>
    if max < raw.length then
      throw (malformed (s!"is {raw.length} bytes, over the {max}-byte ceiling; refusing to " ++
        "read it into memory"))
    else pure (some raw)

/-- Magic and version stand at fixed offsets and are checked before the digest. -/
def checkAuthorityPreamble (raw magic : List UInt8) (expectedVersion : ℕ) (bad : String → Fault) :
    Outcome Unit :=
  if raw.length < 12 then throw (bad "shorter than its magic and version")
  else if slice raw 0 8 ≠ magic then throw (bad "bad magic")
  else
    let version := leNat (slice raw 8 4)
    if version ≠ expectedVersion then
      throw (bad (s!"unsupported/unsealed authority-record version {version}; this build writes " ++
        s!"{expectedVersion}. Integrity cannot be established: without a valid seal, a genuine " ++
        "pre-seal file and a current file whose version field was altered are " ++
        "indistinguishable. Refusing either way"))
    else pure ()

/-- Verify and strip the digest at the end. -/
def openAuthorityRecord (sha : List UInt8 → Digest) (raw : List UInt8)
    (malformed : String → Fault) : Outcome (List UInt8) :=
  if raw.length < authorityDigestLen then throw (malformed "shorter than its integrity digest")
  else
    let body := raw.take (raw.length - authorityDigestLen)
    let stored := raw.drop (raw.length - authorityDigestLen)
    if (sha body).bytes ≠ stored then
      throw (malformed ("integrity digest mismatch — the record was altered after it was " ++
        "written. Refusing to interpret ANY field: a same-length flip in an incarnation, " ++
        "generation, cutoff or manifest hash parses cleanly and reads as an ordinary answer"))
    else pure body

/-- The digest at an offset, where there is room for one. -/
def digestAt (raw : List UInt8) (start : ℕ) : Digest :=
  if h : (slice raw start 32).length = 32 then ⟨slice raw start 32, h⟩ else zero

def incarnationAt (raw : List UInt8) (start : ℕ) : IncarnationId :=
  if h : (slice raw start 16).length = 16 then ⟨slice raw start 16, h⟩
  else ⟨replicate 16 0, rfl⟩

def u64At (raw : List UInt8) (start : ℕ) : UInt64 := UInt64.ofNat (leNat (slice raw start 8))

/-- The association at an offset of 56 bytes. -/
def associationAt (raw : List UInt8) (off : ℕ) : SessionAssociation :=
  { incarnation := incarnationAt raw off
    generation := u64At raw (off + 16)
    manifestHash := digestAt raw (off + 24) }

def malformedIndex (path why : String) : Fault :=
  invalidData ("session index " ++ path ++ " is malformed (" ++ why ++ "). Refusing to parse: a " ++
    "partial read would under-report this session's associations, and an under-reported session " ++
    "looks exactly like a clean one.")

/-- The length that the count declares fits into 64 bits, so its two overflow checks always pass. -/
def readSessionIndexFile (sha : List UInt8 → Digest) (path : String)
    (file : Option (List UInt8)) : Outcome SessionIndexFile := do
  match ← readBounded file maxSessionIndexBytes (malformedIndex path) with
  | none => return ⟨none, []⟩
  | some raw =>
    checkAuthorityPreamble raw sessionIndexMagic sessionIndexVersion (malformedIndex path)
    let raw ← openAuthorityRecord sha raw (malformedIndex path)
    if raw.length < 48 then throw (malformedIndex path "shorter than its header")
    else
      let count := leNat (slice raw 44 4)
      let expected := 48 + count * 56
      if raw.length ≠ expected then
        throw (malformedIndex path
          s!"declares {count} entries ({expected} bytes) but is {raw.length} bytes")
      else
        return ⟨some (digestAt raw 12),
          (range count).map fun i => associationAt raw (48 + i * 56)⟩

def unusableRegistry (path why : String) : Fault :=
  invalidData ("session registry " ++ path ++ " is unusable (" ++ why ++ "). Refusing to treat " ++
    "it as absent: minting a fresh incarnation here would discard the cutoff that authorizes " ++
    "cleanup and would look like a brand-new session.")

/-- The fields of a registry of 108 bytes. -/
def registryAt (raw : List UInt8) : SessionRegistry :=
  { incarnation := incarnationAt raw 44
    currentGeneration := u64At raw 60
    closedThrough := if u64At raw 68 = closedThroughNoneOnDisk then none else some (u64At raw 68)
    lastEventId := digestAt raw 76 }

/-- The open generation is above everything that was closed. -/
def SessionRegistry.Open (r : SessionRegistry) : Prop :=
  ∀ c ∈ r.closedThrough, c < r.currentGeneration

instance (r : SessionRegistry) : Decidable r.Open :=
  Option.decidableForallMem r.closedThrough

def readSessionRegistryFile (sha : List UInt8 → Digest) (path : String) (expectKeyDigest : Digest)
    (file : Option (List UInt8)) : Outcome (Option SessionRegistry) := do
  match ← readBounded file (108 + authorityDigestLen) (unusableRegistry path) with
  | none => return none
  | some raw =>
    checkAuthorityPreamble raw sessionRegistryMagic sessionRegistryVersion (unusableRegistry path)
    let raw ← openAuthorityRecord sha raw (unusableRegistry path)
    if raw.length ≠ 108 then throw (unusableRegistry path "wrong length")
    else if slice raw 12 32 ≠ expectKeyDigest.bytes then
      throw (unusableRegistry path "stored key digest does not match this session key")
    else if (registryAt raw).closedThrough.any fun c =>
        (registryAt raw).currentGeneration ≤ c then
      throw (unusableRegistry path "closed_through reaches the current (open) generation")
    else return some (registryAt raw)

/-! ## Fields -/

variable {raw : List UInt8} {start : ℕ} {entries : List SessionAssociation}
variable {sha : List UInt8 → Digest} {keyDigest : Digest} {b : List UInt8}

lemma digestAt_eq (h : start + 32 ≤ raw.length) :
    (digestAt raw start).bytes = slice raw start 32 := by
  rw [digestAt, dif_pos (length_slice h)]

lemma incarnationAt_eq (h : start + 16 ≤ raw.length) :
    (incarnationAt raw start).bytes = slice raw start 16 := by
  rw [incarnationAt, dif_pos (length_slice h)]

lemma leBytes_u64At (h : start + 8 ≤ raw.length) :
    leBytes 8 (u64At raw start).toNat = slice raw start 8 := by
  have hlen := length_slice h
  have hlt := leNat_lt (slice raw start 8)
  rw [hlen] at hlt
  rw [u64At, UInt64.toNat_ofNat_of_lt' hlt, leBytes_leNat hlen]

lemma eq_of_leBytes {m n : UInt64} (h : leBytes 8 m.toNat = leBytes 8 n.toNat) : m = n :=
  UInt64.toNat.inj (leBytes_injOn 8 m.toNat_lt n.toNat_lt h)

lemma leBytes_of_leNat_slice {w n : ℕ} (h : start + w ≤ raw.length)
    (hn : leNat (slice raw start w) = n) : leBytes w n = slice raw start w := by
  rw [← hn, leBytes_leNat (length_slice h)]

lemma length_encodeAssociation (a : SessionAssociation) : (encodeAssociation a).length = 56 := by
  simp [encodeAssociation]

lemma encodeAssociation_injective : Function.Injective encodeAssociation := by
  rintro ⟨i, m, g⟩ ⟨i', m', g'⟩ h
  obtain ⟨hi, hrest⟩ := append_inj h (by simp)
  obtain ⟨hg, hm⟩ := append_inj hrest (by simp)
  have hi : i = i' := IncarnationId.bytes_injective hi
  have hm : m = m' := bytes_injective hm
  have hg : g = g' := eq_of_leBytes hg
  rw [hi, hm, hg]

lemma encodeAssociation_selfDelimiting : SelfDelimitingOn Set.univ encodeAssociation :=
  .of_length_eq 56 length_encodeAssociation encodeAssociation_injective.injOn

lemma encodeAssociation_at {off : ℕ} (h : off + 56 ≤ raw.length) :
    encodeAssociation (associationAt raw off) = slice raw off 56 := by
  rw [encodeAssociation, associationAt]
  rw [incarnationAt_eq (by omega), leBytes_u64At (by omega), digestAt_eq (by omega),
    slice_append_slice raw (off + 16) 8 32, slice_append_slice raw off 16 40]

lemma length_flatMap_encodeAssociation (entries : List SessionAssociation) :
    (entries.flatMap encodeAssociation).length = entries.length * 56 := by
  induction entries with
  | nil => rfl
  | cons a entries ih =>
    rw [flatMap_cons, length_append, length_encodeAssociation, length_cons]
    omega

/-! ## Bodies -/

@[simp] lemma length_sessionIndexMagic : sessionIndexMagic.length = 8 := by decide +kernel

@[simp] lemma length_sessionRegistryMagic : sessionRegistryMagic.length = 8 := by decide +kernel

lemma length_indexBody (keyDigest : Digest) (entries : List SessionAssociation) :
    (indexBody keyDigest entries).length = 48 + entries.length * 56 := by
  simp only [indexBody, length_append, length_flatMap_encodeAssociation,
    length_sessionIndexMagic, length_leBytes, length_bytes]
  omega

lemma length_registryBody (keyDigest : Digest) (reg : SessionRegistry) :
    (registryBody keyDigest reg).length = 108 := by
  simp [registryBody]

/-- A body whose fields are those of an index is the index of these fields. -/
lemma indexBody_of_fields {count : ℕ} (hlen : raw.length = 48 + count * 56)
    (hmagic : slice raw 0 8 = sessionIndexMagic)
    (hversion : leNat (slice raw 8 4) = sessionIndexVersion)
    (hcount : leNat (slice raw 44 4) = count) :
    indexBody (digestAt raw 12) ((range count).map fun i => associationAt raw (48 + i * 56))
      = raw := by
  have hentries : ((range count).map fun i => associationAt raw (48 + i * 56)).flatMap
      encodeAssociation = raw.drop 48 := by
    rw [← flatMap_slice hlen, flatMap_map]
    refine flatMap_congr fun i hi => encodeAssociation_at ?_
    have := Nat.mul_le_mul_right 56 (mem_range.mp hi : i + 1 ≤ count)
    omega
  rw [indexBody, hentries, length_map, length_range, ← hmagic,
    leBytes_of_leNat_slice (by omega) hversion, digestAt_eq (by omega),
    leBytes_of_leNat_slice (by omega) hcount]
  have hfront : raw.take 48 = slice raw 0 8 ++ (slice raw 8 4 ++ (slice raw 12 32 ++
      slice raw 44 4)) := by
    rw [slice_append_slice raw 12 32 4, slice_append_slice raw 8 4 36,
      slice_append_slice raw 0 8 40]
    rfl
  conv_rhs => rw [← take_append_drop 48 raw, hfront]
  simp

/-- The fields of an index are those that it was made of. -/
lemma fields_indexBody (keyDigest : Digest) (hcount : entries.length < 2 ^ 32) :
    slice (indexBody keyDigest entries) 0 8 = sessionIndexMagic ∧
      leNat (slice (indexBody keyDigest entries) 8 4) = sessionIndexVersion ∧
      digestAt (indexBody keyDigest entries) 12 = keyDigest ∧
      leNat (slice (indexBody keyDigest entries) 44 4) = entries.length := by
  have hlen := length_indexBody keyDigest entries
  refine ⟨slice_front length_sessionIndexMagic, ?_, bytes_injective ?_, ?_⟩
  · rw [indexBody, slice_skip 0 4 length_sessionIndexMagic, slice_front (length_leBytes _ _)]
    decide
  · rw [digestAt_eq (by omega), indexBody, slice_skip 4 32 length_sessionIndexMagic,
      slice_skip 0 32 (length_leBytes 4 _), slice_front keyDigest.length_bytes]
  · rw [indexBody, slice_skip 36 4 length_sessionIndexMagic, slice_skip 32 4 (length_leBytes 4 _),
      slice_skip 0 4 keyDigest.length_bytes, slice_front (length_leBytes _ _),
      leNat_leBytes_of_lt hcount]

/-- The associations that are read from an index are those that it was made of. -/
lemma associations_indexBody (keyDigest : Digest) (hcount : entries.length < 2 ^ 32) :
    (range entries.length).map
      (fun i => associationAt (indexBody keyDigest entries) (48 + i * 56)) = entries := by
  obtain ⟨hmagic, hversion, hdigest, hlength⟩ := fields_indexBody keyDigest hcount
  have hbody := indexBody_of_fields (length_indexBody keyDigest entries) hmagic hversion hlength
  rw [hdigest] at hbody
  generalize (range entries.length).map
    (fun i => associationAt (indexBody keyDigest entries) (48 + i * 56)) = entries' at hbody ⊢
  have hlen := congrArg List.length hbody
  rw [length_indexBody, length_indexBody] at hlen
  have hlen' : entries'.length = entries.length := by omega
  simp only [indexBody, hlen', append_cancel_left_eq] at hbody
  exact (encodeAssociation_selfDelimiting.flatMap (by simp) (by simp) hlen'
    (congrArg (· ++ []) hbody)).1

lemma getD_registryAt (raw : List UInt8) :
    (registryAt raw).closedThrough.getD closedThroughNoneOnDisk = u64At raw 68 := by
  simp only [registryAt]
  split_ifs with h
  · exact h.symm
  · rfl

lemma registryBody_of_fields (hlen : raw.length = 108)
    (hmagic : slice raw 0 8 = sessionRegistryMagic)
    (hversion : leNat (slice raw 8 4) = sessionRegistryVersion) :
    registryBody (digestAt raw 12) (registryAt raw) = raw := by
  rw [registryBody, getD_registryAt, ← hmagic, leBytes_of_leNat_slice (by omega) hversion]
  simp only [registryAt]
  rw [digestAt_eq (by omega), incarnationAt_eq (by omega), leBytes_u64At (by omega),
    leBytes_u64At (by omega), digestAt_eq (by omega), slice_append_slice raw 68 8 32,
    slice_append_slice raw 60 8 40, slice_append_slice raw 44 16 48,
    slice_append_slice raw 12 32 64, slice_append_slice raw 8 4 96,
    slice_append_slice raw 0 8 100]
  exact take_of_length_le hlen.le

variable {r : SessionRegistry}

/-- The sentinel is no generation that was closed before another one opened. -/
lemma SessionRegistry.Open.ne_sentinel (h : r.Open) :
    r.closedThrough ≠ some closedThroughNoneOnDisk := by
  intro hc
  have hlt : closedThroughNoneOnDisk < r.currentGeneration := h _ hc
  have hmax : closedThroughNoneOnDisk.toNat = 2 ^ 64 - 1 := by decide
  have hcur := r.currentGeneration.toNat_lt
  rw [UInt64.lt_iff_toNat_lt] at hlt
  omega

/-- The fields of a registry are those that it was made of. -/
lemma fields_registryBody (keyDigest : Digest) (hr : r.Open) :
    slice (registryBody keyDigest r) 0 8 = sessionRegistryMagic ∧
      leNat (slice (registryBody keyDigest r) 8 4) = sessionRegistryVersion ∧
      slice (registryBody keyDigest r) 12 32 = keyDigest.bytes ∧
      registryAt (registryBody keyDigest r) = r := by
  have hlen := length_registryBody keyDigest r
  have hmagic : slice (registryBody keyDigest r) 0 8 = sessionRegistryMagic :=
    slice_front length_sessionRegistryMagic
  have hversion : leNat (slice (registryBody keyDigest r) 8 4) = sessionRegistryVersion := by
    rw [registryBody, slice_skip 0 4 length_sessionRegistryMagic, slice_front (length_leBytes _ _)]
    decide
  -- what is read from the body renders to the body, and all fields have their widths
  have hbody := registryBody_of_fields hlen hmagic hversion
  obtain ⟨hkey, hbody⟩ := append_inj (append_cancel_left (append_cancel_left hbody)) (by simp)
  obtain ⟨hincarnation, hbody⟩ := append_inj hbody (by simp)
  obtain ⟨hcurrent, hbody⟩ := append_inj hbody (by simp)
  obtain ⟨hclosed, hevent⟩ := append_inj hbody (by simp)
  rw [getD_registryAt] at hclosed
  refine ⟨hmagic, hversion, ?_, ?_⟩
  · rw [← hkey, digestAt_eq (by omega)]
  · have hincarnation : incarnationAt _ 44 = r.incarnation :=
      IncarnationId.bytes_injective hincarnation
    have hcurrent : u64At _ 60 = r.currentGeneration := eq_of_leBytes hcurrent
    have hevent : digestAt _ 76 = r.lastEventId := bytes_injective hevent
    rw [registryAt, hincarnation, hcurrent, eq_of_leBytes hclosed, hevent]
    cases hc : r.closedThrough with
    | none =>
      rw [getD_none, if_pos rfl, ← hc]
    | some c =>
      have hne : c ≠ closedThroughNoneOnDisk := fun h => hr.ne_sentinel (h ▸ hc)
      rw [getD_some, if_neg hne, ← hc]

/-! ## What the readers accept -/

lemma openAuthorityRecord_eq_ok {body : List UInt8} {malformed : String → Fault} :
    openAuthorityRecord sha raw malformed = .ok body ↔ raw = sealAuthorityRecord sha body := by
  simp only [openAuthorityRecord]
  constructor
  · intro h
    split_ifs at h with hshort hseal
    rw [pure_eq_ok] at h
    subst h
    rw [sealAuthorityRecord, not_not.mp hseal, take_append_drop]
  · rintro rfl
    have hlen : (sealAuthorityRecord sha body).length = body.length + 32 := by
      simp [sealAuthorityRecord]
    have hsplit : (sealAuthorityRecord sha body).length - authorityDigestLen = body.length := by
      rw [hlen]
      exact Nat.add_sub_cancel _ _
    have hbody : (sealAuthorityRecord sha body).take body.length = body := take_left
    have hstored : (sealAuthorityRecord sha body).drop body.length = (sha body).bytes :=
      drop_left
    rw [hsplit, hbody, hstored, if_neg (by rw [authorityDigestLen]; omega), if_neg (by simp)]
    rfl

lemma checkAuthorityPreamble_eq_ok {magic : List UInt8} {version : ℕ} {bad : String → Fault} :
    checkAuthorityPreamble raw magic version bad = .ok () ↔
      12 ≤ raw.length ∧ slice raw 0 8 = magic ∧ leNat (slice raw 8 4) = version := by
  simp only [checkAuthorityPreamble]
  split_ifs with hlen hmagic hversion
  · simp [hlen]
  · simp [hmagic]
  · simp [hversion]
  · simp only [pure_eq_ok, true_iff]
    exact ⟨not_lt.mp hlen, not_not.mp hmagic, not_not.mp hversion⟩

lemma readBounded_eq_ok {max : ℕ} {malformed : String → Fault} {out : Option (List UInt8)} :
    readBounded (some raw) max malformed = .ok out ↔ out = some raw ∧ raw.length ≤ max := by
  rw [readBounded]
  split_ifs with h
  · simp only [false_iff]
    omega
  · rw [pure_eq_ok]
    exact ⟨fun heq => ⟨heq.symm, not_lt.mp h⟩, fun heq => heq.1.symm⟩

lemma length_encodeSessionIndexFile (sha : List UInt8 → Digest) (keyDigest : Digest)
    (entries : List SessionAssociation) :
    (encodeSessionIndexFile sha keyDigest entries).length = 80 + entries.length * 56 := by
  rw [encodeSessionIndexFile, sealAuthorityRecord, length_append, length_indexBody,
    length_bytes]
  omega

lemma length_encodeSessionRegistryFile (sha : List UInt8 → Digest) (keyDigest : Digest)
    (r : SessionRegistry) : (encodeSessionRegistryFile sha keyDigest r).length = 140 := by
  rw [encodeSessionRegistryFile, sealAuthorityRecord, length_append, length_registryBody,
    length_bytes]

/-- The most associations that the reader of an index accepts. -/
def maxAssociations : ℕ := (maxSessionIndexBytes - 80) / 56

lemma length_encodeSessionIndexFile_le_iff :
    (encodeSessionIndexFile sha keyDigest entries).length ≤ maxSessionIndexBytes ↔
      entries.length ≤ maxAssociations := by
  rw [length_encodeSessionIndexFile, maxAssociations]
  simp only [maxSessionIndexBytes]
  omega

/-- **The index reader** accepts the indexes that the writer renders within the ceiling, and no
other byte string. -/
theorem readSessionIndexFile_eq_ok {path : String} {f : SessionIndexFile} :
    readSessionIndexFile sha path (some b) = .ok f ↔
      ∃ keyDigest entries, f = ⟨some keyDigest, entries⟩ ∧
        b = encodeSessionIndexFile sha keyDigest entries ∧ b.length ≤ maxSessionIndexBytes := by
  simp only [readSessionIndexFile, bind_eq_ok, readBounded_eq_ok]
  constructor
  · rintro ⟨_, ⟨rfl, hmax⟩, h⟩
    simp only [bind_eq_ok] at h
    obtain ⟨⟨⟩, hpreamble, raw, hopen, h⟩ := h
    obtain ⟨_, hmagic, hversion⟩ := checkAuthorityPreamble_eq_ok.mp hpreamble
    have hb := openAuthorityRecord_eq_ok.mp hopen
    split_ifs at h with hshort hlen
    rw [pure_eq_ok] at h
    subst h
    rw [hb, sealAuthorityRecord, slice_append_left (by omega)] at hmagic hversion
    refine ⟨_, _, rfl, ?_, hmax⟩
    rw [encodeSessionIndexFile, indexBody_of_fields (not_not.mp hlen) hmagic hversion rfl]
    exact hb
  · rintro ⟨keyDigest, entries, rfl, rfl, hmax⟩
    have hlen := length_indexBody keyDigest entries
    have hcount : entries.length < 2 ^ 32 := by
      rw [length_encodeSessionIndexFile, maxSessionIndexBytes] at hmax
      omega
    obtain ⟨hmagic, hversion, hdigest, hlength⟩ := fields_indexBody keyDigest hcount
    refine ⟨_, ⟨rfl, hmax⟩, ?_⟩
    simp only [bind_eq_ok]
    refine ⟨(), ?_, _, openAuthorityRecord_eq_ok.mpr rfl, ?_⟩
    · rw [checkAuthorityPreamble_eq_ok, encodeSessionIndexFile, sealAuthorityRecord]
      refine ⟨?_, hmagic, hversion⟩
      rw [length_append]
      omega
    · rw [if_neg (by omega), hlength, if_neg (by omega), associations_indexBody keyDigest hcount,
        hdigest]
      rfl

/-- **The registry reader** accepts the registries that the writer renders for the same key with
the open generation above the cutoff, and no other byte string. -/
theorem readSessionRegistryFile_eq_ok {path : String} {out : Option SessionRegistry} :
    readSessionRegistryFile sha path keyDigest (some b) = .ok out ↔
      ∃ r : SessionRegistry, out = some r ∧ b = encodeSessionRegistryFile sha keyDigest r ∧
        r.Open := by
  simp only [readSessionRegistryFile, bind_eq_ok, readBounded_eq_ok]
  constructor
  · rintro ⟨_, ⟨rfl, hmax⟩, h⟩
    simp only [bind_eq_ok] at h
    obtain ⟨⟨⟩, hpreamble, raw, hopen, h⟩ := h
    obtain ⟨_, hmagic, hversion⟩ := checkAuthorityPreamble_eq_ok.mp hpreamble
    have hb := openAuthorityRecord_eq_ok.mp hopen
    split_ifs at h with hlen hkey hclosed
    rw [pure_eq_ok] at h
    subst h
    have hlen : raw.length = 108 := not_not.mp hlen
    rw [hb, sealAuthorityRecord, slice_append_left (by omega)] at hmagic hversion
    have hdigest : digestAt raw 12 = keyDigest :=
      bytes_injective ((digestAt_eq (by omega)).trans (not_not.mp hkey))
    refine ⟨_, rfl, ?_, ?_⟩
    · rw [encodeSessionRegistryFile, ← hdigest, registryBody_of_fields hlen hmagic hversion]
      exact hb
    · intro c hc
      rw [hc] at hclosed
      simpa using hclosed
  · rintro ⟨r, rfl, rfl, hr⟩
    have hlen := length_registryBody keyDigest r
    obtain ⟨hmagic, hversion, hkey, hfields⟩ := fields_registryBody keyDigest hr
    have hseal := length_encodeSessionRegistryFile sha keyDigest r
    refine ⟨_, ⟨rfl, hseal.le⟩, ?_⟩
    simp only [bind_eq_ok]
    refine ⟨(), ?_, _, openAuthorityRecord_eq_ok.mpr rfl, ?_⟩
    · rw [checkAuthorityPreamble_eq_ok, hseal, encodeSessionRegistryFile, sealAuthorityRecord]
      exact ⟨by omega, hmagic, hversion⟩
    · have hopen : (r.closedThrough.any fun c => decide (r.currentGeneration ≤ c)) = false := by
        cases hc : r.closedThrough with
        | none => rfl
        | some c => simpa using hr c hc
      rw [if_neg (not_not.mpr hlen), if_neg (not_not.mpr hkey), hfields, if_neg (by simp [hopen])]
      rfl

/-! ## Tampering -/

/-- `b'` differs from `b` in one of the fields with the given widths. -/
def AltersField (widths : List ℕ) (b b' : List UInt8) : Prop :=
  ∃ before w after, widths = before ++ w :: after ∧ b'.length = b.length ∧
    b'.take before.sum = b.take before.sum ∧ b'.drop (before.sum + w) = b.drop (before.sum + w) ∧
    b' ≠ b

/-- One field was altered, or the record was cut off or extended. -/
def Tampered (widths : List ℕ) (b b' : List UInt8) : Prop :=
  AltersField widths b b' ∨ (b' <+: b ∧ b' ≠ b) ∨ (b <+: b' ∧ b' ≠ b)

/-- The widths of the fields of an index of `n` associations, and of its digest. -/
def indexWidths (n : ℕ) : List ℕ :=
  [8, 4, 32, 4] ++ (replicate n [16, 8, 32]).flatten ++ [authorityDigestLen]

def registryWidths : List ℕ := [8, 4, 32, 16, 8, 8, 32] ++ [authorityDigestLen]

/-- What a record is sealed over: all but the digest at its end. -/
def sealedPart (b : List UInt8) : List UInt8 := b.take (b.length - authorityDigestLen)

@[simp] lemma sealedPart_seal (sha : List UInt8 → Digest) (body : List UInt8) :
    sealedPart (sealAuthorityRecord sha body) = body := by
  rw [sealedPart, sealAuthorityRecord, length_append, length_bytes, authorityDigestLen,
    Nat.add_sub_cancel, take_left]

/-- A record that was altered in one field of its body or in its digest is not sealed. -/
lemma not_altersField_seal {body body' : List UInt8} {widths : List ℕ}
    (hwidths : widths.sum = body.length) (hsha : Set.InjOn sha {body, body'}) :
    ¬ AltersField (widths ++ [authorityDigestLen]) (sealAuthorityRecord sha body)
      (sealAuthorityRecord sha body') := by
  rintro ⟨before, w, after, hsplit, hlen, htake, hdrop, hne⟩
  have hlength : body'.length = body.length := by
    simpa [sealAuthorityRecord] using hlen
  suffices hbody : body' = body from hne (by rw [hbody])
  rcases eq_nil_or_concat after with rfl | ⟨after, d, rfl⟩
  · -- The digest was altered: the bodies are the same.
    obtain ⟨rfl, _⟩ := append_inj' hsplit rfl
    rw [hwidths, sealAuthorityRecord, sealAuthorityRecord, take_left,
      take_left' hlength] at htake
    exact htake
  · -- A field of the body was altered: the digests are the same.
    rw [concat_eq_append, ← cons_append, ← append_assoc] at hsplit
    obtain ⟨rfl, _⟩ := append_inj' hsplit rfl
    rw [sum_append, sum_cons] at hwidths
    have hle : before.sum + w ≤ body.length := by omega
    have hle' : before.sum + w ≤ body'.length := by omega
    rw [sealAuthorityRecord, sealAuthorityRecord, drop_append_of_le_length hle,
      drop_append_of_le_length hle'] at hdrop
    have hseal := (append_inj hdrop (by simp [hlength])).2
    exact hsha (by simp) (by simp) (bytes_injective hseal)

/-- An index that starts with another one is that index: the counts agree, hence the lengths. -/
lemma encodeSessionIndexFile_eq_of_start {keyDigest' : Digest} {entries' : List SessionAssociation}
    (hcount : entries.length < 2 ^ 32) (hcount' : entries'.length < 2 ^ 32)
    (h : encodeSessionIndexFile sha keyDigest entries <+:
      encodeSessionIndexFile sha keyDigest' entries') :
    encodeSessionIndexFile sha keyDigest entries
      = encodeSessionIndexFile sha keyDigest' entries' := by
  have hslice : ∀ (d : Digest) {es : List SessionAssociation}, es.length < 2 ^ 32 →
      leNat (slice (encodeSessionIndexFile sha d es) 44 4) = es.length := by
    intro d es hes
    have hlen := length_indexBody d es
    rw [encodeSessionIndexFile, sealAuthorityRecord, slice_append_left (by omega)]
    exact (fields_indexBody d hes).2.2.2
  have hlen := length_encodeSessionIndexFile sha keyDigest entries
  have hlen' := length_encodeSessionIndexFile sha keyDigest' entries'
  obtain ⟨rest, hrest⟩ := h
  have hsame : entries'.length = entries.length := by
    rw [← hslice keyDigest' hcount', ← hslice keyDigest hcount, ← hrest,
      slice_append_left (by omega)]
  refine IsPrefix.eq_of_length ⟨rest, hrest⟩ ?_
  rw [hlen, hlen', hsame]

lemma sum_indexWidths (n : ℕ) :
    ([8, 4, 32, 4] ++ (replicate n [16, 8, 32]).flatten).sum = 48 + n * 56 := by
  have hflat : ((replicate n [16, 8, 32]).flatten).sum = n * 56 := by
    induction n with
    | zero => rfl
    | succ n ih =>
      rw [replicate_succ, flatten_cons, sum_append, ih, Nat.succ_mul]
      exact Nat.add_comm _ _
  rw [sum_append, hflat]
  rfl

lemma readSessionIndexFile_tampered (hcount : entries.length < 2 ^ 32)
    (htampered : Tampered (indexWidths entries.length)
      (encodeSessionIndexFile sha keyDigest entries) b)
    (hsha : Set.InjOn sha {indexBody keyDigest entries, sealedPart b}) (path : String)
    (f : SessionIndexFile) : readSessionIndexFile sha path (some b) ≠ .ok f := by
  intro hread
  obtain ⟨keyDigest', entries', _, rfl, hmax⟩ := readSessionIndexFile_eq_ok.mp hread
  have hcount' : entries'.length < 2 ^ 32 := by
    rw [length_encodeSessionIndexFile, maxSessionIndexBytes] at hmax
    omega
  rcases htampered with halters | ⟨hcut, hne⟩ | ⟨hextended, hne⟩
  · rw [encodeSessionIndexFile, sealedPart_seal] at hsha
    refine not_altersField_seal ?_ hsha halters
    rw [length_indexBody, sum_indexWidths]
  · exact hne (encodeSessionIndexFile_eq_of_start hcount' hcount hcut)
  · exact hne (encodeSessionIndexFile_eq_of_start hcount hcount' hextended).symm

/-- A tampered registry is refused, whatever key it is read for. -/
lemma readSessionRegistryFile_tampered
    (htampered : Tampered registryWidths (encodeSessionRegistryFile sha keyDigest r) b)
    (hsha : Set.InjOn sha {registryBody keyDigest r, sealedPart b}) (path : String)
    (expected : Digest) (out : Option SessionRegistry) :
    readSessionRegistryFile sha path expected (some b) ≠ .ok out := by
  intro hread
  obtain ⟨r', _, rfl, _⟩ := readSessionRegistryFile_eq_ok.mp hread
  have hlen := length_encodeSessionRegistryFile sha
  rcases htampered with halters | ⟨hcut, hne⟩ | ⟨hextended, hne⟩
  · rw [encodeSessionRegistryFile, sealedPart_seal] at hsha
    refine not_altersField_seal ?_ hsha halters
    rw [length_registryBody]
    rfl
  · exact hne (hcut.eq_of_length (by rw [hlen, hlen]))
  · exact hne (hextended.eq_of_length (by rw [hlen, hlen])).symm

/-- **Authority records are canonical and tamper-evident.** A byte string that is accepted is the
rendering of what was read from it; every registry with the open generation above its cutoff and
every list of associations within the ceiling is read back; and where `sha` does not confuse the two
bodies, no record that was altered in one field, cut off or extended is accepted. -/
theorem authorityRecords_canonical (sha : List UInt8 → Digest) :
    (∀ path b f, readSessionIndexFile sha path (some b) = .ok f →
      ∃ keyDigest, f.keyDigest = some keyDigest ∧
        encodeSessionIndexFile sha keyDigest f.associations = b) ∧
    (∀ path keyDigest b out, readSessionRegistryFile sha path keyDigest (some b) = .ok out →
      ∃ r, out = some r ∧ encodeSessionRegistryFile sha keyDigest r = b) ∧
    (∀ path keyDigest entries,
      (encodeSessionIndexFile sha keyDigest entries).length ≤ maxSessionIndexBytes →
        readSessionIndexFile sha path (some (encodeSessionIndexFile sha keyDigest entries))
          = .ok ⟨some keyDigest, entries⟩) ∧
    (∀ path keyDigest (r : SessionRegistry),
      (r.closedThrough = none ∨ ∃ c, r.closedThrough = some c ∧ c < r.currentGeneration) →
        readSessionRegistryFile sha path keyDigest
          (some (encodeSessionRegistryFile sha keyDigest r)) = .ok (some r)) ∧
    (∀ keyDigest entries b, entries.length < 2 ^ 32 →
      Tampered (indexWidths entries.length) (encodeSessionIndexFile sha keyDigest entries) b →
      Set.InjOn sha {indexBody keyDigest entries, sealedPart b} →
        ∀ path f, readSessionIndexFile sha path (some b) ≠ .ok f) ∧
    (∀ keyDigest r b,
      Tampered registryWidths (encodeSessionRegistryFile sha keyDigest r) b →
      Set.InjOn sha {registryBody keyDigest r, sealedPart b} →
        ∀ path expected out, readSessionRegistryFile sha path expected (some b) ≠ .ok out) := by
  refine ⟨?_, ?_, ?_, ?_, ?_, ?_⟩
  · intro path b f h
    obtain ⟨keyDigest, entries, rfl, hb, _⟩ := readSessionIndexFile_eq_ok.mp h
    exact ⟨keyDigest, rfl, hb.symm⟩
  · intro path keyDigest b out h
    obtain ⟨r, rfl, hb, _⟩ := readSessionRegistryFile_eq_ok.mp h
    exact ⟨r, rfl, hb.symm⟩
  · intro path keyDigest entries hmax
    exact readSessionIndexFile_eq_ok.mpr ⟨keyDigest, entries, rfl, rfl, hmax⟩
  · intro path keyDigest r hr
    refine readSessionRegistryFile_eq_ok.mpr ⟨r, rfl, rfl, ?_⟩
    intro c hc
    rcases hr with hnone | ⟨c', hsome, hlt⟩
    · rw [hnone] at hc
      exact absurd hc (not_mem_none c)
    · rw [hsome] at hc
      exact some.inj hc ▸ hlt
  · intro keyDigest entries b hcount htampered hsha path f
    exact readSessionIndexFile_tampered hcount htampered hsha path f
  · intro keyDigest r b htampered hsha path expected out
    exact readSessionRegistryFile_tampered htampered hsha path expected out

/-- A registry in generation `n`, with everything below closed. -/
def registryOf (n : UInt64) : SessionRegistry :=
  ⟨⟨replicate 16 7, rfl⟩, n, if n = 0 then none else some (n - 1), zero⟩

/-- The registry of generation one with its cutoff moved, and the digest left as it was. -/
def movedCutoff : List UInt8 :=
  (encodeSessionRegistryFile sha256 zero (registryOf 1)).set 68 5

/-- A registry is read back, and refused once its cutoff was moved. -/
theorem authorityRecords_canonical_registry :
    readSessionRegistryFile sha256 "s.gen" zero
        (some (encodeSessionRegistryFile sha256 zero (registryOf 1)))
      = .ok (some (registryOf 1)) ∧
    ∀ out, readSessionRegistryFile sha256 "s.gen" zero (some movedCutoff) ≠ .ok out := by
  refine ⟨(authorityRecords_canonical sha256).2.2.2.1 "s.gen" zero (registryOf 1)
    (.inr ⟨0, rfl, by decide⟩), ?_⟩
  refine (authorityRecords_canonical sha256).2.2.2.2.2 zero (registryOf 1) movedCutoff
    (.inl ⟨[8, 4, 32, 16, 8], 8, [32, 32], rfl, ?_, ?_, ?_, ?_⟩) ?_ "s.gen" zero
  · decide +kernel
  · decide +kernel
  · decide +kernel
  · decide +kernel
  · have hne : sha256 (registryBody zero (registryOf 1))
        ≠ sha256 (sealedPart movedCutoff) := by
      decide +kernel
    exact Set.injOn_pair.mpr fun h => absurd h hne

end Mlxcel.ColdStore
