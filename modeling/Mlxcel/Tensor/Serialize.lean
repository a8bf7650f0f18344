import Mlxcel.Lib.Text
import Mlxcel.Tensor.Quantize
import Mathlib.Algebra.BigOperators.Group.List.Basic
import Mathlib.Tactic.Ring

/-!
# Tensors on the wire

`serializeTensor` checks the length of the data against shape and element type, quantizes and
compresses on demand and puts the header in front. `deserializeTensor` undoes this on untrusted
bytes. The compressor is a parameter, `Lz4`.

**Safety.** On every byte string `deserializeTensor` ends with a tensor or an error, asks the
decompressor for at most the payload length that the header implies (`wireLen`), and returns data
of the length that the returned shape and element type give (`deserializeTensor_safe`).

**Round trip.** What was sent without quantization is received as it was, exactly within the limits
of the receiver: at most `maxNdim` dimensions and `maxMetadataLen` bytes of metadata, no empty
metadata, and compression neither on packed elements, for which the receiver expects a payload of
length zero, nor on `2 ^ 32` bytes or more, which the compressor's own length prefix cannot hold
(`deserializeTensor_serializeTensor_iff`).
-/

namespace Mlxcel.Tensor

open Option List MachineInt Guarded Guarded.Comp Delimited Text TensorHeader TensorFlags

/-! ## Compression -/

/-- The block compressor: `decompress` is told the size of the output. -/
structure Lz4 where
  compress : List UInt8 → List UInt8
  decompress : ℕ → List UInt8 → Except String (List UInt8)

namespace Lz4

/-- A compressed block is decompressed to what it was made of, for the sizes that fit the prefix. -/
def RoundTrips (lz4 : Lz4) : Prop :=
  ∀ data : List UInt8, data.length < 2 ^ 32 →
    lz4.decompress data.length (lz4.compress data) = .ok data

/-- A block behind its size as four bytes. -/
def compressPrependSize (lz4 : Lz4) (data : List UInt8) : List UInt8 :=
  leBytes 4 data.length ++ lz4.compress data

/-- The size in the first four bytes is what the decompressor is asked for. -/
def decompressSizePrepended (lz4 : Lz4) (data : List UInt8) : Codec (List UInt8) := do
  let size := leNat (data.take 4)
  ask size
  match lz4.decompress size (data.drop 4) with
  | .ok out => pure out
  | .error e => bail [e]

end Lz4

variable (lz4 : Lz4) (dtype : TensorDtype) (shape : List UInt64) (data : List UInt8)
  (options : SerializeOptions)

def compress : List UInt8 :=
  leBytes 8 data.length ++ lz4.compressPrependSize data

def exceedsLimit (originalLen maxOutputLen : ℕ) : Error :=
  [s!"decompressed length {originalLen} exceeds limit {maxOutputLen}"]

def prefixesDisagree (originalLen lz4Len : ℕ) : Error :=
  [s!"compressed length prefixes disagree: {originalLen} vs {lz4Len}"]

def decompressLimited (maxOutputLen : ℕ) : Codec (List UInt8) := do
  ensure (8 ≤ data.length) ["compressed data too short for length prefix"]
  let originalLen := leNat (← slice data 0 8)
  ensure (originalLen ≤ maxOutputLen) (exceedsLimit originalLen maxOutputLen)
  ensure (12 ≤ data.length) ["compressed data too short for LZ4 size prefix"]
  let lz4Len := leNat (← slice data 8 12)
  ensure (lz4Len = originalLen) (prefixesDisagree originalLen lz4Len)
  let block ← slice data 8 data.length
  let decompressed ← context "decompressing tensor data"
    ((lz4.decompressSizePrepended block).mapError (·.map ("LZ4 decompression failed: " ++ ·)))
  ensure (decompressed.length = originalLen) ["decompressed length mismatch"]
  pure decompressed

/-- The ratio has to stay below `0.90`. -/
def compressIfBeneficial : Option (List UInt8) :=
  if data = [] then none
  else if (compress lz4 data).length * 10 < data.length * 9 then some (compress lz4 data)
  else none

/-! ## Sizes -/

/-- A product of machine words of 64 bits, if it is one. -/
def checkedMul (a b : ℕ) : Option ℕ := if a * b < 2 ^ 64 then some (a * b) else none

def shapeOverflow : Error :=
  [s!"shape product overflow for {shape}"]

def checkedNumElements : Codec ℕ :=
  orBail (shape.foldlM (fun n (dim : UInt64) => checkedMul n dim.toNat) 1) (shapeOverflow shape)

def sizeOverflow (numElements elemSize : ℕ) : Error :=
  let name := dtype.name
  [s!"data size overflow for {name}: shape {shape} ({numElements} elements,                 "
    ++ s!" elem_size {elemSize})"]

def sizeMismatch (numElements expected : ℕ) (packed : String) (got : ℕ) : Error :=
  let name := dtype.name
  [s!"data size mismatch for {name}: shape {shape} ({numElements} elements) "
    ++ s!"expects {expected} bytes{packed}, got {got}"]

def validateDataSize : Codec Unit := do
  let numElements ← checkedNumElements shape
  if dtype.elementSize = 0 then
    ensure (data.length = divCeil numElements 2)
      (sizeMismatch dtype shape numElements (divCeil numElements 2) " (packed)" data.length)
  else
    let expected ← orBail (checkedMul numElements dtype.elementSize)
      (sizeOverflow dtype shape numElements dtype.elementSize)
    ensure (data.length = expected)
      (sizeMismatch dtype shape numElements expected "" data.length)

def unexpectedQuantized : Error :=
  let name := dtype.name
  [s!"unexpected quantized dtype: {name}"]

def quantizedLen : TensorDtype → ℕ → Codec ℕ
  | .int8, elements => pure elements
  | .int4, elements => pure (divCeil elements 2)
  | other, _ => bail (unexpectedQuantized other)

/-- A sum of machine words of 64 bits, if it is one. -/
def checkedAdd (a b : ℕ) : Option ℕ := if a + b < 2 ^ 64 then some (a + b) else none

def expectedWirePayloadLen (quantized : Bool) : Codec ℕ :=
  if quantized = false then do
    let elements ← checkedNumElements shape
    orBail (checkedMul elements dtype.elementSize) ["wire payload size overflow"]
  else do
    let elements ← checkedNumElements shape
    let groups := divCeil elements defaultGroupSize
    let dataLen ← quantizedLen dtype elements
    let scales ← orBail (checkedMul groups 2) ["scale size overflow"]
    orBail ((checkedAdd 8 scales).bind (checkedAdd · dataLen)) ["quantized payload size overflow"]

def quantizedMismatch (expected got : ℕ) : Error :=
  [s!"quantized payload expects {expected} bytes, got {got}"]

def invalidQuantizationHeader (groups groupSize expectedGroups : ℕ) : Error :=
  [s!"invalid quantization header: groups={groups}, group_size={groupSize}, expected "
    ++ s!"groups={expectedGroups}, group_size={defaultGroupSize}"]

def validateQuantizedPayload : Codec Unit := do
  let expected ← expectedWirePayloadLen dtype shape true
  ensure (data.length = expected) (quantizedMismatch expected data.length)
  let elements ← checkedNumElements shape
  let expectedGroups := divCeil elements defaultGroupSize
  let groups := leNat (← slice data 0 4)
  let groupSize := leNat (← slice data 4 8)
  ensure (¬(groups ≠ expectedGroups ∨ groupSize ≠ defaultGroupSize))
    (invalidQuantizationHeader groups groupSize expectedGroups)

/-! ## The two directions -/

structure SerializeOptions where
  kind : TensorKind := .activation
  quantization : QuantizationMode := .none
  compress : Bool := false
  metadata : Option String := none

structure DeserializedTensor where
  dtype : TensorDtype
  shape : List UInt64
  kind : TensorKind
  metadata : Option String
  data : List UInt8
deriving DecidableEq

def quantizationRequires (bits : String) (dtype : TensorDtype) : Error :=
  let name := dtype.name
  [s!"{bits} quantization requires float16 input, got {name}"]

/-- The payload, the element type on the wire and the flags after quantization. -/
def quantizePayload (f : F32) (mode : QuantizationMode) (dtype : TensorDtype) (data : List UInt8) :
    Codec (List UInt8 × TensorDtype × TensorFlags) :=
  match mode with
  | .none => pure (data, dtype, .new)
  | .int8 => do
    ensure (dtype = .float16) (quantizationRequires "int8" dtype)
    pure (← quantizeInt8 f data, .int8, new.set quantized)
  | .int4 => do
    ensure (dtype = .float16) (quantizationRequires "int4" dtype)
    pure (← quantizeInt4 f data, .int4, new.set quantized)

/-- The payload and the flags after compression, which is used when it is asked for and pays. -/
def compressPayload (wanted : Bool) (payload : List UInt8) (flags : TensorFlags) :
    List UInt8 × TensorFlags :=
  match wanted, compressIfBeneficial lz4 payload with
  | true, some compressed => (compressed, flags.set TensorFlags.compressed)
  | _, _ => (payload, flags)

def serializeTensor (f : F32) (dtype : TensorDtype) (shape : List UInt64)
    (data : List UInt8) (options : SerializeOptions) : Codec (List UInt8) := do
  validateDataSize dtype shape data
  let (payload, wireDtype, flags) ← quantizePayload f options.quantization dtype data
  let (payload, flags) := compressPayload lz4 options.compress payload flags
  let header : TensorHeader :=
    { version := protocolVersion
      flags := flags
      kind := options.kind
      dtype := wireDtype
      shape := shape
      metadata := (options.metadata.map utf8).getD []
      dataLen := UInt64.ofNat payload.length }
  let headerBytes ← header.encode
  let _capacity ← add headerBytes.length payload.length
  pure (headerBytes ++ payload)

def tensorDataTooShort (need got : ℕ) : Error :=
  [s!"buffer too short for tensor data: need {need} bytes, got {got}"]

/-- The payload expanded to half precision, if it is quantized, and its element type. -/
def dequantizePayload (f : F32) (header : TensorHeader) (payload : List UInt8) :
    Codec (List UInt8 × TensorDtype) :=
  if header.flags.isQuantized then do
    let numElements ← checkedNumElements header.shape
    match header.dtype with
    | .int8 => do pure (← dequantizeInt8 f payload numElements, .float16)
    | .int4 => do pure (← dequantizeInt4 f payload numElements, .float16)
    | other => bail (unexpectedQuantized other)
  else pure (payload, header.dtype)

/-- The metadata as text; no bytes stand for no metadata. -/
def decodeMetadata (metadata : List UInt8) : Codec (Option String) :=
  if metadata = [] then pure none
  else do
    let text ← orBail (ofUtf8? metadata) ["invalid UTF-8 in metadata"]
    pure (some text)

/-- The payload as it was before compression. -/
def decompressPayload (header : TensorHeader) (wire : List UInt8) (limit : ℕ) :
    Codec (List UInt8) :=
  if header.flags.isCompressed then decompressLimited lz4 wire limit else pure wire

def validateWirePayload (header : TensorHeader) (payload : List UInt8) : Codec Unit :=
  if header.flags.isQuantized then validateQuantizedPayload header.dtype header.shape payload
  else context "wire tensor payload does not match its declared shape and dtype"
    (validateDataSize header.dtype header.shape payload)

/-- The data and its element type from the payload on the wire. -/
def receivePayload (f : F32) (header : TensorHeader) (wire : List UInt8) :
    Codec (List UInt8 × TensorDtype) := do
  let expectedWireLen ← expectedWirePayloadLen header.dtype header.shape header.flags.isQuantized
  let payload ← decompressPayload lz4 header wire expectedWireLen
  validateWirePayload header payload
  let (data, dtype) ← dequantizePayload f header payload
  context "reconstructed tensor payload does not match its declared shape and dtype"
    (validateDataSize dtype header.shape data)
  pure (data, dtype)

def deserializeTensor (f : F32) (buf : List UInt8) : Codec (DeserializedTensor × ℕ) := do
  let (header, dataStart) ← decode buf
  let dataEnd ← orBail (checkedAdd dataStart header.dataLen.toNat) ["data offset overflow"]
  ensure (dataEnd ≤ buf.length) (tensorDataTooShort dataEnd buf.length)
  let wire ← slice buf dataStart dataEnd
  let (data, dtype) ← receivePayload lz4 f header wire
  let metadata ← decodeMetadata header.metadata
  pure (⟨dtype, header.shape, header.kind, metadata, data⟩, dataEnd)

/-! ## Decoding is safe -/

/-- The number of elements of a shape. -/
def numElements : ℕ := (shape.map UInt64.toNat).prod

/-- The bytes of the data of a tensor; packed elements take half a byte. -/
def dataSize : ℕ :=
  if dtype = .int4 then divCeil (numElements shape) 2 else numElements shape * dtype.elementSize

/-- The bytes of a quantized payload: its two counts, the scales and the codes. -/
def quantizedSize (n : ℕ) : ℕ :=
  8 + divCeil n 128 * 2 + if dtype = .int4 then divCeil n 2 else n

/-- **The payload length that a header implies**, before compression. -/
def TensorHeader.wireLen (header : TensorHeader) : ℕ :=
  if header.flags.isQuantized then quantizedSize header.dtype (numElements header.shape)
  else dataSize header.dtype header.shape

section Safety

variable {asks : ℕ → Prop}

lemma checkedMul_eq_some {a b c : ℕ} (h : checkedMul a b = some c) : c = a * b ∧ c < 2 ^ 64 := by
  unfold checkedMul at h
  split at h
  · cases h
    exact ⟨rfl, by assumption⟩
  · cases h

lemma checkedAdd_eq_some {a b c : ℕ} (h : checkedAdd a b = some c) : c = a + b ∧ c < 2 ^ 64 := by
  unfold checkedAdd at h
  split at h
  · cases h
    exact ⟨rfl, by assumption⟩
  · cases h

lemma foldlM_checkedMul {shape : List UInt64} {a n : ℕ} (ha : a < 2 ^ 64)
    (h : shape.foldlM (fun n (dim : UInt64) => checkedMul n dim.toNat) a = some n) :
    n = a * numElements shape ∧ n < 2 ^ 64 := by
  induction shape generalizing a with
  | nil => cases h; exact ⟨by simp [numElements], ha⟩
  | cons dim shape ih =>
    obtain ⟨b, hb, hrest⟩ := bind_eq_some_iff.mp h
    obtain ⟨rfl, hlt⟩ := checkedMul_eq_some hb
    obtain ⟨hn, hn'⟩ := ih hlt hrest
    refine ⟨?_, hn'⟩
    rw [hn]
    simp only [numElements, map_cons, prod_cons]
    ring

variable (dtype : TensorDtype) (shape : List UInt64)

lemma checkedNumElements_safe :
    Safe asks (fun n => n = numElements shape ∧ n < 2 ^ 64) (checkedNumElements shape) :=
  Safe.orBail.mono fun _ h => by simpa using foldlM_checkedMul (by norm_num) h

lemma elementSize_eq_zero {dtype : TensorDtype} : dtype.elementSize = 0 ↔ dtype = .int4 := by
  cases dtype <;> decide

lemma validateDataSize_safe (data : List UInt8) :
    Safe asks (fun _ => data.length = dataSize dtype shape ∧ data.length < 2 ^ 64)
      (validateDataSize dtype shape data) := by
  unfold validateDataSize dataSize
  refine (checkedNumElements_safe shape).bind fun n hn => ?_
  obtain ⟨rfl, hlt⟩ := hn
  by_cases hsize : dtype.elementSize = 0
  · rw [if_pos hsize, if_pos (elementSize_eq_zero.mp hsize)]
    refine Safe.ensure.mono fun _ h => ⟨h, ?_⟩
    unfold divCeil at h
    omega
  · rw [if_neg hsize, if_neg (fun h => hsize (elementSize_eq_zero.mpr h))]
    refine Safe.orBail.bind fun expected hexpected => ?_
    obtain ⟨rfl, hlt'⟩ := checkedMul_eq_some hexpected
    exact Safe.ensure.mono fun _ h => ⟨h, by omega⟩

lemma quantizedLen_safe (n : ℕ) : Safe asks (fun len => (dtype = .int8 ∨ dtype = .int4) ∧
      len = if dtype = .int4 then divCeil n 2 else n) (quantizedLen dtype n) := by
  cases dtype
  case int8 => exact .pure ⟨.inl rfl, rfl⟩
  case int4 => exact .pure ⟨.inr rfl, rfl⟩
  all_goals exact .bail

lemma expectedQuantizedLen_safe :
    Safe asks (fun len => (dtype = .int8 ∨ dtype = .int4) ∧ len < 2 ^ 64 ∧
        len = quantizedSize dtype (numElements shape))
      (expectedWirePayloadLen dtype shape true) := by
  refine (checkedNumElements_safe _).bind fun n hn => ?_
  obtain ⟨rfl, -⟩ := hn
  refine (quantizedLen_safe _ _).bind fun codes hcodes => ?_
  refine Safe.orBail.bind fun scales hscales => ?_
  refine Safe.orBail.mono fun len hlen => ?_
  obtain ⟨sum, hsum, hlen⟩ := bind_eq_some_iff.mp hlen
  obtain ⟨hdtype, rfl⟩ := hcodes
  obtain ⟨rfl, -⟩ := checkedMul_eq_some hscales
  obtain ⟨rfl, -⟩ := checkedAdd_eq_some hsum
  obtain ⟨rfl, hlt⟩ := checkedAdd_eq_some hlen
  exact ⟨hdtype, hlt, rfl⟩

/-- The expected length is never above the one that the header implies. -/
lemma expectedWirePayloadLen_safe (header : TensorHeader) :
    Safe asks (fun len => len ≤ header.wireLen)
      (expectedWirePayloadLen header.dtype header.shape header.flags.isQuantized) := by
  unfold wireLen
  cases hquantized : header.flags.isQuantized with
  | false =>
    unfold expectedWirePayloadLen dataSize
    refine (checkedNumElements_safe _).bind fun n hn => ?_
    obtain ⟨rfl, -⟩ := hn
    refine Safe.orBail.mono fun len hlen => ?_
    obtain ⟨rfl, -⟩ := checkedMul_eq_some hlen
    rw [if_neg (by simp)]
    split_ifs with hint4
    · simp [hint4, TensorDtype.elementSize]
    · exact le_rfl
  | true => exact (expectedQuantizedLen_safe _ _).mono fun len h => h.2.2.le

/-- What has been checked of a quantized payload before it is expanded. -/
structure QuantizedPayload (dtype : TensorDtype) (shape : List UInt64) (payload : List UInt8) :
    Prop where
  dtype_eq : dtype = .int8 ∨ dtype = .int4
  length_eq : payload.length = quantizedSize dtype (numElements shape)
  length_lt : payload.length < 2 ^ 64
  groups : leNat (payload.take 4) = divCeil (numElements shape) 128
  groupSize : leNat ((payload.drop 4).take 4) = 128

lemma validateQuantizedPayload_safe (payload : List UInt8) :
    Safe asks (fun _ => QuantizedPayload dtype shape payload)
      (validateQuantizedPayload dtype shape payload) := by
  refine (expectedQuantizedLen_safe dtype shape).bind fun expected hexpected => ?_
  refine Safe.ensure.bind fun _ hlen => ?_
  refine (checkedNumElements_safe shape).bind fun n hn => ?_
  obtain ⟨rfl, -⟩ := hn
  obtain ⟨hdtype, hlt, hsize⟩ := hexpected
  have height : 8 ≤ payload.length := by unfold quantizedSize at hsize; omega
  refine (Safe.slice (by omega) (by omega)).bind fun groups hgroups => ?_
  refine (Safe.slice (by omega) (by omega)).bind fun groupSize hgroupSize => ?_
  refine Safe.ensure.mono fun _ hheader => ?_
  rw [not_or, not_not, not_not, hgroups.1, hgroupSize.1] at hheader
  exact ⟨hdtype, hlen.trans hsize, hlen ▸ hlt, hheader.1, hheader.2⟩

lemma decompressLimited_safe (lz4 : Lz4) (data : List UInt8) {limit : ℕ}
    (hasks : ∀ n ≤ limit, asks n) :
    Safe asks (fun _ => True) (decompressLimited lz4 data limit) := by
  refine Safe.ensure.bind fun _ height => ?_
  refine (Safe.slice (by omega) (by omega)).bind fun originalLen _ => ?_
  refine Safe.ensure.bind fun _ hlimit => ?_
  refine Safe.ensure.bind fun _ htwelve => ?_
  refine (Safe.slice (by omega) (by omega)).bind fun lz4Len hlz4Len => ?_
  refine Safe.ensure.bind fun _ hagree => ?_
  refine (Safe.slice (by omega) le_rfl).bind fun block hblock => ?_
  -- the size in front of the block is the one that was compared with the limit
  have hsize : leNat (block.take 4) = leNat originalLen := by
    rw [hblock.1, ← hagree, hlz4Len.1, take_take, Nat.min_eq_left (by omega)]
  have hblockSafe : Safe asks (fun _ => True) (lz4.decompressSizePrepended block) := by
    refine (Safe.ask (hasks _ (by omega))).bind fun _ _ => ?_
    split
    · exact .pure trivial
    · exact .bail
  refine (Safe.mapError (.mapError hblockSafe)).bind fun out _ => ?_
  exact Safe.ensure.bind fun _ _ => .pure trivial

lemma dequantizePayload_safe (f : F32) (header : TensorHeader) (payload : List UInt8)
    (hpayload : header.flags.isQuantized = true →
      QuantizedPayload header.dtype header.shape payload) :
    Safe asks (fun _ => True) (dequantizePayload f header payload) := by
  unfold dequantizePayload
  split
  case isTrue hquantized =>
      obtain ⟨hdtype, hlen, hlt, hgroups, hsize⟩ := hpayload hquantized
      refine (checkedNumElements_safe _).bind fun n hn => ?_
      obtain ⟨rfl, -⟩ := hn
      rcases hdtype with hdtype | hdtype
      · rw [hdtype] at hlen ⊢
        exact (dequantizeInt8_safe f hlt hgroups hsize hlen).bind fun out _ => .pure trivial
      · rw [hdtype] at hlen ⊢
        exact (dequantizeInt4_safe f hlt hgroups hsize hlen).bind fun out _ => .pure trivial
  case isFalse => exact .pure trivial

lemma receivePayload_safe (lz4 : Lz4) (f : F32) (header : TensorHeader) (wire : List UInt8)
    (hasks : ∀ n ≤ header.wireLen, asks n) :
    Safe asks (fun r => r.1.length = dataSize r.2 header.shape)
      (receivePayload lz4 f header wire) := by
  refine (expectedWirePayloadLen_safe header).bind fun limit hlimit => ?_
  have hpayload : Safe asks (fun _ => True) (decompressPayload lz4 header wire limit) := by
    unfold decompressPayload
    split
    · exact decompressLimited_safe lz4 wire fun n hn => hasks n (hn.trans hlimit)
    · exact .pure trivial
  refine hpayload.bind fun payload _ => ?_
  have hchecked : Safe asks (fun _ => header.flags.isQuantized = true →
      QuantizedPayload header.dtype header.shape payload) (validateWirePayload header payload) := by
    unfold validateWirePayload
    split
    case isTrue => exact (validateQuantizedPayload_safe _ _ _).mono fun _ h _ => h
    case isFalse hplain =>
        exact (Safe.mapError (validateDataSize_safe _ _ _)).mono fun _ _ h => absurd h hplain
  refine hchecked.bind fun _ hchecked => ?_
  refine (dequantizePayload_safe f header payload hchecked).bind fun r _ => ?_
  exact (Safe.mapError (validateDataSize_safe _ _ _)).bind fun _ h => .pure h.1

lemma decodeMetadata_safe (metadata : List UInt8) :
    Safe asks (fun _ => True) (decodeMetadata metadata) := by
  unfold decodeMetadata
  split
  · exact .pure trivial
  · exact Safe.orBail.bind fun _ _ => .pure trivial

end Safety

/-- **Tensor decoding is safe on untrusted bytes.** On every byte string it ends without a panic,
asks the decompressor for at most the length that the header implies, and returns data of the
length that the returned shape and element type give, out of bytes that are there. -/
theorem deserializeTensor_safe (lz4 : Lz4) (f : F32) (buf : List UInt8) :
    Safe (fun n => ∃ header dataStart, (decode buf).result = .ok (header, dataStart) ∧
        n ≤ header.wireLen)
      (fun r => r.1.data.length = dataSize r.1.dtype r.1.shape ∧ r.2 ≤ buf.length)
      (deserializeTensor lz4 f buf) := by
  refine (decode_safe buf).withResult.bind fun r hr => ?_
  obtain ⟨header, dataStart⟩ := r
  refine Safe.orBail.bind fun dataEnd hend => ?_
  obtain ⟨rfl, -⟩ := checkedAdd_eq_some hend
  refine Safe.ensure.bind fun _ hle => ?_
  refine (Safe.slice (by omega) hle).bind fun wire _ => ?_
  refine (receivePayload_safe lz4 f header wire fun n hn => ⟨header, dataStart, hr.1, hn⟩).bind
    fun out hout => ?_
  exact (decodeMetadata_safe _).bind fun metadata _ => .pure ⟨hout, hle⟩

/-! ## The round trip -/

/-- Compression was asked for and pays. -/
def Compresses (data : List UInt8) : Prop :=
  options.compress = true ∧ (compressIfBeneficial lz4 data).isSome = true

/-- The bytes of the metadata as they are sent. -/
def SerializeOptions.metadataBytes : List UInt8 :=
  (options.metadata.map utf8).getD []

/-- What the receiver can take of what was sent without quantization. -/
structure Receivable (lz4 : Lz4) (dtype : TensorDtype) (shape : List UInt64) (data : List UInt8)
    (options : SerializeOptions) : Prop where
  ndim_le : shape.length ≤ maxNdim
  metadata_le : options.metadataBytes.length ≤ maxMetadataLen
  metadata_ne : options.metadata ≠ some ""
  unpacked : Compresses lz4 options data → dtype ≠ .int4
  prefixed : Compresses lz4 options data → data.length < 2 ^ 32

/-- The header that is sent without quantization. -/
def sentHeader : TensorHeader :=
  { version := protocolVersion
    flags := (compressPayload lz4 options.compress data .new).2
    kind := options.kind
    dtype := dtype
    shape := shape
    metadata := options.metadataBytes
    dataLen := UInt64.ofNat (compressPayload lz4 options.compress data .new).1.length }

section RoundTrip

variable {lz4 : Lz4} {f : F32} {dtype : TensorDtype} {shape : List UInt64} {data : List UInt8}
  {options : SerializeOptions}

/-- What is known of a tensor that was accepted for sending. -/
structure Sent (lz4 : Lz4) (dtype : TensorDtype) (shape : List UInt64) (data : List UInt8)
    (options : SerializeOptions) (wire : List UInt8) : Prop where
  valid : (validateDataSize dtype shape data).result = .ok ()
  shape_lt : shape.length < 2 ^ 32
  metadata_lt : options.metadataBytes.length < 2 ^ 32
  length_lt : wire.length < 2 ^ 64
  wire_eq : wire = (sentHeader lz4 dtype shape data options).wire
    ++ (compressPayload lz4 options.compress data .new).1

lemma sent_of_serializeTensor {wire : List UInt8} (hplain : options.quantization = .none)
    (h : (serializeTensor lz4 f dtype shape data options).result = .ok wire) :
    Sent lz4 dtype shape data options wire := by
  obtain ⟨_, hvalid, h⟩ := bind_ok h
  rw [hplain] at h
  obtain ⟨_, hquantized, h⟩ := bind_ok h
  cases hquantized
  obtain ⟨header, hencode, h⟩ := bind_ok h
  obtain ⟨hbounds, rfl⟩ := encode_ok (h := sentHeader lz4 dtype shape data options)
    hencode
  obtain ⟨_, hcapacity, h⟩ := bind_ok h
  cases h
  exact ⟨hvalid, hbounds.1, hbounds.2, by rw [length_append]; exact add_ok hcapacity, rfl⟩

section

variable (hvalid : (validateDataSize dtype shape data).result = .ok ())

include hvalid

lemma valid_length :
    data.length = dataSize dtype shape ∧ data.length < 2 ^ 64 := by
  have hsafe : Safe (fun _ => True) _ (validateDataSize dtype shape data) :=
    validateDataSize_safe dtype shape data
  exact hsafe.value () hvalid

/-- The length that the receiver expects of a payload without quantization: zero for packed
elements. -/
lemma expectedWirePayloadLen_plain :
    (expectedWirePayloadLen dtype shape false).result
      = .ok (if dtype = .int4 then 0 else data.length) := by
  have hsize := valid_length hvalid
  obtain ⟨n, hn, -⟩ := bind_ok hvalid
  have hsafe : Safe (fun _ => True) _ (checkedNumElements shape) := checkedNumElements_safe shape
  obtain ⟨rfl, -⟩ := hsafe.value n hn
  unfold expectedWirePayloadLen dataSize at *
  rw [if_pos rfl, bind_result_of_ok hn]
  by_cases hint4 : dtype = .int4
  · rw [hint4]
    rfl
  · rw [if_neg hint4] at hsize ⊢
    rw [checkedMul, if_pos (hsize.1 ▸ hsize.2), orBail_some_result, hsize.1]

end

/-- A compressed block is decompressed exactly when its length is within the limit and fits the
prefix of the block. -/
lemma decompressLimited_compress (hlz4 : lz4.RoundTrips) (hlt : data.length < 2 ^ 64) (limit : ℕ) :
    (decompressLimited lz4 (compress lz4 data) limit).result = .ok data ↔
      data.length ≤ limit ∧ data.length < 2 ^ 32 := by
  have hbytes : compress lz4 data
      = leBytes 8 data.length ++ leBytes 4 data.length ++ lz4.compress data := by
    rw [compress, Lz4.compressPrependSize, append_assoc]
  have hlen : (compress lz4 data).length = 12 + (lz4.compress data).length := by
    rw [hbytes]
    simp only [length_append, length_leBytes]
  have hfirst : (slice (compress lz4 data) 0 8 : Codec _).result = .ok (leBytes 8 data.length) := by
    rw [hbytes, show leBytes 8 data.length ++ leBytes 4 data.length ++ lz4.compress data
      = [] ++ leBytes 8 data.length ++ (leBytes 4 data.length ++ lz4.compress data) by simp]
    exact slice_middle (by simp) (by simp)
  have hsecond : (slice (compress lz4 data) 8 12 : Codec _).result
      = .ok (leBytes 4 data.length) := by
    rw [hbytes]
    exact slice_middle (by simp) (by simp)
  have hblock : (slice (compress lz4 data) 8 (compress lz4 data).length : Codec _).result
      = .ok (leBytes 4 data.length ++ lz4.compress data) := by
    rw [slice_result (by omega) le_rfl, hbytes]
    simp
  unfold decompressLimited
  rw [bind_result_of_ok (ensure_result (by omega)), bind_result_of_ok hfirst,
    leNat_leBytes_of_lt (by omega)]
  by_cases hlimit : data.length ≤ limit
  · rw [bind_result_of_ok (ensure_result hlimit), bind_result_of_ok (ensure_result (by omega)),
      bind_result_of_ok hsecond]
    by_cases hsmall : data.length < 2 ^ 32
    · have hread : leNat (leBytes 4 data.length) = data.length :=
        leNat_leBytes_of_lt (by omega)
      have hout : (lz4.decompressSizePrepended
          (leBytes 4 data.length ++ lz4.compress data)).result = .ok data := by
        unfold Lz4.decompressSizePrepended
        rw [bind_result_of_ok (ask_result _), take_left' (length_leBytes 4 _),
          drop_left' (length_leBytes 4 _), hread, hlz4 data hsmall]
        rfl
      rw [hread, bind_result_of_ok (ensure_result rfl), bind_result_of_ok hblock,
        bind_result_of_ok (context_ok (mapError_result_of_ok hout)),
        bind_result_of_ok (ensure_result rfl)]
      exact ⟨fun _ => ⟨hlimit, hsmall⟩, fun _ => rfl⟩
    · have hwrong : ¬leNat (leBytes 4 data.length) = data.length := by
        rw [leNat_leBytes]
        omega
      rw [bind_result_of_error (ensure_result_of_not hwrong)]
      exact ⟨fun h => (by cases h), fun h => absurd h.2 hsmall⟩
  · rw [bind_result_of_error (ensure_result_of_not hlimit)]
    exact ⟨fun h => (by cases h), fun h => absurd h.1 hlimit⟩

lemma compressPayload_of_not (h : ¬Compresses lz4 options data) (flags : TensorFlags) :
    compressPayload lz4 options.compress data flags = (data, flags) := by
  unfold compressPayload
  split
  case h_1 hwanted hpays => exact absurd ⟨hwanted, by rw [hpays]; rfl⟩ h
  case h_2 => rfl

lemma compressPayload_of (h : Compresses lz4 options data) (flags : TensorFlags) :
    0 < data.length ∧ compressPayload lz4 options.compress data flags
      = (compress lz4 data, flags.set compressed) := by
  obtain ⟨hwanted, hpays⟩ := h
  obtain ⟨out, hout⟩ := isSome_iff_exists.mp hpays
  unfold compressPayload
  rw [hwanted, hout]
  unfold compressIfBeneficial at hout
  split_ifs at hout with hempty
  cases hout
  exact ⟨length_pos_iff.mpr hempty, rfl⟩

/-- The checks after decompression let the data pass as it is. -/
lemma receivePayload_plain {header : TensorHeader} {wire : List UInt8}
    (hdtype : header.dtype = dtype) (hshape : header.shape = shape)
    (hplain : header.flags.isQuantized = false)
    (hvalid : (validateDataSize dtype shape data).result = .ok ()) :
    (receivePayload lz4 f header wire).result = .ok (data, dtype) ↔
      (decompressPayload lz4 header wire (if dtype = .int4 then 0 else data.length)).result
        = .ok data := by
  subst hdtype hshape
  unfold receivePayload
  rw [hplain, bind_result_of_ok (expectedWirePayloadLen_plain hvalid)]
  have hrest : ∀ payload, (do
      validateWirePayload header payload
      let (data, dtype) ← dequantizePayload f header payload
      context "reconstructed tensor payload does not match its declared shape and dtype"
        (validateDataSize dtype header.shape data)
      pure (data, dtype) : Codec (List UInt8 × TensorDtype)).result = .ok (data, header.dtype) ↔
        payload = data := by
    intro payload
    unfold validateWirePayload dequantizePayload
    rw [hplain]
    constructor
    · intro h
      obtain ⟨_, -, h⟩ := bind_ok h
      obtain ⟨_, hsame, h⟩ := bind_ok h
      cases hsame
      obtain ⟨_, -, h⟩ := bind_ok h
      cases h
      rfl
    · rintro rfl
      rw [if_neg (by simp), if_neg (by simp), bind_result_of_ok (context_ok hvalid),
        bind_result_of_ok (pure_result _), bind_result_of_ok (context_ok hvalid), pure_result]
  constructor
  · intro h
    obtain ⟨payload, hpayload, h⟩ := bind_ok h
    rw [hpayload, (hrest payload).mp h]
  · intro h
    rw [bind_result_of_ok h]
    exact (hrest data).mpr rfl

/-- The payload arrives exactly when it was not compressed, or could be. -/
lemma receivePayload_sent (hlz4 : lz4.RoundTrips)
    (hvalid : (validateDataSize dtype shape data).result = .ok ()) :
    (receivePayload lz4 f (sentHeader lz4 dtype shape data options)
        (compressPayload lz4 options.compress data .new).1).result = .ok (data, dtype) ↔
      (Compresses lz4 options data → dtype ≠ .int4) ∧
      (Compresses lz4 options data → data.length < 2 ^ 32) := by
  have hlt := (valid_length hvalid).2
  have hdtype : (sentHeader lz4 dtype shape data options).dtype = dtype := rfl
  have hshape : (sentHeader lz4 dtype shape data options).shape = shape := rfl
  by_cases hcompresses : Compresses lz4 options data
  · obtain ⟨hpos, hpayload⟩ := compressPayload_of hcompresses .new
    have hflags : (sentHeader lz4 dtype shape data options).flags
        = new.set compressed := by rw [sentHeader, hpayload]
    rw [receivePayload_plain hdtype hshape (by rw [hflags]; decide) hvalid, hpayload,
      decompressPayload,
      hflags, if_pos (by decide), decompressLimited_compress hlz4 hlt]
    by_cases hint4 : dtype = .int4
    · simp [hint4, hpos.ne', hcompresses]
    · simp [hint4, hcompresses]
  · have hpayload := compressPayload_of_not hcompresses .new
    have hflags : (sentHeader lz4 dtype shape data options).flags = .new := by
      rw [sentHeader, hpayload]
    rw [receivePayload_plain hdtype hshape (by rw [hflags]; decide) hvalid, hpayload,
      decompressPayload,
      hflags, if_neg (by decide)]
    exact ⟨fun _ => ⟨fun h => absurd h hcompresses, fun h => absurd h hcompresses⟩, fun _ => rfl⟩

lemma decodeMetadata_metadataBytes : (decodeMetadata options.metadataBytes).result
      = .ok (if options.metadata = some "" then none else options.metadata) := by
  unfold decodeMetadata SerializeOptions.metadataBytes
  cases hmeta : options.metadata with
  | none => rfl
  | some text =>
    by_cases hempty : text = ""
    · subst hempty
      rfl
    · have hbytes : utf8 text ≠ [] := fun h => hempty (utf8_injective (h.trans rfl))
      simp only [map_some, getD_some]
      rw [if_neg hbytes, ofUtf8?_utf8, bind_result_of_ok (orBail_some_result _ _), pure_result,
        if_neg (by simpa using hempty)]

/-- What arrives within the limits of the header. -/
lemma deserializeTensor_wire {wire rest : List UInt8}
    (hsent : Sent lz4 dtype shape data options wire) (hndim : shape.length ≤ maxNdim)
    (hmeta : options.metadataBytes.length ≤ maxMetadataLen) :
    (deserializeTensor lz4 f (wire ++ rest)).result = (do
      let (data, dtype) ← receivePayload lz4 f (sentHeader lz4 dtype shape data options)
        (compressPayload lz4 options.compress data .new).1
      let metadata ← decodeMetadata options.metadataBytes
      pure (⟨dtype, shape, options.kind, metadata, data⟩, wire.length) :
        Codec (DeserializedTensor × ℕ)).result := by
  have hlen := hsent.length_lt
  have hwire := hsent.wire_eq
  set header := sentHeader lz4 dtype shape data options with hheader
  set payload := (compressPayload lz4 options.compress data .new).1 with hpayload
  have hsum : wire.length = header.wire.length + payload.length := by
    rw [hwire, length_append]
  have hdataLen : header.dataLen.toNat = payload.length := by
    change (UInt64.ofNat payload.length).toNat = payload.length
    rw [UInt64.toNat_ofNat_of_lt' (show payload.length < 2 ^ 64 by omega)]
  have hbuf : wire ++ rest = header.wire ++ (payload ++ rest) := by
    rw [hwire, append_assoc]
  have hslice : (slice (header.wire ++ payload ++ rest) header.wire.length wire.length :
      Codec _).result = .ok payload := slice_middle rfl hsum
  unfold deserializeTensor
  rw [hbuf, bind_result_of_ok (decode_wire header _ rfl hndim hmeta)]
  dsimp only
  rw [hdataLen, checkedAdd, if_pos (by omega), bind_result_of_ok (orBail_some_result _ _), ← hsum,
    ← append_assoc,
    bind_result_of_ok (ensure_result (by simp only [length_append]; omega)),
    bind_result_of_ok hslice]
  rfl

end RoundTrip

/-- **The codec's round trip.** A tensor that is accepted for sending without quantization arrives
with its element type, shape, kind, metadata and data, and with exactly its own bytes consumed, if
and only if it is within what the receiver can take. -/
theorem deserializeTensor_serializeTensor_iff (lz4 : Lz4) (f : F32) (hlz4 : lz4.RoundTrips)
    (dtype : TensorDtype) (shape : List UInt64) (data : List UInt8) (options : SerializeOptions)
    (hplain : options.quantization = .none) (wire rest : List UInt8)
    (hsent : (serializeTensor lz4 f dtype shape data options).result = .ok wire) :
    (deserializeTensor lz4 f (wire ++ rest)).result
        = .ok (⟨dtype, shape, options.kind, options.metadata, data⟩, wire.length) ↔
      Receivable lz4 dtype shape data options := by
  have hs := sent_of_serializeTensor hplain hsent
  by_cases hlimits : shape.length ≤ maxNdim ∧ options.metadataBytes.length ≤ maxMetadataLen
  · rw [deserializeTensor_wire hs hlimits.1 hlimits.2]
    constructor
    · intro h
      obtain ⟨r, hr, h⟩ := bind_ok h
      obtain ⟨metadata, hmetadata, h⟩ := bind_ok h
      rw [decodeMetadata_metadataBytes] at hmetadata
      cases h
      obtain ⟨hunpacked, hprefixed⟩ := (receivePayload_sent hlz4 hs.valid).mp hr
      refine ⟨hlimits.1, hlimits.2, fun hempty => ?_, hunpacked, hprefixed⟩
      rw [hempty] at hmetadata
      cases hmetadata
    · rintro ⟨-, -, hmetadata, hunpacked, hprefixed⟩
      rw [bind_result_of_ok ((receivePayload_sent hlz4 hs.valid).mpr ⟨hunpacked, hprefixed⟩),
        bind_result_of_ok decodeMetadata_metadataBytes, if_neg hmetadata]
      rfl
  · -- the header itself is turned down
    refine iff_of_false (fun h => ?_) fun h => hlimits ⟨h.ndim_le, h.metadata_le⟩
    obtain ⟨e, he⟩ := decode_wire_beyond (sentHeader lz4 dtype shape data options)
      ((compressPayload lz4 options.compress data .new).1 ++ rest) rfl hs.shape_lt hs.metadata_lt
      (by rw [not_and_or, not_le, not_le] at hlimits; exact hlimits)
    rw [hs.wire_eq, append_assoc, deserializeTensor, bind_result_of_error he] at h
    cases h

/-! ## Beyond the receiver -/

/-- A compressor that leaves zeros out and everything else as it is. -/
def zeroLz4 : Lz4 where
  compress data := if data.all (· == 0) then [] else data
  decompress size block := .ok (if block = [] then replicate size 0 else block)

lemma zeroLz4_roundTrips : zeroLz4.RoundTrips := by
  intro data _
  simp only [zeroLz4, Except.ok.injEq]
  by_cases hzero : data.all (· == 0) = true
  · rw [if_pos hzero, if_pos rfl, eq_comm, eq_replicate_iff]
    exact ⟨rfl, fun b hb => by simpa using all_eq_true.mp hzero b hb⟩
  · split_ifs with hempty
    · rw [hempty] at hzero
      exact absurd rfl hzero
    · rfl

/-- An arithmetic that is never used without quantization. -/
def noF32 : F32 where
  abs x := x
  max x _ := x
  mul x _ := x
  div x _ := x
  round x := x
  clamp x _ _ := x
  isZero _ := false
  toI8 _ := 0
  ofI8 _ := 0

theorem deserializeTensor_serializeTensor_bytes : zeroLz4.RoundTrips ∧
      (serializeTensor zeroLz4 noF32 .uInt8 [64] (replicate 64 0)
        { compress := true, metadata := some "layer" }).result
          = .ok (wire ⟨1, ⟨1⟩, .activation, .uInt8, [64], utf8 "layer", 12⟩
            ++ (leBytes 8 64 ++ leBytes 4 64)) ∧
      (deserializeTensor zeroLz4 noF32
        (wire ⟨1, ⟨1⟩, .activation, .uInt8, [64], utf8 "layer", 12⟩
          ++ (leBytes 8 64 ++ leBytes 4 64) ++ [7])).result
        = .ok (⟨.uInt8, [64], .activation, some "layer", replicate 64 0⟩, 45) := by
  have hsent : (serializeTensor zeroLz4 noF32 .uInt8 [64] (.replicate 64 0)
      { compress := true, metadata := some "layer" }).result
        = .ok (wire ⟨1, ⟨1⟩, .activation, .uInt8, [64], utf8 "layer", 12⟩
          ++ (leBytes 8 64 ++ leBytes 4 64)) := by decide +kernel
  refine ⟨zeroLz4_roundTrips, hsent, ?_⟩
  refine (deserializeTensor_serializeTensor_iff zeroLz4 noF32 zeroLz4_roundTrips _ _ _ _ rfl _ [7]
    hsent).mpr ⟨by decide, by decide, by decide, fun _ => by decide, fun _ => by decide⟩

/-- Three tensors that are accepted for sending and do not arrive as they were: one of thirty-three
dimensions, one with empty metadata, and packed elements that were compressed. -/
theorem not_deserializeTensor_serializeTensor : zeroLz4.RoundTrips ∧
    (∃ wire, (serializeTensor zeroLz4 noF32 .uInt8 (replicate 33 1) [0] {}).result = .ok wire ∧
      ∃ e, (deserializeTensor zeroLz4 noF32 wire).result = .error (.error e)) ∧
    (∃ wire, (serializeTensor zeroLz4 noF32 .uInt8 [1] [0] { metadata := some "" }).result
        = .ok wire ∧
      (deserializeTensor zeroLz4 noF32 wire).result
        = .ok (⟨.uInt8, [1], .activation, none, [0]⟩, wire.length)) ∧
    (∃ wire, (serializeTensor zeroLz4 noF32 .int4 [64] (replicate 32 0)
        { compress := true }).result = .ok wire ∧
      (deserializeTensor zeroLz4 noF32 wire).result
        = .error (.error (exceedsLimit 32 0))) := by
  refine ⟨zeroLz4_roundTrips, ?_, ⟨_, rfl, rfl⟩, ⟨_, rfl, rfl⟩⟩
  let header : TensorHeader := ⟨1, ⟨0⟩, .activation, .uInt8, .replicate 33 1, [], 1⟩
  obtain ⟨e, he⟩ := header.decode_wire_beyond [0] rfl (by decide) (by decide) (.inl (by decide))
  refine ⟨header.wire ++ [0], by decide +kernel, e, ?_⟩
  rw [deserializeTensor, bind_result_of_error he]

end Mlxcel.Tensor
