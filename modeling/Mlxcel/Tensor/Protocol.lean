import Mlxcel.Lib.Guarded
import Mlxcel.Lib.Slices
import Mathlib.Tactic.NormNum

/-!
# The header of the tensor wire format

A tensor travels as a header followed by its payload. The header has eight fixed bytes (version,
flags, kind, element type and the number of dimensions), the dimensions, the metadata behind its
length and the length of the payload, all numbers little endian.

`TensorHeader.encode` writes what it is given. `TensorHeader.decode` reads untrusted bytes and has
two limits of its own, `maxNdim` and `maxMetadataLen`. So the two agree exactly within these limits
(`decode_wire`, `decode_wire_beyond`), and decoding is safe on every byte string (`decode_safe`).
-/

namespace Mlxcel.Tensor

open List Guarded Guarded.Comp Delimited

/-- An error with its contexts, the outermost first. -/
abbrev Error := List String

/-- What the codec runs in: it logs the sizes that it asks the decompressor for. -/
abbrev Codec := Comp ℕ Error

/-- The same computation with a context around its errors. -/
def context {α : Type} (text : String) (x : Codec α) : Codec α := x.mapError (text :: ·)

lemma context_ok {α : Type} {text : String} {x : Codec α} {a : α} (hx : x.result = .ok a) :
    (context text x).result = .ok a :=
  mapError_result_of_ok hx

lemma context_eq_ok {α : Type} {text : String} {x : Codec α} {a : α} :
    (context text x).result = .ok a ↔ x.result = .ok a := by
  obtain ⟨_, (_ | _) | _⟩ := x <;> simp [context, mapError]

def protocolVersion : UInt8 := 1

def maxNdim : ℕ := 32

def maxMetadataLen : ℕ := 16 * 1024 * 1024

/-! ## Flags, kinds and element types -/

/-- The bits of the flags byte. -/
structure TensorFlags where
  bits : UInt8
deriving Repr, DecidableEq

namespace TensorFlags

def compressed : UInt8 := 1

def quantized : UInt8 := 2

def new : TensorFlags := ⟨0⟩

variable (flags : TensorFlags)

def set (flag : UInt8) : TensorFlags := ⟨flags.bits ||| flag⟩

def isSet (flag : UInt8) : Bool := flags.bits &&& flag != 0

def isCompressed : Bool := flags.isSet compressed

def isQuantized : Bool := flags.isSet quantized

end TensorFlags

inductive TensorKind
  | kvCache
  | activation
  | weightShard
deriving Repr, DecidableEq

namespace TensorKind

def toU8 : TensorKind → UInt8
  | kvCache => 0
  | activation => 1
  | weightShard => 2

def unknown (other : UInt8) : Error := [s!"unknown tensor kind: {other}"]

def tryFrom (value : UInt8) : Codec TensorKind :=
  match value.toNat with
  | 0 => pure kvCache
  | 1 => pure activation
  | 2 => pure weightShard
  | _ => bail (unknown value)

lemma tryFrom_toU8 (kind : TensorKind) : (tryFrom kind.toU8).result = .ok kind := by
  cases kind <;> rfl

lemma tryFrom_safe {asks : ℕ → Prop} (value : UInt8) :
    Safe asks (fun _ => True) (tryFrom value) := by
  unfold tryFrom
  split <;> first | exact .pure trivial | exact .bail

lemma toU8_of_tryFrom {value : UInt8} {kind : TensorKind} (h : (tryFrom value).result = .ok kind) :
    kind.toU8 = value := by
  unfold tryFrom at h
  split at h <;> cases h <;> exact UInt8.toNat_inj.mp (Eq.symm ‹_›)

end TensorKind

inductive TensorDtype
  | float32
  | float16
  | bFloat16
  | int32
  | int16
  | int8
  | uInt8
  | bool
  /-- Two elements in a byte. -/
  | int4
deriving Repr, DecidableEq

namespace TensorDtype

/-- The bytes of one element; zero for packed elements, which the callers handle themselves. -/
def elementSize : TensorDtype → ℕ
  | float32 | int32 => 4
  | float16 | bFloat16 | int16 => 2
  | int8 | uInt8 | bool => 1
  | int4 => 0

def toU8 : TensorDtype → UInt8
  | float32 => 0
  | float16 => 1
  | bFloat16 => 2
  | int32 => 3
  | int16 => 4
  | int8 => 5
  | uInt8 => 6
  | bool => 7
  | int4 => 8

def unknown (other : UInt8) : Error := [s!"unknown tensor dtype: {other}"]

def tryFrom (value : UInt8) : Codec TensorDtype :=
  match value.toNat with
  | 0 => pure float32
  | 1 => pure float16
  | 2 => pure bFloat16
  | 3 => pure int32
  | 4 => pure int16
  | 5 => pure int8
  | 6 => pure uInt8
  | 7 => pure bool
  | 8 => pure int4
  | _ => bail (unknown value)

/-- The name that a type is displayed under. -/
def name : TensorDtype → String
  | float32 => "float32"
  | float16 => "float16"
  | bFloat16 => "bfloat16"
  | int32 => "int32"
  | int16 => "int16"
  | int8 => "int8"
  | uInt8 => "uint8"
  | bool => "bool"
  | int4 => "int4"

lemma tryFrom_toU8 (dtype : TensorDtype) : (tryFrom dtype.toU8).result = .ok dtype := by
  cases dtype <;> rfl

lemma tryFrom_safe {asks : ℕ → Prop} (value : UInt8) :
    Safe asks (fun _ => True) (tryFrom value) := by
  unfold tryFrom
  split <;> first | exact .pure trivial | exact .bail

lemma toU8_of_tryFrom {value : UInt8} {dtype : TensorDtype}
    (h : (tryFrom value).result = .ok dtype) : dtype.toU8 = value := by
  unfold tryFrom at h
  split at h <;> cases h <;> exact UInt8.toNat_inj.mp (Eq.symm ‹_›)

end TensorDtype

/-- The quantization that a tensor is sent under. -/
inductive QuantizationMode
  | none
  | int8
  | int4
deriving Repr, DecidableEq

/-! ## The header -/

structure TensorHeader where
  version : UInt8
  flags : TensorFlags
  kind : TensorKind
  dtype : TensorDtype
  shape : List UInt64
  metadata : List UInt8
  dataLen : UInt64
deriving Repr, DecidableEq

namespace TensorHeader

/-- The bytes before the dimensions. -/
def fixedSize : ℕ := 8

/-- The eight bytes of a dimension. -/
def dimBytes (dim : UInt64) : List UInt8 := leBytes 8 dim.toNat

/-- The bytes that `encode` puts one after another. -/
def wire (h : TensorHeader) : List UInt8 :=
  [h.version, h.flags.bits, h.kind.toU8, h.dtype.toU8] ++ leBytes 4 h.shape.length ++
    h.shape.flatMap dimBytes ++ leBytes 4 h.metadata.length ++ h.metadata ++
    leBytes 8 h.dataLen.toNat

def encode (h : TensorHeader) : Codec (List UInt8) :=
  -- `u32::try_from(..).expect(..)` on both counts
  if h.shape.length < 2 ^ 32 ∧ h.metadata.length < 2 ^ 32 then pure h.wire else panicked

lemma encode_ok {h : TensorHeader} {bytes : List UInt8} (hok : h.encode.result = .ok bytes) :
    (h.shape.length < 2 ^ 32 ∧ h.metadata.length < 2 ^ 32) ∧ bytes = h.wire := by
  unfold encode at hok
  split at hok
  · cases hok
    exact ⟨by assumption, rfl⟩
  · cases hok

def headerTooShort (need got : ℕ) : Error :=
  [s!"header too short: need at least {need} bytes, got {got}"]

def unsupportedVersion (version : UInt8) : Error :=
  [s!"unsupported protocol version: {version} (expected {protocolVersion})"]

def tooManyDimensions (ndim : ℕ) : Error :=
  [s!"ndim {ndim} exceeds maximum allowed ({maxNdim})"]

def metadataTooLong (len : ℕ) : Error :=
  [s!"metadata length {len} exceeds maximum allowed ({maxMetadataLen})"]

variable (buf : List UInt8)

/-- The dimension at position `i` behind the fixed bytes. -/
def decodeDim (i : ℕ) : Codec UInt64 := do
  let offset ← add fixedSize (← mul i 8)
  let dim ← slice buf offset (← add offset 8)
  pure (UInt64.ofNat (leNat dim))

/-- What follows the fixed bytes: the dimensions, the metadata and the length of the payload. -/
def decodeFields (version flags : UInt8) (kind : TensorKind)
    (dtype : TensorDtype) (ndim : ℕ) : Codec (TensorHeader × ℕ) := do
  ensure (ndim ≤ maxNdim) (tooManyDimensions ndim)
  let shapeEnd ← add fixedSize (← mul ndim 8)
  let lenEnd ← add shapeEnd 4
  ensure (lenEnd ≤ buf.length) ["header too short for shape + metadata_len"]
  let shape ← each (decodeDim buf) (range ndim)
  let metadataLen := leNat (← slice buf shapeEnd lenEnd)
  ensure (metadataLen ≤ maxMetadataLen) (metadataTooLong metadataLen)
  -- `checked_add` twice
  let metadataEnd ← orBail
    (if shapeEnd + 4 + metadataLen < 2 ^ 64 then some (shapeEnd + 4 + metadataLen) else none)
    ["metadata offset overflow"]
  let consumed ← add metadataEnd 8
  ensure (consumed ≤ buf.length) ["header too short for metadata + data_len"]
  let metadata ← slice buf lenEnd metadataEnd
  let dataLen ← slice buf metadataEnd consumed
  pure (⟨version, ⟨flags⟩, kind, dtype, shape, metadata, UInt64.ofNat (leNat dataLen)⟩, consumed)

def decode : Codec (TensorHeader × ℕ) := do
  ensure (fixedSize ≤ buf.length) (headerTooShort fixedSize buf.length)
  let version ← index buf 0
  ensure (version = protocolVersion) (unsupportedVersion version)
  let flags ← index buf 1
  let kind ← context "invalid tensor kind" (TensorKind.tryFrom (← index buf 2))
  let dtype ← context "invalid tensor dtype" (TensorDtype.tryFrom (← index buf 3))
  let ndim ← slice buf 4 8
  decodeFields buf version flags kind dtype (leNat ndim)

/-! ## Decoding is safe -/

variable {asks : ℕ → Prop}

lemma decodeDim_safe {buf : List UInt8} {i : ℕ} (hi : i < maxNdim)
    (hbuf : fixedSize + i * 8 + 8 ≤ buf.length) :
    Safe asks (fun _ => True) (decodeDim buf i) := by
  unfold maxNdim at hi
  unfold fixedSize at hbuf
  unfold decodeDim fixedSize
  refine (Safe.mul (by omega)).bind fun _ hmul => ?_
  refine (Safe.add (by omega)).bind fun offset hoffset => ?_
  refine (Safe.add (by omega)).bind fun stop hstop => ?_
  refine (Safe.slice (by omega) (by omega)).bind fun dim _ => ?_
  exact .pure trivial

lemma decodeFields_safe (version flags : UInt8) (kind : TensorKind) (dtype : TensorDtype)
    (ndim : ℕ) :
    Safe asks (fun r => r.2 ≤ buf.length) (decodeFields buf version flags kind dtype ndim) := by
  unfold decodeFields fixedSize
  refine Safe.ensure.bind fun _ hndim => ?_
  have hndim' : ndim ≤ 32 := hndim
  refine (Safe.mul (by omega)).bind fun _ hmul => ?_
  refine (Safe.add (by omega)).bind fun shapeEnd hshapeEnd => ?_
  refine (Safe.add (by omega)).bind fun lenEnd hlenEnd => ?_
  refine Safe.ensure.bind fun _ hlen => ?_
  have hdims : ∀ i ∈ range ndim, Safe asks (fun _ => True) (decodeDim buf i) := by
    intro i hi
    have hlt := mem_range.mp hi
    refine decodeDim_safe (show i < maxNdim by omega) ?_
    unfold fixedSize
    omega
  refine (Safe.each hdims).bind fun shape _ => ?_
  refine (Safe.slice (by omega) (by omega)).bind fun metadataLen _ => ?_
  refine Safe.ensure.bind fun _ hmeta => ?_
  have hmeta' : leNat metadataLen ≤ 16 * 1024 * 1024 := hmeta
  refine Safe.orBail.bind fun metadataEnd hend => ?_
  rw [if_pos (by omega), Option.some.injEq] at hend
  refine (Safe.add (by omega)).bind fun consumed hconsumed => ?_
  refine Safe.ensure.bind fun _ hle => ?_
  refine (Safe.slice (by omega) (by omega)).bind fun metadata _ => ?_
  refine (Safe.slice (by omega) (by omega)).bind fun dataLen _ => ?_
  exact .pure hle

/-- **Reading a header never panics**, and what it consumed lies within the bytes. -/
theorem decode_safe : Safe asks (fun r => r.2 ≤ buf.length) (decode buf) := by
  refine Safe.ensure.bind fun _ hfixed => ?_
  unfold fixedSize at hfixed
  refine (Safe.index (by omega)).bind fun version _ => ?_
  refine Safe.ensure.bind fun _ _ => ?_
  refine (Safe.index (by omega)).bind fun flags _ => ?_
  refine (Safe.index (by omega)).bind fun kindByte _ => ?_
  refine (Safe.mapError (TensorKind.tryFrom_safe _)).bind fun kind _ => ?_
  refine (Safe.index (by omega)).bind fun dtypeByte _ => ?_
  refine (Safe.mapError (TensorDtype.tryFrom_safe _)).bind fun dtype _ => ?_
  refine (Safe.slice (by omega) (by omega)).bind fun ndim _ => ?_
  exact decodeFields_safe buf version flags kind dtype (leNat ndim)

/-! ## The two directions agree -/

@[simp] lemma length_dimBytes (dim : UInt64) : (dimBytes dim).length = 8 := by
  simp [dimBytes]

lemma length_flatMap_dimBytes (shape : List UInt64) :
    (shape.flatMap dimBytes).length = shape.length * 8 := by
  induction shape with
  | nil => rfl
  | cons d shape ih => simp [ih]; omega

lemma length_wire (h : TensorHeader) :
    h.wire.length = 8 + h.shape.length * 8 + 4 + h.metadata.length + 8 := by
  simp only [wire, length_append, length_leBytes, length_flatMap_dimBytes, length_cons,
    length_nil]

lemma ofNat_dimBytes (dim : UInt64) : UInt64.ofNat (leNat (dimBytes dim)) = dim := by
  rw [dimBytes, leNat_leBytes_of_lt dim.toNat_lt, UInt64.ofNat_toNat]

section

variable (h : TensorHeader)

include h

variable (rest : List UInt8)

lemma decodeDim_wire {i : ℕ} (hi : i < h.shape.length) (hndim : h.shape.length ≤ maxNdim) :
    (decodeDim (h.wire ++ rest) i).result = .ok (h.shape[i]?.getD 0) := by
  unfold maxNdim at hndim
  have hsplit : h.shape = h.shape.take i ++ h.shape[i]?.getD 0 :: h.shape.drop (i + 1) := by
    rw [getElem?_eq_getElem hi, Option.getD_some, getElem_cons_drop,
      take_append_drop]
  have hbytes : h.wire ++ rest
      = ([h.version, h.flags.bits, h.kind.toU8, h.dtype.toU8] ++ leBytes 4 h.shape.length
          ++ (h.shape.take i).flatMap dimBytes) ++ dimBytes (h.shape[i]?.getD 0)
        ++ ((h.shape.drop (i + 1)).flatMap dimBytes ++ leBytes 4 h.metadata.length ++ h.metadata
          ++ leBytes 8 h.dataLen.toNat ++ rest) := by
    have hdims : h.shape.flatMap dimBytes = (h.shape.take i).flatMap dimBytes
        ++ dimBytes (h.shape[i]?.getD 0) ++ (h.shape.drop (i + 1)).flatMap dimBytes := by
      conv_lhs => rw [hsplit]
      simp
    simp [wire, hdims]
  have hhead : ([h.version, h.flags.bits, h.kind.toU8, h.dtype.toU8]
      ++ leBytes 4 h.shape.length ++ (h.shape.take i).flatMap dimBytes).length = 8 + i * 8 := by
    simp only [length_append, length_leBytes, length_flatMap_dimBytes, length_cons,
      length_nil, length_take]
    omega
  unfold decodeDim fixedSize
  rw [bind_result_of_ok (mul_result (by omega)), bind_result_of_ok (add_result (by omega)),
    bind_result_of_ok (add_result (by omega)), hbytes,
    bind_result_of_ok (slice_middle (by rw [hhead]) (by rw [hhead, length_dimBytes])),
    ofNat_dimBytes]
  rfl

lemma decode_shape (hndim : h.shape.length ≤ maxNdim) :
    (each (decodeDim (h.wire ++ rest)) (range h.shape.length)).result = .ok h.shape := by
  rw [each_result (g := fun i => h.shape[i]?.getD 0)
    (fun i hi => decodeDim_wire h rest (mem_range.mp hi) hndim)]
  congr 1
  refine ext_getElem (by simp) fun i hi hi' => ?_
  simp [getElem?_eq_getElem hi']

/-- The fixed bytes and the counts of a header on the wire, at the places where they are read. -/
lemma wire_slices : (slice (h.wire ++ rest) 4 8 : Codec _).result = .ok (leBytes 4 h.shape.length) ∧
    (slice (h.wire ++ rest) (8 + h.shape.length * 8) (8 + h.shape.length * 8 + 4) :
      Codec _).result = .ok (leBytes 4 h.metadata.length) ∧
    (slice (h.wire ++ rest) (8 + h.shape.length * 8 + 4)
      (8 + h.shape.length * 8 + 4 + h.metadata.length) : Codec _).result = .ok h.metadata ∧
    (slice (h.wire ++ rest) (8 + h.shape.length * 8 + 4 + h.metadata.length)
      (8 + h.shape.length * 8 + 4 + h.metadata.length + 8) : Codec _).result
        = .ok (leBytes 8 h.dataLen.toNat) := by
  set a := [h.version, h.flags.bits, h.kind.toU8, h.dtype.toU8] with ha
  set b := leBytes 4 h.shape.length with hb
  set c := h.shape.flatMap dimBytes with hc
  set d := leBytes 4 h.metadata.length with hd
  set e := leBytes 8 h.dataLen.toNat with he
  have hla : a.length = 4 := rfl
  have hlb : b.length = 4 := length_leBytes _ _
  have hlc : c.length = h.shape.length * 8 := length_flatMap_dimBytes _
  have hld : d.length = 4 := length_leBytes _ _
  have hle : e.length = 8 := length_leBytes _ _
  have hwire : h.wire = a ++ b ++ c ++ d ++ h.metadata ++ e := rfl
  refine ⟨?_, ?_, ?_, ?_⟩
  · rw [show h.wire ++ rest = a ++ b ++ (c ++ d ++ h.metadata ++ e ++ rest) by
      simp [hwire]]
    exact slice_middle (by omega) (by omega)
  · rw [show h.wire ++ rest = (a ++ b ++ c) ++ d ++ (h.metadata ++ e ++ rest) by
      simp [hwire]]
    exact slice_middle (by simp only [length_append]; omega)
      (by simp only [length_append]; omega)
  · rw [show h.wire ++ rest = (a ++ b ++ c ++ d) ++ h.metadata ++ (e ++ rest) by
      simp [hwire]]
    exact slice_middle (by simp only [length_append]; omega)
      (by simp only [length_append]; omega)
  · rw [show h.wire ++ rest = (a ++ b ++ c ++ d ++ h.metadata) ++ e ++ rest by
      simp only [hwire]]
    exact slice_middle (by simp only [length_append]; omega)
      (by simp only [length_append]; omega)

section

variable (hversion : h.version = protocolVersion)

include hversion

lemma decode_wire_eq (hshape : h.shape.length < 2 ^ 32) :
    (decode (h.wire ++ rest)).result = (decodeFields (h.wire ++ rest) h.version h.flags.bits h.kind
      h.dtype h.shape.length).result := by
  have hlen := h.length_wire
  have hfixed : fixedSize ≤ (h.wire ++ rest).length := by
    rw [length_append]; unfold fixedSize; omega
  unfold decode
  rw [bind_result_of_ok (ensure_result hfixed),
    bind_result_of_ok (index_result (b := h.version) (by simp [wire])),
    bind_result_of_ok (ensure_result hversion),
    bind_result_of_ok (index_result (b := h.flags.bits) (by simp [wire])),
    bind_result_of_ok (index_result (b := h.kind.toU8) (by simp [wire])),
    bind_result_of_ok (context_ok h.kind.tryFrom_toU8),
    bind_result_of_ok (index_result (b := h.dtype.toU8) (by simp [wire])),
    bind_result_of_ok (context_ok h.dtype.tryFrom_toU8),
    bind_result_of_ok (h.wire_slices rest).1,
    leNat_leBytes_of_lt (show h.shape.length < 256 ^ 4 by omega)]

/-- **The codec of the header**: what was encoded is decoded, within the limits of `decode`. -/
theorem decode_wire (hndim : h.shape.length ≤ maxNdim)
    (hmeta : h.metadata.length ≤ maxMetadataLen) :
    (decode (h.wire ++ rest)).result = .ok (h, h.wire.length) := by
  have hn : h.shape.length ≤ 32 := hndim
  have hm : h.metadata.length ≤ 16 * 1024 * 1024 := hmeta
  have hlen := h.length_wire
  obtain ⟨-, hmlen, hmdata, hdlen⟩ := h.wire_slices rest
  rw [decode_wire_eq h rest hversion (by omega)]
  unfold decodeFields fixedSize
  rw [bind_result_of_ok (ensure_result hndim), bind_result_of_ok (mul_result (by omega)),
    bind_result_of_ok (add_result (by omega)), bind_result_of_ok (add_result (by omega)),
    bind_result_of_ok (ensure_result (by rw [length_append]; omega)),
    bind_result_of_ok (decode_shape h rest hndim), bind_result_of_ok hmlen,
    leNat_leBytes_of_lt (show h.metadata.length < 256 ^ 4 by omega),
    bind_result_of_ok (ensure_result hmeta), if_pos (by omega),
    bind_result_of_ok (orBail_some_result _ _), bind_result_of_ok (add_result (by omega)),
    bind_result_of_ok (ensure_result (by rw [length_append]; omega)),
    bind_result_of_ok hmdata, bind_result_of_ok hdlen,
    leNat_leBytes_of_lt h.dataLen.toNat_lt, UInt64.ofNat_toNat, hlen]
  rfl

/-- A header beyond one of the limits is turned down, however it was encoded. -/
theorem decode_wire_beyond (hshape : h.shape.length < 2 ^ 32)
    (hmetadata : h.metadata.length < 2 ^ 32)
    (hbeyond : maxNdim < h.shape.length ∨ maxMetadataLen < h.metadata.length) :
    ∃ e, (decode (h.wire ++ rest)).result = .error (.error e) := by
  rw [decode_wire_eq h rest hversion hshape, decodeFields]
  by_cases hndim : h.shape.length ≤ maxNdim
  · have hmeta : ¬h.metadata.length ≤ maxMetadataLen := by omega
    have hlen := h.length_wire
    unfold fixedSize
    rw [bind_result_of_ok (ensure_result hndim), bind_result_of_ok (mul_result (by omega)),
      bind_result_of_ok (add_result (by omega)), bind_result_of_ok (add_result (by omega)),
      bind_result_of_ok (ensure_result (by rw [length_append]; omega)),
      bind_result_of_ok (decode_shape h rest hndim),
      bind_result_of_ok (h.wire_slices rest).2.1,
      leNat_leBytes_of_lt (show h.metadata.length < 256 ^ 4 by omega),
      bind_result_of_error (ensure_result_of_not hmeta)]
    exact ⟨_, rfl⟩
  · rw [bind_result_of_error (ensure_result_of_not hndim)]
    exact ⟨_, rfl⟩

end

end

/-! ## What is accepted is well formed -/

section

variable {buf : List UInt8} {ndim n : ℕ} {h : TensorHeader}

lemma dimBytes_ofNat {bytes : List UInt8} (hlen : bytes.length = 8) :
    dimBytes (UInt64.ofNat (leNat bytes)) = bytes := by
  have hlt := leNat_lt bytes
  rw [hlen] at hlt
  rw [dimBytes, UInt64.toNat_ofNat_of_lt' hlt, Slices.leBytes_leNat hlen]

/-- The dimensions that are read stand in the buffer. -/
lemma flatMap_dimBytes {shape : List UInt64} (hndim : ndim ≤ maxNdim)
    (hbuf : 8 + ndim * 8 ≤ buf.length)
    (hshape : (each (decodeDim buf) (range ndim)).result = .ok shape) :
    shape.length = ndim ∧ shape.flatMap dimBytes = (buf.drop 8).take (ndim * 8) := by
  have hndim' : ndim ≤ 32 := hndim
  have hdim : ∀ i ∈ range ndim, (decodeDim buf i).result
      = .ok (UInt64.ofNat (leNat (Slices.slice buf (8 + i * 8) 8))) := by
    intro i hi
    rw [mem_range] at hi
    unfold decodeDim fixedSize
    rw [bind_result_of_ok (mul_result (by omega)), bind_result_of_ok (add_result (by omega)),
      bind_result_of_ok (add_result (by omega)),
      bind_result_of_ok (slice_result (by omega) (by omega)), Nat.add_sub_cancel_left]
    rfl
  rw [each_result hdim] at hshape
  cases hshape
  refine ⟨by simp, ?_⟩
  rw [← Slices.slice, ← Slices.flatMap_slice_range, flatMap_map]
  refine flatMap_congr fun i hi => dimBytes_ofNat (Slices.length_slice ?_)
  rw [mem_range] at hi
  omega

lemma wire_of_decodeFields {version flags : UInt8} {kind : TensorKind} {dtype : TensorDtype}
    (hfixed : [version, flags, kind.toU8, dtype.toU8] ++ leBytes 4 ndim = buf.take 8)
    (hd : (decodeFields buf version flags kind dtype ndim).result = .ok (h, n)) :
    h.version = version ∧ h.shape.length ≤ maxNdim ∧ h.metadata.length ≤ maxMetadataLen ∧
      h.wire = buf.take n ∧ n ≤ buf.length := by
  unfold decodeFields fixedSize at hd
  simp only [ensure, add, mul, slice, bail, panicked, bind_eq_ok, guard_eq_ok, orBail_eq_ok,
    Option.ite_none_right_eq_some, Option.some.injEq] at hd
  obtain ⟨_, ⟨hndim, -⟩, _, ⟨-, rfl⟩, _, ⟨-, rfl⟩, _, ⟨-, rfl⟩, _, ⟨hlen, -⟩, shape, hshape, len,
    ⟨-, hl⟩, _, ⟨hmeta, -⟩, _, ⟨-, rfl⟩, _, ⟨-, rfl⟩, _, ⟨hn, -⟩, metadata, ⟨-, hm⟩, data,
    ⟨-, hdata⟩, hd⟩ := hd
  cases hd
  rw [Nat.add_sub_cancel_left] at hl hm hdata
  obtain ⟨hcount, hdims⟩ := flatMap_dimBytes hndim (by omega) hshape
  have hl4 : len.length = 4 := by simp [← hl]; omega
  have hml : metadata.length = leNat len := by simp [← hm]; omega
  have hd8 : data.length = 8 := by simp [← hdata]; omega
  refine ⟨rfl, hcount.le.trans hndim, hml.le.trans hmeta, ?_, hn⟩
  -- the parts of the wire are the consecutive parts of the buffer
  change _ ++ leBytes 4 shape.length ++ _ ++ leBytes 4 metadata.length ++ _ ++ dimBytes _ = _
  rw [hcount, hfixed, hdims, hml, Slices.leBytes_leNat hl4, dimBytes_ofNat hd8]
  rw [take_add, take_add, take_add, take_add, hl, hm, hdata]

/-- **A header is accepted exactly if the bytes start with its encoding** and it is within the
limits, and these bytes are what is consumed. -/
theorem decode_eq_ok_iff : (decode buf).result = .ok (h, n) ↔ h.version = protocolVersion ∧
    h.shape.length ≤ maxNdim ∧ h.metadata.length ≤ maxMetadataLen ∧
    h.encode.result = .ok (buf.take n) ∧ n ≤ buf.length := by
  constructor
  · intro hd
    unfold decode fixedSize at hd
    simp only [ensure, slice, bail, panicked, bind_eq_ok, guard_eq_ok, context_eq_ok] at hd
    obtain ⟨_, ⟨hlen, -⟩, _, hversion, _, ⟨rfl, -⟩, flags, hflags, _, hkindByte, kind, hkind, _,
      hdtypeByte, dtype, hdtype, _, ⟨-, rfl⟩, hd⟩ := hd
    have hfixed : [protocolVersion, flags, kind.toU8, dtype.toU8]
        ++ leBytes 4 (leNat ((buf.drop 4).take 4)) = buf.take 8 := by
      rcases buf with _ | ⟨b₀, _ | ⟨b₁, _ | ⟨b₂, _ | ⟨b₃, buf⟩⟩⟩⟩ <;> cases hversion <;>
        cases hflags <;> cases hkindByte <;> cases hdtypeByte
      rw [TensorKind.toU8_of_tryFrom hkind, TensorDtype.toU8_of_tryFrom hdtype,
        Slices.leBytes_leNat]
      · rfl
      · simp at hlen ⊢; omega
    obtain ⟨hv, hndim, hmeta, hwire, hn⟩ := wire_of_decodeFields hfixed hd
    have hok : h.encode = pure h.wire :=
      if_pos ⟨hndim.trans_lt (by decide), hmeta.trans_lt (by decide)⟩
    exact ⟨hv, hndim, hmeta, hwire ▸ hok ▸ rfl, hn⟩
  · rintro ⟨hversion, hndim, hmeta, hok, hn⟩
    obtain ⟨-, hwire⟩ := encode_ok hok
    have hlen := congrArg length hwire
    rw [length_take_of_le hn] at hlen
    rw [← take_append_drop n buf, hwire, hlen]
    exact decode_wire h _ hversion hndim hmeta

end

end TensorHeader

end Mlxcel.Tensor
