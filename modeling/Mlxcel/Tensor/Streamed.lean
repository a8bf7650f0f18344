import Mlxcel.Tensor.Serialize

/-!
# The streamed transfer of a KV layer

`sendLayer` joins the keys and the values of one layer, quantizes and compresses them on demand and
writes a header. `reassembleLayerPayload` undoes this on the decode node.

The sender compresses only where this pays, and the header does not say whether it did: the receiver
goes by the configuration. So without quantization a layer arrives exactly if compression is off, or
pays and keeps to the limit of the receiver (`transferLayer_iff`).
-/

namespace Mlxcel.Tensor

open Guarded Guarded.Comp

inductive CacheQuantizationLevel
  | none
  | int8
  | int4
deriving DecidableEq

/-- The bytes of the tensors of one layer. -/
structure SerializableCacheEntry where
  keys : Option (List UInt8)
  values : Option (List UInt8)

structure TransferConfig where
  quantization : CacheQuantizationLevel := .none
  compress : Bool := false

structure LayerTransferHeader where
  sequenceId : ℕ
  layerIndex : ℕ
  totalLayers : ℕ
  quantized : Bool
  quantizationLevel : CacheQuantizationLevel
  originalNumElements : ℕ

variable (lz4 : Lz4) (f : F32)

/-- `decompress`, with its limit of 256 MiB. -/
def decompress (data : List UInt8) : Codec (List UInt8) :=
  decompressLimited lz4 data (256 * 1024 * 1024)

/-- The bytes for the wire, how many they were, and the number of elements. -/
def prepareLayerPayload (entry : SerializableCacheEntry) (quantization : CacheQuantizationLevel)
    (compress : Bool) : Codec (List UInt8 × ℕ × ℕ) :=
  match entry.keys, entry.values with
  | some keys, some values => do
    let raw := keys ++ values
    let quantized ← match quantization with
      | .none => pure raw
      | .int8 => quantizeInt8 f raw
      | .int4 => quantizeInt4 f raw
    let wire := if compress then (compressIfBeneficial lz4 quantized).getD quantized else quantized
    pure (wire, raw.length, keys.length / 2 + values.length / 2)
  | _, _ => pure ([], 0, 0)

/-- The header and the bytes that are sent for a layer. -/
def sendLayer (config : TransferConfig) (sequenceId totalLayers layerIndex : ℕ)
    (entry : SerializableCacheEntry) : Codec (LayerTransferHeader × List UInt8) := do
  let (wire, _, numElements) ← prepareLayerPayload lz4 f entry config.quantization config.compress
  pure (⟨sequenceId, layerIndex, totalLayers, config.quantization ≠ .none, config.quantization,
    numElements⟩, wire)

def reassembleLayerPayload (header : LayerTransferHeader) (wire : List UInt8) (compressed : Bool) :
    Codec (List UInt8) := do
  let decompressed ←
    if compressed then context "decompressing layer data" (decompress lz4 wire) else pure wire
  match header.quantizationLevel with
  | .none => pure decompressed
  | .int8 => dequantizeInt8 f decompressed header.originalNumElements
  | .int4 => dequantizeInt4 f decompressed header.originalNumElements

/-- A layer on its way between two nodes with the same configuration. -/
def transferLayer (config : TransferConfig) (sequenceId totalLayers layerIndex : ℕ)
    (entry : SerializableCacheEntry) : Codec (List UInt8) := do
  let (header, wire) ← sendLayer lz4 f config sequenceId totalLayers layerIndex entry
  reassembleLayerPayload lz4 f header wire config.compress

variable {lz4 f}

lemma reassembleLayerPayload_plain {header : LayerTransferHeader} {wire raw : List UInt8}
    (hplain : header.quantizationLevel = .none) :
    (reassembleLayerPayload lz4 f header wire true).result = .ok raw ↔
      (decompress lz4 wire).result = .ok raw := by
  rw [reassembleLayerPayload, hplain, if_pos rfl]
  constructor
  · intro h
    obtain ⟨out, hout, h⟩ := bind_ok h
    cases h
    exact context_eq_ok.mp hout
  · intro h
    rw [bind_result_of_ok (context_ok h)]
    rfl

lemma eq_compress {data out : List UInt8} (h : compressIfBeneficial lz4 data = some out) :
    out = compress lz4 data := by
  unfold compressIfBeneficial at h
  split_ifs at h
  exact (Option.some.inj h).symm

/-- **A layer arrives as it was** exactly if it is sent and read without compression, or
compression pays and its length keeps to the limit. Otherwise the receiver decompresses bytes that
were never compressed. -/
theorem transferLayer_iff (hlz4 : lz4.RoundTrips) {config : TransferConfig}
    (hplain : config.quantization = .none) (sequenceId totalLayers layerIndex : ℕ)
    {keys values : List UInt8} (hlt : (keys ++ values).length < 2 ^ 64) :
    (transferLayer lz4 f config sequenceId totalLayers layerIndex
        ⟨some keys, some values⟩).result = .ok (keys ++ values) ↔
      (config.compress = true →
        match compressIfBeneficial lz4 (keys ++ values) with
        | some _ => (keys ++ values).length ≤ 256 * 1024 * 1024
        | none => (decompress lz4 (keys ++ values)).result = .ok (keys ++ values)) := by
  obtain ⟨quantization, compress⟩ := config
  obtain rfl : quantization = .none := hplain
  cases compress with
  | false => exact iff_of_true rfl (fun h => by cases h)
  | true =>
    have hsent : (transferLayer lz4 f ⟨.none, true⟩ sequenceId totalLayers layerIndex
        ⟨some keys, some values⟩).result = .ok (keys ++ values) ↔ (decompress lz4
          ((compressIfBeneficial lz4 (keys ++ values)).getD (keys ++ values))).result
            = .ok (keys ++ values) := reassembleLayerPayload_plain rfl
    rw [hsent]
    cases hpays : compressIfBeneficial lz4 (keys ++ values) with
    | none => exact ⟨fun h _ => h, fun h => h rfl⟩
    | some out =>
      rw [Option.getD_some, eq_compress hpays, decompress, decompressLimited_compress hlz4 hlt]
      refine ⟨fun h _ => h.1, fun h => ⟨h rfl, ?_⟩⟩
      have hle := h rfl
      omega

theorem transferLayer_zeros : zeroLz4.RoundTrips ∧
    (transferLayer zeroLz4 noF32 { compress := true } 7 2 0
      ⟨some (List.replicate 32 0), some (List.replicate 32 0)⟩).result
        = .ok (List.replicate 32 0 ++ List.replicate 32 0) := by
  refine ⟨zeroLz4_roundTrips, (transferLayer_iff zeroLz4_roundTrips rfl 7 2 0 ?_).mpr fun _ => ?_⟩
  · decide
  · show (64 : ℕ) ≤ 256 * 1024 * 1024
    omega

/-- Two bytes that do not get smaller are not received at all. -/
theorem not_transferLayer : zeroLz4.RoundTrips ∧
    (transferLayer zeroLz4 noF32 { compress := true } 7 2 0 ⟨some [1], some [2]⟩).result
      = .error (.error ["decompressing layer data",
        "compressed data too short for length prefix"]) :=
  ⟨zeroLz4_roundTrips, rfl⟩

end Mlxcel.Tensor
