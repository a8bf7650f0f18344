import Mlxcel.Lib.Calls
import Mlxcel.Tensor.Protocol
import Mathlib.Data.List.Forall2

/-!
# Quantization of a payload

On the way a half precision payload can be replaced by integers of eight or four bits, in groups of
`defaultGroupSize` elements that share one scale. A quantized payload has the number of groups, the
size of a group, a half precision scale for each group, and the integers; integers of four bits are
packed two in a byte.

Single precision numbers are their bit patterns. The conversions to and from half precision are the
code's own and work on the bits; the arithmetic of the processor is a parameter, `F32`.

**Safety.** `dequantizeWith_safe` says that a payload with the right header and length is expanded
without a panic to two bytes for each element, whatever its bytes are; the two widths are its
instances `dequantizeInt8_safe` and `dequantizeInt4_safe`.
-/

namespace Mlxcel.Tensor

open List MachineInt Guarded Guarded.Comp Delimited

/-- Single precision arithmetic on bit patterns. An integer of eight bits is given by its value. -/
structure F32 where
  abs : UInt32 → UInt32
  max : UInt32 → UInt32 → UInt32
  mul : UInt32 → UInt32 → UInt32
  div : UInt32 → UInt32 → UInt32
  round : UInt32 → UInt32
  clamp : UInt32 → UInt32 → UInt32 → UInt32
  isZero : UInt32 → Bool
  toI8 : UInt32 → ℤ
  ofI8 : ℤ → UInt32

/-! ## Half precision -/

/-- One round of the loop that brings the leading bit of a subnormal mantissa to its place. -/
def normalizeRound (s : UInt32 × UInt32) : (UInt32 × UInt32) ⊕ (UInt32 × UInt32) :=
  if s.1 &&& 0x400 = 0 then .inl (s.1 <<< 1, s.2 - 1) else .inr s

def f16ToF32 (bits : UInt16) : Codec UInt32 :=
  let sign := ((bits >>> 15) &&& 1).toUInt32
  let exponent := ((bits >>> 10) &&& 0x1F).toUInt32
  let mantissa := (bits &&& 0x3FF).toUInt32
  if exponent = 0 then
    if mantissa = 0 then pure (sign <<< 31)
    else
      -- the loop of the source has no bound: a run of it that never ends would be the panic here
      match Loop.run normalizeRound 2048 (mantissa, exponent) with
      | none => panicked
      | some (m, e) =>
        pure ((sign <<< 31) ||| (((127 - 15 + 1) + e) <<< 23) ||| ((m &&& 0x3FF) <<< 13))
  else if exponent = 31 then
    if mantissa = 0 then pure ((sign <<< 31) ||| ((0xFF : UInt32) <<< 23))
    else pure ((sign <<< 31) ||| ((0xFF : UInt32) <<< 23) ||| (mantissa <<< 13))
  else pure ((sign <<< 31) ||| ((exponent + (127 - 15)) <<< 23) ||| (mantissa <<< 13))

/-- A shift to the right, which panics when the amount is not below the width. -/
def shiftRight (value : UInt32) (amount : ℕ) : Codec UInt32 :=
  if amount < 32 then pure (value >>> UInt32.ofNat amount) else panicked

def f32ToF16 (bits : UInt32) : Codec UInt16 := do
  let sign := ((bits >>> 31) &&& 1).toUInt16
  let exponent := ((bits >>> 23) &&& 0xFF).toNat
  let mantissa := bits &&& 0x7FFFFF
  if exponent = 255 then
    if mantissa = 0 then pure ((sign <<< 15) ||| 0x7C00)
    else pure ((sign <<< 15) ||| (0x7C00 : UInt16) ||| max (mantissa >>> 13).toUInt16 1)
  else if 142 < exponent then pure ((sign <<< 15) ||| 0x7C00)
  else if exponent < 113 then
    if exponent < 103 then pure (sign <<< 15)
    else
      let m ← shiftRight (mantissa ||| 0x800000) (125 - exponent + 1)
      pure ((sign <<< 15) ||| (m >>> 13).toUInt16)
  else pure ((sign <<< 15) ||| (UInt16.ofNat (exponent - 112) <<< 10) ||| (mantissa >>> 13).toUInt16)

lemma and_0x3FF_lt (bits : UInt16) : (bits &&& 0x3FF).toUInt32.toNat < 1024 := by
  have h : (bits &&& 0x3FF).toNat ≤ 0x3FF := Nat.and_le_right
  simp only [UInt16.toNat_toUInt32]
  omega

/-- Below `2048` a number without the bit of value `1024` is below `1024`. -/
lemma lt_of_and_eq_zero {m : UInt32} (hm : m.toNat < 2048) (h : m &&& 0x400 = 0) :
    m.toNat < 1024 := by
  have hbit : m.toNat &&& 2 ^ 10 = 0 := by
    have := congrArg UInt32.toNat h
    simpa using this
  have hfalse : m.toNat.testBit 10 = false := by
    have := congrArg (Nat.testBit · 10) hbit
    simpa only [Nat.testBit_and, Nat.testBit_two_pow_self, Bool.and_true, Nat.zero_testBit]
      using this
  rw [Nat.testBit_eq_decide_div_mod_eq] at hfalse
  simp only [decide_eq_false_iff_not] at hfalse
  omega

/-- The loop on a subnormal mantissa ends. -/
lemma normalize_ends {m : UInt32} (hpos : 0 < m.toNat) (hlt : m.toNat < 1024) (e : UInt32) :
    ∃ r, Loop.run normalizeRound 2048 (m, e) = some r := by
  have hround : ∀ s : UInt32 × UInt32, (0 < s.1.toNat ∧ s.1.toNat < 2048) →
      Sum.elim (fun s' => (0 < s'.1.toNat ∧ s'.1.toNat < 2048) ∧
        2047 - s'.1.toNat < 2047 - s.1.toNat) (fun _ => True) (normalizeRound s) := by
    rintro ⟨m, e⟩ ⟨hpos, hlt⟩
    change 0 < m.toNat at hpos
    unfold normalizeRound
    by_cases hbit : m &&& 0x400 = 0
    · have hsmall : m.toNat < 1024 := lt_of_and_eq_zero hlt hbit
      have hdouble : (m <<< 1).toNat = m.toNat * 2 := by
        simp [Nat.shiftLeft_eq]
        omega
      rw [if_pos hbit]
      simp only [Sum.elim_inl]
      omega
    · rw [if_neg hbit]
      trivial
  obtain ⟨r, hr, -⟩ := Loop.run_of_variant _ _ hround (s := (m, e))
    ⟨hpos, lt_trans hlt (by norm_num)⟩ (show 2047 - m.toNat < 2048 by omega)
  exact ⟨r, hr⟩

lemma f16ToF32_safe {asks : ℕ → Prop} (bits : UInt16) :
    Safe asks (fun _ => True) (f16ToF32 bits) := by
  simp only [f16ToF32]
  split_ifs with _ hzero
  · exact .pure trivial
  · have hpos : 0 < (bits &&& 0x3FF).toUInt32.toNat := by
      rw [Nat.pos_iff_ne_zero]
      exact fun h => hzero (UInt32.toNat.inj h)
    obtain ⟨r, hr⟩ := normalize_ends hpos (and_0x3FF_lt bits) ((bits >>> 10) &&& 0x1F).toUInt32
    rw [hr]
    exact .pure trivial
  all_goals exact .pure trivial

lemma f32ToF16_safe {asks : ℕ → Prop} (bits : UInt32) :
    Safe asks (fun _ => True) (f32ToF16 bits) := by
  simp only [f32ToF16]
  split_ifs
  all_goals first
    | exact .pure trivial
    | skip
  · unfold shiftRight
    rw [if_pos (by omega)]
    exact .pure trivial

/-! ## Quantizing -/

def defaultGroupSize : ℕ := 128

/-- The values of a half precision payload. -/
def parseF16 (data : List UInt8) : Codec (List UInt32) :=
  each (fun i => do
    let low ← index data (← mul i 2)
    let high ← index data (← add (← mul i 2) 1)
    f16ToF32 (UInt16.ofNat (leNat [low, high]))) (range (data.length / 2))

variable (f : F32)

/-- The scale of a group and its codes, where the largest magnitude becomes `limit`. -/
def quantizeGroup (limit minusLimit : UInt32) (code : ℤ → Codec UInt8)
    (group : List UInt32) : Codec (UInt16 × List UInt8) := do
  let absmax := (group.map f.abs).foldl f.max 0
  -- `1.0` in a group of zeros
  let scale := if f.isZero absmax then 0x3F800000 else f.div absmax limit
  let half ← f32ToF16 scale
  let codes ← each (fun val =>
    code (f.toI8 (f.clamp (f.round (f.div val scale)) minusLimit limit))) group
  pure (half, codes)

/-- The common text of the two quantizers. -/
def quantizeWith (limit minusLimit : UInt32) (code : ℤ → Codec UInt8)
    (pack : List UInt8 → List UInt8) (data : List UInt8) : Codec (List UInt8) := do
  let numElements := data.length / 2
  let numGroups := divCeil numElements defaultGroupSize
  let values ← parseF16 data
  let groups ← each (fun g => do
    let start ← mul g defaultGroupSize
    let stop ← add start defaultGroupSize
    quantizeGroup f limit minusLimit code (← slice values start (min stop numElements)))
    (range numGroups)
  pure (leBytes 4 numGroups ++ leBytes 4 defaultGroupSize
    ++ groups.flatMap (fun g => leBytes 2 g.1.toNat) ++ pack (groups.flatMap Prod.snd))

/-- Codes from `-127` to `127`, one in a byte. -/
def quantizeInt8 (data : List UInt8) : Codec (List UInt8) :=
  quantizeWith f 0x42FE0000 0xC2FE0000 (fun q => pure (UInt8.ofNat (q % 256).toNat)) id data

/-- Two codes in a byte, the first one in the low half. -/
def packNibbles : List UInt8 → List UInt8
  | [] => []
  | [low] => [low]
  | low :: high :: rest => (low ||| (high <<< 4)) :: packNibbles rest

/-- Codes from `-7` to `7`, stored with `8` added. -/
def quantizeInt4 (data : List UInt8) : Codec (List UInt8) :=
  quantizeWith f 0x40E00000 0xC0E00000
    (fun q => if q + 8 ≤ 127 then pure (UInt8.ofNat ((q + 8) % 256).toNat &&& 0x0F) else panicked)
    packNibbles data

/-! ## Expanding -/

def zeros (numElements : ℕ) : Codec (List UInt8) := do
  let len ← mul numElements 2
  pure (replicate len 0)

/-- A machine word that stays at its largest value. -/
def saturate (n : ℕ) : ℕ := min n (2 ^ 64 - 1)

/-- The bytes of one group: its scale, and its codes times the scale. -/
def dequantizeGroup (codes : ℕ → ℕ → Codec (List ℤ)) (payload : List UInt8)
    (groupSize numElements g : ℕ) : Codec (List UInt8) := do
  let scaleOffset ← add 8 (← mul g 2)
  let scaleBits ← slice payload scaleOffset (← add scaleOffset 2)
  let scale ← f16ToF32 (UInt16.ofNat (leNat scaleBits))
  let start ← mul g groupSize
  let stop ← add start groupSize
  let values ← each (fun q => do
    let half ← f32ToF16 (f.mul (f.ofI8 q) scale)
    pure (leBytes 2 half.toNat)) (← codes start (min stop numElements))
  pure values.flatten

/-- The common text of the two expansions. `packedLen` is the room of the codes, and `read` gives
access to the codes from one element up to another. -/
def dequantizeWith (packedLen : ℕ → ℕ) (read : List UInt8 → ℕ → ℕ → Codec (ℕ → ℕ → Codec (List ℤ)))
    (payload : List UInt8) (numElements : ℕ) : Codec (List UInt8) :=
  if payload.length < 8 then zeros numElements
  else do
    let numGroups := leNat (← slice payload 0 4)
    let groupSize := leNat (← slice payload 4 8)
    if groupSize = 0 ∨ numGroups = 0 then zeros numElements
    else
      let dataStart := saturate (8 + saturate (numGroups * 2))
      if payload.length < saturate (dataStart + packedLen numElements) then zeros numElements
      else do
        let codes ← read payload dataStart numElements
        let _capacity ← mul numElements 2
        let groups ← each (dequantizeGroup f codes payload groupSize numElements)
          (range numGroups)
        pure groups.flatten

/-- A byte as an integer of eight bits. -/
def asI8 (b : UInt8) : ℤ := if b.toNat < 128 then b.toNat else (b.toNat : ℤ) - 256

def dequantizeInt8 (payload : List UInt8) (numElements : ℕ) : Codec (List UInt8) :=
  dequantizeWith f id
    (fun payload dataStart _ => pure fun start stop =>
      each (fun i => do
        let b ← index payload (← add dataStart i)
        pure (asI8 b)) (range' start (stop - start)))
    payload numElements

/-- The two codes of a byte. -/
def nibbles (b : UInt8) : List UInt8 := [b &&& 0x0F, (b >>> 4) &&& 0x0F]

def dequantizeInt4 (payload : List UInt8) (numElements : ℕ) : Codec (List UInt8) :=
  dequantizeWith f (divCeil · 2)
    (fun payload dataStart numElements => do
      let packed ← slice payload dataStart payload.length
      let codes := (packed.flatMap nibbles).take numElements
      pure fun start stop => do
        let group ← slice codes start stop
        -- a nibble less `8` is an integer of eight bits
        pure (group.map fun nibble => (nibble.toNat : ℤ) - 8))
    payload numElements

/-! ## Expanding is safe -/

section Safety

variable {asks : ℕ → Prop}

lemma length_flatten_of_forall₂ {α β : Type} {w : α → ℕ} {as : List α} {outs : List (List β)}
    (h : Forall₂ (fun a out => out.length = w a) as outs) :
    outs.flatten.length = (as.map w).sum := by
  induction h with
  | nil => rfl
  | cons hhead _ ih => simp [hhead, ih]

lemma sum_groups (n k : ℕ) : ((range k).map fun g => 2 * (min (g * 128 + 128) n - g * 128)).sum
      = 2 * min (k * 128) n := by
  induction k with
  | zero => simp
  | succ k ih =>
    rw [range_succ, map_append, sum_append]
    simp only [map_cons, map_nil, sum_cons, sum_nil]
    omega

/-- One group is expanded to two bytes for each of its elements. -/
lemma dequantizeGroup_safe {payload : List UInt8} {codes : ℕ → ℕ → Codec (List ℤ)} {n g : ℕ}
    (hscale : 8 + g * 2 + 2 ≤ payload.length) (hg : g * 128 < n) (hn : n < 2 ^ 63)
    (hcodes : Safe asks (fun out => out.length = min (g * 128 + 128) n - g * 128)
      (codes (g * 128) (min (g * 128 + 128) n))) :
    Safe asks (fun out => out.length = 2 * (min (g * 128 + 128) n - g * 128))
      (dequantizeGroup f codes payload 128 n g) := by
  refine (Safe.mul (by omega)).bind fun _ hmul => ?_
  refine (Safe.add (by omega)).bind fun scaleOffset hoffset => ?_
  refine (Safe.add (by omega)).bind fun scaleEnd hend => ?_
  refine (Safe.slice (by omega) (by omega)).bind fun scaleBits _ => ?_
  refine (f16ToF32_safe _).bind fun scale _ => ?_
  refine (Safe.mul (by omega)).bind fun start hstart => ?_
  subst hstart
  refine (Safe.add (by omega)).bind fun stop hstop => ?_
  subst hstop
  refine hcodes.bind fun group hgroup => ?_
  have hvalues : ∀ q ∈ group, Safe asks (fun out : List UInt8 => out.length = 2) (do
      let half ← f32ToF16 (f.mul (f.ofI8 q) scale)
      pure (leBytes 2 half.toNat) : Codec (List UInt8)) := fun q _ =>
    (f32ToF16_safe _).bind fun half _ => .pure (length_leBytes 2 _)
  refine (Safe.each hvalues).bind fun values hvalues => .pure ?_
  rw [length_flatten_of_forall₂ hvalues, map_const', sum_replicate_nat, hgroup,
    Nat.mul_comm]

section Payload

variable (f : F32) {payload : List UInt8} {n : ℕ} (hword : payload.length < 2 ^ 64)
  (hgroups : leNat (payload.take 4) = divCeil n 128)
  (hsize : leNat ((payload.drop 4).take 4) = 128)

include hword hgroups hsize

/-- **A well-formed quantized payload is expanded**: no panic, and two bytes for each element. -/
theorem dequantizeWith_safe {packedLen : ℕ → ℕ}
    {read : List UInt8 → ℕ → ℕ → Codec (ℕ → ℕ → Codec (List ℤ))}
    (hlen : payload.length = 8 + divCeil n 128 * 2 + packedLen n)
    (hread : Safe asks (fun codes => ∀ start stop, start ≤ stop → stop ≤ n →
        Safe asks (fun out => out.length = stop - start) (codes start stop))
      (read payload (8 + divCeil n 128 * 2) n)) :
    Safe asks (fun out => out.length = n * 2) (dequantizeWith f packedLen read payload n) := by
  have hfour := leNat_lt (payload.take 4)
  rw [hgroups, length_take, Nat.min_eq_left (by omega)] at hfour
  have hn : n < 2 ^ 63 := by unfold divCeil at hfour; omega
  unfold dequantizeWith
  rw [if_neg (by omega)]
  refine (Safe.slice (by omega) (by omega)).bind fun groupBytes hgb => ?_
  refine (Safe.slice (by omega) (by omega)).bind fun sizeBytes hsb => ?_
  have hgb' : leNat groupBytes = divCeil n 128 := by rw [hgb.1, ← hgroups]; rfl
  have hsb' : leNat sizeBytes = 128 := by rw [hsb.1, ← hsize]
  rw [hgb', hsb']
  by_cases hnone : 128 = 0 ∨ divCeil n 128 = 0
  · -- no elements: the empty payload
    have hzero : n = 0 := by unfold divCeil at hnone; omega
    subst hzero
    exact (Safe.mul (by omega)).bind fun _ hmul => .pure (by rw [hmul]; rfl)
  · have hstart : saturate (8 + saturate (divCeil n 128 * 2)) = 8 + divCeil n 128 * 2 := by
      unfold saturate; omega
    rw [if_neg hnone, hstart, if_neg (by unfold saturate; omega)]
    refine hread.bind fun codes hcodes => ?_
    refine (Safe.mul (by omega)).bind fun _ _ => ?_
    have hgroup : ∀ g ∈ range (divCeil n 128), g * 128 < n := by
      intro g hg
      have := mem_range.mp hg
      unfold divCeil at this
      omega
    refine (Safe.each fun g hg => dequantizeGroup_safe f ?_ (hgroup g hg) hn
      (hcodes _ _ ?_ ?_)).bind fun groups hgroups => .pure ?_
    · have := mem_range.mp hg
      omega
    · have := hgroup g hg
      omega
    · omega
    · rw [length_flatten_of_forall₂ hgroups, sum_groups]
      unfold divCeil
      omega

theorem dequantizeInt8_safe (hlen : payload.length = 8 + divCeil n 128 * 2 + n) :
    Safe asks (fun out => out.length = n * 2) (dequantizeInt8 f payload n) := by
  refine dequantizeWith_safe f hword hgroups hsize hlen (.pure fun start stop hle hstop => ?_)
  have hcode : ∀ i ∈ range' start (stop - start), Safe asks (fun _ => True) (do
      let b ← index payload (← add (8 + divCeil n 128 * 2) i)
      pure (asI8 b) : Codec ℤ) := by
    intro i hi
    have := mem_range'_1.mp hi
    refine (Safe.add (by omega)).bind fun _ hsum => ?_
    exact (Safe.index (by omega)).bind fun b _ => .pure trivial
  refine (Safe.each hcode).mono fun out hout => ?_
  rw [← hout.length_eq, length_range']

theorem dequantizeInt4_safe (hlen : payload.length = 8 + divCeil n 128 * 2 + divCeil n 2) :
    Safe asks (fun out => out.length = n * 2) (dequantizeInt4 f payload n) := by
  refine dequantizeWith_safe f hword hgroups hsize hlen ?_
  refine (Safe.slice (by omega) le_rfl).bind fun packed hpacked => .pure ?_
  intro start stop hle hstop
  have htwo : (packed.flatMap nibbles).length
      = packed.length * 2 := by
    simp [nibbles]
  have hnibbles : n ≤ packed.length * 2 := by
    unfold divCeil at *
    omega
  refine (Safe.slice hle ?_).bind fun group hgroup => .pure ?_
  · rw [length_take]
    omega
  · rw [length_map, hgroup.2]

end Payload

end Safety

end Mlxcel.Tensor
