import Mlxcel.ColdStore.Layers
import Mlxcel.ColdStore.Tiers

/-!
# When a load panics

A load answers damaged files with an error, and the caller goes on without the cache. Two things
escape this.
* A `manifest.bin` may declare block size zero: the address of a manifest does not cover its block
  size, and `verify_manifest_addresses` chunks the stored tokens by it.
* The arrays of a layer are joined along axis 2 before anything has looked at their shapes.

`panics_assembleBlocks_iff` says which manifests panic, and `loadPrefixLongerThan_returns_iff` which
loads do: those that try such a manifest before one that they can serve.
-/

namespace Mlxcel.ColdStore

open List

section Panics

variable {α β : Type} {x y : Outcome α} {f : α → Outcome β}

def Panics (x : Outcome α) : Prop := ∃ message, x = .error (.panic message)

instance : Decidable (Panics x) :=
  match x with
  | .error (.panic message) => isTrue ⟨message, rfl⟩
  | .error (.err _) => isFalse fun ⟨_, h⟩ => nomatch h
  | .ok _ => isFalse fun ⟨_, h⟩ => nomatch h

@[simp] lemma not_panics_ok (a : α) : ¬ Panics (.ok a) := fun ⟨_, h⟩ => nomatch h

@[simp] lemma not_panics_pure (a : α) : ¬ Panics (pure a : Outcome α) := not_panics_ok a

@[simp] lemma not_panics_err (e : ColdStoreError) : ¬ Panics (.error (.err e) : Outcome α) :=
  fun ⟨_, h⟩ => nomatch h

@[simp] lemma not_panics_throw (e : ColdStoreError) : ¬ Panics (throw (.err e) : Outcome α) :=
  not_panics_err e

/-- A sequence of two calls panics when one of them does. -/
@[simp] lemma panics_bind : Panics (x >>= f) ↔ Panics x ∨ ∃ a, x = .ok a ∧ Panics (f a) := by
  cases x with
  | error e => simp [Panics, bind, Except.bind]
  | ok a => simp [bind, Except.bind]

@[simp] lemma panics_map (g : α → β) : Panics (g <$> x) ↔ Panics x := by
  cases x with
  | error e => simp [Panics]
  | ok a => simp [Panics]

@[simp] lemma panics_ite {c : Prop} [Decidable c] :
    Panics (if c then x else y) ↔ c ∧ Panics x ∨ ¬ c ∧ Panics y := by
  split_ifs with hc
  · simp [hc]
  · simp [hc]

@[simp] lemma panics_attempt : Panics (attempt x) ↔ Panics x := by
  rcases x with (e | message) | a
  · simp [attempt]
  · simp [Panics, attempt]
  · simp [attempt]

lemma not_panics_mapM (hf : ∀ a, ¬ Panics (f a)) (as : List α) : ¬ Panics (as.mapM f) := by
  induction as with
  | nil => exact not_panics_pure []
  | cons a as ih => simp [hf, ih]

end Panics

/-! ## Readers -/

section Readers

variable {α β : Type} {x : Reader α}

/-- A reader that panics on no input. -/
def Calm (x : Reader α) : Prop := ∀ bytes, ¬ Panics (x bytes)

@[simp] lemma calm_pure (a : α) : Calm (pure a) := fun _ => not_panics_ok _

@[simp] lemma calm_throw (e : ColdStoreError) : Calm (throw (.err e) : Reader α) :=
  fun _ => not_panics_err e

@[simp] lemma Calm.bind {f : α → Reader β} (hx : Calm x) (hf : ∀ a, Calm (f a)) :
    Calm (x >>= f) := by
  intro bytes
  exact panics_bind.not.mpr (not_or.mpr ⟨hx bytes, fun ⟨p, _, h⟩ => hf p.1 p.2 h⟩)

@[simp] lemma Calm.map (g : α → β) (hx : Calm x) : Calm (g <$> x) := by
  exact hx.bind fun _ => calm_pure _

lemma Calm.run' (hx : Calm x) (bytes : List UInt8) : ¬ Panics (x.run' bytes) :=
  (panics_map Prod.fst).not.mpr (hx bytes)

@[simp] lemma calm_readExact (n : ℕ) : Calm (readExact n) := by
  intro bytes
  simp [readExact, unexpectedEof]

@[simp] lemma calm_readDigest : Calm readDigest := by
  intro bytes
  rw [readDigest]
  split_ifs <;> simp [unexpectedEof]

@[simp] lemma calm_boundedUsize (value maximum : ℕ) (field : String) :
    Calm (liftM (boundedUsize value maximum field)) := by
  intro bytes
  refine panics_bind.not.mpr ?_
  simp [boundedUsize, invalidData]

@[simp] lemma calm_readBoundedString : Calm readBoundedString := by
  refine .bind (by simp [readU32]) fun _ => .bind (by simp) fun _ => .bind (by simp) fun _ => ?_
  split <;> simp [invalidData]

@[simp] lemma calm_readMany (hx : Calm x) (n : ℕ) : Calm (readMany x n) := by
  induction n with
  | zero => exact calm_pure []
  | succ n ih => exact hx.bind fun _ => ih.bind fun _ => calm_pure _

@[simp] lemma calm_readFormatVersion : Calm readFormatVersion := by
  refine .bind (by simp [readU32]) fun _ => ?_
  split_ifs <;> simp

/-- **Decoding** a manifest or a header returns, whatever the bytes are. -/
@[simp] lemma not_panics_decodeManifest (bytes : List UInt8) : ¬ Panics (decodeManifest bytes) := by
  refine Calm.run' ?_ bytes
  repeat refine .bind (by simp [readU64, readU128]) fun _ => ?_
  exact calm_pure _

@[simp] lemma not_panics_decodeBlockHeader (bytes : List UInt8) :
    ¬ Panics (decodeBlockHeader bytes) := by
  have hlayer : Calm readLayerMetadata := by
    repeat refine .bind (by simp [readU64, readU32]) fun _ => ?_
    exact calm_pure _
  refine Calm.run' ?_ bytes
  repeat refine .bind (by simp [readU64, readU32, readI32, hlayer]) fun _ => ?_
  exact calm_pure _

end Readers

/-! ## Layers -/

section Layers

variable {A : Type} {mlx : Mlx A} {layers : List (DetachedKVCache A)} {layerIdx : ℕ}

@[simp] lemma not_panics_refuse (c : Prop) [Decidable c] (detail : String) :
    ¬ Panics (refuse c detail) := by
  simp [refuse, invalidData]

lemma not_panics_forM {α : Type} {f : α → Outcome PUnit} (hf : ∀ a, ¬ Panics (f a)) (as : List α) :
    ¬ Panics (forM as f) := by
  induction as with
  | nil => exact not_panics_pure _
  | cons a as ih => exact panics_bind.not.mpr (not_or.mpr ⟨hf a, fun ⟨_, _, h⟩ => ih h⟩)

lemma not_panics_foldlM {α β : Type} {f : β → α → Outcome β} (hf : ∀ b a, ¬ Panics (f b a))
    (as : List α) (b : β) : ¬ Panics (as.foldlM f b) := by
  induction as generalizing b with
  | nil => exact not_panics_pure b
  | cons a as ih => simp [hf, ih]

@[simp] lemma not_panics_validateArrayMetadata (byteLen : ℕ) (dt : Int32) (shape : List Int32) :
    ¬ Panics (validateArrayMetadata byteLen dt shape) := by
  rw [validateArrayMetadata]
  split
  · simp [invalidData]
  · simp [not_panics_foldlM]

lemma calm_lift {α : Type} {x : Outcome α} (hx : ¬ Panics x) : Calm (liftM x : Reader α) :=
  fun _ => panics_bind.not.mpr (by simp [hx])

/-- **Decoding** a layer returns, whatever the bytes are. -/
lemma not_panics_readKvCache (bytes : List UInt8) : ¬ Panics (readKvCache mlx bytes layerIdx) := by
  have harray : Calm (readArray mlx) := by
    repeat refine .bind (by simp [readI32, readU64, calm_lift]) fun _ => ?_
    refine calm_lift ?_
    simp only [arrayFromRawBytes, panics_bind, not_panics_validateArrayMetadata, false_or]
    rintro ⟨_, _, h⟩
    split at h <;> simp at h
  have hopt : Calm (readOptArray mlx) := by
    refine .bind (by simp [readU8]) fun _ => ?_
    split_ifs <;> simp [harray]
  have hmode : ∀ tag, ¬ Panics (modeOfTag layerIdx tag) := by
    intro tag
    rw [modeOfTag.eq_def]
    split <;> simp
  have hpolicy : ∀ tag, ¬ Panics (policyOfTag layerIdx tag) := by
    intro tag
    rw [policyOfTag.eq_def]
    split <;> simp
  refine Calm.run' ?_ bytes
  repeat refine .bind (by simp [readU8, readU32, readI32, calm_lift, hmode, hpolicy, hopt]) fun _ => ?_
  exact calm_pure _

variable (mlx) in
/-- The arrays of one field in all blocks cannot be joined: there is one, and it has no axis 2, or
there are several, and MLX refuses. -/
def Clash : List A → Prop
  | [] => False
  | [a] => (mlx.shape a).length ≤ 2
  | first :: rest => rest.foldlM mlx.concatenate first = none

lemma rank_foldlM {first second acc : A} {rest : List A}
    (h : (second :: rest).foldlM mlx.concatenate first = some acc) :
    2 < (mlx.shape acc).length := by
  induction rest generalizing first second with
  | nil => exact mlx.rank_concatenate first second acc (by simpa using h)
  | cons third rest ih =>
    rw [List.foldlM_cons, Option.bind_eq_bind, Option.bind_eq_some_iff] at h
    obtain ⟨_, _, h⟩ := h
    exact ih h

lemma exists_axis2 {a : A} (h : 2 < (mlx.shape a).length) : ∃ n, axis2 mlx a = .ok n :=
  ⟨(mlx.shape a)[2], by rw [axis2, List.getElem?_eq_getElem h]; rfl⟩

variable (mlx layers) in
/-- The arrays of a field are joined to one with an axis 2, if there are any, or the load panics. -/
lemma concatAcross_cases (field : TensorField) :
    (¬ Clash mlx (layers.filterMap (·.tensor field)) ∧ ∃ joined n,
      concatAcross mlx layers field = .ok joined ∧ axis2Of mlx joined = .ok n) ∨
    Clash mlx (layers.filterMap (·.tensor field)) ∧ Panics (concatAcross mlx layers field) := by
  rw [concatAcross]
  generalize layers.filterMap (·.tensor field) = present
  rcases present with _ | ⟨first, _ | ⟨second, rest⟩⟩
  · exact .inl ⟨id, none, 0, rfl, rfl⟩
  · by_cases hrank : (mlx.shape first).length ≤ 2
    · have hnone : Panics (axis2 mlx first) :=
        ⟨_, by rw [axis2, List.getElem?_eq_none_iff.mpr hrank]; rfl⟩
      exact .inr ⟨hrank, panics_bind.mpr (.inl hnone)⟩
    · obtain ⟨_, hfirst⟩ := exists_axis2 (not_le.mp hrank)
      obtain ⟨n, hn⟩ := exists_axis2 (mlx.shape_slice first ▸ not_le.mp hrank)
      exact .inl ⟨hrank, _, n, Fallible.bind_eq_ok.mpr ⟨_, hfirst, rfl⟩, hn⟩
  · rw [Clash.eq_def]
    dsimp only
    cases hfold : (second :: rest).foldlM mlx.concatenate first with
    | none => exact .inr ⟨rfl, _, rfl⟩
    | some acc =>
      obtain ⟨n, hn⟩ := exists_axis2 (rank_foldlM hfold)
      exact .inl ⟨by simp, some acc, n, rfl, hn⟩

lemma panics_concatAcross {field : TensorField} :
    Panics (concatAcross mlx layers field) ↔ Clash mlx (layers.filterMap (·.tensor field)) := by
  rcases concatAcross_cases mlx layers field with ⟨hjoins, _, _, hok, _⟩ | ⟨hclash, hpanics⟩
  · rw [hok]
    exact iff_of_false (not_panics_ok _) hjoins
  · exact iff_of_true hpanics hclash

lemma concatAcross_ne_err (field : TensorField) (e : ColdStoreError) :
    concatAcross mlx layers field ≠ .error (.err e) := by
  rcases concatAcross_cases mlx layers field with ⟨_, _, _, hok, _⟩ | ⟨_, _, hpanics⟩
  · simp [hok]
  · simp [hpanics]

lemma not_panics_axis2Of {field : TensorField} {joined : Option A}
    (h : concatAcross mlx layers field = .ok joined) : ¬ Panics (axis2Of mlx joined) := by
  rcases concatAcross_cases mlx layers field with ⟨_, _, n, hok, hn⟩ | ⟨_, _, hpanics⟩
  · cases h.symm.trans hok
    rw [hn]
    exact not_panics_ok n
  · cases h.symm.trans hpanics

variable (mlx layers layerIdx) in
/-- The layers pass the checks before the merge, and the arrays of some field cannot be joined. -/
def LayerClash : Prop :=
  ∃ first ∈ layers.head?, checkLayers layers layerIdx first = .ok () ∧
    ∃ field ∈ .m3IdxK :: joinedFields, Clash mlx (layers.filterMap (·.tensor field))

lemma not_panics_checkLayers (first : DetachedKVCache A) :
    ¬ Panics (checkLayers layers layerIdx first) := by
  refine panics_bind.not.mpr (not_or.mpr ⟨not_panics_forM (by simp) _, ?_⟩)
  rintro ⟨_, _, h⟩
  revert h
  split_ifs
  · exact not_panics_forM (by simp) _
  · exact not_panics_pure _

lemma not_panics_checkRegionCoherence {merged : DetachedKVCache A} {blockCount : ℕ}
    (h : ∀ field, ¬ Panics (axis2Of mlx (merged.tensor field))) :
    ¬ Panics (checkRegionCoherence mlx layerIdx merged blockCount) := by
  rw [checkRegionCoherence]
  simp [h, checkSymmetry, not_panics_forM]

lemma not_panics_checkMerged {merged : DetachedKVCache A} {blockCount : ℕ}
    (h : ∀ field, ¬ Panics (axis2Of mlx (merged.tensor field))) :
    ¬ Panics (checkMerged mlx layerIdx merged blockCount) := by
  simp [checkMerged, not_panics_checkRegionCoherence h, h]

/-- A list of calls that return no errors. -/
lemma panics_mapM_of_ne_err {α β : Type} {f : α → Outcome β} (hf : ∀ a e, f a ≠ .error (.err e))
    (as : List α) : Panics (as.mapM f) ↔ ∃ a ∈ as, Panics (f a) := by
  induction as with
  | nil => simp
  | cons a as ih =>
    rcases ha : f a with (e | message) | b
    · exact absurd ha (hf a e)
    · exact iff_of_true ⟨message, by rw [mapM_cons, ha]; rfl⟩ ⟨a, mem_cons_self, message, ha⟩
    · simp [ha, ih]

lemma not_panics_axis2Of_lookup {pairs : List (TensorField × Option A)}
    (h : ∀ p ∈ pairs, ¬ Panics (axis2Of mlx p.2)) (field : TensorField) :
    ¬ Panics (axis2Of mlx (pairs.lookup field).join) := by
  induction pairs with
  | nil => simp [axis2Of]
  | cons p pairs ih =>
    rw [forall_mem_cons] at h
    rw [lookup_cons]
    split
    · exact h.1
    · exact ih h.2

/-- **Joining** the layers of some blocks panics when they pass the checks before the merge and the
arrays of some field cannot be joined. -/
lemma panics_mergeLayerAcrossBlocks (hne : layers ≠ []) (totalTokens : Int32) :
    Panics (mergeLayerAcrossBlocks mlx layers layerIdx totalTokens) ↔
      LayerClash mlx layers layerIdx := by
  obtain ⟨first, rest, rfl⟩ := List.exists_cons_of_ne_nil hne
  rw [mergeLayerAcrossBlocks, panics_bind, or_iff_right (not_panics_checkLayers first)]
  constructor
  · rintro ⟨_, hchecked, h⟩
    refine ⟨first, rfl, hchecked, ?_⟩
    rcases panics_bind.mp h with h | ⟨m3IdxK, hm3, h⟩
    · exact ⟨_, mem_cons_self, panics_concatAcross.mp h⟩
    rcases panics_bind.mp h with h | ⟨m3IdxOffset, _, h⟩
    · exact absurd h (not_panics_axis2Of hm3)
    rcases panics_bind.mp h with h | ⟨joined, hjoined, h⟩
    · obtain ⟨field, hfield, h⟩ := (panics_mapM_of_ne_err concatAcross_ne_err _).mp h
      exact ⟨field, mem_cons_of_mem _ hfield, panics_concatAcross.mp h⟩
    -- what was joined has an axis 2, and the rest looks at nothing else
    have htensor : ∀ field, ¬ Panics (axis2Of mlx
        (((.m3IdxK, m3IdxK) :: joinedFields.zip joined).lookup field).join) := by
      refine not_panics_axis2Of_lookup ?_
      rintro ⟨field, o⟩ hmem
      rcases mem_cons.mp hmem with heq | hmem
      · cases heq
        exact not_panics_axis2Of hm3
      · exact not_panics_axis2Of ((forall₂_iff_zip.mp (Fallible.mapM_eq_ok.mp hjoined)).2 hmem)
    rcases panics_bind.mp h with h | ⟨_, _, h⟩
    · exact absurd h (not_panics_checkMerged htensor)
    · exact absurd h (not_panics_pure _)
  · rintro ⟨_, hfirst, hchecked, field, hfield, h⟩
    cases hfirst
    refine ⟨(), hchecked, panics_bind.mpr ?_⟩
    rcases concatAcross_cases mlx (first :: rest) .m3IdxK with
      ⟨hjoins, m3IdxK, m3IdxOffset, hm3, hoffset⟩ | ⟨_, hpanics⟩
    · refine .inr ⟨m3IdxK, hm3, panics_bind.mpr (.inr ⟨m3IdxOffset, hoffset, ?_⟩)⟩
      have hother : field ∈ joinedFields := by
        refine (mem_cons.mp hfield).resolve_left ?_
        rintro rfl
        exact hjoins h
      exact panics_bind.mpr (.inl ((panics_mapM_of_ne_err concatAcross_ne_err _).mpr
        ⟨field, hother, panics_concatAcross.mpr h⟩))
    · exact .inl hpanics

end Layers

/-! ## Assembly -/

section Assembly

variable {A : Type} {mlx : Mlx A} {sha : List UInt8 → Digest} {disk : Disk} {m : Manifest}
  {cfg : String}

@[simp] lemma not_panics_readFile (node : Node) (name : String) :
    ¬ Panics (node.readFile name) := by
  rw [Node.readFile.eq_def]
  split
  · split <;> simp [notFound]
  · simp
  · simp

@[simp] lemma not_panics_readManifest (h : Digest) : ¬ Panics (readManifest sha disk h) := by
  rw [readManifest]
  split <;> simp [invalidData]

@[simp] lemma not_panics_readHeader (h : Digest) : ¬ Panics (readHeader disk h) := by
  rw [readHeader]
  split <;> simp [invalidData]

lemma not_panics_readBlock (h : Digest) : ¬ Panics (readBlock sha (readKvCache mlx) disk h) := by
  have hlayer : ∀ node layer i, ¬ Panics (readLayer sha (readKvCache mlx) node layer i) := by
    simp [readLayer, invalidData, not_panics_readKvCache]
  simp [readBlock, not_panics_mapM, hlayer]

lemma panics_verifyManifestAddresses {tokens : List Token} :
    Panics (verifyManifestAddresses sha m tokens cfg) ↔ m.blockSize = 0 := by
  rw [verifyManifestAddresses, panics_bind, computeBlockHashes]
  split_ifs with hzero
  · exact iff_of_true (.inl ⟨_, rfl⟩) hzero
  · simp [hzero, invalidData]

/-- A list of calls panics when one of them does and all before it return. -/
lemma panics_mapM_range {β : Type} {f : ℕ → Outcome β} (n : ℕ) :
    Panics ((List.range n).mapM f) ↔ ∃ i < n, (∀ j < i, ∃ b, f j = .ok b) ∧ Panics (f i) := by
  have hok : ∀ n, (∃ bs, (List.range n).mapM f = .ok bs) ↔ ∀ j < n, ∃ b, f j = .ok b := by
    intro n
    induction n with
    | zero => simp
    | succ n ih =>
      have hsucc : (∃ bs, (List.range (n + 1)).mapM f = .ok bs) ↔
          (∃ bs, (List.range n).mapM f = .ok bs) ∧ ∃ b, f n = .ok b := by
        cases hn : f n <;> simp [range_succ, Fallible.bind_eq_ok, hn]
      rw [hsucc, ih, Nat.forall_lt_succ_right]
  induction n with
  | zero => simp
  | succ n ih =>
    have hsucc : Panics ((List.range (n + 1)).mapM f) ↔
        Panics ((List.range n).mapM f) ∨ (∃ bs, (List.range n).mapM f = .ok bs) ∧ Panics (f n) := by
      simp [range_succ, ← exists_and_right]
    simp only [hsucc, ih, hok, Nat.lt_succ_iff_lt_or_eq, or_and_right, exists_or, exists_eq_left]

/-- The layers that blocks have at one index. -/
def layersAt (blocks : List (DetachedCacheSet (DetachedKVCache A))) (i : ℕ) :
    List (DetachedKVCache A) :=
  blocks.filterMap fun b => b.caches[i]?

variable (mlx) in
/-- Blocks of the same number of layers: at some index, the layers before which can all be merged,
the arrays cannot be joined. -/
def BlocksClash (blocks : List (DetachedCacheSet (DetachedKVCache A))) (m : Manifest) : Prop :=
  ∃ first ∈ blocks.head?, (∀ b ∈ blocks, b.caches.length = first.caches.length) ∧
    ∃ i < first.caches.length,
      (∀ j < i, ∃ merged,
        mergeLayerAcrossBlocks mlx (layersAt blocks j) j (Int32.ofNat m.totalTokens) = .ok merged) ∧
      LayerClash mlx (layersAt blocks i) i

lemma panics_mergeReadBlocks {blocks : List (DetachedCacheSet (DetachedKVCache A))} :
    Panics (mergeReadBlocks (mergeLayerAcrossBlocks mlx) blocks m) ↔ BlocksClash mlx blocks m := by
  rcases blocks with _ | ⟨first, blocks⟩
  · exact iff_of_false (not_panics_throw _) fun ⟨_, h, _⟩ => nomatch h
  rw [mergeReadBlocks.eq_def]
  dsimp only
  split
  · rename_i b i hfound
    refine iff_of_false (not_panics_throw _) ?_
    rintro ⟨_, hfirst, hcount, _⟩
    cases hfirst
    have hmem := List.mem_of_find?_eq_some hfound
    have hne := List.find?_some hfound
    simp [hcount b (fst_mem_of_mem_zipIdx hmem)] at hne
  · rename_i hfound
    have hcount : ∀ b ∈ first :: blocks, b.caches.length = first.caches.length := by
      intro b hb
      obtain ⟨i, hi, rfl⟩ := List.mem_iff_getElem.mp hb
      simpa using List.find?_eq_none.mp hfound (_, i) (mk_mem_zipIdx_iff_getElem?.mpr (by simp))
    have hne : ∀ i < first.caches.length, layersAt (first :: blocks) i ≠ [] := by
      intro i hi
      simp [layersAt, List.getElem?_eq_getElem hi]
    rw [panics_bind, panics_mapM_range]
    simp only [not_panics_pure, and_false, exists_false, or_false]
    constructor
    · rintro ⟨i, hi, hmerged, h⟩
      exact ⟨first, rfl, hcount, i, hi, hmerged, (panics_mergeLayerAcrossBlocks (hne i hi) _).mp h⟩
    · rintro ⟨_, hfirst, _, i, hi, hmerged, h⟩
      cases hfirst
      exact ⟨i, hi, hmerged, (panics_mergeLayerAcrossBlocks (hne i hi) _).mpr h⟩

variable (mlx sha disk cfg) in
/-- The manifest has blocks that can all be read, and either block size zero, or the addresses of
its tokens and arrays that cannot be joined. -/
def Strikes (m : Manifest) : Prop :=
  m.blockHashes ≠ [] ∧ ∃ read,
    m.blockHashes.mapM (readBlock sha (readKvCache mlx) disk) = .ok read ∧
    (m.blockSize = 0 ∨ verifyManifestAddresses sha m (read.flatMap Prod.fst) cfg = .ok () ∧
      BlocksClash mlx (read.map Prod.snd) m)

/-- **The manifests that panic.** -/
theorem panics_assembleBlocks_iff :
    Panics (assembleBlocks sha (readKvCache mlx) (mergeLayerAcrossBlocks mlx) disk m cfg) ↔
      Strikes mlx sha disk cfg m := by
  rw [assembleBlocks]
  split_ifs with hempty
  · refine iff_of_false (not_panics_throw _) ?_
    rintro ⟨hne, _⟩
    exact hne (isEmpty_iff.mp hempty)
  rw [panics_bind, or_iff_right (not_panics_mapM not_panics_readBlock _)]
  refine .trans (exists_congr fun read => and_congr_right fun _ => ?_)
    (and_iff_right (by simpa using hempty)).symm
  simp only [panics_bind, panics_verifyManifestAddresses, panics_mergeReadBlocks]
  refine or_congr_right ⟨?_, fun h => ⟨(), h⟩⟩
  rintro ⟨_, h⟩
  exact h

end Assembly

/-! ## Loads -/

section Load

variable {κ : Type} {sha : List UInt8 → Digest} {readKvCache : List UInt8 → ℕ → Outcome κ}
  {mergeLayer : List κ → ℕ → Int32 → Outcome κ} {store : BlockColdStore} {disk : Disk}
  {request : LoadRequest} {rs : List Digest} {m : Manifest} {cfg : String}

variable (sha store disk request) in
/-- The manifests that a load can serve, in the order in which it tries them. -/
def tried : List Manifest :=
  if request.tokens.length ≤ request.floorTokens then []
  else
    match disk.manifests,
      computeBlockHashes sha request.tokens store.blockSize (request.cacheId sha store) with
    | some entries, .ok rs =>
      if request.tokens.length / store.blockSize * store.blockSize ≤ request.floorTokens then
        (readManifest sha disk (request.exactAddress sha store rs)).toOption.toList
      else
        (ranked request ((candidates sha store disk request rs entries).toOption.getD [])).map
          Prod.fst
    | _, _ => []

variable (sha readKvCache mergeLayer disk cfg) in
/-- The manifests before the first one that can be assembled. -/
def unserved (ms : List Manifest) : List Manifest :=
  ms.takeWhile fun m => (assembleBlocks sha readKvCache mergeLayer disk m cfg).toOption.isNone

variable (sha readKvCache mergeLayer disk cfg) in
/-- One of the manifests panics, and none before it can be served. -/
def Struck (ms : List Manifest) : Prop :=
  ∃ m ∈ unserved sha readKvCache mergeLayer disk cfg ms,
    Panics (assembleBlocks sha readKvCache mergeLayer disk m cfg)

lemma not_struck_nil : ¬ Struck sha readKvCache mergeLayer disk cfg [] := by
  simp [Struck, unserved]

lemma struck_cons {ms : List Manifest} : Struck sha readKvCache mergeLayer disk cfg (m :: ms) ↔
    Panics (assembleBlocks sha readKvCache mergeLayer disk m cfg) ∨
      ∃ e, assembleBlocks sha readKvCache mergeLayer disk m cfg = .error (.err e) ∧
        Struck sha readKvCache mergeLayer disk cfg ms := by
  rw [Struck, unserved, takeWhile_cons]
  rcases hassemble : assembleBlocks sha readKvCache mergeLayer disk m cfg with (e | message) | set
  · simp [Except.toOption, hassemble, Struck, unserved]
  · simp [Except.toOption, hassemble, Panics]
  · simp [Except.toOption]

lemma panics_firstServed {kept : List (Manifest × ℕ)} :
    Panics (firstServed sha readKvCache mergeLayer store disk request kept) ↔
      Struck sha readKvCache mergeLayer disk (request.cacheId sha store) (kept.map Prod.fst) := by
  induction kept with
  | nil => exact iff_of_false (not_panics_throw _) not_struck_nil
  | cons c kept ih =>
    rw [firstServed, panics_bind, map_cons, struck_cons, ← ih]
    rcases assembleBlocks sha readKvCache mergeLayer disk c.1 (request.cacheId sha store) with
      (e | message) | set
    · simp [attempt]
    · simp [attempt, Panics]
    · simp [attempt]

lemma panics_exactLookup :
    Panics (exactLookup sha readKvCache mergeLayer store disk request rs) ↔
      Struck sha readKvCache mergeLayer disk (request.cacheId sha store)
        (readManifest sha disk (request.exactAddress sha store rs)).toOption.toList := by
  rw [exactLookup, panics_bind, LoadRequest.exactAddress]
  generalize hm : readManifest sha disk _ = read
  have hread : ¬ Panics read := hm ▸ not_panics_readManifest _
  rcases read with (e | message) | m
  · exact iff_of_false (by simp [attempt]) not_struck_nil
  · exact absurd ⟨message, rfl⟩ hread
  · refine .trans ?_ struck_cons.symm
    rcases hassemble : assembleBlocks sha readKvCache mergeLayer disk m (request.cacheId sha store)
      with (e | message) | set
    · simp [attempt, hassemble, not_struck_nil]
    · simp [attempt, hassemble, Panics, bind, Except.bind]
    · simp [attempt, hassemble]

section Names

variable {entries : List Entry} (hnames : ∀ entry ∈ entries, ∃ d, entry.name = hexDigest d)

include hnames

/-- A directory whose names are digests is listed without a panic. -/
lemma not_panics_candidates : ¬ Panics (candidates sha store disk request rs entries) := by
  induction entries with
  | nil => exact not_panics_pure _
  | cons entry entries ih =>
    rw [forall_mem_cons] at hnames
    obtain ⟨name, node⟩ := entry
    obtain ⟨d, rfl⟩ := hnames.1
    have hcommitted : ¬ Panics (committedManifestHash ⟨hexDigest d, node⟩) := by
      cases node with
      | file bytes => exact not_panics_ok _
      | unreadable => exact not_panics_err _
      | dir files => simp [committedManifestHash_hexDigest]
    have hentry : ¬ Panics (candidate sha store disk request rs ⟨hexDigest d, node⟩) := by
      rw [candidate, panics_bind, panics_attempt]
      rintro (h | ⟨e | _ | manifestHash, _, h⟩)
      · exact hcommitted h
      · simp at h
      · simp at h
      · rcases panics_bind.mp h with h | ⟨e | m, _, h⟩
        all_goals simp at h
    simp [candidates, hentry, ih hnames.2]

lemma panics_scan : Panics (scan sha readKvCache mergeLayer store disk request rs entries) ↔
    Struck sha readKvCache mergeLayer disk (request.cacheId sha store)
      ((ranked request ((candidates sha store disk request rs entries).toOption.getD [])).map
        Prod.fst) := by
  have hlisted := @not_panics_candidates sha store disk request rs entries hnames
  rw [scan, panics_bind]
  generalize candidates sha store disk request rs entries = listed at hlisted ⊢
  rcases listed with (e | message) | found
  · exact iff_of_false (by simp [Panics]) not_struck_nil
  · exact absurd ⟨message, rfl⟩ hlisted
  · simp only [hlisted, false_or, Except.ok.injEq, exists_eq_left']
    show _ ↔ Struck _ _ _ _ _ ((ranked request found).map Prod.fst)
    split_ifs with hempty
    · rw [isEmpty_iff.mp hempty]
      exact iff_of_false (not_panics_throw _) not_struck_nil
    · rw [isEmpty_iff.mp hempty]
      exact iff_of_false (not_panics_pure _) not_struck_nil
    · exact panics_firstServed

end Names

lemma panics_loadPrefixLongerThan (hpos : 0 < store.blockSize)
    (hnames : ∀ entries ∈ disk.manifests, ∀ entry ∈ entries, ∃ d, entry.name = hexDigest d) :
    Panics (loadPrefixLongerThan sha readKvCache mergeLayer store disk request) ↔
      Struck sha readKvCache mergeLayer disk (request.cacheId sha store)
        (tried sha store disk request) := by
  have hrs : computeBlockHashes sha request.tokens store.blockSize (request.cacheId sha store)
      = .ok _ := if_neg hpos.ne'
  rw [loadPrefixLongerThan, tried, hrs]
  by_cases hfloor : request.tokens.length ≤ request.floorTokens
  · rw [if_pos hfloor, if_pos hfloor]
    exact iff_of_false (not_panics_pure _) not_struck_nil
  rw [if_neg hfloor, if_neg hfloor]
  rcases hentries : disk.manifests with _ | entries
  · exact iff_of_false (not_panics_throw _) not_struck_nil
  · dsimp only
    split_ifs
    · exact panics_exactLookup
    · exact panics_scan (hnames entries hentries)

end Load

/-- **The loads that return**, with a result or an error, are those in which every manifest that
strikes comes after one that is served. -/
theorem loadPrefixLongerThan_returns_iff {A : Type} (mlx : Mlx A) (sha : List UInt8 → Digest)
    (store : BlockColdStore) (disk : Disk) (request : LoadRequest) (hpos : 0 < store.blockSize)
    (hnames : ∀ entries ∈ disk.manifests, ∀ entry ∈ entries, ∃ d, entry.name = hexDigest d) :
    ¬ Panics (loadPrefixLongerThan sha (readKvCache mlx) (mergeLayerAcrossBlocks mlx) store disk
        request) ↔
      ∀ m ∈ unserved sha (readKvCache mlx) (mergeLayerAcrossBlocks mlx) disk
          (request.cacheId sha store) (tried sha store disk request),
        ¬ Strikes mlx sha disk (request.cacheId sha store) m := by
  rw [panics_loadPrefixLongerThan hpos hnames, Struck]
  simp [panics_assembleBlocks_iff]

/-- Arrays of which only the shape is kept. -/
def shapesOnly : Mlx (List Int32) where
  shape := id
  fromBytes _ shape _ := .ok shape
  slice := id
  concatenate a b :=
    match a, b with
    | b₁ :: h₁ :: n₁ :: rest₁, b₂ :: h₂ :: n₂ :: rest₂ =>
      if b₁ = b₂ ∧ h₁ = h₂ ∧ rest₁ = rest₂ then some (b₁ :: h₁ :: (n₁ + n₂) :: rest₁) else none
    | _, _ => none
  shape_slice _ := rfl
  rank_concatenate := by
    intro a b c h
    split at h
    · split_ifs at h
      cases h
      simp
    · cases h

/-- A manifest of block size zero is no danger when its block is gone. -/
theorem loadPrefixLongerThan_returns_gone :
    let m := { sampleManifest "m" "t" [1] with blockSize := 0 }
    let disk := { sampleDisk m [1] with blocks := some [] }
    tried sha256 twoTokenStore disk ⟨"m", "t", [1], [], 0⟩ = [m] ∧
      ¬ Panics (loadPrefixLongerThan sha256 (readKvCache shapesOnly)
        (mergeLayerAcrossBlocks shapesOnly) twoTokenStore disk ⟨"m", "t", [1], [], 0⟩) := by
  intro m disk
  have htried : tried sha256 twoTokenStore disk ⟨"m", "t", [1], [], 0⟩ = [m] := by decide +kernel
  have hgone : (m.blockHashes.mapM (readBlock sha256 (readKvCache shapesOnly) disk)).toOption.isNone
      = true := by decide +kernel
  refine ⟨htried, (loadPrefixLongerThan_returns_iff shapesOnly sha256 twoTokenStore disk _
    (by decide) ?_).mpr ?_⟩
  · intro entries hentries entry hentry
    rw [← Option.some.inj hentries] at hentry
    exact ⟨_, congrArg Entry.name (mem_singleton.mp hentry)⟩
  · rintro m' hmem ⟨_, read, hread, _⟩
    have hm := (List.takeWhile_prefix _).subset hmem
    rw [htried, mem_singleton] at hm
    rw [hm] at hread
    simp [hread, Except.toOption] at hgone

/-- **Block size zero.** The manifest has the address that a manifest of block size two has, and
the load of its one token panics. -/
theorem loadPrefixLongerThan_panics_zero :
    let m := { sampleManifest "m" "t" [1] with blockSize := 0 }
    Panics (loadPrefixLongerThan sha256 (readKvCache shapesOnly) (mergeLayerAcrossBlocks shapesOnly)
      twoTokenStore (sampleDisk m [1]) ⟨"m", "t", [1], [], 0⟩) := by
  decide +kernel

end Mlxcel.ColdStore
