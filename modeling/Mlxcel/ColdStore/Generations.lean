import Mlxcel.ColdStore.Sessions
import Mathlib.Data.List.Induction
import Mathlib.Data.List.Nodup

/-!
# Runs of the session state machine

Calls on any session keys run one after the other, registries get lost in between, and writes fail.
`SessionWorld` adds to the session files what was minted, recorded and closed so far.

**One step.** `Moved` lists what a step can do to a consistent world: nothing, start an
incarnation, record an association, close a generation or lose a registry. `moves_step` shows that
every call does one of these, or starts an incarnation and then records.

**Runs.** `Consistent` ties the files to the history and is kept by every move. It needs that the
entropy source does not repeat an incarnation, that SHA-256 does not confuse two of the keys, and
that no index outgrows the ceiling of its reader: the writer does not check it, so that one more
association makes the index unreadable for good.
-/

namespace Mlxcel.ColdStore

open List Text Calls SessionsDir UInt64 Except Option Fallible

inductive SessionOp
  | sessionRegistry (env : Env) (key : String)
  | recordSessionManifest (env : Env) (key : String) (manifestHash : Digest)
  | closeCurrentGeneration (env : Env) (key : String) (expected : UInt64) (eventId : Digest)
  | loseRegistry (key : String)

def SessionOp.key : SessionOp → String
  | .sessionRegistry _ key => key
  | .recordSessionManifest _ key _ => key
  | .closeCurrentGeneration _ key _ _ => key
  | .loseRegistry key => key

/-- The incarnation that the entropy source has ready for a call. -/
def SessionOp.entropy : SessionOp → Option IncarnationId
  | .sessionRegistry env _ => env.mintIncarnation.toOption
  | .recordSessionManifest env _ _ => env.mintIncarnation.toOption
  | .closeCurrentGeneration _ _ _ _ => none
  | .loseRegistry _ => none

/-- The session files with their history: the incarnations that were minted, the associations that
were recorded and the generations that were closed, each under its session key. -/
@[ext] structure SessionWorld where
  dir : SessionsDir
  minted : List IncarnationId
  recorded : List (String × SessionAssociation)
  closed : List (String × IncarnationId × UInt64)

namespace SessionWorld

def init : SessionWorld := ⟨⟨fun _ => none, fun _ => none⟩, [], [], []⟩

/-- The associations that were recorded under a key. -/
def associations (w : SessionWorld) (key : String) : List SessionAssociation :=
  (w.recorded.filter fun x => x.1 = key).map Prod.snd

section Step

variable (sha : List UInt8 → Digest) (root : String)

/-- The incarnation that a call used up: the registry was missing before it and is there after. -/
def minting (op : SessionOp) (before after : SessionsDir) : List IncarnationId :=
  if before.registry (sessionKeyDigest sha op.key) = none ∧
      after.registry (sessionKeyDigest sha op.key) ≠ none then op.entropy.toList
  else []

/-- The history of recordings after one that returned `out`. Repeating one adds nothing. -/
def recordedAfter (w : SessionWorld) (key : String) :
    Outcome SessionAssociation → List (String × SessionAssociation)
  | .ok entry => if (key, entry) ∈ w.recorded then w.recorded else w.recorded ++ [(key, entry)]
  | .error _ => w.recorded

def closedAfter (w : SessionWorld) (key : String) (expected : UInt64) :
    Outcome SessionRegistry → List (String × IncarnationId × UInt64)
  | .ok updated => w.closed ++ [(key, updated.incarnation, expected)]
  | .error _ => w.closed

def step (w : SessionWorld) (op : SessionOp) : SessionWorld :=
  match op with
  | .sessionRegistry env key =>
    let after := on (sessionRegistry sha root env key) w.dir
    { w with dir := after.2, minted := w.minted ++ minting sha op w.dir after.2 }
  | .recordSessionManifest env key manifestHash =>
    let after := on (recordSessionManifest sha root env key manifestHash) w.dir
    { w with
      dir := after.2
      minted := w.minted ++ minting sha op w.dir after.2
      recorded := w.recordedAfter key after.1 }
  | .closeCurrentGeneration env key expected eventId =>
    let after := on (closeCurrentGeneration sha root env key expected eventId) w.dir
    { w with dir := after.2, closed := w.closedAfter key expected after.1 }
  | .loseRegistry key => { w with dir := w.dir.loseRegistry (sessionKeyDigest sha key) }

def run (ops : List SessionOp) : SessionWorld := ops.foldl (step sha root) init

lemma run_append (before after : List SessionOp) :
    run sha root (before ++ after) = after.foldl (step sha root) (run sha root before) :=
  foldl_append

end Step

/-! ## The invariant -/

end SessionWorld

/-- Nothing is closed in the first generation, and everything below a later one is. -/
def SessionRegistry.Staged (r : SessionRegistry) : Prop :=
  (r.closedThrough = none ∧ r.currentGeneration = 0) ∨
    (r.closedThrough = some (r.currentGeneration - 1) ∧ r.currentGeneration ≠ 0)

lemma SessionRegistry.Staged.isOpen {r : SessionRegistry} (h : r.Staged) : r.Open := by
  intro c hc
  rw [mem_def] at hc
  rcases h with ⟨hnone, _⟩ | ⟨hsome, hne⟩
  · rw [hnone] at hc
    simp at hc
  · rw [hsome, some.injEq] at hc
    have hpos : r.currentGeneration.toNat ≠ 0 := fun h0 => hne (toNat.inj h0)
    have hone : (1 : UInt64) ≤ r.currentGeneration := le_iff_toNat_le.mpr (by
      show 1 ≤ _
      omega)
    rw [← hc, UInt64.lt_iff_toNat_lt, UInt64.toNat_sub_of_le _ _ hone]
    show r.currentGeneration.toNat - 1 < _
    omega

namespace SessionWorld

section Invariant

variable (sha : List UInt8 → Digest)

/-- The registry of a key agrees with the history of the key. -/
structure Registered (w : SessionWorld) (key : String) (r : SessionRegistry) : Prop where
  file : w.dir.registry (sessionKeyDigest sha key)
    = some (encodeSessionRegistryFile sha (sessionKeyDigest sha key) r)
  staged : r.Staged
  minted : r.incarnation ∈ w.minted
  generation_le : ∀ a, (key, a) ∈ w.recorded → a.incarnation = r.incarnation →
    a.generation ≤ r.currentGeneration
  closed_iff : ∀ g, (key, r.incarnation, g) ∈ w.closed ↔ g < r.currentGeneration

/-- The files of a key agree with the history of the key. -/
structure KeyConsistent (w : SessionWorld) (key : String) : Prop where
  registry : w.dir.registry (sessionKeyDigest sha key) = none ∨ ∃ r, w.Registered sha key r
  index : (w.dir.index (sessionKeyDigest sha key) = none ∧ w.associations key = []) ∨
    w.dir.index (sessionKeyDigest sha key)
      = some (encodeSessionIndexFile sha (sessionKeyDigest sha key) (w.associations key))
  room : (w.associations key).length ≤ maxAssociations

/-- The files of all keys do, and nothing was recorded or closed under an incarnation that was not
minted. -/
structure Consistent (keys : Set String) (w : SessionWorld) : Prop where
  key : ∀ k ∈ keys, w.KeyConsistent sha k
  recorded_minted : ∀ x ∈ w.recorded, x.2.incarnation ∈ w.minted
  closed_minted : ∀ x ∈ w.closed, x.2.1 ∈ w.minted

lemma consistent_init (keys : Set String) : init.Consistent sha keys := by
  refine ⟨?_, by simp [init], by simp [init]⟩
  intro k _
  exact ⟨.inl rfl, .inl ⟨rfl, rfl⟩, Nat.zero_le _⟩

end Invariant

/-! ## Moves -/

section Moves

variable {sha : List UInt8 → Digest} {keys : Set String} {w w' : SessionWorld} {k : String}

lemma mem_associations {a : SessionAssociation} : a ∈ w.associations k ↔ (k, a) ∈ w.recorded := by
  simp only [associations, List.mem_map, mem_filter, decide_eq_true_eq]
  constructor
  · rintro ⟨⟨k', a'⟩, ⟨hmem, rfl⟩, rfl⟩
    exact hmem
  · intro hmem
    exact ⟨(k, a), ⟨hmem, rfl⟩, rfl⟩

lemma associations_record (dir : SessionsDir) (a : SessionAssociation) :
    ({ w with dir := dir, recorded := w.recorded ++ [(k, a)] } : SessionWorld).associations k
      = w.associations k ++ [a] := by
  simp [associations]

lemma associations_record_of_ne {k' : String} (hk : k' ≠ k) (dir : SessionsDir)
    (a : SessionAssociation) :
    ({ w with dir := dir, recorded := w.recorded ++ [(k, a)] } : SessionWorld).associations k'
      = w.associations k' := by
  simp [associations, hk.symm]

/-- What another key goes through does not touch the files of a key. -/
lemma KeyConsistent.frame (h : w.KeyConsistent sha k)
    (hregistry : w'.dir.registry (sessionKeyDigest sha k) = w.dir.registry (sessionKeyDigest sha k))
    (hindex : w'.dir.index (sessionKeyDigest sha k) = w.dir.index (sessionKeyDigest sha k))
    (hminted : ∀ i ∈ w.minted, i ∈ w'.minted) (hassociations : w'.associations k = w.associations k)
    (hclosed : ∀ i g, (k, i, g) ∈ w'.closed ↔ (k, i, g) ∈ w.closed) : w'.KeyConsistent sha k := by
  refine ⟨?_, ?_, ?_⟩
  · rw [hregistry]
    rcases h.registry with hnone | ⟨r, hr⟩
    · exact .inl hnone
    · refine .inr ⟨r, hregistry.trans hr.file, hr.staged, hminted _ hr.minted, ?_, ?_⟩
      · intro a ha
        rw [← mem_associations, hassociations, mem_associations] at ha
        exact hr.generation_le a ha
      · intro g
        rw [hclosed]
        exact hr.closed_iff g
  · rw [hindex, hassociations]
    exact h.index
  · rw [hassociations]
    exact h.room

/-- What a step can do to a consistent world. -/
inductive Moved (sha : List UInt8 → Digest) (keys : Set String) :
    SessionWorld → SessionWorld → Prop
  | stay (w : SessionWorld) : Moved sha keys w w
  | mint {w : SessionWorld} {k : String} {i : IncarnationId} (hk : k ∈ keys)
      (hnone : w.dir.registry (sessionKeyDigest sha k) = none) (hnew : i ∉ w.minted) :
      Moved sha keys w { w with
        dir := w.dir.putRegistry (sessionKeyDigest sha k)
          (encodeSessionRegistryFile sha (sessionKeyDigest sha k) (freshRegistry i))
        minted := w.minted ++ [i] }
  | record {w : SessionWorld} {k : String} {r : SessionRegistry} {manifestHash : Digest}
      (hk : k ∈ keys) (hr : w.Registered sha k r)
      (hnew : (k, r.association manifestHash) ∉ w.recorded)
      (hroom : (w.associations k).length < maxAssociations) :
      Moved sha keys w { w with
        dir := w.dir.putIndex (sessionKeyDigest sha k) (encodeSessionIndexFile sha
          (sessionKeyDigest sha k) (w.associations k ++ [r.association manifestHash]))
        recorded := w.recorded ++ [(k, r.association manifestHash)] }
  | close {w : SessionWorld} {k : String} {r updated : SessionRegistry} {eventId : Digest}
      (hk : k ∈ keys) (hr : w.Registered sha k r)
      (hlt : r.currentGeneration.toNat + 1 < 2 ^ 64)
      (hupdated : updated
        = ⟨r.incarnation, r.currentGeneration + 1, some r.currentGeneration, eventId⟩) :
      Moved sha keys w { w with
        dir := w.dir.putRegistry (sessionKeyDigest sha k)
          (encodeSessionRegistryFile sha (sessionKeyDigest sha k) updated)
        closed := w.closed ++ [(k, r.incarnation, r.currentGeneration)] }
  | lose {w : SessionWorld} {k : String} (hk : k ∈ keys) :
      Moved sha keys w { w with dir := w.dir.loseRegistry (sessionKeyDigest sha k) }

variable {g : UInt64} {r : SessionRegistry} {env : Env}

variable {c : UInt64}

lemma lt_succ_iff (hc : c.toNat + 1 < 2 ^ 64) : g < c + 1 ↔ g < c ∨ g = c := by
  have hsucc : (c + 1).toNat = c.toNat + 1 := by
    exact Nat.mod_eq_of_lt hc
  rw [UInt64.lt_iff_toNat_lt, UInt64.lt_iff_toNat_lt, ← UInt64.toNat_inj]
  omega

variable {eventId : Digest}

variable {updated : SessionRegistry}

lemma isOpen_advanced (hlt : r.currentGeneration.toNat + 1 < 2 ^ 64)
    (hupdated : updated
        = ⟨r.incarnation, r.currentGeneration + 1, some r.currentGeneration, eventId⟩) :
    updated.Open := by
  rw [hupdated]
  intro c hc
  rw [mem_def, some.injEq] at hc
  exact hc ▸ (lt_succ_iff hlt).mpr (.inr rfl)

/-- A close advances the registry by one generation. -/
lemma Registered.advance (hr : w.Registered sha k r)
    (hlt : r.currentGeneration.toNat + 1 < 2 ^ 64)
    (hupdated : updated
        = ⟨r.incarnation, r.currentGeneration + 1, some r.currentGeneration, eventId⟩)
    (hfile : w'.dir.registry (sessionKeyDigest sha k)
      = some (encodeSessionRegistryFile sha (sessionKeyDigest sha k) updated))
    (hminted : w'.minted = w.minted) (hrecorded : w'.recorded = w.recorded)
    (hclosed : w'.closed = w.closed ++ [(k, r.incarnation, r.currentGeneration)]) :
    w'.Registered sha k updated := by
  have hsucc : (r.currentGeneration + 1).toNat = r.currentGeneration.toNat + 1 := by
    exact Nat.mod_eq_of_lt hlt
  refine ⟨hfile, ?_, ?_, ?_, ?_⟩
  · rw [hupdated]
    refine .inr ⟨?_, ?_⟩
    · simp
    · intro hzero
      have := congrArg toNat hzero
      rw [hsucc] at this
      exact absurd this (Nat.succ_ne_zero _)
  · rw [hminted, hupdated]
    exact hr.minted
  · intro a ha hincarnation
    rw [hrecorded] at ha
    rw [hupdated] at hincarnation ⊢
    have hle := hr.generation_le a ha hincarnation
    rw [le_iff_toNat_le] at hle ⊢
    rw [hsucc]
    exact Nat.le_succ_of_le hle
  · intro g
    rw [hclosed, hupdated, mem_append, hr.closed_iff, lt_succ_iff hlt]
    simp

variable {i : IncarnationId}

/-- Nothing was recorded or closed under an incarnation that is new. -/
lemma Consistent.registered_mint (h : w.Consistent sha keys) (k : String) (hnew : i ∉ w.minted) :
    ({ w with
        dir := w.dir.putRegistry (sessionKeyDigest sha k)
          (encodeSessionRegistryFile sha (sessionKeyDigest sha k) (freshRegistry i))
        minted := w.minted ++ [i] } : SessionWorld).Registered sha k (freshRegistry i) := by
  refine ⟨putRegistry_self _ _, .inl ⟨rfl, rfl⟩,
    mem_append_right _ (mem_singleton_self i), ?_, ?_⟩
  · intro a ha hincarnation
    have hmem : a.incarnation ∈ w.minted := h.recorded_minted _ ha
    rw [hincarnation] at hmem
    exact absurd hmem hnew
  · intro g
    constructor
    · intro hclosed
      exact absurd (h.closed_minted _ hclosed) hnew
    · intro hlt
      exact absurd hlt UInt64.not_lt_zero

/-- **One move** keeps the files and the history consistent. -/
theorem consistent_moved (hkeys : Set.InjOn (sessionKeyDigest sha) keys)
    (h : w.Consistent sha keys) (hmove : Moved sha keys w w') : w'.Consistent sha keys := by
  have hne : ∀ {k k' : String}, k ∈ keys → k' ∈ keys → k' ≠ k →
      sessionKeyDigest sha k' ≠ sessionKeyDigest sha k :=
    fun hk hk' hne heq => hne (hkeys hk' hk heq)
  cases hmove with
  | stay => exact h
  | @mint k i hk hnone hnew =>
    have hminted : ∀ j ∈ w.minted, j ∈ w.minted ++ [i] := fun j hj => mem_append_left _ hj
    refine ⟨?_, fun x hx => hminted _ (h.recorded_minted x hx),
      fun x hx => hminted _ (h.closed_minted x hx)⟩
    intro k' hk'
    by_cases hkk : k' = k
    · subst hkk
      exact ⟨.inr ⟨_, h.registered_mint k' hnew⟩, (h.key k' hk').index, (h.key k' hk').room⟩
    · exact (h.key k' hk').frame (putRegistry_of_ne _ _ (hne hk hk' hkk)) rfl hminted
        rfl fun _ _ => .rfl
  | @record k r manifestHash hk hr hnew hroom =>
    refine ⟨?_, ?_, h.closed_minted⟩
    · intro k' hk'
      by_cases hkk : k' = k
      · subst hkk
        refine ⟨.inr ⟨r, hr.file, hr.staged, hr.minted, ?_, hr.closed_iff⟩, ?_, ?_⟩
        · intro a ha hincarnation
          rcases mem_append.mp ha with hold | hself
          · exact hr.generation_le a hold hincarnation
          · obtain ⟨_, rfl⟩ := Prod.mk.inj (mem_singleton.mp hself)
            exact UInt64.le_refl _
        · refine .inr ?_
          rw [associations_record]
          exact putIndex_self _ _
        · rw [associations_record, length_append]
          exact hroom
      · exact (h.key k' hk').frame rfl (putIndex_of_ne _ _ (hne hk hk' hkk))
          (fun _ => id) (associations_record_of_ne hkk _ _) fun _ _ => .rfl
    · intro x hx
      rcases mem_append.mp hx with hold | hself
      · exact h.recorded_minted x hold
      · rw [mem_singleton.mp hself]
        exact hr.minted
  | @close k r updated eventId hk hr hlt hupdated =>
    refine ⟨?_, h.recorded_minted, ?_⟩
    · intro k' hk'
      by_cases hkk : k' = k
      · subst hkk
        exact ⟨.inr ⟨updated, hr.advance hlt hupdated (putRegistry_self _ _) rfl rfl
          rfl⟩, (h.key k' hk').index, (h.key k' hk').room⟩
      · refine (h.key k' hk').frame (putRegistry_of_ne _ _ (hne hk hk' hkk)) rfl
          (fun _ => id) rfl ?_
        simp [hkk]
    · intro x hx
      rcases mem_append.mp hx with hold | hself
      · exact h.closed_minted x hold
      · rw [mem_singleton.mp hself]
        exact hr.minted
  | @lose k hk =>
    refine ⟨?_, h.recorded_minted, h.closed_minted⟩
    intro k' hk'
    by_cases hkk : k' = k
    · subst hkk
      exact ⟨.inl (loseRegistry_self _), (h.key k' hk').index, (h.key k' hk').room⟩
    · exact (h.key k' hk').frame (loseRegistry_of_ne _ (hne hk hk' hkk)) rfl
        (fun _ => id) rfl fun _ _ => .rfl

/-! ## Steps -/

variable {root : String}

lemma Registered.registryIn_eq (root : String) (hr : w.Registered sha k r) :
    registryIn sha root w.dir (sessionKeyDigest sha k) = .ok (some r) :=
  registryIn_eq_some.mpr ⟨hr.file, hr.staged.isOpen⟩

lemma KeyConsistent.registered (h : w.KeyConsistent sha k)
    (hr : registryIn sha root w.dir (sessionKeyDigest sha k) = .ok (some r)) :
    w.Registered sha k r := by
  rcases h.registry with hnone | ⟨r', hr'⟩
  · rw [registryIn_of_none hnone] at hr
    simp at hr
  · rw [hr'.registryIn_eq root, ok.injEq, some.injEq] at hr
    exact hr ▸ hr'

/-- The index of a consistent key reads as what was recorded under the key. -/
lemma KeyConsistent.indexIn_eq (root : String) (h : w.KeyConsistent sha k) :
    ∃ f, indexIn sha root w.dir (sessionKeyDigest sha k) = .ok f ∧
      f.associations = w.associations k ∧
      ∀ d ∈ f.keyDigest, d = sessionKeyDigest sha k := by
  rcases h.index with ⟨hnone, hnil⟩ | hsome
  · refine ⟨⟨none, []⟩, ?_, hnil.symm, by simp⟩
    rw [indexIn, hnone]
    rfl
  · refine ⟨⟨some (sessionKeyDigest sha k), w.associations k⟩, ?_, rfl, by simp⟩
    rw [indexIn, hsome, readSessionIndexFile_eq_ok]
    exact ⟨_, _, rfl, rfl, length_encodeSessionIndexFile_le_iff.mpr h.room⟩

/-- The entropy source does not repeat an incarnation. -/
def Fresh (w : SessionWorld) (op : SessionOp) : Prop := ∀ i ∈ op.entropy, i ∉ w.minted

/-- The index of the key has room for the association, or has it already. -/
def RoomFor (sha : List UInt8 → Digest) (root : String) (w : SessionWorld) : SessionOp → Prop
  | .recordSessionManifest _ key manifestHash =>
    (w.associations key).length < maxAssociations ∨
      ∃ r, registryIn sha root w.dir (sessionKeyDigest sha key) = .ok (some r) ∧
        (key, r.association manifestHash) ∈ w.recorded
  | _ => True

variable {op : SessionOp}

lemma minting_of_registry_eq {before after : SessionsDir} (h : after.registry = before.registry) :
    minting sha op before after = [] := by
  rw [minting, h, if_neg]
  rintro ⟨hnone, hsome⟩
  exact hsome hnone

/-- The world after a call has taken hold of the registry. -/
lemma moved_locked {dir' : SessionsDir} (hk : op.key ∈ keys) (h : w.Consistent sha keys)
    (hentropy : op.entropy = env.mintIncarnation.toOption) (hfresh : w.Fresh op)
    (hlocked : Locked sha root env (sessionKeyDigest sha op.key) w.dir r dir') :
    ∃ t, Moved sha keys w t ∧ t.Registered sha op.key r ∧ t.dir = dir' ∧ t.recorded = w.recorded ∧
      t.closed = w.closed ∧ ∀ after : SessionsDir, after.registry = dir'.registry →
        w.minted ++ minting sha op w.dir after = t.minted := by
  rcases hlocked with ⟨hread, rfl⟩ | ⟨hnone, i, hmint, rfl, rfl⟩
  · refine ⟨w, .stay w, (h.key _ hk).registered hread, rfl, rfl, rfl, fun after hafter => ?_⟩
    rw [minting_of_registry_eq hafter, append_nil]
  · have hready : op.entropy = some i := by rw [hentropy, hmint]; rfl
    have hnew := hfresh i hready
    refine ⟨_, .mint hk hnone hnew, h.registered_mint _ hnew, rfl, rfl, rfl, fun after hafter => ?_⟩
    have hsome : after.registry (sessionKeyDigest sha op.key) ≠ none := by
      rw [hafter]
      simp
    rw [minting, if_pos ⟨hnone, hsome⟩, hready]
    rfl

variable {key : String}

lemma moves_sessionRegistry (h : w.Consistent sha keys) (hk : key ∈ keys)
    (hfresh : w.Fresh (.sessionRegistry env key)) :
    Moved sha keys w (step sha root w (.sessionRegistry env key)) := by
  rcases hcall : on (sessionRegistry sha root env key) w.dir with ⟨out, dir'⟩
  have hstep : step sha root w (.sessionRegistry env key)
      = ⟨dir', w.minted ++ minting sha (.sessionRegistry env key) w.dir dir', w.recorded,
        w.closed⟩ := by
    rw [step, hcall]
  rw [hstep]
  rcases sessionRegistry_cases hcall with rfl | ⟨r, hlocked⟩
  · rw [minting_of_registry_eq rfl, append_nil]
    exact .stay w
  · obtain ⟨t, ht, _, rfl, hrecorded, hclosed, hminted⟩ := moved_locked hk h rfl hfresh hlocked
    rw [hminted t.dir rfl, ← hrecorded, ← hclosed]
    exact ht

lemma moves_recordSessionManifest {manifestHash : Digest} (h : w.Consistent sha keys)
    (hkeys : Set.InjOn (sessionKeyDigest sha) keys) (hk : key ∈ keys)
    (hfresh : w.Fresh (.recordSessionManifest env key manifestHash))
    (hroom : w.RoomFor sha root (.recordSessionManifest env key manifestHash)) :
    ∃ t, Moved sha keys w t ∧
      Moved sha keys t (step sha root w (.recordSessionManifest env key manifestHash)) := by
  rcases hcall : on (recordSessionManifest sha root env key manifestHash) w.dir with ⟨out, dir'⟩
  have hstep : step sha root w (.recordSessionManifest env key manifestHash)
      = ⟨dir', w.minted ++ minting sha (.recordSessionManifest env key manifestHash) w.dir dir',
        w.recordedAfter key out, w.closed⟩ := by
    rw [step, hcall]
  rw [hstep]
  rcases recordSessionManifest_cases hcall with ⟨e, rfl, rfl⟩ | ⟨r, dir₁, hlocked, hrest⟩
  · refine ⟨w, .stay w, ?_⟩
    rw [minting_of_registry_eq rfl, append_nil]
    exact .stay w
  obtain ⟨t, ht, hr, rfl, hrecorded, hclosed, hminted⟩ := moved_locked hk h rfl hfresh hlocked
  have hconsistent := consistent_moved hkeys h ht
  refine ⟨t, ht, ?_⟩
  rcases hrest with ⟨e, rfl, rfl⟩ | ⟨f, hindex, rfl, hrest⟩
  · rw [hminted t.dir rfl, recordedAfter, ← hrecorded, ← hclosed]
    exact .stay t
  obtain ⟨f', hindex', hassociations, _⟩ := (hconsistent.key key hk).indexIn_eq root
  rw [hindex, ok.injEq] at hindex'
  subst hindex'
  rw [hassociations, mem_associations, hrecorded] at hrest
  rcases hrest with ⟨hmem, rfl⟩ | ⟨hmem, rfl⟩
  · rw [hminted t.dir rfl, recordedAfter, if_pos hmem, ← hrecorded, ← hclosed]
    exact .stay t
  · rw [hminted (putIndex _ _ _) rfl, recordedAfter, if_neg hmem, ← hrecorded,
      ← hclosed]
    refine .record hk hr (hrecorded ▸ hmem) ?_
    rcases hroom with hlt | ⟨r', hread, hrecorded'⟩
    · rw [associations, hrecorded]
      exact hlt
    · -- The association was there already.
      rcases hlocked with ⟨hread', _⟩ | ⟨hnone, _⟩
      · rw [hread, ok.injEq, some.injEq] at hread'
        exact absurd (hread' ▸ hrecorded') hmem
      · rw [registryIn_of_none hnone] at hread
        simp at hread

lemma moves_closeCurrentGeneration {expected : UInt64} (h : w.Consistent sha keys)
    (hk : key ∈ keys) :
    Moved sha keys w (step sha root w (.closeCurrentGeneration env key expected eventId)) := by
  rcases hcall : on (closeCurrentGeneration sha root env key expected eventId) w.dir
    with ⟨out, dir'⟩
  have hstep : step sha root w (.closeCurrentGeneration env key expected eventId)
      = ⟨dir', w.minted, w.recorded, w.closedAfter key expected out⟩ := by
    rw [step, hcall]
  rw [hstep]
  rcases closeCurrentGeneration_cases hcall with
    ⟨e, rfl, rfl⟩ | ⟨r, updated, hread, rfl, hlt, hupdated, rfl, rfl⟩
  · exact .stay w
  · have hincarnation : updated.incarnation = r.incarnation := by rw [hupdated]
    rw [closedAfter, hincarnation]
    exact .close hk ((h.key key hk).registered hread) hlt hupdated

/-- **One step** of a consistent world is a move, or two. -/
theorem moves_step (hkeys : Set.InjOn (sessionKeyDigest sha) keys) (h : w.Consistent sha keys)
    (hk : op.key ∈ keys) (hfresh : w.Fresh op) (hroom : w.RoomFor sha root op) :
    ∃ t, Moved sha keys w t ∧ Moved sha keys t (step sha root w op) := by
  cases op with
  | sessionRegistry env key =>
    exact ⟨w, .stay w, moves_sessionRegistry h hk hfresh⟩
  | recordSessionManifest env key manifestHash =>
    exact moves_recordSessionManifest h hkeys hk hfresh hroom
  | closeCurrentGeneration env key expected eventId =>
    exact ⟨w, .stay w, moves_closeCurrentGeneration h hk⟩
  | loseRegistry key => exact ⟨w, .stay w, .lose hk⟩

/-! ## Guarantees of a state -/

/-- The releasable manifests are those recorded in the current incarnation of the key, in a
generation that was closed. -/
def Exact (sha : List UInt8 → Digest) (root : String) (w : SessionWorld) (key : String) : Prop :=
  ∃ hashes, releasableManifests sha root w.dir key = .ok hashes ∧
    ∀ manifestHash, manifestHash ∈ hashes ↔
      ∃ r g, registryIn sha root w.dir (sessionKeyDigest sha key) = .ok (some r) ∧
        (key, ⟨r.incarnation, manifestHash, g⟩) ∈ w.recorded ∧ (key, r.incarnation, g) ∈ w.closed

lemma le_pred_iff (hc : c ≠ 0) : g ≤ c - 1 ↔ g < c := by
  have hpos : c.toNat ≠ 0 := fun h0 => hc (toNat.inj h0)
  have hone : (1 : UInt64) ≤ c := le_iff_toNat_le.mpr (by
    show 1 ≤ _
    omega)
  rw [UInt64.lt_iff_toNat_lt, UInt64.le_iff_toNat_le, UInt64.toNat_sub_of_le _ _ hone]
  show g.toNat ≤ c.toNat - 1 ↔ _
  omega

lemma KeyConsistent.sessionAssociations_eq (h : w.KeyConsistent sha k) :
    sessionAssociations sha root w.dir k = .ok (w.associations k) := by
  obtain ⟨f, hindex, hassociations, hdigest⟩ := h.indexIn_eq root
  have hsame : (f.keyDigest.any fun d => d ≠ sessionKeyDigest sha k) = false := by
    cases hd : f.keyDigest with
    | none => rfl
    | some d => simpa using hdigest d hd
  rw [sessionAssociations, hindex]
  show (if f.keyDigest.any fun d => d ≠ sessionKeyDigest sha k then _ else _) = _
  rw [hsame, ← hassociations]
  rfl

lemma KeyConsistent.exact (h : w.KeyConsistent sha k) : w.Exact sha root k := by
  have hnothing : (∀ r, registryIn sha root w.dir (sessionKeyDigest sha k) = .ok (some r) →
      ∀ g, (k, r.incarnation, g) ∉ w.closed) →
      releasableManifests sha root w.dir k = .ok [] → w.Exact sha root k := by
    intro hclosed hnil
    refine ⟨[], hnil, fun manifestHash => ?_⟩
    simp only [not_mem_nil, false_iff]
    rintro ⟨r, g, hr, _, hg⟩
    exact hclosed r hr g hg
  rcases h.registry with hnone | ⟨r, hr⟩
  · refine hnothing ?_ ?_
    · intro r hr
      rw [registryIn_of_none hnone] at hr
      simp at hr
    · rw [releasableManifests, registryIn_of_none hnone]
      rfl
  · have hread := hr.registryIn_eq root
    have hunique : ∀ r', registryIn sha root w.dir (sessionKeyDigest sha k) = .ok (some r') →
        r' = r := by
      intro r' hr'
      rw [hread, ok.injEq, some.injEq] at hr'
      exact hr'.symm
    rcases hr.staged with ⟨hclosed, hzero⟩ | ⟨hclosed, hne⟩
    · refine hnothing ?_ ?_
      · intro r' hr' g hg
        rw [hunique r' hr', hr.closed_iff, hzero] at hg
        exact absurd hg UInt64.not_lt_zero
      · rw [releasableManifests, hread]
        simp only [bind, Except.bind, hclosed]
        rfl
    · have hreleasable : releasableManifests sha root w.dir k
          = .ok (((w.associations k).filter fun a => a.incarnation = r.incarnation ∧
            a.generation ≤ r.currentGeneration - 1).map SessionAssociation.manifestHash) := by
        rw [releasableManifests, hread]
        simp only [bind, Except.bind, hclosed, h.sessionAssociations_eq]
        rfl
      refine ⟨_, hreleasable, fun manifestHash => ?_⟩
      simp only [List.mem_map, mem_filter, decide_eq_true_eq, mem_associations]
      constructor
      · rintro ⟨⟨i, m, g⟩, ⟨hmem, rfl, hg⟩, rfl⟩
        exact ⟨r, g, hread, hmem, (hr.closed_iff g).mpr ((le_pred_iff hne).mp hg)⟩
      · rintro ⟨r', g, hr', hmem, hg⟩
        rw [hunique r' hr'] at hmem hg
        exact ⟨_, ⟨hmem, rfl, (le_pred_iff hne).mpr ((hr.closed_iff g).mp hg)⟩, rfl⟩

/-- The incarnation was minted, and its registry, while it lasts, has reached the generation. -/
structure Reached (sha : List UInt8 → Digest) (root : String) (w : SessionWorld) (key : String)
    (i : IncarnationId) (g : UInt64) : Prop where
  minted : i ∈ w.minted
  generation_le : ∀ r, registryIn sha root w.dir (sessionKeyDigest sha key) = .ok (some r) →
    r.incarnation = i → g ≤ r.currentGeneration

lemma Reached.of_registry_eq (h : w.Reached sha root k i g) (hminted : i ∈ w'.minted)
    (hregistry :
      w'.dir.registry (sessionKeyDigest sha k) = w.dir.registry (sessionKeyDigest sha k)) :
    w'.Reached sha root k i g := by
  refine ⟨hminted, ?_⟩
  rw [registryIn, hregistry]
  exact h.generation_le

/-- **One move** takes no incarnation back to an earlier generation. -/
lemma reached_moved (hkeys : Set.InjOn (sessionKeyDigest sha) keys) (hk : k ∈ keys)
    (h : w.Reached sha root k i g) (hmove : Moved sha keys w w') :
    w'.Reached sha root k i g := by
  have hne : ∀ {k'}, k' ∈ keys → k ≠ k' → sessionKeyDigest sha k ≠ sessionKeyDigest sha k' :=
    fun hk' hne heq => hne (hkeys hk hk' heq)
  cases hmove with
  | stay => exact h
  | @mint k' j hk' hnone hnew =>
    have hminted : i ∈ w.minted ++ [j] := mem_append_left _ h.minted
    by_cases hkk : k = k'
    · subst hkk
      refine ⟨hminted, fun r hr hincarnation => ?_⟩
      rw [registryIn_putRegistry _ _ (isOpen_freshRegistry j), ok.injEq,
        some.injEq] at hr
      have hij : j = i := by rw [← hincarnation, ← hr, freshRegistry]
      exact absurd (hij ▸ h.minted) hnew
    · exact h.of_registry_eq hminted (putRegistry_of_ne _ _ (hne hk' hkk))
  | record hk' hr hnew hroom => exact h.of_registry_eq h.minted rfl
  | @close k' r updated eventId hk' hr hlt hupdated =>
    by_cases hkk : k = k'
    · subst hkk
      refine ⟨h.minted, fun r' hr' hincarnation => ?_⟩
      rw [registryIn_putRegistry _ _ (isOpen_advanced hlt hupdated), ok.injEq,
        some.injEq] at hr'
      rw [← hr', hupdated] at hincarnation ⊢
      have hle := h.generation_le r (hr.registryIn_eq root) hincarnation
      have hnext : r.currentGeneration < r.currentGeneration + 1 :=
        (lt_succ_iff hlt).mpr (.inr rfl)
      exact UInt64.le_trans hle (UInt64.le_of_lt hnext)
    · exact h.of_registry_eq h.minted (putRegistry_of_ne _ _ (hne hk' hkk))
  | @lose k' hk' =>
    by_cases hkk : k = k'
    · subst hkk
      refine ⟨h.minted, fun r hr => ?_⟩
      rw [registryIn_of_none (loseRegistry_self _)] at hr
      simp at hr
    · exact h.of_registry_eq h.minted (loseRegistry_of_ne _ (hne hk' hkk))

end Moves

/-! ## Guarantees of a step -/

section Steps

variable (sha : List UInt8 → Digest) (root : String)

/-- What a call promises: a recording carries the incarnation and the generation of the registry
that was open, which was there before or is new; and a close that fails or does not match changes
nothing. -/
def StepSound (w : SessionWorld) : SessionOp → Prop
  | .recordSessionManifest env key manifestHash =>
    let after := on (recordSessionManifest sha root env key manifestHash) w.dir
    ∀ a, after.1 = .ok a → ∃ r, a = r.association manifestHash ∧
      registryIn sha root after.2 (sessionKeyDigest sha key) = .ok (some r) ∧
      (registryIn sha root w.dir (sessionKeyDigest sha key) = .ok (some r) ∨
        w.dir.registry (sessionKeyDigest sha key) = none)
  | .closeCurrentGeneration env key expected eventId =>
    let after := on (closeCurrentGeneration sha root env key expected eventId) w.dir
    (∀ e, after.1 = .error e → after.2 = w.dir) ∧
      ∀ r, registryIn sha root w.dir (sessionKeyDigest sha key) = .ok (some r) →
        expected ≠ r.currentGeneration → (∃ e, after.1 = .error e) ∧ after.2 = w.dir
  | _ => True

lemma stepSound (w : SessionWorld) (op : SessionOp) : StepSound sha root w op := by
  cases op with
  | sessionRegistry env key => trivial
  | loseRegistry key => trivial
  | recordSessionManifest env key manifestHash =>
    rcases hcall : on (recordSessionManifest sha root env key manifestHash) w.dir with ⟨out, dir'⟩
    simp only [StepSound, hcall]
    rintro a rfl
    rcases recordSessionManifest_cases hcall with ⟨e, he, _⟩ | ⟨r, dir₁, hlocked, hrest⟩
    · simp at he
    rcases hrest with ⟨e, he, _⟩ | ⟨f, _, hout, hrest⟩
    · simp at he
    have hregistry : registryIn sha root dir' (sessionKeyDigest sha key)
        = registryIn sha root dir₁ (sessionKeyDigest sha key) := by
      rcases hrest with ⟨_, rfl⟩ | ⟨_, rfl⟩
      · rfl
      · rfl
    rw [hregistry]
    refine ⟨r, ok.inj hout, ?_⟩
    rcases hlocked with ⟨hread, rfl⟩ | ⟨hnone, i, _, rfl, rfl⟩
    · exact ⟨hread, .inl hread⟩
    · exact ⟨registryIn_putRegistry _ _ (isOpen_freshRegistry i), .inr hnone⟩
  | closeCurrentGeneration env key expected eventId =>
    rcases hcall : on (closeCurrentGeneration sha root env key expected eventId) w.dir
      with ⟨out, dir'⟩
    simp only [StepSound, hcall]
    rcases closeCurrentGeneration_cases hcall with
      ⟨e, rfl, rfl⟩ | ⟨r, updated, hread, rfl, _, _, rfl, _⟩
    · exact ⟨fun _ _ => rfl, fun _ _ _ => ⟨⟨e, rfl⟩, rfl⟩⟩
    · refine ⟨fun e he => by simp at he, fun r' hr' hne => ?_⟩
      rw [hread, ok.injEq, some.injEq] at hr'
      exact absurd (by rw [hr']) hne

end Steps

/-! ## Runs -/

section Runs

variable {sha : List UInt8 → Digest} {root : String} {keys : Set String}

/-- All calls are on the given keys, and the entropy source does not repeat itself. -/
def Allowed (sha : List UInt8 → Digest) (root : String) (keys : Set String)
    (ops : List SessionOp) : Prop :=
  ∀ before op after, ops = before ++ op :: after →
    op.key ∈ keys ∧ (run sha root before).Fresh op

/-- Every index has room for what is recorded. -/
def Roomy (sha : List UInt8 → Digest) (root : String) (ops : List SessionOp) : Prop :=
  ∀ before op after, ops = before ++ op :: after → (run sha root before).RoomFor sha root op

/-- The guarantees of a run: of each of its states, of each pair of states and of each step. -/
structure RunSound (sha : List UInt8 → Digest) (root : String) (keys : Set String)
    (ops : List SessionOp) : Prop where
  staged : ∀ before after, ops = before ++ after → ∀ k ∈ keys, ∀ r,
    registryIn sha root (run sha root before).dir (sessionKeyDigest sha k) = .ok (some r) → r.Staged
  monotone : ∀ before between after, ops = before ++ between ++ after → ∀ k ∈ keys, ∀ r r',
    registryIn sha root (run sha root before).dir (sessionKeyDigest sha k) = .ok (some r) →
    registryIn sha root (run sha root (before ++ between)).dir (sessionKeyDigest sha k)
      = .ok (some r') →
    r'.incarnation = r.incarnation → r.currentGeneration ≤ r'.currentGeneration
  steps : ∀ before op after, ops = before ++ op :: after →
    StepSound sha root (run sha root before) op
  exact : ∀ before after, ops = before ++ after → ∀ k ∈ keys, (run sha root before).Exact sha root k

lemma run_concat (ops : List SessionOp) (op : SessionOp) :
    run sha root (ops ++ [op]) = step sha root (run sha root ops) op := by
  rw [run_append]
  rfl

/-- What every move keeps holds after every run from a consistent world on. -/
lemma run_induct {P : SessionWorld → Prop} (hkeys : Set.InjOn (sessionKeyDigest sha) keys)
    (hmoved : ∀ {w w'}, w.Consistent sha keys → P w → Moved sha keys w w' → P w')
    (before : List SessionOp) :
    ∀ {between : List SessionOp}, Allowed sha root keys (before ++ between) →
      Roomy sha root (before ++ between) → (run sha root before).Consistent sha keys →
      P (run sha root before) →
      (run sha root (before ++ between)).Consistent sha keys ∧
        P (run sha root (before ++ between)) := by
  intro between
  induction between using reverseRecOn with
  | nil =>
    intro _ _ hconsistent hP
    rw [append_nil]
    exact ⟨hconsistent, hP⟩
  | append_singleton between op ih =>
    intro hallowed hroomy hconsistent hP
    rw [← append_assoc] at hallowed hroomy ⊢
    obtain ⟨hconsistent', hP'⟩ :=
      ih (forall_calls_append hallowed) (forall_calls_append hroomy) hconsistent hP
    have hop := hallowed _ _ _ rfl
    obtain ⟨t, ht, ht'⟩ := moves_step hkeys hconsistent' hop.1 hop.2 (hroomy _ _ _ rfl)
    have ht₁ := consistent_moved hkeys hconsistent' ht
    rw [run_concat]
    exact ⟨consistent_moved hkeys ht₁ ht', hmoved ht₁ (hmoved hconsistent' hP' ht) ht'⟩

variable {ops : List SessionOp}

lemma consistent_run (hkeys : Set.InjOn (sessionKeyDigest sha) keys)
    (hallowed : Allowed sha root keys ops) (hroomy : Roomy sha root ops) :
    (run sha root ops).Consistent sha keys :=
  (run_induct (P := fun _ => True) hkeys (fun _ _ _ => trivial) [] hallowed hroomy
    (consistent_init sha keys) trivial).1

/-- Everything works, and the entropy source has `incarnation` ready. -/
def workingEnv (incarnation : Outcome IncarnationId) : Env :=
  ⟨.ok (), .ok (), incarnation, .ok (), .ok ()⟩

/-- Nothing is read from the entropy source. -/
def calmEnv : Env := workingEnv (.error (invalidData "short read from /dev/urandom"))

def firstIncarnation : IncarnationId := ⟨replicate 16 1, rfl⟩

/-- The digest that renders a number. -/
def numbered (n : ℕ) : Digest := ⟨Delimited.leBytes 32 n, Delimited.length_leBytes 32 n⟩

/-- The session `s` is opened. -/
def openOp : SessionOp := .sessionRegistry (workingEnv (.ok firstIncarnation)) "s"

def recordOp (manifestHash : Digest) : SessionOp := .recordSessionManifest calmEnv "s" manifestHash

def closeOp : SessionOp := .closeCurrentGeneration calmEnv "s" 0 Digest.zero

/-- A run that opens the session and then draws no entropy is allowed. -/
lemma allowed_openOp (h : ∀ op ∈ ops, op.key = "s" ∧ op.entropy = none) :
    Allowed sha root {"s"} (openOp :: ops) := by
  refine forall_calls_cons.mpr ⟨⟨rfl, fun i _ => not_mem_nil⟩, fun before op after hops => ?_⟩
  obtain ⟨hkey, hentropy⟩ := h op (by simp [hops])
  refine ⟨hkey, fun i hi => ?_⟩
  rw [hentropy] at hi
  exact absurd hi (not_mem_none i)

/-- **The session state machine.** In every run on keys that SHA-256 tells apart, with incarnations
that do not repeat and indexes that have room for what is recorded: every registry is staged, no
incarnation goes back, recordings carry the open generation, a failed close changes nothing, and
the releasable manifests are exactly those of the closed generations of the current incarnation. -/
theorem generations_sound (hkeys : Set.InjOn (sessionKeyDigest sha) keys) (ops : List SessionOp)
    (hallowed : Allowed sha root keys ops) (hroomy : Roomy sha root ops) :
    RunSound sha root keys ops := by
  have hallowed' : ∀ {before after}, ops = before ++ after → Allowed sha root keys before := by
    rintro before after rfl
    exact forall_calls_append hallowed
  have hroomy' : ∀ {before after}, ops = before ++ after → Roomy sha root before := by
    rintro before after rfl
    exact forall_calls_append hroomy
  have hconsistent : ∀ {before after}, ops = before ++ after →
      (run sha root before).Consistent sha keys :=
    fun h => consistent_run hkeys (hallowed' h) (hroomy' h)
  refine ⟨?_, ?_, fun before op after _ => stepSound sha root _ op, ?_⟩
  · intro before after h k hk r hr
    exact (((hconsistent h).key k hk).registered hr).staged
  · intro before between after h k hk r r' hr hr' hincarnation
    have hregistered := ((hconsistent (h.trans (append_assoc _ _ _))).key k hk).registered hr
    have hreached : (run sha root before).Reached sha root k r.incarnation r.currentGeneration := by
      refine ⟨hregistered.minted, fun s hs _ => ?_⟩
      rw [hr, ok.injEq, some.injEq] at hs
      rw [hs]
      exact UInt64.le_refl _
    have hlater := (run_induct (P := fun w => w.Reached sha root k r.incarnation
      r.currentGeneration) hkeys (fun _ hP hmove => reached_moved hkeys hk hP hmove)
      before (hallowed' h) (hroomy' h) (hconsistent (h.trans (append_assoc _ _ _))) hreached).2
    exact hlater.generation_le r' hr' hincarnation
  · intro before after h k hk
    exact ((hconsistent h).key k hk).exact

/-- One manifest is recorded and its generation closed: it is releasable. -/
theorem generations_sound_one_manifest :
    RunSound sha256 "sessions" {"s"} [openOp, recordOp (numbered 7), closeOp] ∧
      releasableManifests sha256 "sessions"
        (run sha256 "sessions" [openOp, recordOp (numbered 7), closeOp]).dir "s"
          = .ok [numbered 7] := by
  refine ⟨generations_sound (Set.injOn_singleton _ _) _ (allowed_openOp ?_) ?_, by decide +kernel⟩
  · intro op hop
    simp only [mem_cons, not_mem_nil, or_false] at hop
    rcases hop with rfl | rfl
    all_goals exact ⟨rfl, rfl⟩
  · have hroom : ((run sha256 "sessions" [openOp]).associations "s").length < maxAssociations := by
      decide
    simp only [Roomy, forall_calls_cons]
    exact ⟨trivial, .inl hroom, trivial, by simp⟩

/-! ## A full index -/

variable {dir : SessionsDir} {r : SessionRegistry} {manifestHash : Digest}

/-- A recording in a working environment, of an association that the index does not have. -/
lemma on_recordSessionManifest {f : SessionIndexFile}
    (hr : registryIn sha root dir (sessionKeyDigest sha "s") = .ok (some r))
    (hf : indexIn sha root dir (sessionKeyDigest sha "s") = .ok f)
    (hdigest : ∀ d ∈ f.keyDigest, d = sessionKeyDigest sha "s")
    (hnew : r.association manifestHash ∉ f.associations) :
    on (recordSessionManifest sha root calmEnv "s" manifestHash) dir
      = (.ok (r.association manifestHash), dir.putIndex (sessionKeyDigest sha "s")
        (encodeSessionIndexFile sha (sessionKeyDigest sha "s")
          (f.associations ++ [r.association manifestHash]))) := by
  have hsame : (f.keyDigest.any fun d => d ≠ sessionKeyDigest sha "s") = false := by
    cases hd : f.keyDigest with
    | none => rfl
    | some d => simpa using hdigest d hd
  have hlocked : on (sessionRegistryLocked sha root calmEnv "s") dir = (.ok r, dir) := by
    simp only [sessionRegistryLocked, on_bind, on_get, hr]
    rfl
  have hdir : calmEnv.createSessionsDir = .ok () := rfl
  have hwrite : calmEnv.writeIndex = .ok () := rfl
  rw [recordSessionManifest, if_neg (by decide)]
  simp only [on_bind, on_lift, hdir, hlocked, on_get, hf, hsame]
  rw [SessionRegistry.association] at hnew
  rw [if_neg hnew]
  rfl

/-- The world after the manifests of a list were recorded in session `s`. -/
structure Filled (sha : List UInt8 → Digest) (w : SessionWorld) (hashes : List Digest) : Prop where
  registry : w.dir.registry (sessionKeyDigest sha "s")
    = some (encodeSessionRegistryFile sha (sessionKeyDigest sha "s")
      (freshRegistry firstIncarnation))
  index : (w.dir.index (sessionKeyDigest sha "s") = none ∧ hashes = []) ∨
    w.dir.index (sessionKeyDigest sha "s") = some (encodeSessionIndexFile sha
      (sessionKeyDigest sha "s") (hashes.map (freshRegistry firstIncarnation).association))

variable {w : SessionWorld} {hashes : List Digest}

lemma Filled.registryIn_eq (h : Filled sha w hashes) :
    registryIn sha root w.dir (sessionKeyDigest sha "s")
      = .ok (some (freshRegistry firstIncarnation)) :=
  registryIn_eq_some.mpr ⟨h.registry, isOpen_freshRegistry _⟩

/-- One more manifest, as long as the index was readable. -/
lemma Filled.record (h : Filled sha w hashes) (hroom : hashes.length ≤ maxAssociations)
    (hnew : manifestHash ∉ hashes) :
    Filled sha (step sha root w (recordOp manifestHash)) (hashes ++ [manifestHash]) := by
  have hindex : ∃ f : SessionIndexFile, indexIn sha root w.dir (sessionKeyDigest sha "s") = .ok f ∧
      (∀ d ∈ f.keyDigest, d = sessionKeyDigest sha "s") ∧
      f.associations = hashes.map (freshRegistry firstIncarnation).association := by
    rcases h.index with ⟨hnone, rfl⟩ | hsome
    · refine ⟨⟨none, []⟩, ?_, by simp, rfl⟩
      rw [indexIn, hnone]
      rfl
    · refine ⟨⟨some (sessionKeyDigest sha "s"), _⟩, ?_, by simp, rfl⟩
      rw [indexIn, hsome, readSessionIndexFile_eq_ok]
      refine ⟨_, _, rfl, rfl, length_encodeSessionIndexFile_le_iff.mpr ?_⟩
      rw [length_map]
      exact hroom
  obtain ⟨f, hf, hdigest, hassociations⟩ := hindex
  have hmem : (freshRegistry firstIncarnation).association manifestHash ∉ f.associations := by
    rw [hassociations, List.mem_map]
    rintro ⟨m, hm, heq⟩
    have hm' : m = manifestHash := congrArg SessionAssociation.manifestHash heq
    exact hnew (hm' ▸ hm)
  have hcall := on_recordSessionManifest h.registryIn_eq hf hdigest hmem
  have hdir : (step sha root w (recordOp manifestHash)).dir
      = w.dir.putIndex (sessionKeyDigest sha "s") (encodeSessionIndexFile sha
        (sessionKeyDigest sha "s") (f.associations ++
          [(freshRegistry firstIncarnation).association manifestHash])) := by
    rw [recordOp, step, hcall]
  refine ⟨?_, .inr ?_⟩
  · rw [hdir]
    exact h.registry
  · rw [hdir, putIndex_self, hassociations, map_append]
    rfl

lemma filled_open : Filled sha (run sha root [openOp]) [] := by
  have hread : registryIn sha root init.dir (sessionKeyDigest sha "s") = .ok none := rfl
  have hcall : on (sessionRegistry sha root (workingEnv (.ok firstIncarnation)) "s") init.dir
      = (.ok (freshRegistry firstIncarnation), init.dir.putRegistry (sessionKeyDigest sha "s")
        (encodeSessionRegistryFile sha (sessionKeyDigest sha "s")
          (freshRegistry firstIncarnation))) := by
    have hdir : (workingEnv (.ok firstIncarnation)).createRegistryDir = .ok () := rfl
    have hmint : (workingEnv (.ok firstIncarnation)).mintIncarnation = .ok firstIncarnation := rfl
    have hwrite : (workingEnv (.ok firstIncarnation)).writeRegistry = .ok () := rfl
    rw [sessionRegistry]
    rfl
  have hdir : (run sha root [openOp]).dir = init.dir.putRegistry (sessionKeyDigest sha "s")
      (encodeSessionRegistryFile sha (sessionKeyDigest sha "s")
        (freshRegistry firstIncarnation)) := by
    rw [run, foldl_cons, foldl_nil, openOp, step, hcall]
  refine ⟨?_, .inl ⟨?_, rfl⟩⟩
  · rw [hdir, putRegistry_self]
  · rfl

/-- Distinct manifests fill the index, up to one more than its reader accepts. -/
lemma filled_run : ∀ {hashes : List Digest}, hashes.Nodup → hashes.length ≤ maxAssociations + 1 →
    Filled sha (run sha root (openOp :: hashes.map recordOp)) hashes := by
  intro hashes
  induction hashes using reverseRecOn with
  | nil => exact fun _ _ => filled_open
  | append_singleton hashes manifestHash ih =>
    intro hnodup hlength
    rw [length_append, length_singleton] at hlength
    rw [nodup_append] at hnodup
    rw [map_append, map_singleton, ← cons_append, run_concat]
    refine (ih hnodup.1 (by omega)).record (by omega) ?_
    exact fun hmem => hnodup.2.2 _ hmem _ (mem_singleton_self _) rfl

lemma numbered_inj {m n : ℕ} (hm : m < 256 ^ 32) (hn : n < 256 ^ 32)
    (h : numbered m = numbered n) : m = n :=
  Delimited.leBytes_injOn 32 hm hn (congrArg Digest.bytes h)

/-- One manifest more than the reader of an index accepts. -/
def fullHashes : List Digest := (range (maxAssociations + 1)).map numbered

lemma length_fullHashes : fullHashes.length = maxAssociations + 1 := by
  rw [fullHashes, length_map, length_range]

lemma nodup_fullHashes : fullHashes.Nodup := by
  refine .map_on ?_ nodup_range
  intro m hm n hn heq
  have hbound : maxAssociations + 1 < 256 ^ 32 := by decide +kernel
  exact numbered_inj ((mem_range.mp hm).trans hbound) ((mem_range.mp hn).trans hbound) heq

/-- A session in which they are recorded, and which is then closed. -/
def fullRun : List SessionOp := openOp :: (fullHashes.map recordOp ++ [closeOp])

lemma on_closeCurrentGeneration
    (hr : registryIn sha root dir (sessionKeyDigest sha "s")
      = .ok (some (freshRegistry firstIncarnation))) :
    (on (closeCurrentGeneration sha root calmEnv "s" 0 Digest.zero) dir).2
      = dir.putRegistry (sessionKeyDigest sha "s") (encodeSessionRegistryFile sha
        (sessionKeyDigest sha "s") ⟨firstIncarnation, 1, some 0, Digest.zero⟩) := by
  simp only [closeCurrentGeneration, on_bind, on_get, on_lift, hr]
  rfl

/-- The releasable manifests of an index that is too large are not found. -/
lemma not_exact_of_large {c : UInt64} {entries : List SessionAssociation}
    (hr : registryIn sha root w.dir (sessionKeyDigest sha "s") = .ok (some r))
    (hclosed : r.closedThrough = some c)
    (hindex : w.dir.index (sessionKeyDigest sha "s")
      = some (encodeSessionIndexFile sha (sessionKeyDigest sha "s") entries))
    (hlarge : maxAssociations < entries.length) : ¬ w.Exact sha root "s" := by
  rintro ⟨hashes, hreleasable, _⟩
  rw [releasableManifests, hr] at hreleasable
  simp only [bind_eq_ok, sessionAssociations] at hreleasable
  obtain ⟨_, hsome, hrest⟩ := hreleasable
  rw [ok.injEq] at hsome
  subst hsome
  simp only [hclosed, bind_eq_ok] at hrest
  obtain ⟨_, ⟨f, hf, _⟩, _⟩ := hrest
  rw [indexIn, hindex, readSessionIndexFile_eq_ok] at hf
  obtain ⟨_, _, _, _, hmax⟩ := hf
  exact absurd (length_encodeSessionIndexFile_le_iff.mp hmax) (not_le.mpr hlarge)

/-- After one recording too many and a close, the releasable manifests are not found. -/
lemma not_exact_full (hnodup : hashes.Nodup) (hlength : hashes.length = maxAssociations + 1) :
    ¬ (run sha root (openOp :: (hashes.map recordOp ++ [closeOp]))).Exact sha root "s" := by
  have hfilled := @filled_run sha root _ hnodup hlength.le
  rw [← cons_append, run_concat]
  generalize run sha root (openOp :: hashes.map recordOp) = w at hfilled ⊢
  have hdir : (step sha root w closeOp).dir = w.dir.putRegistry (sessionKeyDigest sha "s")
      (encodeSessionRegistryFile sha (sessionKeyDigest sha "s")
        ⟨firstIncarnation, 1, some 0, .zero⟩) := by
    exact on_closeCurrentGeneration hfilled.registryIn_eq
  have hread : registryIn sha root (step sha root w closeOp).dir (sessionKeyDigest sha "s")
      = .ok (some ⟨firstIncarnation, 1, some 0, .zero⟩) := by
    rw [hdir, registryIn_eq_some]
    exact ⟨putRegistry_self _ _, by decide⟩
  have hindex : (step sha root w closeOp).dir.index (sessionKeyDigest sha "s")
      = some (encodeSessionIndexFile sha (sessionKeyDigest sha "s")
        (hashes.map (freshRegistry firstIncarnation).association)) := by
    rw [hdir]
    rcases hfilled.index with ⟨_, rfl⟩ | hsome
    · simp at hlength
    · exact hsome
  refine not_exact_of_large hread rfl hindex ?_
  rw [length_map, hlength]
  exact Nat.lt_succ_self _

/-- **A full index.** One association more than the reader accepts is recorded without an error.
The index cannot be read from then on, and after the close nothing is releasable. -/
theorem not_runSound_fullRun :
    Set.InjOn (sessionKeyDigest sha256) {"s"} ∧ Allowed sha256 "sessions" {"s"} fullRun ∧
      ¬ RunSound sha256 "sessions" {"s"} fullRun := by
  refine ⟨Set.injOn_singleton _ _, ?_, ?_⟩
  · refine allowed_openOp fun op hop => ?_
    simp only [mem_append, List.mem_map, mem_singleton] at hop
    rcases hop with ⟨h, _, rfl⟩ | rfl
    all_goals exact ⟨rfl, rfl⟩
  · intro h
    have hexact := h.exact fullRun []
    rw [append_nil] at hexact
    exact not_exact_full nodup_fullHashes length_fullHashes (hexact rfl "s" (Set.mem_singleton _))

end Runs

end SessionWorld

end Mlxcel.ColdStore
