import Mlxcel.ColdStore.Generations

/-!
# Cleanup of a session that was reopened

A manifest is content-addressed, so the conversation that reopens a session can record one that an
earlier generation of the session already has. `releasableManifests` goes by each association
alone: once the earlier generation is closed, the manifest is releasable although the open
generation has it too.

`Apart` says that this did not happen to a registry and its index, and every call but such a
recording keeps it. It is stated of the files, whatever the history: an index that cannot be read
releases nothing.
-/

namespace Mlxcel.ColdStore

open List Calls SessionsDir Fallible

variable {sha : List UInt8 → Digest} {root : String} {dir : SessionsDir} {d : Digest}
  {r : SessionRegistry} {entries : List SessionAssociation}

/-- Cleanup of the key reaches no manifest of a generation that is still open. -/
def Spares (sha : List UInt8 → Digest) (root : String) (dir : SessionsDir) (key : String) : Prop :=
  ∀ hashes r entries, releasableManifests sha root dir key = .ok hashes →
    registryIn sha root dir (sessionKeyDigest sha key) = .ok (some r) →
    sessionAssociations sha root dir key = .ok entries →
    ∀ a ∈ entries, a.incarnation = r.incarnation → (∀ c ∈ r.closedThrough, c < a.generation) →
      a.manifestHash ∉ hashes

/-- No association is ahead of the registry, and no manifest of a closed generation is also in an
open one. -/
def SessionRegistry.Apart (r : SessionRegistry) (entries : List SessionAssociation) : Prop :=
  ∀ a ∈ entries, a.incarnation = r.incarnation → a.generation ≤ r.currentGeneration ∧
    ∀ c ∈ r.closedThrough, a.generation ≤ c → ∀ b ∈ entries, b.incarnation = r.incarnation →
      b.manifestHash = a.manifestHash → b.generation ≤ c

namespace SessionRegistry.Apart

/-- After a close every association is in a closed generation. -/
lemma advance {updated : SessionRegistry} {eventId : Digest} (h : r.Apart entries)
    (hlt : r.currentGeneration.toNat + 1 < 2 ^ 64)
    (hupdated : updated
      = ⟨r.incarnation, r.currentGeneration + 1, some r.currentGeneration, eventId⟩) :
    updated.Apart entries := by
  subst hupdated
  intro a ha hincarnation
  have hnext : r.currentGeneration < r.currentGeneration + 1 :=
    (SessionWorld.lt_succ_iff hlt).mpr (.inr rfl)
  refine ⟨UInt64.le_trans (h a ha hincarnation).1 (UInt64.le_of_lt hnext), ?_⟩
  intro c hc _ b hb hb' _
  rw [← Option.some.inj hc]
  exact (h b hb hb').1

/-- A recording keeps it if no closed generation has the manifest. -/
lemma record {manifestHash : Digest} (h : r.Apart entries) (hopen : r.Open)
    (hanew : ∀ a ∈ entries, a.incarnation = r.incarnation → a.manifestHash = manifestHash →
      ∀ c ∈ r.closedThrough, c < a.generation) :
    r.Apart (entries ++ [r.association manifestHash]) := by
  intro a ha hincarnation
  rw [mem_append, mem_singleton] at ha
  rcases ha with ha | rfl
  · refine ⟨(h a ha hincarnation).1, ?_⟩
    intro c hc hle b hb hb' hhash
    rw [mem_append, mem_singleton] at hb
    rcases hb with hb | rfl
    · exact (h a ha hincarnation).2 c hc hle b hb hb' hhash
    · exact absurd hle (UInt64.not_le.mpr (hanew a ha hincarnation hhash.symm c hc))
  · refine ⟨UInt64.le_refl _, ?_⟩
    intro c hc hle
    exact absurd hle (UInt64.not_le.mpr (hopen c hc))

end SessionRegistry.Apart

lemma indexIn_putIndex {f : SessionIndexFile}
    (h : indexIn sha root (dir.putIndex d (encodeSessionIndexFile sha d entries)) d = .ok f) :
    f.associations = entries := by
  rw [indexIn, putIndex_self] at h
  obtain ⟨_, _, _, _, hmax⟩ := readSessionIndexFile_eq_ok.mp h
  rw [readSessionIndexFile_eq_ok.mpr ⟨d, entries, rfl, rfl, hmax⟩, Except.ok.injEq] at h
  rw [← h]

variable {lost : Prop}

/-- Every registry that reads is apart from the index that reads under the same digest, and only a
registry that was lost leaves an index behind. -/
structure Separate (sha : List UInt8 → Digest) (root : String) (lost : Prop) (dir : SessionsDir) :
    Prop where
  apart : ∀ d r f, registryIn sha root dir d = .ok (some r) → indexIn sha root dir d = .ok f →
    r.Apart f.associations
  indexed : ∀ d, dir.registry d = none → dir.index d = none ∨ lost

namespace Separate

section

variable (h : Separate sha root lost dir)

include h

lemma mono {lost' : Prop} (hlost : lost → lost') : Separate sha root lost' dir :=
  ⟨h.apart, fun d hnone => (h.indexed d hnone).imp_right hlost⟩

lemma putRegistry (hopen : r.Open)
    (hapart : ∀ f, indexIn sha root dir d = .ok f → r.Apart f.associations) :
    Separate sha root lost (dir.putRegistry d (encodeSessionRegistryFile sha d r)) := by
  refine ⟨fun d' r' f hr hf => ?_, fun d' hnone => ?_⟩
  · by_cases hd : d' = d
    · subst hd
      rw [registryIn_putRegistry _ _ hopen, Except.ok.injEq, Option.some.injEq] at hr
      exact hr ▸ hapart f hf
    · rw [registryIn, putRegistry_of_ne _ _ hd] at hr
      exact h.apart d' r' f hr hf
  · by_cases hd : d' = d
    · subst hd
      simp at hnone
    · rw [putRegistry_of_ne _ _ hd] at hnone
      exact h.indexed d' hnone

lemma putIndex (hr : registryIn sha root dir d = .ok (some r)) (hapart : r.Apart entries) :
    Separate sha root lost (dir.putIndex d (encodeSessionIndexFile sha d entries)) := by
  refine ⟨fun d' r' f hr' hf => ?_, fun d' hnone => ?_⟩
  · by_cases hd : d' = d
    · subst hd
      have heq := hr.symm.trans hr'
      rw [Except.ok.injEq, Option.some.injEq] at heq
      rw [indexIn_putIndex hf, ← heq]
      exact hapart
    · rw [indexIn, putIndex_of_ne _ _ hd] at hf
      exact h.apart d' r' f hr' hf
  · by_cases hd : d' = d
    · subst hd
      rw [registryIn_of_none (show dir.registry d' = none from hnone)] at hr
      simp at hr
    · rw [putIndex_of_ne _ _ hd]
      exact h.indexed d' hnone

lemma loseRegistry : Separate sha root True (dir.loseRegistry d) := by
  refine ⟨fun d' r' f hr hf => ?_, fun _ _ => .inr trivial⟩
  by_cases hd : d' = d
  · subst hd
    rw [registryIn_of_none (loseRegistry_self _)] at hr
    simp at hr
  · rw [registryIn, loseRegistry_of_ne _ hd] at hr
    exact h.apart d' r' f hr hf

/-- What is associated with an open generation is not releasable. -/
lemma spares (key : String) : Spares sha root dir key := by
  intro hashes r entries hreleasable hr hentries a ha hincarnation hopen hmem
  rw [releasableManifests, hr] at hreleasable
  simp only [bind, Except.bind] at hreleasable
  cases hclosed : r.closedThrough with
  | none =>
    rw [hclosed, pure_eq_ok] at hreleasable
    exact absurd hmem (hreleasable ▸ not_mem_nil)
  | some c =>
    simp only [hclosed, hentries, pure_eq_ok] at hreleasable
    subst hreleasable
    simp only [mem_map, mem_filter, decide_eq_true_eq] at hmem
    obtain ⟨b, ⟨hb, hb', hle⟩, hhash⟩ := hmem
    simp only [sessionAssociations, bind_eq_ok] at hentries
    obtain ⟨f, hf, hentries⟩ := hentries
    split_ifs at hentries with hother
    · rw [pure_eq_ok] at hentries
      exact absurd ha (hentries ▸ not_mem_nil)
    · rw [pure_eq_ok] at hentries
      subst hentries
      have hclosed' := (h.apart _ r f hr hf b hb hb').2 c hclosed hle a ha hincarnation hhash.symm
      exact absurd hclosed' (UInt64.not_le.mpr (hopen c hclosed))

end

end Separate

namespace SessionWorld

/-- A manifest is not recorded that a closed generation of the current incarnation has. -/
def RecordsAnew (sha : List UInt8 → Digest) (root : String) (dir : SessionsDir) : SessionOp → Prop
  | .recordSessionManifest _ key manifestHash =>
    ∀ r f, registryIn sha root dir (sessionKeyDigest sha key) = .ok (some r) →
      indexIn sha root dir (sessionKeyDigest sha key) = .ok f →
      ∀ a ∈ f.associations, a.incarnation = r.incarnation → a.manifestHash = manifestHash →
        ∀ c ∈ r.closedThrough, c < a.generation
  | _ => True

/-- An incarnation that starts is on no association of the index. -/
def Renews (sha : List UInt8 → Digest) (root : String) (dir : SessionsDir) (op : SessionOp) : Prop :=
  dir.registry (sessionKeyDigest sha op.key) = none → ∀ i ∈ op.entropy, ∀ f,
    indexIn sha root dir (sessionKeyDigest sha op.key) = .ok f →
      ∀ a ∈ f.associations, a.incarnation ≠ i

lemma separate_locked {env : Env} {op : SessionOp} {dir' : SessionsDir}
    (h : Separate sha root lost dir) (hentropy : op.entropy = env.mintIncarnation.toOption)
    (hrenews : lost → Renews sha root dir op)
    (hlocked : Locked sha root env (sessionKeyDigest sha op.key) dir r dir') :
    Separate sha root lost dir' := by
  rcases hlocked with ⟨_, rfl⟩ | ⟨hnone, i, hmint, rfl, rfl⟩
  · exact h
  · refine h.putRegistry (isOpen_freshRegistry i) fun f hf a ha hincarnation => ?_
    rcases h.indexed _ hnone with hempty | hlost
    · rw [indexIn, hempty] at hf
      rw [← Except.ok.inj hf] at ha
      exact absurd ha not_mem_nil
    · exact absurd hincarnation
        (hrenews hlost hnone i (by rw [hentropy, hmint]; rfl) f hf a ha)

/-- **One step** keeps the registries and the indexes apart. -/
theorem separate_step {w : SessionWorld} {op : SessionOp} (h : Separate sha root lost w.dir)
    (hrenews : lost → Renews sha root w.dir op) (hanew : RecordsAnew sha root w.dir op) :
    Separate sha root (lost ∨ ∃ key, op = .loseRegistry key) (step sha root w op).dir := by
  have hkeep : ∀ {dir}, Separate sha root lost dir →
      Separate sha root (lost ∨ ∃ key, op = .loseRegistry key) dir := fun h' => h'.mono .inl
  cases op with
  | sessionRegistry env key =>
    rcases hcall : on (sessionRegistry sha root env key) w.dir with ⟨out, dir'⟩
    have hstep : (step sha root w (.sessionRegistry env key)).dir = dir' := by
      rw [step, hcall]
    rw [hstep]
    rcases sessionRegistry_cases hcall with rfl | ⟨r, hlocked⟩
    · exact hkeep h
    · exact hkeep (separate_locked h rfl hrenews hlocked)
  | recordSessionManifest env key manifestHash =>
    rcases hcall : on (recordSessionManifest sha root env key manifestHash) w.dir with ⟨out, dir'⟩
    have hstep : (step sha root w (.recordSessionManifest env key manifestHash)).dir = dir' := by
      rw [step, hcall]
    rw [hstep]
    rcases recordSessionManifest_cases hcall with ⟨_, _, rfl⟩ | ⟨r, dir₁, hlocked, hrest⟩
    · exact hkeep h
    have h₁ := separate_locked h rfl hrenews hlocked
    rcases hrest with ⟨_, _, rfl⟩ | ⟨f, hf, _, ⟨_, rfl⟩ | ⟨_, rfl⟩⟩
    · exact hkeep h₁
    · exact hkeep h₁
    rcases hlocked with ⟨hr, rfl⟩ | ⟨hnone, i, hmint, rfl, rfl⟩
    · exact hkeep (h.putIndex hr ((h.apart _ r f hr hf).record (registryIn_eq_some.mp hr).2
        (hanew r f hr hf)))
    · have hr := @registryIn_putRegistry sha root w.dir (sessionKeyDigest sha key) _
        (isOpen_freshRegistry i)
      refine hkeep (h₁.putIndex hr ((h₁.apart _ _ f hr hf).record (isOpen_freshRegistry i) ?_))
      intro _ _ _ _ c hc
      exact absurd hc (Option.not_mem_none c)
  | closeCurrentGeneration env key expected eventId =>
    rcases hcall : on (closeCurrentGeneration sha root env key expected eventId) w.dir
      with ⟨out, dir'⟩
    have hstep : (step sha root w (.closeCurrentGeneration env key expected eventId)).dir
        = dir' := by
      rw [step, hcall]
    rw [hstep]
    rcases closeCurrentGeneration_cases hcall with
      ⟨_, _, rfl⟩ | ⟨r, updated, hr, _, hlt, hupdated, _, rfl⟩
    · exact hkeep h
    · exact hkeep (h.putRegistry (isOpen_advanced hlt hupdated) fun f hf =>
        (h.apart _ r f hr hf).advance hlt hupdated)
  | loseRegistry key => exact h.loseRegistry.mono fun _ => .inr ⟨key, rfl⟩

section Runs

variable (ops : List SessionOp)
  (hrenews : ∀ before op after, ops = before ++ op :: after →
    (∃ key, .loseRegistry key ∈ before) → Renews sha root (run sha root before).dir op)
  (hanew : ∀ before op after, ops = before ++ op :: after →
    RecordsAnew sha root (run sha root before).dir op)

include hrenews hanew

/-- **Every run** in which no manifest of a closed generation is recorded again keeps them apart. -/
theorem separate_run (before : List SessionOp) :
    ∀ {after}, ops = before ++ after →
      Separate sha root (∃ key, .loseRegistry key ∈ before) (run sha root before).dir := by
  induction before using List.reverseRecOn with
  | nil =>
    refine fun _ => ⟨fun d r f hr => ?_, fun _ _ => .inl rfl⟩
    have hnone : registryIn sha root (run sha root []).dir d = .ok none := rfl
    simp [hnone] at hr
  | append_singleton before op ih =>
    intro after hsplit
    rw [append_assoc] at hsplit
    rw [run_concat]
    refine (separate_step (ih hsplit) (hrenews _ _ _ hsplit) (hanew _ _ _ hsplit)).mono ?_
    rintro (⟨key, hkey⟩ | ⟨key, rfl⟩)
    · exact ⟨key, mem_append_left _ hkey⟩
    · exact ⟨key, mem_append_right _ (mem_singleton_self _)⟩

/-- **Cleanup spares a reopened session** in every run that records no manifest of a closed
generation again, if an incarnation that replaces a lost one is new to the index of its key. -/
theorem cleanup_spares (before after : List SessionOp) (hsplit : ops = before ++ after)
    (key : String) : Spares sha root (run sha root before).dir key :=
  (separate_run ops hrenews hanew before hsplit).spares key

end Runs

/-- The session `s` is opened by a recording of manifest 7, closed, and manifest `n` recorded. -/
def reopened (n : ℕ) : List SessionOp :=
  [.recordSessionManifest (workingEnv (.ok firstIncarnation)) "s" (numbered 7), closeOp,
    recordOp (numbered n)]

/-- Another manifest is recorded: cleanup reaches the first one only. -/
theorem cleanup_spares_second_manifest :
    Spares sha256 "sessions" (run sha256 "sessions" (reopened 8)).dir "s" ∧
      releasableManifests sha256 "sessions" (run sha256 "sessions" (reopened 8)).dir "s"
        = .ok [numbered 7] := by
  refine ⟨cleanup_spares (reopened 8) ?_ ?_ _ [] (append_nil _).symm "s", by decide +kernel⟩
  · rintro before op after hsplit ⟨key, hkey⟩
    have hmem : .loseRegistry key ∈ reopened 8 := hsplit ▸ mem_append_left _ hkey
    simp [reopened, closeOp, recordOp] at hmem
  · simp only [reopened, forall_calls_cons]
    refine ⟨?_, trivial, ?_, by simp⟩
    · intro r f hr
      have hnone : registryIn sha256 "sessions" (run sha256 "sessions" []).dir
        (sessionKeyDigest sha256 "s") = .ok none := rfl
      simp [hnone] at hr
    · intro r f _ hf a ha _ hhash
      have hindex : indexIn sha256 "sessions" (run sha256 "sessions" ((reopened 8).take 2)).dir
          (sessionKeyDigest sha256 "s")
            = .ok ⟨some (sessionKeyDigest sha256 "s"), [⟨firstIncarnation, numbered 7, 0⟩]⟩ := by
        decide +kernel
      rw [← Except.ok.inj (hindex.symm.trans hf), mem_singleton] at ha
      subst ha
      exact absurd hhash (by decide)

/-- **A manifest recorded again.** The session is closed and its manifest recorded once more: it is
releasable, and the open generation has it. -/
theorem not_spares_recorded_again :
    ¬ Spares sha256 "sessions" (run sha256 "sessions" (reopened 7)).dir "s" := by
  intro h
  have hstate :
      releasableManifests sha256 "sessions" (run sha256 "sessions" (reopened 7)).dir "s"
          = .ok [numbered 7] ∧
        registryIn sha256 "sessions" (run sha256 "sessions" (reopened 7)).dir
            (sessionKeyDigest sha256 "s")
          = .ok (some ⟨firstIncarnation, 1, some 0, .zero⟩) ∧
        sessionAssociations sha256 "sessions" (run sha256 "sessions" (reopened 7)).dir "s"
          = .ok [⟨firstIncarnation, numbered 7, 0⟩, ⟨firstIncarnation, numbered 7, 1⟩] := by
    decide +kernel
  obtain ⟨hreleasable, hr, hentries⟩ := hstate
  refine h _ _ _ hreleasable hr hentries ⟨firstIncarnation, numbered 7, 1⟩ (by simp) rfl ?_
    (mem_singleton_self _)
  intro c hc
  rw [← Option.some.inj hc]
  decide

end SessionWorld

end Mlxcel.ColdStore
