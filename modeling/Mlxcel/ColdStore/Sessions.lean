import Mlxcel.ColdStore.SessionRecords
import Mlxcel.Lib.Calls

/-!
# Session generations of the cold store

A session key has a registry, with an incarnation and the generation that is open, and an index of
the manifests that were recorded. Recording puts the open generation on an association, closing
advances it, and only what was recorded in a closed generation of the current incarnation is
releasable.

**Failures.** Every write goes to a temporary file and ends in a rename. An `Env` says how the
writes and the entropy source behave during a call; a write that fails leaves the file as it was.
A registry may also be lost between two calls. The index outlives it, and a new registry gets a new
incarnation.

**Inversion.** For each call one lemma says all that it can return and leave behind
(`sessionRegistryLocked_cases`, `closeCurrentGeneration_cases`, `recordSessionManifest_cases`).
-/

namespace Mlxcel.ColdStore

open Text Calls

/-- The session files of a store, under the digests of their keys: `<digest>.gen` and
`<digest>.idx`. -/
structure SessionsDir where
  registry : Digest → Option (List UInt8)
  index : Digest → Option (List UInt8)

namespace SessionsDir

def putRegistry (dir : SessionsDir) (keyDigest : Digest) (bytes : List UInt8) : SessionsDir :=
  { dir with registry := Function.update dir.registry keyDigest (some bytes) }

def putIndex (dir : SessionsDir) (keyDigest : Digest) (bytes : List UInt8) : SessionsDir :=
  { dir with index := Function.update dir.index keyDigest (some bytes) }

def loseRegistry (dir : SessionsDir) (keyDigest : Digest) : SessionsDir :=
  { dir with registry := Function.update dir.registry keyDigest none }

section Lemmas

variable (dir : SessionsDir) {d d' : Digest} (bytes : List UInt8)

@[simp] lemma putRegistry_self : (dir.putRegistry d bytes).registry d = some bytes :=
  Function.update_self _ _ _

lemma putRegistry_of_ne (h : d' ≠ d) : (dir.putRegistry d bytes).registry d' = dir.registry d' :=
  Function.update_of_ne h _ _

@[simp] lemma putIndex_self : (dir.putIndex d bytes).index d = some bytes :=
  Function.update_self _ _ _

lemma putIndex_of_ne (h : d' ≠ d) : (dir.putIndex d bytes).index d' = dir.index d' :=
  Function.update_of_ne h _ _

@[simp] lemma loseRegistry_self : (dir.loseRegistry d).registry d = none :=
  Function.update_self _ _ _

lemma loseRegistry_of_ne (h : d' ≠ d) : (dir.loseRegistry d).registry d' = dir.registry d' :=
  Function.update_of_ne h _ _

end Lemmas

end SessionsDir

/-- How the file system and `/dev/urandom` behave during a call. -/
structure Env where
  createSessionsDir : Outcome Unit
  createRegistryDir : Outcome Unit
  mintIncarnation : Outcome IncarnationId
  writeRegistry : Outcome Unit
  writeIndex : Outcome Unit

/-- A call on the session files; its changes stay when it fails. -/
abbrev SessionM := ExceptT Fault (StateM SessionsDir)

section Calls

variable (sha : List UInt8 → Digest) (root : String)

variable (env : Env) (dir : SessionsDir) (keyDigest : Digest) (sessionKey : String)

def sessionKeyDigest : Digest := sha (utf8 sessionKey)

def sessionIndexPath : String := root ++ "/" ++ hexDigest keyDigest ++ ".idx"

def sessionRegistryPath : String :=
  root ++ "/" ++ hexDigest keyDigest ++ ".gen"

/-- The registry under a digest, as it reads now. -/
def registryIn : Outcome (Option SessionRegistry) :=
  readSessionRegistryFile sha (sessionRegistryPath root keyDigest) keyDigest
    (dir.registry keyDigest)

/-- The index under a digest, as it reads now. -/
def indexIn : Outcome SessionIndexFile :=
  readSessionIndexFile sha (sessionIndexPath root keyDigest) (dir.index keyDigest)

def writeSessionRegistryFile (reg : SessionRegistry) : SessionM Unit := do
  env.writeRegistry
  modify fun dir => dir.putRegistry keyDigest (encodeSessionRegistryFile sha keyDigest reg)

/-- The registry of an incarnation that starts. -/
def freshRegistry (incarnation : IncarnationId) : SessionRegistry :=
  ⟨incarnation, 0, none, Digest.zero⟩

def sessionRegistryLocked : SessionM SessionRegistry := do
  let keyDigest := sessionKeyDigest sha sessionKey
  match ← registryIn sha root (← get) keyDigest with
  | some existing => return existing
  | none =>
    env.createRegistryDir
    let fresh := freshRegistry (← env.mintIncarnation)
    writeSessionRegistryFile sha env keyDigest fresh
    return fresh

def sessionRegistry : SessionM SessionRegistry := do
  if sessionKey = "" then throw (invalidData "session_registry: empty session key")
  else sessionRegistryLocked sha root env sessionKey

def closeCurrentGeneration (expectedGeneration : UInt64)
    (eventId : Digest) : SessionM SessionRegistry := do
  let keyDigest := sessionKeyDigest sha sessionKey
  match ← registryIn sha root (← get) keyDigest with
  | none => throw (invalidData ("close_current_generation: no registry for this session. " ++
      "Refusing to create one here — closing a generation that was never opened would mint a " ++
      "cutoff authorizing cleanup of associations whose lifetime is unknown."))
  | some current =>
    if expectedGeneration ≠ current.currentGeneration then
      throw (invalidData (s!"close_current_generation: expected generation " ++
        s!"{expectedGeneration} but current is {current.currentGeneration}. No mutation, no " ++
        "deletion."))
    else if 2 ^ 64 ≤ current.currentGeneration.toNat + 1 then
      throw (invalidData ("close_current_generation: generation counter exhausted. Refusing " ++
        "to wrap — wrapping to zero would reopen the oldest generations as if current."))
    else
      let updated : SessionRegistry :=
        ⟨current.incarnation, current.currentGeneration + 1, some expectedGeneration, eventId⟩
      writeSessionRegistryFile sha env keyDigest updated
      return updated

def recordSessionManifest (manifestHash : Digest) : SessionM SessionAssociation := do
  if sessionKey = "" then
    throw (invalidData ("record_session_manifest: empty session key. An empty key would fuse " ++
      "unrelated conversations into one index entry, and a later release would delete all of " ++
      "them together."))
  else
    let keyDigest := sessionKeyDigest sha sessionKey
    env.createSessionsDir
    let registry ← sessionRegistryLocked sha root env sessionKey
    let existing ← indexIn sha root (← get) keyDigest
    if existing.keyDigest.any fun recorded => recorded ≠ keyDigest then
      throw (invalidData ("record_session_manifest: index file " ++
        sessionIndexPath root keyDigest ++ " claims a different session key digest. Refusing to " ++
        "merge two sessions."))
    else
      let entry : SessionAssociation :=
        { incarnation := registry.incarnation, manifestHash := manifestHash
          generation := registry.currentGeneration }
      if entry ∈ existing.associations then return entry
      else
        env.writeIndex
        modify fun dir => dir.putIndex keyDigest
          (encodeSessionIndexFile sha keyDigest (existing.associations ++ [entry]))
        return entry

/-- An index that claims another key reads as empty. -/
def sessionAssociations : Outcome (List SessionAssociation) := do
  let expected := sessionKeyDigest sha sessionKey
  let parsed ← indexIn sha root dir expected
  if parsed.keyDigest.any fun d => d ≠ expected then return [] else return parsed.associations

def releasableManifests : Outcome (List Digest) := do
  match ← registryIn sha root dir (sessionKeyDigest sha sessionKey) with
  | none => return []
  | some registry =>
    match registry.closedThrough with
    | none => return []
    | some cutoff =>
      let associations ← sessionAssociations sha root dir sessionKey
      return (associations.filter fun a =>
        a.incarnation = registry.incarnation ∧ a.generation ≤ cutoff).map
          SessionAssociation.manifestHash

end Calls

/-! ## What a call does -/

section Inversion

variable {sha : List UInt8 → Digest} {root : String}

variable {dir : SessionsDir} {d : Digest}

lemma registryIn_of_none (h : dir.registry d = none) :
    registryIn sha root dir d = .ok none := by
  rw [registryIn, h]
  rfl

lemma registryIn_eq_some {r : SessionRegistry} :
    registryIn sha root dir d = .ok (some r) ↔
      dir.registry d = some (encodeSessionRegistryFile sha d r) ∧ r.Open := by
  rw [registryIn]
  cases hfile : dir.registry d with
  | none =>
    simp only [reduceCtorEq, false_and, iff_false]
    intro h
    have hnone : readSessionRegistryFile sha (sessionRegistryPath root d) d none = .ok none := rfl
    rw [hnone] at h
    simp at h
  | some b =>
    rw [readSessionRegistryFile_eq_ok]
    constructor
    · rintro ⟨r', hr', hb, hopen⟩
      rw [Option.some.inj hr']
      exact ⟨congrArg some hb, hopen⟩
    · rintro ⟨hb, hopen⟩
      exact ⟨r, rfl, Option.some.inj hb, hopen⟩

lemma registryIn_putRegistry (dir : SessionsDir) (d : Digest) {r : SessionRegistry} (h : r.Open) :
    registryIn sha root (dir.putRegistry d (encodeSessionRegistryFile sha d r)) d = .ok (some r) :=
  registryIn_eq_some.mpr ⟨SessionsDir.putRegistry_self _ _, h⟩

lemma isOpen_freshRegistry (i : IncarnationId) : (freshRegistry i).Open := by
  simp [SessionRegistry.Open, freshRegistry]

lemma registryIn_eq_none :
    registryIn sha root dir d = .ok none ↔ dir.registry d = none := by
  refine ⟨?_, registryIn_of_none⟩
  intro h
  cases hfile : dir.registry d with
  | none => rfl
  | some b =>
    rw [registryIn, hfile, readSessionRegistryFile_eq_ok] at h
    obtain ⟨r, hr, _⟩ := h
    simp at hr

lemma on_writeSessionRegistryFile (env : Env) (d : Digest) (reg : SessionRegistry)
    (dir : SessionsDir) : on (writeSessionRegistryFile sha env d reg) dir =
      match env.writeRegistry with
      | .ok _ => (.ok (), dir.putRegistry d (encodeSessionRegistryFile sha d reg))
      | .error e => (.error e, dir) := by
  rw [writeSessionRegistryFile, on_bind]
  cases env.writeRegistry with
  | error e => rfl
  | ok _ => rfl

variable {env : Env} {dir' : SessionsDir}

lemma writeSessionRegistryFile_cases {reg : SessionRegistry} {α : Type} {f : Unit → SessionM α}
    {out : Outcome α} (h : on (writeSessionRegistryFile sha env d reg >>= f) dir = (out, dir')) :
    (∃ e, out = .error e ∧ dir' = dir) ∨
      on (f ()) (dir.putRegistry d (encodeSessionRegistryFile sha d reg)) = (out, dir') := by
  rw [on_bind, on_writeSessionRegistryFile] at h
  cases hwrite : env.writeRegistry with
  | error e =>
    rw [hwrite] at h
    exact .inl (on_throw_cases h)
  | ok _ =>
    rw [hwrite] at h
    exact .inr h

/-- The registry that a call goes on with: the one on disk, or a new one that it has written. -/
def Locked (sha : List UInt8 → Digest) (root : String) (env : Env) (d : Digest) (dir : SessionsDir)
    (r : SessionRegistry) (dir' : SessionsDir) : Prop :=
  (registryIn sha root dir d = .ok (some r) ∧ dir' = dir) ∨
    (dir.registry d = none ∧ ∃ i, env.mintIncarnation = .ok i ∧ r = freshRegistry i ∧
      dir' = dir.putRegistry d (encodeSessionRegistryFile sha d r))

variable {key : String} {out : Outcome SessionRegistry}

lemma sessionRegistryLocked_cases
    (h : on (sessionRegistryLocked sha root env key) dir = (out, dir')) :
    (∃ e, out = .error e ∧ dir' = dir) ∨
      ∃ r, out = .ok r ∧ Locked sha root env (sessionKeyDigest sha key) dir r dir' := by
  rw [sessionRegistryLocked, on_get_bind] at h
  rcases on_lift_bind_cases h with hfail | ⟨_ | r, hread, h⟩
  · exact .inl hfail
  · rcases on_lift_bind_cases h with hfail | ⟨_, -, h⟩
    · exact .inl hfail
    rcases on_lift_bind_cases h with hfail | ⟨i, hmint, h⟩
    · exact .inl hfail
    rcases writeSessionRegistryFile_cases h with hfail | h
    · exact .inl hfail
    · obtain ⟨rfl, rfl⟩ := Prod.mk.inj h
      exact .inr ⟨freshRegistry i, rfl, .inr ⟨registryIn_eq_none.mp hread, i, hmint, rfl, rfl⟩⟩
  · obtain ⟨rfl, rfl⟩ := Prod.mk.inj h
    exact .inr ⟨r, rfl, .inl ⟨hread, rfl⟩⟩

lemma sessionRegistry_cases (h : on (sessionRegistry sha root env key) dir = (out, dir')) :
    dir' = dir ∨ ∃ r, Locked sha root env (sessionKeyDigest sha key) dir r dir' := by
  rw [sessionRegistry] at h
  split_ifs at h with hempty
  · exact .inl (Prod.mk.inj h).2.symm
  · rcases sessionRegistryLocked_cases h with ⟨_, _, hdir⟩ | ⟨r, _, hlocked⟩
    · exact .inl hdir
    · exact .inr ⟨r, hlocked⟩

/-- A close fails and changes nothing, or it matches the open generation and advances it. -/
lemma closeCurrentGeneration_cases {expected : UInt64} {eventId : Digest}
    (h : on (closeCurrentGeneration sha root env key expected eventId) dir = (out, dir')) :
    (∃ e, out = .error e ∧ dir' = dir) ∨
      ∃ r updated, registryIn sha root dir (sessionKeyDigest sha key) = .ok (some r) ∧
        expected = r.currentGeneration ∧ r.currentGeneration.toNat + 1 < 2 ^ 64 ∧
        updated = ⟨r.incarnation, r.currentGeneration + 1, some r.currentGeneration, eventId⟩ ∧
        out = .ok updated ∧ dir' = dir.putRegistry (sessionKeyDigest sha key)
          (encodeSessionRegistryFile sha (sessionKeyDigest sha key) updated) := by
  rw [closeCurrentGeneration, on_get_bind] at h
  rcases on_lift_bind_cases h with hfail | ⟨_ | r, hread, h⟩
  · exact .inl hfail
  · exact .inl (on_throw_cases h)
  · simp only at h
    split_ifs at h with hexpected hfull
    · exact .inl (on_throw_cases h)
    · exact .inl (on_throw_cases h)
    · rcases writeSessionRegistryFile_cases h with hfail | h
      · exact .inl hfail
      · have hexpected := not_not.mp hexpected
        subst hexpected
        obtain ⟨rfl, rfl⟩ := Prod.mk.inj h
        exact .inr ⟨r, _, hread, rfl, not_le.mp hfull, rfl, rfl, rfl⟩

/-- The association that a recording makes of the registry. -/
def SessionRegistry.association (r : SessionRegistry) (manifestHash : Digest) :
    SessionAssociation := ⟨r.incarnation, manifestHash, r.currentGeneration⟩

/-- A recording fails, perhaps after it wrote a new registry, or it returns the association of the
registry, which the index has afterwards. -/
lemma recordSessionManifest_cases {manifestHash : Digest} {out : Outcome SessionAssociation}
    (h : on (recordSessionManifest sha root env key manifestHash) dir = (out, dir')) :
    (∃ e, out = .error e ∧ dir' = dir) ∨
      ∃ r dir₁, Locked sha root env (sessionKeyDigest sha key) dir r dir₁ ∧
        ((∃ e, out = .error e ∧ dir' = dir₁) ∨
          ∃ f, indexIn sha root dir₁ (sessionKeyDigest sha key) = .ok f ∧
            out = .ok (r.association manifestHash) ∧
            (r.association manifestHash ∈ f.associations ∧ dir' = dir₁ ∨
              r.association manifestHash ∉ f.associations ∧
                dir' = dir₁.putIndex (sessionKeyDigest sha key)
                  (encodeSessionIndexFile sha (sessionKeyDigest sha key)
                    (f.associations ++ [r.association manifestHash])))) := by
  rw [recordSessionManifest] at h
  split_ifs at h with hempty
  · exact .inl (on_throw_cases h)
  rcases on_lift_bind_cases h with hfail | ⟨_, -, hgo⟩
  · exact .inl hfail
  rcases hlocked : on (sessionRegistryLocked sha root env key) dir with ⟨out₁, dir₁⟩
  rw [on_bind, hlocked] at hgo
  rcases sessionRegistryLocked_cases hlocked with ⟨e, rfl, rfl⟩ | ⟨r, rfl, hr⟩
  · exact .inl (on_throw_cases hgo)
  refine .inr ⟨r, dir₁, hr, ?_⟩
  simp only [on_get_bind] at hgo
  rcases on_lift_bind_cases hgo with hfail | ⟨f, hindex, h⟩
  · exact .inl hfail
  split_ifs at h with hother hmem
  · exact .inl (on_throw_cases h)
  · obtain ⟨rfl, rfl⟩ := Prod.mk.inj h
    exact .inr ⟨f, hindex, rfl, .inl ⟨hmem, rfl⟩⟩
  · rcases on_lift_bind_cases h with hfail | ⟨_, -, h⟩
    · exact .inl hfail
    · obtain ⟨rfl, rfl⟩ := Prod.mk.inj h
      exact .inr ⟨f, hindex, rfl, .inr ⟨hmem, rfl⟩⟩

end Inversion

end Mlxcel.ColdStore
