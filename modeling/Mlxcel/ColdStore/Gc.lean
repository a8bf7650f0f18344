import Mlxcel.ColdStore.Store
import Mlxcel.Lib.RwLock

/-!
# Publication, pruning, collection and loading side by side

Any number of processes work on one cold store. This file models their filesystem steps as a
transition relation and shows when the blocks of every committed manifest are there.

**What is shared** (`Shared`): which block directories and tombstones exist, which file each
manifest directory and each staging directory holds and what the file names, the reference counts,
the publication epoch and the store lock.

**What a process does** (`Proc`): each control state is a point between two filesystem steps of one
call.
* `write_block`: see that there is no directory, then rename the staged one into place.
* `write_manifest`: see that there is no directory, count the references, make the staging
  directory, open its file, write it, take the lock, look for every block, bump the epoch, rename,
  release.
* `delete_manifest`, without the lock: read, uncount, unlink `manifest.bin`, remove the directory.
* `gc_blocks` in delete mode: up to four epoch-guarded marks, nomination, the lock, the epoch
  again, a second mark, the tombstone renames, release, and the removal of the tombstones.
* `load_prefix_longer_than`: the shared lease, manifest reads, block reads, release.

A directory is listed entry by entry while others work: a mark starts with at least the manifests
that exist, may meet new ones, passes over those that are gone, and cannot pass one that it cannot
read. Every process can stop at every point (`Trans.stop`): a crash and an error return both
release the lock.

**The staging directory** `.tmp.<address>` belongs to the address and not to the publisher, and its
file is written before the lock is taken. A publisher that opens the file cuts it short for the
others, and one that has it open writes to it also after another one has renamed it into place.
Manifests with different blocks can have one address, so a rename may commit a list of blocks that
nobody has looked for.

**Main results.**
* `blocks_present`: as long as every rename finds in the staging directory a file for the blocks
  that its publisher has looked for, the blocks of every committed manifest are there, and so are
  the blocks of every manifest that a process has read under its lease.
* `blocks_absent`: without that, a manifest is committed whose block is not there.
* `frozen_of_leased`: under a lease no block goes and no file is committed.
-/

namespace Mlxcel.ColdStore.Gc

open Function List

/-- The store as all processes see it. The directory of a manifest, and the one it is staged in, is
absent, or present without a `manifest.bin`, or present with one; the files made for an address are
numbered. A file that was cut short and not written since has no contents. Decoding ignores what
stands behind a manifest, so a written file names the blocks of the last one who wrote it. -/
structure Shared (Pid : Type) where
  blocks : Set Digest
  tombstones : Set Digest
  manifests : Digest → Option (Option ℕ)
  staging : Digest → Option (Option ℕ)
  contents : Digest × ℕ → Option (List Digest)
  /-- How many files were made for an address. -/
  serial : Digest → ℕ
  refcount : Digest → ℕ
  epoch : ℕ
  lock : RwLock Pid

/-- The control states of one process. -/
inductive Proc
  | idle
  -- write_block
  | blockStaged (block : Digest)
  -- write_manifest
  | counting (m : Manifest) (todo : List Digest)
  | countingWrite (m : Manifest) (block : Digest) (current : ℕ) (todo : List Digest)
  | stagingMade (m : Manifest)
  | writing (m : Manifest) (file : ℕ)
  | manifestStaged (m : Manifest)
  | revalidating (m : Manifest) (todo : List Digest)
  | validated (m : Manifest)
  | bumped (m : Manifest)
  | published
  -- delete_manifest
  | uncounting (address : Digest) (todo : List Digest)
  | uncountingWrite (address block : Digest) (current : ℕ) (todo : List Digest)
  | unlinking (address : Digest)
  | removing (address : Digest)
  -- gc_blocks
  | gcAttempt (attempt : ℕ)
  | gcListing (attempt before : ℕ)
  | gcMarking (attempt before : ℕ) (todo : List Digest) (live : Set Digest)
  | gcMarked (live : Set Digest)
  | gcNominating (live : Set Digest) (markedEpoch : ℕ)
  | gcNominated (candidates : List Digest) (markedEpoch : ℕ)
  | gcLocked (candidates : List Digest) (markedEpoch : ℕ)
  | gcVerified (candidates : List Digest)
  | gcRemarking (candidates todo : List Digest) (live : Set Digest)
  | gcSweeping (candidates : List Digest) (live : Set Digest) (tombstones : List Digest)
  | gcUnlinking (tombstones : List Digest)
  -- load_prefix_longer_than
  | loading (read : List (List Digest))

/-- What a missing epoch file reads as. -/
def missingEpoch : ℕ := 2 ^ 64 - 1

def maxMarkAttempts : ℕ := 4

/-- A committed manifest, readable under an address, and the blocks it names. -/
def Committed {Pid : Type} (σ : Shared Pid) (a : Digest) (blocks : List Digest) : Prop :=
  ∃ n, σ.manifests a = some (some n) ∧ σ.contents (a, n) = some blocks

variable (sha : List UInt8 → Digest) {Pid : Type} [DecidableEq Pid]

/-- One step of process `p`: the shared state and the control state before and after it. -/
inductive Trans (p : Pid) : Shared Pid → Proc → Shared Pid → Proc → Prop
  /-- A crash or an error return, at any point. -/
  | stop (σ : Shared Pid) (P : Proc) : Trans p σ P { σ with lock := σ.lock.release p } .idle
  | findNoBlock (σ : Shared Pid) (b : Digest) (h : b ∉ σ.blocks) :
      Trans p σ .idle σ (.blockStaged b)
  | renameBlock (σ : Shared Pid) (b : Digest) (h : b ∉ σ.blocks) :
      Trans p σ (.blockStaged b) { σ with blocks := insert b σ.blocks } .idle
  | findNoManifest (σ : Shared Pid) (m : Manifest) (h : σ.manifests (m.hash sha) = none) :
      Trans p σ .idle σ (.counting m m.blockHashes)
  | readRefcount (σ : Shared Pid) (m : Manifest) (b : Digest) (todo : List Digest) :
      Trans p σ (.counting m (b :: todo)) σ (.countingWrite m b (σ.refcount b) todo)
  | incrementRefcount (σ : Shared Pid) (m : Manifest) (b : Digest) (current : ℕ)
      (todo : List Digest) :
      Trans p σ (.countingWrite m b current todo)
        { σ with refcount := update σ.refcount b (current + 1) } (.counting m todo)
  /-- The directory may be there already, with or without a file. -/
  | createStaging (σ : Shared Pid) (m : Manifest) :
      Trans p σ (.counting m [])
        { σ with staging := update σ.staging (m.hash sha) (some (σ.staging (m.hash sha)).join) }
        (.stagingMade m)
  | createStaged (σ : Shared Pid) (m : Manifest) (h : σ.staging (m.hash sha) = some none) :
      Trans p σ (.stagingMade m)
        { σ with
          staging := update σ.staging (m.hash sha) (some (some (σ.serial (m.hash sha))))
          contents := update σ.contents (m.hash sha, σ.serial (m.hash sha)) none
          serial := update σ.serial (m.hash sha) (σ.serial (m.hash sha) + 1) }
        (.writing m (σ.serial (m.hash sha)))
  | truncateStaged (σ : Shared Pid) (m : Manifest) (n : ℕ)
      (h : σ.staging (m.hash sha) = some (some n)) :
      Trans p σ (.stagingMade m) { σ with contents := update σ.contents (m.hash sha, n) none }
        (.writing m n)
  /-- The file is written through its descriptor, wherever it is by now. -/
  | writeStaged (σ : Shared Pid) (m : Manifest) (n : ℕ) :
      Trans p σ (.writing m n)
        { σ with contents := update σ.contents (m.hash sha, n) (some m.blockHashes) }
        (.manifestStaged m)
  | lockPublication (σ : Shared Pid) (m : Manifest) (h : ∀ q, σ.lock.mode q = none) :
      Trans p σ (.manifestStaged m) { σ with lock := σ.lock.acquireExclusive p h }
        (.revalidating m m.blockHashes)
  | seeBlock (σ : Shared Pid) (m : Manifest) (b : Digest) (todo : List Digest)
      (h : b ∈ σ.blocks) : Trans p σ (.revalidating m (b :: todo)) σ (.revalidating m todo)
  | seenAll (σ : Shared Pid) (m : Manifest) :
      Trans p σ (.revalidating m []) σ (.validated m)
  | bumpEpoch (σ : Shared Pid) (m : Manifest) :
      Trans p σ (.validated m) { σ with epoch := nextEpoch σ.epoch } (.bumped m)
  /-- A rename moves what is staged, whoever has written it, and replaces nothing or an empty
  directory. -/
  | renameManifest (σ : Shared Pid) (m : Manifest) (hstaged : σ.staging (m.hash sha) ≠ none)
      (h : ∀ n, σ.manifests (m.hash sha) ≠ some (some n)) :
      Trans p σ (.bumped m)
        { σ with
          manifests := update σ.manifests (m.hash sha) (σ.staging (m.hash sha))
          staging := update σ.staging (m.hash sha) none }
        .published
  | unlockPublication (σ : Shared Pid) :
      Trans p σ .published { σ with lock := σ.lock.release p } .idle
  | readForDelete (σ : Shared Pid) (a : Digest) (blocks : List Digest)
      (h : Committed σ a blocks) : Trans p σ .idle σ (.uncounting a blocks)
  | readRefcountForDelete (σ : Shared Pid) (a b : Digest) (todo : List Digest) :
      Trans p σ (.uncounting a (b :: todo)) σ (.uncountingWrite a b (σ.refcount b) todo)
  | decrementRefcount (σ : Shared Pid) (a b : Digest) (current : ℕ) (todo : List Digest) :
      Trans p σ (.uncountingWrite a b current todo)
        { σ with refcount := if 0 < current then update σ.refcount b (current - 1)
            else σ.refcount } (.uncounting a todo)
  | uncounted (σ : Shared Pid) (a : Digest) : Trans p σ (.uncounting a []) σ (.unlinking a)
  | unlinkManifest (σ : Shared Pid) (a : Digest) (h : σ.manifests a ≠ none) :
      Trans p σ (.unlinking a) { σ with manifests := update σ.manifests a (some none) }
        (.removing a)
  | removeManifest (σ : Shared Pid) (a : Digest) (h : σ.manifests a = some none) :
      Trans p σ (.removing a) { σ with manifests := update σ.manifests a none } .idle
  | startGc (σ : Shared Pid) : Trans p σ .idle σ (.gcAttempt 0)
  | readEpochBefore (σ : Shared Pid) (attempt : ℕ) :
      Trans p σ (.gcAttempt attempt) σ (.gcListing attempt σ.epoch)
  | listManifests (σ : Shared Pid) (attempt before : ℕ) (todo : List Digest)
      (h : ∀ a, σ.manifests a ≠ none → a ∈ todo) :
      Trans p σ (.gcListing attempt before) σ (.gcMarking attempt before todo ∅)
  | meetManifest (σ : Shared Pid) (attempt before : ℕ) (a : Digest) (todo : List Digest)
      (live : Set Digest) :
      Trans p σ (.gcMarking attempt before todo live) σ
        (.gcMarking attempt before (a :: todo) live)
  | markManifest (σ : Shared Pid) (attempt before : ℕ) (a : Digest) (todo : List Digest)
      (live : Set Digest) (blocks : List Digest) (h : Committed σ a blocks) :
      Trans p σ (.gcMarking attempt before (a :: todo) live) σ
        (.gcMarking attempt before todo (live ∪ {b | b ∈ blocks}))
  | passManifest (σ : Shared Pid) (attempt before : ℕ) (a : Digest) (todo : List Digest)
      (live : Set Digest) (h : σ.manifests a = none) :
      Trans p σ (.gcMarking attempt before (a :: todo) live) σ (.gcMarking attempt before todo live)
  | acceptMark (σ : Shared Pid) (attempt before : ℕ) (live : Set Digest) (h : σ.epoch = before)
      (hmissing : before ≠ missingEpoch) :
      Trans p σ (.gcMarking attempt before [] live) σ (.gcMarked live)
  | retryMark (σ : Shared Pid) (attempt before : ℕ) (live : Set Digest)
      (h : σ.epoch ≠ before ∨ before = missingEpoch) (hattempt : attempt + 1 < maxMarkAttempts) :
      Trans p σ (.gcMarking attempt before [] live) σ (.gcAttempt (attempt + 1))
  | readMarkedEpoch (σ : Shared Pid) (live : Set Digest) :
      Trans p σ (.gcMarked live) σ (.gcNominating live σ.epoch)
  /-- The age floor and what the listing shows leave any selection of unmarked blocks. -/
  | nominate (σ : Shared Pid) (live : Set Digest) (markedEpoch : ℕ) (candidates : List Digest)
      (h : ∀ c ∈ candidates, c ∉ live) :
      Trans p σ (.gcNominating live markedEpoch) σ (.gcNominated candidates markedEpoch)
  | lockSweep (σ : Shared Pid) (candidates : List Digest) (markedEpoch : ℕ)
      (h : ∀ q, σ.lock.mode q = none) :
      Trans p σ (.gcNominated candidates markedEpoch)
        { σ with lock := σ.lock.acquireExclusive p h } (.gcLocked candidates markedEpoch)
  | verifyEpoch (σ : Shared Pid) (candidates : List Digest) (markedEpoch : ℕ)
      (h : σ.epoch = markedEpoch) :
      Trans p σ (.gcLocked candidates markedEpoch) σ (.gcVerified candidates)
  | listAgain (σ : Shared Pid) (candidates todo : List Digest)
      (h : ∀ a, σ.manifests a ≠ none → a ∈ todo) :
      Trans p σ (.gcVerified candidates) σ (.gcRemarking candidates todo ∅)
  | meetAgain (σ : Shared Pid) (candidates : List Digest) (a : Digest) (todo : List Digest)
      (live : Set Digest) :
      Trans p σ (.gcRemarking candidates todo live) σ (.gcRemarking candidates (a :: todo) live)
  | markAgain (σ : Shared Pid) (candidates : List Digest) (a : Digest) (todo : List Digest)
      (live : Set Digest) (blocks : List Digest) (h : Committed σ a blocks) :
      Trans p σ (.gcRemarking candidates (a :: todo) live) σ
        (.gcRemarking candidates todo (live ∪ {b | b ∈ blocks}))
  | passAgain (σ : Shared Pid) (candidates : List Digest) (a : Digest) (todo : List Digest)
      (live : Set Digest) (h : σ.manifests a = none) :
      Trans p σ (.gcRemarking candidates (a :: todo) live) σ (.gcRemarking candidates todo live)
  | beginSweep (σ : Shared Pid) (candidates : List Digest) (live : Set Digest) :
      Trans p σ (.gcRemarking candidates [] live) σ (.gcSweeping candidates live [])
  | spare (σ : Shared Pid) (c : Digest) (candidates : List Digest) (live : Set Digest)
      (tombstones : List Digest) (h : c ∈ live) :
      Trans p σ (.gcSweeping (c :: candidates) live tombstones) σ
        (.gcSweeping candidates live tombstones)
  | tombstone (σ : Shared Pid) (c : Digest) (candidates : List Digest) (live : Set Digest)
      (tombstones : List Digest) (h : c ∉ live) (hblock : c ∈ σ.blocks) :
      Trans p σ (.gcSweeping (c :: candidates) live tombstones)
        { σ with blocks := σ.blocks \ {c}, tombstones := insert c σ.tombstones }
        (.gcSweeping candidates live (c :: tombstones))
  /-- The rename of a candidate failed. -/
  | leaveInPlace (σ : Shared Pid) (c : Digest) (candidates : List Digest) (live : Set Digest)
      (tombstones : List Digest) (h : c ∉ live) :
      Trans p σ (.gcSweeping (c :: candidates) live tombstones) σ
        (.gcSweeping candidates live tombstones)
  | unlockSweep (σ : Shared Pid) (live : Set Digest) (tombstones : List Digest) :
      Trans p σ (.gcSweeping [] live tombstones) { σ with lock := σ.lock.release p }
        (.gcUnlinking tombstones)
  | unlinkTombstone (σ : Shared Pid) (t : Digest) (tombstones : List Digest) :
      Trans p σ (.gcUnlinking (t :: tombstones)) { σ with tombstones := σ.tombstones \ {t} }
        (.gcUnlinking tombstones)
  /-- The removal of a tombstone failed. -/
  | leaveTombstone (σ : Shared Pid) (t : Digest) (tombstones : List Digest) :
      Trans p σ (.gcUnlinking (t :: tombstones)) σ (.gcUnlinking tombstones)
  | takeLease (σ : Shared Pid) (h : ∀ q, σ.lock.mode q ≠ some .exclusive) :
      Trans p σ .idle { σ with lock := σ.lock.acquireShared p h } (.loading [])
  | readManifest (σ : Shared Pid) (a : Digest) (blocks : List Digest) (read : List (List Digest))
      (h : Committed σ a blocks) :
      Trans p σ (.loading read) σ (.loading (blocks :: read))
  | readBlock (σ : Shared Pid) (b : Digest) (blocks : List Digest) (read : List (List Digest))
      (hread : blocks ∈ read) (hb : b ∈ blocks) (h : b ∈ σ.blocks) :
      Trans p σ (.loading read) σ (.loading read)
  | releaseLease (σ : Shared Pid) (read : List (List Digest)) :
      Trans p σ (.loading read) { σ with lock := σ.lock.release p } .idle

/-- The store with the control states of all processes. -/
structure State (Pid : Type) where
  shared : Shared Pid
  procs : Pid → Proc

/-- Some process takes a step. -/
inductive Step : State Pid → State Pid → Prop
  | act (s : State Pid) (p : Pid) (σ : Shared Pid) (P : Proc)
      (h : Trans sha p s.shared (s.procs p) σ P) : Step s ⟨σ, update s.procs p P⟩

/-- The empty store, with nobody at work. -/
def init : State Pid where
  shared := ⟨∅, ∅, fun _ => none, fun _ => none, fun _ => none, fun _ => 0, fun _ => 0,
    missingEpoch, RwLock.free⟩
  procs := fun _ => .idle

def Reachable (s : State Pid) : Prop := Relation.ReflTransGen (Step sha) init s

/-- The file names these blocks, or someone who has it open is about to write them. -/
def MayName (s : State Pid) (a : Digest) (n : ℕ) (blocks : List Digest) : Prop :=
  s.shared.contents (a, n) = some blocks ∨
    ∃ q m, s.procs q = .writing m n ∧ m.hash sha = a ∧ m.blockHashes = blocks

/-- A manifest that is renamed into place in this step may name no blocks but those that the
renaming process has looked for. -/
def RenamesOwn (s t : State Pid) : Prop :=
  ∀ p m n, s.procs p = .bumped m → t.procs p = .published →
    s.shared.staging (m.hash sha) = some (some n) →
    ∀ blocks, MayName sha s (m.hash sha) n blocks → blocks = m.blockHashes

/-! ## What one step can do -/

variable {sha} {p : Pid} {σ σ' : Shared Pid} {P P' : Proc}

/-- A step moves only the hold of its own process on the lock. -/
lemma Trans.mode_of_ne (h : Trans sha p σ P σ' P') {q : Pid} (hq : q ≠ p) :
    σ'.lock.mode q = σ.lock.mode q := by
  cases h with
  | stop | unlockPublication | unlockSweep | releaseLease => exact σ.lock.release_mode_of_ne hq
  | lockPublication m h | lockSweep candidates markedEpoch h =>
    exact σ.lock.acquireExclusive_mode_of_ne h hq
  | takeLease h => exact σ.lock.acquireShared_mode_of_ne h hq
  | _ => rfl

/-- A block goes only in a sweep that has not marked it. -/
lemma Trans.blocks_kept (h : Trans sha p σ P σ' P') {b : Digest} (hb : b ∈ σ.blocks) :
    b ∈ σ'.blocks ∨
      ∃ candidates live tombstones, P = .gcSweeping candidates live tombstones ∧ b ∉ live := by
  cases h with
  | renameBlock c h => exact .inl (Set.mem_insert_of_mem c hb)
  | tombstone c candidates live tombstones hlive hblock =>
    by_cases hbc : b = c
    · exact .inr ⟨_, _, _, rfl, hbc ▸ hlive⟩
    · exact .inl ⟨hb, hbc⟩
  | _ => exact .inl hb

/-- What a step can do to the files: one is committed only by the rename that takes it out of the
staging directory, one is staged only when it is made, and one is cut short or written only by a
process that opens it or has it open. -/
structure FileEffect (sha : List UInt8 → Digest) (σ : Shared Pid) (P : Proc) (σ' : Shared Pid)
    (P' : Proc) : Prop where
  committed : ∀ a n, σ'.manifests a = some (some n) → σ.manifests a = some (some n) ∨
    σ.staging a = some (some n) ∧ σ'.staging a = none ∧
      ∃ m, P = .bumped m ∧ P' = .published ∧ m.hash sha = a
  staged : ∀ a n, σ'.staging a = some (some n) →
    σ.staging a = some (some n) ∨ n = σ.serial a ∧ n < σ'.serial a
  serial : ∀ a, σ.serial a ≤ σ'.serial a
  contents : ∀ a n blocks, σ'.contents (a, n) = some blocks → σ.contents (a, n) = some blocks ∨
    ∃ m, P = .writing m n ∧ m.hash sha = a ∧ m.blockHashes = blocks
  writing : ∀ m n, P' = .writing m n →
    σ.staging (m.hash sha) = some (some n) ∨ n = σ.serial (m.hash sha)

omit [DecidableEq Pid] in
lemma FileEffect.of_eq (hmanifests : σ'.manifests = σ.manifests) (hstaging : σ'.staging = σ.staging)
    (hcontents : σ'.contents = σ.contents) (hserial : σ'.serial = σ.serial)
    (hwriting : ∀ m n, P' ≠ .writing m n) : FileEffect sha σ P σ' P' where
  committed := fun a n h => .inl (hmanifests ▸ h)
  staged := fun a n h => .inl (hstaging ▸ h)
  serial := fun a => by rw [hserial]
  contents := fun a n blocks h => .inl (hcontents ▸ h)
  writing := fun m n h => absurd h (hwriting m n)

/-- Where an updated function has a value: at the new place or where it had it before. -/
lemma of_update_eq {α β : Type} [DecidableEq α] {f : α → β} {a a' : α} {v x : β}
    (h : update f a v a' = x) : (a' = a ∧ v = x) ∨ f a' = x := by
  rw [update_apply] at h
  split_ifs at h with ha
  · exact .inl ⟨ha, h⟩
  · exact .inr h

lemma eq_of_update_ne {α β : Type} [DecidableEq α] {f : α → β} {a a' : α} {v x : β} (hne : v ≠ x)
    (h : update f a v a' = x) : f a' = x :=
  (of_update_eq h).resolve_left fun hnew => hne hnew.2

lemma Trans.files (h : Trans sha p σ P σ' P') : FileEffect sha σ P σ' P' := by
  cases h with
  | createStaging m =>
    refine ⟨fun _ _ h => .inl h, ?_, fun _ => le_rfl, fun _ _ _ h => .inl h, by simp⟩
    intro a n h
    rcases of_update_eq h with ⟨rfl, hnew⟩ | hold
    · exact .inl (Option.join_eq_some_iff.mp (Option.some.inj hnew))
    · exact .inl hold
  | createStaged m h =>
    refine ⟨fun _ _ h => .inl h, ?_, ?_, ?_, ?_⟩
    · intro a n h
      rcases of_update_eq h with ⟨rfl, hnew⟩ | hold
      · cases hnew
        exact .inr ⟨rfl, by simp⟩
      · exact .inl hold
    · intro a
      simp only [update_apply]
      split_ifs with ha
      · exact ha ▸ Nat.le_succ _
      · exact le_rfl
    · exact fun a n blocks h => .inl (eq_of_update_ne (by simp) h)
    · intro m' n h
      cases h
      exact .inr rfl
  | truncateStaged m n hstaged =>
    refine ⟨fun _ _ h => .inl h, fun _ _ h => .inl h, fun _ => le_rfl, ?_, ?_⟩
    · exact fun a k blocks h => .inl (eq_of_update_ne (by simp) h)
    · intro m' k h
      cases h
      exact .inl hstaged
  | writeStaged m n =>
    refine ⟨fun _ _ h => .inl h, fun _ _ h => .inl h, fun _ => le_rfl, ?_, by simp⟩
    intro a k blocks h
    rcases of_update_eq h with ⟨hfile, hnew⟩ | hold
    · cases hfile
      exact .inr ⟨m, rfl, rfl, Option.some.inj hnew⟩
    · exact .inl hold
  | renameManifest m hstaged h =>
    refine ⟨?_, ?_, fun _ => le_rfl, fun _ _ _ h => .inl h, by simp⟩
    · intro a n h
      rcases of_update_eq h with ⟨rfl, hnew⟩ | hold
      · exact .inr ⟨hnew, update_self .., m, rfl, rfl, rfl⟩
      · exact .inl hold
    · exact fun a n h => .inl (eq_of_update_ne (by simp) h)
  | unlinkManifest a _ | removeManifest a _ =>
    refine ⟨?_, fun _ _ h => .inl h, fun _ => le_rfl, fun _ _ _ h => .inl h, by simp⟩
    exact fun a' n h => .inl (eq_of_update_ne (by simp) h)
  | _ => exact .of_eq rfl rfl rfl rfl (by simp)

/-! ## The lock and the files in every state -/

/-- How a process holds the lock at a control state. -/
def Holds (σ : Shared Pid) (p : Pid) : Proc → Prop
  | .revalidating _ _ | .validated _ | .bumped _ | .gcLocked _ _ | .gcVerified _
  | .gcRemarking _ _ _ | .gcSweeping _ _ _ => σ.lock.mode p = some .exclusive
  | .loading _ => σ.lock.mode p = some .shared
  | _ => True

omit [DecidableEq Pid] in
lemma Holds.congr {q : Pid} {Q : Proc} (hmode : σ'.lock.mode q = σ.lock.mode q)
    (h : Holds σ q Q) : Holds σ' q Q := by
  cases Q with
  | loading | revalidating | validated | bumped | gcLocked | gcVerified | gcRemarking
  | gcSweeping => exact hmode.trans h
  | _ => trivial

lemma Holds.of_trans (hP : Holds σ p P) (h : Trans sha p σ P σ' P') : Holds σ' p P' := by
  cases h with
  | lockPublication m h | lockSweep candidates markedEpoch h =>
    exact σ.lock.acquireExclusive_mode_self h
  | takeLease h => exact σ.lock.acquireShared_mode_self h
  | seeBlock | seenAll | bumpEpoch | verifyEpoch | listAgain | meetAgain | markAgain | passAgain
  | beginSweep | spare | tombstone | leaveInPlace | readManifest | readBlock => exact hP
  | _ => trivial

/-- What holds in every state that can be reached. A staged file is not a committed one. -/
structure Sound (s : State Pid) : Prop where
  holds : ∀ p, Holds s.shared p (s.procs p)
  committed_lt : ∀ a n, s.shared.manifests a = some (some n) → n < s.shared.serial a
  staged_lt : ∀ a n, s.shared.staging a = some (some n) → n < s.shared.serial a
  apart : ∀ a n, s.shared.staging a = some (some n) → s.shared.manifests a ≠ some (some n)

omit [DecidableEq Pid] in
lemma sound_init : Sound (init : State Pid) :=
  ⟨fun _ => trivial, by simp [init], by simp [init], by simp [init]⟩

lemma Sound.step {s t : State Pid} (hs : Sound s) (h : Step sha s t) : Sound t := by
  obtain ⟨p, σ, P, h⟩ := h
  have hf := h.files
  have hstaged : ∀ a n, σ.staging a = some (some n) → n < σ.serial a := by
    intro a n ha
    rcases hf.staged a n ha with hold | ⟨_, hnew⟩
    · exact (hs.staged_lt a n hold).trans_le (hf.serial a)
    · exact hnew
  refine ⟨fun q => ?_, fun a n ha => ?_, hstaged, fun a n ha hcommitted => ?_⟩
  · rcases eq_or_ne q p with rfl | hq
    · simp only [update_self]
      exact (hs.holds q).of_trans h
    · simp only [update_of_ne hq]
      exact (hs.holds q).congr (h.mode_of_ne hq)
  · rcases hf.committed a n ha with hold | ⟨hold, _⟩
    · exact (hs.committed_lt a n hold).trans_le (hf.serial a)
    · exact (hs.staged_lt a n hold).trans_le (hf.serial a)
  · rcases hf.committed a n hcommitted with hold | ⟨_, hnone, _⟩
    · rcases hf.staged a n ha with hstill | ⟨rfl, _⟩
      · exact hs.apart a n hstill hold
      · exact absurd (hs.committed_lt a _ hold) (lt_irrefl _)
    · rw [ha] at hnone
      simp at hnone

lemma Reachable.sound {s : State Pid} (h : Reachable sha s) : Sound s := by
  induction h with
  | refl => exact sound_init
  | tail _ hstep ih => exact ih.step hstep

variable {s : State Pid}

/-- While another process holds the lock in any mode, a step removes no block and commits no
file. -/
lemma Sound.quiet {q : Pid} (hs : Sound s) (h : Trans sha p s.shared (s.procs p) σ P) (hqp : q ≠ p)
    (hq : s.shared.lock.mode q ≠ none) :
    (∀ b ∈ s.shared.blocks, b ∈ σ.blocks) ∧
      ∀ a n, σ.manifests a = some (some n) → s.shared.manifests a = some (some n) := by
  have hp := hs.holds p
  constructor
  · intro b hb
    rcases h.blocks_kept hb with hb | ⟨_, _, _, hP, _⟩
    · exact hb
    · rw [hP] at hp
      exact absurd (s.shared.lock.exclusion p q hp hq) hqp
  · intro a n ha
    rcases h.files.committed a n ha with ha | ⟨_, _, m, hP, _⟩
    · exact ha
    · rw [hP] at hp
      exact absurd (s.shared.lock.exclusion p q hp hq) hqp

/-- A file that the step does not open may name afterwards only what it might name before. -/
lemma mayName_old (h : Trans sha p s.shared (s.procs p) σ P) {a : Digest} {n : ℕ}
    (hn : n < s.shared.serial a)
    (hopen : s.shared.staging a = some (some n) → ∀ m k, P ≠ .writing m k)
    {blocks : List Digest} (hname : MayName sha ⟨σ, update s.procs p P⟩ a n blocks) :
    MayName sha s a n blocks := by
  rcases hname with hcontents | ⟨q, m, hq, rfl, hblocks⟩
  · exact (h.files.contents a n blocks hcontents).imp_right fun ⟨m, hP⟩ => ⟨p, m, hP⟩
  · rcases eq_or_ne q p with rfl | hqp
    · simp only [update_self] at hq
      rcases h.files.writing m n hq with hstaged | rfl
      · exact absurd hq (hopen hstaged m n)
      · exact absurd hn (lt_irrefl _)
    · simp only [update_of_ne hqp] at hq
      exact .inr ⟨q, m, hq, rfl, hblocks⟩

/-- A committed file is not opened. -/
lemma Sound.mayName_committed (hs : Sound s) (h : Trans sha p s.shared (s.procs p) σ P)
    {a : Digest} {n : ℕ} (ha : s.shared.manifests a = some (some n)) {blocks : List Digest}
    (hname : MayName sha ⟨σ, update s.procs p P⟩ a n blocks) : MayName sha s a n blocks :=
  mayName_old h (hs.committed_lt a n ha) (fun hstaged => absurd ha (hs.apart a n hstaged)) hname

/-! ## What each process relies on -/

variable (sha) in
/-- What is known about a process at a control state. A publisher under the lock has seen the
blocks that are not left to look for; a collector under the lock has marked what every committed
manifest may name that is not left to read; a loader's manifests have their blocks. -/
def ProcOk (s : State Pid) : Proc → Prop
  | .revalidating m todo => ∀ b ∈ m.blockHashes, b ∈ todo ∨ b ∈ s.shared.blocks
  | .validated m | .bumped m => ∀ b ∈ m.blockHashes, b ∈ s.shared.blocks
  | .gcRemarking _ todo live => ∀ a n, s.shared.manifests a = some (some n) →
    a ∈ todo ∨ ∀ blocks, MayName sha s a n blocks → ∀ b ∈ blocks, b ∈ live
  | .gcSweeping _ live _ => ∀ a n, s.shared.manifests a = some (some n) →
    ∀ blocks, MayName sha s a n blocks → ∀ b ∈ blocks, b ∈ live
  | .loading read => ∀ blocks ∈ read, ∀ b ∈ blocks, b ∈ s.shared.blocks
  | _ => True

variable (sha) in
/-- What holds as long as every rename commits a file of its own process: a committed file may name
one list of blocks, and they are there. -/
structure Inv (s : State Pid) : Prop where
  sound : Sound s
  agree : ∀ a n, s.shared.manifests a = some (some n) → ∀ blocks blocks',
    MayName sha s a n blocks → MayName sha s a n blocks' → blocks = blocks'
  present : ∀ a n, s.shared.manifests a = some (some n) →
    ∀ blocks, MayName sha s a n blocks → ∀ b ∈ blocks, b ∈ s.shared.blocks
  procs : ∀ p, ProcOk sha s (s.procs p)

/-- A step of one process keeps what is known about the others. -/
lemma Inv.procOk_of_ne {q : Pid} (hs : Inv sha s) (h : Trans sha p s.shared (s.procs p) σ P)
    (hqp : q ≠ p) : ProcOk sha ⟨σ, update s.procs p P⟩ (s.procs q) := by
  have hheld := hs.sound.holds q
  have hQ := hs.procs q
  have hquiet := fun hq => hs.sound.quiet h hqp hq
  cases hproc : s.procs q with
  | revalidating m todo =>
    rw [hproc] at hheld hQ
    exact fun b hb => (hQ b hb).imp_right ((hquiet (by rw [hheld]; simp)).1 b)
  | validated m | bumped m =>
    rw [hproc] at hheld hQ
    exact fun b hb => (hquiet (by rw [hheld]; simp)).1 b (hQ b hb)
  | gcRemarking candidates todo live =>
    rw [hproc] at hheld hQ
    intro a n ha
    have hold := (hquiet (by rw [hheld]; simp)).2 a n ha
    exact (hQ a n hold).imp_right fun hlive blocks hname =>
      hlive blocks (hs.sound.mayName_committed h hold hname)
  | gcSweeping candidates live tombstones =>
    rw [hproc] at hheld hQ
    intro a n ha blocks hname
    have hold := (hquiet (by rw [hheld]; simp)).2 a n ha
    exact hQ a n hold blocks (hs.sound.mayName_committed h hold hname)
  | loading read =>
    rw [hproc] at hheld hQ
    exact fun blocks hblocks b hb => (hquiet (by rw [hheld]; simp)).1 b (hQ blocks hblocks b hb)
  | _ => trivial

/-- A step of a process leads it to a control state that is in order. -/
lemma Inv.procOk_self (hs : Inv sha s) (h : Trans sha p s.shared (s.procs p) σ P) :
    ProcOk sha ⟨σ, update s.procs p P⟩ P := by
  have hP := hs.procs p
  have hold : ∀ a n blocks, s.shared.manifests a = some (some n) →
      MayName sha ⟨σ, update s.procs p P⟩ a n blocks → MayName sha s a n blocks :=
    fun a n blocks ha => hs.sound.mayName_committed h ha
  have hagree := hs.agree
  have hpresent := hs.present
  clear hs
  generalize s.procs p = P₀ at h hP
  obtain ⟨shared, procs⟩ := s
  cases h with
  | lockPublication m h => exact fun b hb => .inl hb
  | seeBlock m b todo hb =>
    intro b' hb'
    rcases hP b' hb' with h | h
    · rcases mem_cons.mp h with rfl | h
      · exact .inr hb
      · exact .inl h
    · exact .inr h
  | seenAll m => exact fun b hb => (hP b hb).resolve_left not_mem_nil
  | bumpEpoch m => exact hP
  | listAgain candidates todo h => exact fun a n ha => .inl (h a (ne_of_eq_of_ne ha (by simp)))
  | meetAgain candidates a todo live =>
    exact fun a' n ha' => (hP a' n ha').imp (mem_cons_of_mem a) fun hlive blocks hname =>
      hlive blocks (hold a' n blocks ha' hname)
  | markAgain candidates a todo live blocks ha =>
    obtain ⟨k, hk, hcontents⟩ := ha
    intro a' n ha'
    rcases hP a' n ha' with h | h
    · rcases mem_cons.mp h with rfl | h
      · -- everything that this file may name is the list that was read
        right
        intro blocks' hname b hb
        obtain rfl : k = n := by simpa using hk.symm.trans ha'
        rw [hagree a' k ha' blocks' blocks (hold a' k blocks' ha' hname) (.inl hcontents)] at hb
        exact .inr hb
      · exact .inl h
    · exact .inr fun blocks' hname b hb => .inl (h blocks' (hold a' n blocks' ha' hname) b hb)
  | passAgain candidates a todo live ha =>
    intro a' n ha'
    rcases hP a' n ha' with h | h
    · rcases mem_cons.mp h with rfl | h
      · exact absurd (ha.symm.trans ha') (by simp)
      · exact .inl h
    · exact .inr fun blocks' hname => h blocks' (hold a' n blocks' ha' hname)
  | beginSweep candidates live =>
    exact fun a n ha blocks hname =>
      (hP a n ha).resolve_left not_mem_nil blocks (hold a n blocks ha hname)
  | spare c candidates live tombstones h | tombstone c candidates live tombstones h hblock
  | leaveInPlace c candidates live tombstones h =>
    exact fun a n ha blocks hname => hP a n ha blocks (hold a n blocks ha hname)
  | takeLease h => exact fun blocks hb => absurd hb not_mem_nil
  | readManifest a blocks read h =>
    obtain ⟨n, hn, hcontents⟩ := h
    intro blocks' hblocks'
    rcases mem_cons.mp hblocks' with rfl | hblocks'
    · exact hpresent a n hn _ (.inl hcontents)
    · exact hP blocks' hblocks'
  | readBlock b blocks read hread hb h => exact hP
  | _ => trivial

/-- What a file may name that is committed after a step. -/
lemma Inv.mayName_cases (hs : Inv sha s) (h : Trans sha p s.shared (s.procs p) σ P)
    (hown : RenamesOwn sha s ⟨σ, update s.procs p P⟩) {a : Digest} {n : ℕ}
    (ha : σ.manifests a = some (some n)) :
    (s.shared.manifests a = some (some n) ∧ ∀ blocks,
      MayName sha ⟨σ, update s.procs p P⟩ a n blocks → MayName sha s a n blocks) ∨
    ∃ m, s.procs p = .bumped m ∧ ∀ blocks,
      MayName sha ⟨σ, update s.procs p P⟩ a n blocks → blocks = m.blockHashes := by
  rcases h.files.committed a n ha with hold | ⟨hstaged, _, m, hm, hP, rfl⟩
  · exact .inl ⟨hold, fun blocks => hs.sound.mayName_committed h hold⟩
  · refine .inr ⟨m, hm, fun blocks hname => ?_⟩
    refine hown p m n hm (by simp [hP]) hstaged blocks ?_
    exact mayName_old h (hs.sound.staged_lt _ n hstaged) (fun _ m k => by simp [hP]) hname

/-- A step keeps the blocks that a committed manifest may name. -/
lemma Inv.present_step (hs : Inv sha s) (h : Trans sha p s.shared (s.procs p) σ P)
    (hown : RenamesOwn sha s ⟨σ, update s.procs p P⟩) {a : Digest} {n : ℕ}
    (ha : σ.manifests a = some (some n)) {blocks : List Digest}
    (hname : MayName sha ⟨σ, update s.procs p P⟩ a n blocks) {b : Digest} (hb : b ∈ blocks) :
    b ∈ σ.blocks := by
  have hP := hs.procs p
  rcases hs.mayName_cases h hown ha with ⟨hold, hnames⟩ | ⟨m, hm, hnames⟩
  · have hname := hnames blocks hname
    rcases h.blocks_kept (hs.present a n hold blocks hname b hb) with hkept | ⟨_, live, _, hQ, hlive⟩
    · exact hkept
    · rw [hQ] at hP
      exact absurd (hP a n hold blocks hname b hb) hlive
  · rw [hm] at hP
    rw [hnames blocks hname] at hb
    rcases h.blocks_kept (hP b hb) with hkept | ⟨_, _, _, hQ, _⟩
    · exact hkept
    · exact absurd (hm.symm.trans hQ) (by simp)

/-! ## Every run -/

omit [DecidableEq Pid] in
lemma inv_init : Inv sha (init : State Pid) :=
  ⟨sound_init, by simp [init], by simp [init], fun _ => trivial⟩

lemma Inv.step {t : State Pid} (hs : Inv sha s) (h : Step sha s t) (hown : RenamesOwn sha s t) :
    Inv sha t := by
  have hsound := hs.sound.step h
  obtain ⟨p, σ, P, h⟩ := h
  refine ⟨hsound, fun a n ha blocks blocks' hname hname' => ?_,
    fun a n ha blocks hname b hb => hs.present_step h hown ha hname hb, fun q => ?_⟩
  · rcases hs.mayName_cases h hown ha with ⟨hold, hnames⟩ | ⟨m, _, hnames⟩
    · exact hs.agree a n hold _ _ (hnames blocks hname) (hnames blocks' hname')
    · rw [hnames blocks hname, hnames blocks' hname']
  · rcases eq_or_ne q p with rfl | hq
    · simp only [update_self]
      exact hs.procOk_self h
    · simp only [update_of_ne hq]
      exact hs.procOk_of_ne h hq

variable (sha) in
/-- The states of the runs in which every manifest is renamed from a file of its own process. -/
def ReachableOwn (s : State Pid) : Prop :=
  Relation.ReflTransGen (fun s t => Step sha s t ∧ RenamesOwn sha s t) init s

lemma ReachableOwn.inv (h : ReachableOwn sha s) : Inv sha s := by
  induction h with
  | refl => exact inv_init
  | tail _ hstep ih => exact ih.step hstep.1 hstep.2

/-- **No block that is needed is missing.** Any number of publishers, pruners, collectors and
loaders start from an empty store. As long as every rename commits a file that may name no blocks
but those that the renaming publisher has looked for, every block that a committed manifest names
has its directory, and so has every block of a manifest that a loader has read under the lease it
still holds. -/
theorem blocks_present (s : State Pid) (h : ReachableOwn sha s) :
    (∀ a blocks, Committed s.shared a blocks → ∀ b ∈ blocks, b ∈ s.shared.blocks) ∧
    ∀ p read, s.procs p = .loading read → ∀ blocks ∈ read, ∀ b ∈ blocks, b ∈ s.shared.blocks := by
  constructor
  · rintro a blocks ⟨n, hn, hcontents⟩
    exact h.inv.present a n hn blocks (.inl hcontents)
  · intro p read hp
    have hok := h.inv.procs p
    rw [hp] at hok
    exact hok

lemma renamesOwn_of_ne (hP : P ≠ .published) :
    RenamesOwn sha s ⟨σ, update s.procs p P⟩ := by
  intro q m n hq hpublished
  rcases eq_or_ne q p with rfl | hqp
  · exact absurd (by simpa using hpublished) hP
  · simp only [update_of_ne hqp, hq] at hpublished
    cases hpublished

lemma Reachable.act (h : Reachable sha s) (ht : Trans sha p s.shared (s.procs p) σ P) :
    Reachable sha ⟨σ, update s.procs p P⟩ :=
  h.tail (.act s p σ P ht)

/-- The rename of a manifest into place. -/
lemma ReachableOwn.rename {m : Manifest} (h : ReachableOwn sha s) (hm : s.procs p = .bumped m)
    (ht : Trans sha p s.shared (.bumped m) σ .published)
    (hown : ∀ n, s.shared.staging (m.hash sha) = some (some n) →
      ∀ blocks, MayName sha s (m.hash sha) n blocks → blocks = m.blockHashes) :
    ReachableOwn sha ⟨σ, update s.procs p .published⟩ := by
  refine h.tail ⟨.act s p σ .published (hm ▸ ht), ?_⟩
  intro q m' n hq hpublished
  rcases eq_or_ne q p with rfl | hqp
  · cases hm.symm.trans hq
    exact hown n
  · simp only [update_of_ne hqp, hq] at hpublished
    cases hpublished

lemma ReachableOwn.act (h : ReachableOwn sha s) (ht : Trans sha p s.shared (s.procs p) σ P)
    (hP : P ≠ .published) : ReachableOwn sha ⟨σ, update s.procs p P⟩ :=
  h.tail ⟨.act s p σ P ht, renamesOwn_of_ne hP⟩

/-- Two processes publish one manifest of one block. The second one cuts the staged file short
before the first one renames it, and writes it afterwards; then a third one reads it. -/
theorem blocks_present_published : ∃ s : State ℕ,
    Committed s.shared ((oneBlock "m" "t").hash sha256) [Digest.zero] ∧
      s.procs 1 = .loading [[Digest.zero]] ∧ Digest.zero ∈ s.shared.blocks := by
  generalize sha256 = sha
  have hfree : ∀ q : ℕ, (.free : RwLock ℕ).mode q = none := fun _ => rfl
  have h0 : ReachableOwn sha (init : State ℕ) := .refl
  have h1 := h0.act (.findNoBlock (p := 0) _ .zero (Set.notMem_empty _)) (by simp)
  have h2 := h1.act (.renameBlock (p := 0) _ _ (Set.notMem_empty _)) (by simp)
  have h3 := h2.act (.findNoManifest (p := 0) _ (oneBlock "m" "t") rfl) (by simp)
  have h4 := h3.act (.readRefcount (p := 0) _ _ _ _) (by simp)
  have h5 := h4.act (.incrementRefcount (p := 0) _ _ _ _ _) (by simp)
  have h6 := h5.act (.createStaging (p := 0) _ _) (by simp)
  have h7 := h6.act (.createStaged (p := 0) _ _ (by simp [init])) (by simp)
  have h8 := h7.act (.writeStaged (p := 0) _ _ _) (by simp)
  have h9 := h8.act (.findNoManifest (p := 2) _ (oneBlock "m" "t") rfl) (by simp)
  have h10 := h9.act (.readRefcount (p := 2) _ _ _ _) (by simp)
  have h11 := h10.act (.incrementRefcount (p := 2) _ _ _ _ _) (by simp)
  have h12 := h11.act (.createStaging (p := 2) _ _) (by simp)
  have h13 := h12.act (.truncateStaged (p := 2) _ _ 0 (by simp [init])) (by simp)
  have h14 := h13.act (.lockPublication (p := 0) _ _ hfree) (by simp)
  have h15 := h14.act (.seeBlock (p := 0) _ _ _ _ (Set.mem_insert _ _)) (by simp)
  have h16 := h15.act (.seenAll (p := 0) _ _) (by simp)
  have h17 := h16.act (.bumpEpoch (p := 0) _ _) (by simp)
  have h18 := h17.rename (p := 0) rfl (.renameManifest _ _ (by simp [init]) (by simp [init])) (by
    rintro n hn blocks (hcontents | ⟨q, m, hq, -, hblocks⟩)
    · obtain rfl : 0 = n := by simpa [init] using hn
      simp [init] at hcontents
    · by_cases hq2 : q = 2
      · obtain ⟨rfl, -⟩ : oneBlock "m" "t" = m ∧ 0 = n := by simpa [hq2, init] using hq
        exact hblocks.symm
      · by_cases hq0 : q = 0
        · simp [hq0] at hq
        · simp [init, update_of_ne hq2, update_of_ne hq0] at hq)
  have h19 := h18.act (.writeStaged (p := 2) _ _ _) (by simp)
  have h20 := h19.act (.unlockPublication (p := 0) _) (by simp)
  have hreleased : ∀ q, ((RwLock.free.acquireExclusive 0 hfree).release 0).mode q
      ≠ some .exclusive := by
    intro q hq
    by_cases hq0 : q = 0
    · subst hq0
      simp [RwLock.release] at hq
    · rw [RwLock.release_mode_of_ne _ hq0, RwLock.acquireExclusive_mode_of_ne _ _ hq0] at hq
      simp [RwLock.free] at hq
  have h21 := h20.act (.takeLease (p := 1) _ hreleased) (by simp)
  have h22 := h21.act (.readManifest (p := 1) _ ((oneBlock "m" "t").hash sha) [Digest.zero] _
    ⟨0, by simp [init], by simp [init, oneBlock]⟩) (by simp)
  exact ⟨_, ⟨0, by simp [init], by simp [init, oneBlock]⟩, rfl,
    (blocks_present _ h22).2 1 _ rfl _ mem_cons_self _ mem_cons_self⟩

/-- The same bytes as a template signature and as a block. -/
def spelledBlock : Digest := ⟨List.replicate 32 97, by decide⟩

/-- A manifest of one block, under an empty template signature. -/
def blockManifest : Manifest :=
  ⟨Digest.zero, "m", "", 2048, [spelledBlock], 2048, 2048, 1⟩

/-- A manifest without blocks, with the bytes of that block as its template signature. -/
def spellingManifest : Manifest :=
  ⟨Digest.zero, "m", "aaaaaaaaaaaaaaaaaaaaaaaaaaaaaaaa", 2048, [], 2048, 2048, 1⟩

lemma spellingManifest_hash : spellingManifest.hash sha = blockManifest.hash sha := by
  refine congrArg sha ?_
  decide +kernel

/-- **A manifest is committed whose block is not there.** The publisher of a manifest without
blocks has nothing to look for, and renames the file in which another one has staged, for the same
address, a manifest of a block that was never written. -/
theorem blocks_absent : ∃ s : State ℕ, Reachable sha256 s ∧
    Committed s.shared (blockManifest.hash sha256) [spelledBlock] ∧
    spelledBlock ∉ s.shared.blocks := by
  -- the two addresses are the same whatever the hash is
  generalize sha256 = sha
  have hfree : ∀ q : ℕ, (.free : RwLock ℕ).mode q = none := fun _ => rfl
  have h0 : Reachable sha (init : State ℕ) := .refl
  have h1 := h0.act (.findNoManifest (p := 1) _ spellingManifest rfl)
  have h2 := h1.act (.createStaging (p := 1) _ _)
  have h3 := h2.act (.createStaged (p := 1) _ _ (by simp [init]))
  have h4 := h3.act (.writeStaged (p := 1) _ _ _)
  have h5 := h4.act (.findNoManifest (p := 0) _ blockManifest rfl)
  have h6 := h5.act (.readRefcount (p := 0) _ _ _ _)
  have h7 := h6.act (.incrementRefcount (p := 0) _ _ _ _ _)
  have h8 := h7.act (.createStaging (p := 0) _ _)
  have h9 := h8.act (.truncateStaged (p := 0) _ _ 0 (by simp [init, spellingManifest_hash]))
  have h10 := h9.act (.writeStaged (p := 0) _ _ _)
  have h11 := h10.act (.lockPublication (p := 1) _ _ hfree)
  have h12 := h11.act (.seenAll (p := 1) _ _)
  have h13 := h12.act (.bumpEpoch (p := 1) _ _)
  have h14 := h13.act (.renameManifest (p := 1) _ _ (by simp [init, spellingManifest_hash])
    (by simp [init]))
  refine ⟨_, h14, ⟨0, ?_, ?_⟩, ?_⟩
  · simp [init, spellingManifest_hash]
  · simp [init, spellingManifest_hash, blockManifest]
  · simp [init]

/-! ## Under a lease -/

/-- Process `p` holds its lease. -/
def Leased (p : Pid) (s : State Pid) : Prop := ∃ read, s.procs p = .loading read

variable (sha) in
/-- No block has gone and no file was committed. A committed file may name only what it might name
before. -/
structure Frozen (s t : State Pid) : Prop where
  blocks : ∀ b ∈ s.shared.blocks, b ∈ t.shared.blocks
  manifests : ∀ a n, t.shared.manifests a = some (some n) → s.shared.manifests a = some (some n)
  names : ∀ a n, t.shared.manifests a = some (some n) →
    ∀ blocks, MayName sha t a n blocks → MayName sha s a n blocks

lemma Leased.frozen {t : State Pid} (hleased : Leased p s) (hs : Sound s) (h : Step sha s t) :
    Frozen sha s t := by
  obtain ⟨read, hread⟩ := hleased
  obtain ⟨q, σ, P, h⟩ := h
  have hquiet : (∀ b ∈ s.shared.blocks, b ∈ σ.blocks) ∧
      ∀ a n, σ.manifests a = some (some n) → s.shared.manifests a = some (some n) := by
    rcases eq_or_ne p q with rfl | hpq
    · -- a loader's own steps
      refine ⟨fun b hb => (h.blocks_kept hb).resolve_right (by simp [hread]), fun a n ha => ?_⟩
      exact (h.files.committed a n ha).resolve_right (by simp [hread])
    · have hp := hs.holds p
      rw [hread] at hp
      exact hs.quiet h hpq (by rw [hp]; simp)
  exact ⟨hquiet.1, hquiet.2, fun a n ha blocks => hs.mayName_committed h (hquiet.2 a n ha)⟩

/-- **A lease freezes the store.** While a loader keeps its lease, whatever the processes do, every
block stays and no file is committed; what a committed file names was in it or was about to be
written to it by someone who had it open. -/
theorem frozen_of_leased {t : State Pid} (h : Reachable sha s) (hleased : Leased p s)
    (hrun : Relation.ReflTransGen (fun s t => Step sha s t ∧ Leased p t) s t) :
    Frozen sha s t := by
  suffices hall : Frozen sha s t ∧ Sound t ∧ Leased p t from hall.1
  induction hrun with
  | refl => exact ⟨⟨fun _ hb => hb, fun _ _ ha => ha, fun _ _ _ _ hb => hb⟩, h.sound, hleased⟩
  | tail _ hstep ih =>
    obtain ⟨hfrozen, hsound, hleased⟩ := ih
    have hnext := hleased.frozen hsound hstep.1
    refine ⟨⟨fun b hb => hnext.blocks b (hfrozen.blocks b hb), fun a n ha => ?_,
      fun a n ha blocks hname => ?_⟩, hsound.step hstep.1, hstep.2⟩
    · exact hfrozen.manifests a n (hnext.manifests a n ha)
    · exact hfrozen.names a n (hnext.manifests a n ha) blocks (hnext.names a n ha blocks hname)

/-- A block is written under a lease. -/
theorem frozen_of_leased_write : ∃ s t : State ℕ, Digest.zero ∉ s.shared.blocks ∧
    Digest.zero ∈ t.shared.blocks ∧ Frozen sha256 s t := by
  have hfree := Set.notMem_empty Digest.zero
  have h0 : Reachable sha256 (init : State ℕ) := .refl
  have h1 := h0.act (.findNoBlock (p := 0) _ .zero hfree)
  have hlease := h1.act (.takeLease (p := 1) _ fun _ h => by cases h)
  exact ⟨_, _, hfree, Set.mem_insert _ _, frozen_of_leased (p := 1) hlease ⟨[], rfl⟩
    (.single ⟨.act _ 0 _ _ (.renameBlock _ .zero hfree), [], rfl⟩)⟩

end Mlxcel.ColdStore.Gc
