import Mlxcel.ColdStore.Address
import Mlxcel.Lib.CommonPrefix

/-!
# Pruning ancestors

When a snapshot has been published, `prune_ancestor_snapshots` removes each identity whose latest
prompt is a strict prefix of the new tokens. But a lookup also matches the tokens that were
generated after a prompt, and it opens every directory that it has listed. So pruning is harmless
exactly if what it removes is a prefix of something that remains and no lookup comes to what it
removes (`pruneIsHarmless_iff`).
-/

namespace Mlxcel.ColdStore

open List Delimited Text CommonPrefix

/-- The fields of a committed header that are read here. `decode_header` checks the prompt. -/
structure V3Header where
  identitySha256 : Digest
  runtimeFingerprint : Digest
  layoutFingerprint : Digest
  modelId : String
  templateSig : String
  promptLen : ℕ
  timestampNanos : ℕ
  tokens : List Token
  promptLen_le : promptLen ≤ tokens.length

def lenDelimited (bytes : List UInt8) : List UInt8 := leBytes 8 bytes.length ++ bytes

/-- An entry in the directory of an identity: its header, if it is a directory that was committed,
and whether `load_candidate` succeeds. -/
structure GenerationDir where
  header : Option V3Header
  loads : Bool

structure IdentityDir where
  name : String
  generations : List GenerationDir

/-- The snapshot that has just been published, and the runtime of the store. -/
structure NewSnapshot where
  runtimeFingerprint : Digest
  modelId : String
  templateSig : String
  tokens : List Token
  identityHex : String

def maxGenerationsScanned : ℕ := 4096

def maxCandidates : ℕ := 128

variable (sha : List UInt8 → Digest)

def V3Header.identityHash (h : V3Header) : Digest :=
  sha (leBytes 4 3 ++ lenDelimited h.runtimeFingerprint.bytes ++ lenDelimited (utf8 h.modelId) ++
    lenDelimited (utf8 h.templateSig) ++ lenDelimited h.layoutFingerprint.bytes ++
    leBytes 8 h.tokens.length ++ h.tokens.flatMap tokenBytes)

/-- The latest committed generation. -/
def latestCommitted (generations : List GenerationDir) : Option V3Header :=
  (generations.filterMap GenerationDir.header).foldl (fun latest h =>
    match latest with
    | some prev => if h.timestampNanos ≤ prev.timestampNanos then some prev else some h
    | none => some h) none

structure Candidate where
  header : V3Header
  matchedTokens : ℕ
  loads : Bool

/-- The order in which candidates are tried. -/
def Candidate.before (c c' : Candidate) : Bool :=
  c'.matchedTokens < c.matchedTokens ||
    (c'.matchedTokens == c.matchedTokens &&
      c'.header.timestampNanos ≤ c.header.timestampNanos)

namespace NewSnapshot

variable (n : NewSnapshot)

/-- Of the same model, template and runtime. -/
def shares (h : V3Header) : Bool :=
  h.modelId == n.modelId && h.templateSig == n.templateSig &&
    h.runtimeFingerprint == n.runtimeFingerprint

def prunes (d : IdentityDir) : Bool :=
  d.name != n.identityHex && (latestCommitted d.generations).any fun h =>
    n.shares h && decide (h.promptLen < n.tokens.length) &&
      h.tokens.take h.promptLen == n.tokens.take h.promptLen

/-- `prune_ancestor_snapshots` in delete mode. -/
def pruneAncestorSnapshots (root : List IdentityDir) : List IdentityDir :=
  root.filter fun d => !n.prunes d

/-- What a lookup for the model and the template of the snapshot accepts. -/
def accepts (d : IdentityDir) (h : V3Header) : Bool :=
  n.shares h && d.name == hexDigest h.identitySha256 && h.identitySha256 == h.identityHash sha

/-- The headers of the intact generations of an identity. -/
def intact (d : IdentityDir) : List V3Header :=
  (d.generations.filter GenerationDir.loads).filterMap fun g => g.header.filter (n.accepts sha d)

/-- The longest prefix that a request has in common with an intact generation. -/
def longestMatch (root : List IdentityDir) (request : List Token) : ℕ :=
  ((root.flatMap (n.intact sha)).map fun h => commonPrefixLen h.tokens request).foldr max 0

def candidate? (request : List Token) (d : IdentityDir) (g : GenerationDir) : Option Candidate := do
  let h ← g.header.filter (n.accepts sha d)
  let matched := commonPrefixLen h.tokens request
  if matched = 0 then none else some ⟨h, matched, g.loads⟩

/-- What a lookup finds when it opens a directory that was listed, unless it is gone. -/
abbrev View := IdentityDir → Option (List GenerationDir)

-- `retain_best_bounded_candidates`
variable (retain : List Candidate → List Candidate)

/-- `collect_candidates` from the next directory on. -/
def collectCandidates (view : View) (request : List Token) :
    ℕ → List Candidate → List IdentityDir → Except ColdStoreError (List Candidate)
  | _, found, [] => .ok found
  | scanned, found, d :: dirs =>
    match view d with
    | none => .error (.io .notFound "No such file or directory (os error 2)")
    | some generations =>
      let seen := generations.take (maxGenerationsScanned - scanned)
      let found := (seen.filterMap (n.candidate? sha request d)).foldl
        (fun found c => retain (found ++ [c])) found
      if maxGenerationsScanned ≤ scanned + seen.length then .ok found
      else collectCandidates view request (scanned + seen.length) found dirs

def loadPrefix (view : View) (root : List IdentityDir) (request : List Token) :
    Except ColdStoreError (V3Header × ℕ) := do
  let found ← n.collectCandidates sha retain view request 0 [] root
  match ((found.mergeSort Candidate.before).take maxCandidates).find? Candidate.loads with
  | some c => return (c.header, c.matchedTokens)
  | none => throw .noMatch

/-- A lookup beside the pruning finds anything, or nothing, in what is pruned. -/
def Beside (view : View) : Prop :=
  ∀ d, n.prunes d = false → view d = some d.generations

/-- **Pruning is harmless**: no request matches less, and no lookup beside it fails. -/
structure PruneIsHarmless (root : List IdentityDir) : Prop where
  keeps : ∀ request,
    n.longestMatch sha root request ≤ n.longestMatch sha (n.pruneAncestorSnapshots root) request
  undisturbed : ∀ view, n.Beside view → ∀ request e,
    n.loadPrefix sha retain view root request = .error e → e = .noMatch

/-- The directories that a lookup opens before it has scanned enough. -/
def opened : ℕ → List IdentityDir → List IdentityDir
  | _, [] => []
  | scanned, d :: dirs =>
    d :: if maxGenerationsScanned ≤ scanned + d.generations.length then []
      else opened (scanned + d.generations.length) dirs

variable {sha n retain} {view : View} {root dirs : List IdentityDir} {request : List Token}
  {scanned : ℕ} {found : List Candidate}

lemma le_foldr_max {l : List ℕ} {k : ℕ} (hk : 0 < k) : k ≤ l.foldr max 0 ↔ ∃ a ∈ l, k ≤ a := by
  induction l with
  | nil => simp [hk.ne']
  | cons a l ih => simp [ih]

lemma le_longestMatch {k : ℕ} (hk : 0 < k) : k ≤ n.longestMatch sha root request ↔
    ∃ d ∈ root, ∃ h ∈ n.intact sha d, k ≤ commonPrefixLen h.tokens request := by
  rw [longestMatch, le_foldr_max hk]
  grind

/-- No match is lost exactly if what is pruned is a prefix of what is left. -/
lemma longestMatch_le_iff :
    (∀ request, n.longestMatch sha root request ≤
      n.longestMatch sha (n.pruneAncestorSnapshots root) request) ↔
    ∀ d ∈ root, n.prunes d → ∀ h ∈ n.intact sha d, h.tokens ≠ [] →
      ∃ d' ∈ root, n.prunes d' = false ∧ ∃ h' ∈ n.intact sha d', h.tokens <+: h'.tokens := by
  have hleft : ∀ {d}, d ∈ n.pruneAncestorSnapshots root ↔ d ∈ root ∧ n.prunes d = false := by
    simp [pruneAncestorSnapshots]
  constructor
  · intro h d hd _ header hheader hne
    have hpos := length_pos_of_ne_nil hne
    -- the request is the pruned entry itself
    have hself : header.tokens.length ≤ n.longestMatch sha root header.tokens :=
      (le_longestMatch hpos).mpr ⟨d, hd, header, hheader, (commonPrefixLen_eq_length_iff.mpr
        (prefix_refl _)).ge⟩
    obtain ⟨d', hd', header', hheader', hle⟩ := (le_longestMatch hpos).mp (hself.trans (h _))
    obtain ⟨hroot, hkept⟩ := hleft.mp hd'
    refine ⟨d', hroot, hkept, header', hheader', ?_⟩
    obtain ⟨-, -, htake⟩ := le_commonPrefixLen_iff.mp hle
    rw [take_length] at htake
    exact htake ▸ take_prefix _ _
  · intro h request
    rcases Nat.eq_zero_or_pos (n.longestMatch sha root request) with hzero | hpos
    · rw [hzero]
      exact Nat.zero_le _
    obtain ⟨d, hd, header, hheader, hle⟩ := (le_longestMatch hpos).mp le_rfl
    refine (le_longestMatch hpos).mpr ?_
    cases hprunes : n.prunes d with
    | false => exact ⟨d, hleft.mpr ⟨hd, hprunes⟩, header, hheader, hle⟩
    | true =>
      have hne : header.tokens ≠ [] := by
        intro hnil
        rw [hnil, commonPrefixLen_nil_left] at hle
        omega
      obtain ⟨d', hd', hkept, header', hheader', rest, hrest⟩ := h d hd hprunes header hheader hne
      refine ⟨d', hleft.mpr ⟨hd', hkept⟩, header', hheader', ?_⟩
      obtain ⟨hlen, hlen', htake⟩ := le_commonPrefixLen_iff.mp hle
      rw [← hrest]
      refine le_commonPrefixLen_iff.mpr ⟨?_, hlen', ?_⟩
      · rw [length_append]
        omega
      · rwa [take_append_of_le_length hlen]

lemma scanned_iff {k m : ℕ} : maxGenerationsScanned ≤ k + min (maxGenerationsScanned - k) m ↔
    maxGenerationsScanned ≤ k + m := by omega

/-- Lookups that open no directory which is pruned see nothing of it. -/
lemma collectCandidates_ok (hview : n.Beside view)
    (h : ∀ d ∈ opened scanned dirs, n.prunes d = false) :
    ∃ out, n.collectCandidates sha retain view request scanned found dirs = .ok out := by
  induction dirs generalizing scanned found with
  | nil => exact ⟨found, rfl⟩
  | cons d dirs ih =>
    rw [opened, forall_mem_cons] at h
    simp only [collectCandidates, hview d h.1, length_take, scanned_iff]
    by_cases hmax : maxGenerationsScanned ≤ scanned + d.generations.length
    · exact ⟨_, if_pos hmax⟩
    · rw [if_neg hmax, Nat.min_eq_right (by omega)]
      exact ih (by simpa [hmax] using h.2)

/-- A directory that is gone when it is opened ends a lookup. -/
lemma collectCandidates_error {d : IdentityDir} (hd : d ∈ opened scanned dirs)
    (hprunes : n.prunes d = true) :
    n.collectCandidates sha retain (fun d => if n.prunes d then none else some d.generations)
      request scanned found dirs =
        .error (.io .notFound "No such file or directory (os error 2)") := by
  induction dirs generalizing scanned found with
  | nil => simp [opened] at hd
  | cons d' dirs ih =>
    rw [opened, mem_cons] at hd
    rw [collectCandidates]
    cases hprunes' : n.prunes d' with
    | true => simp
    | false =>
      have hrest := hd.resolve_left fun heq => by simp [← heq, hprunes] at hprunes'
      by_cases hmax : maxGenerationsScanned ≤ scanned + d'.generations.length
      · simp [hmax] at hrest
      · simp only [length_take, Bool.false_eq_true, if_false, if_neg hmax,
          Nat.min_eq_right (show d'.generations.length ≤ maxGenerationsScanned - scanned by omega)]
        exact ih (by simpa [hmax] using hrest)

/-- **Pruning ancestors** is harmless exactly if every intact entry that it removes is a prefix of
one that it leaves, and it removes no directory that lookups open. -/
theorem pruneIsHarmless_iff : n.PruneIsHarmless sha retain root ↔
    (∀ d ∈ root, n.prunes d → ∀ h ∈ n.intact sha d, h.tokens ≠ [] →
      ∃ d' ∈ root, n.prunes d' = false ∧ ∃ h' ∈ n.intact sha d', h.tokens <+: h'.tokens) ∧
    ∀ d ∈ opened 0 root, n.prunes d = false := by
  constructor
  · intro h
    refine ⟨longestMatch_le_iff.mp h.keeps, fun d hd => Bool.eq_false_iff.mpr fun hprunes => ?_⟩
    have herror := h.undisturbed (fun d => if n.prunes d then none else some d.generations)
      (fun d hd => by simp [hd]) [] (.io .notFound _) (by
      rw [loadPrefix, collectCandidates_error hd hprunes]
      rfl)
    cases herror
  · rintro ⟨hkeeps, hopened⟩
    refine ⟨longestMatch_le_iff.mpr hkeeps, fun view hview request e he => ?_⟩
    obtain ⟨out, hout⟩ : ∃ out, n.collectCandidates sha retain view request 0 [] root = .ok out :=
      collectCandidates_ok hview hopened
    rw [loadPrefix, hout] at he
    dsimp only [bind, Except.bind] at he
    split at he
    · cases he
    · cases he
      rfl

/-- A snapshot of a prompt and its answer. -/
def answered (prompt answer : List Token) : V3Header :=
  let h : V3Header := ⟨.zero, .zero, .zero, "m", "t", prompt.length, 0, prompt ++ answer, by simp⟩
  { h with identitySha256 := h.identityHash sha256 }

/-- The only generation of its identity. -/
def single (h : V3Header) : IdentityDir := ⟨hexDigest h.identitySha256, [⟨some h, true⟩]⟩

/-- The prompt 1 was answered with 2, 3. Then 1, 4 is published, which removes the answer. -/
theorem not_pruneIsHarmless :
    let new := single (answered [1, 4] [])
    let n : NewSnapshot := ⟨.zero, "m", "t", [1, 4], new.name⟩
    ¬ n.PruneIsHarmless sha256 id [single (answered [1] [2, 3]), new] := by
  intro new n h
  exact absurd (h.keeps [1, 2, 3]) (by decide +kernel)

end NewSnapshot

end Mlxcel.ColdStore
