import Mlxcel.Token

/-!
# Sequences, the prefill queue and the active batch

`batch/sequence.rs`, `batch/queue.rs`, `batch/active.rs` and `thinking_budget.rs`: the life cycle of
a request inside the batch scheduler, the three priority lanes of requests that wait for prefill,
and the bounded batch of sequences that decode.

**Channels.**  A request is known by its response channel, which is made for it and is never shared.
The cancellation flag travels with the channel; who has disconnected is an input of every tick.

**Iteration order.**  The active batch is a hash map in the code. Here it is a list, and every tick
starts by putting it in an arbitrary order.
-/

namespace Mlxcel.Batch

open List Option

abbrev Channel := ℕ

abbrev SequenceId := ℕ

inductive RequestPriority
  | low
  | normal
  | high
  deriving DecidableEq, Repr

/-- The discriminants, by which `Ord` is derived. -/
def RequestPriority.rank : RequestPriority → ℕ
  | .low => 0
  | .normal => 1
  | .high => 2

inductive FinishReason
  | stop
  | length
  | cancelled
  | error (msg : String)
  deriving DecidableEq, Repr

inductive SequenceState
  | queued
  | prefilling
  | decoding
  | finished (reason : FinishReason)
  deriving DecidableEq, Repr

def SequenceState.isFinished : SequenceState → Bool
  | .finished _ => true
  | _ => false

/-- The table of `transition_to`. -/
def SequenceState.allows : SequenceState → SequenceState → Bool
  | .queued, .prefilling => true
  | .prefilling, .decoding => true
  | .prefilling, .finished .stop => true
  | .prefilling, .finished .length => true
  | .decoding, .finished _ => true
  | .decoding, .queued => true
  | state, .finished .cancelled => !state.isFinished
  | state, .finished (.error _) => !state.isFinished
  | _, _ => false

/-- The derived `Debug` text. -/
def FinishReason.debug : FinishReason → String
  | .stop => "Stop"
  | .length => "Length"
  | .cancelled => "Cancelled"
  | .error msg => "Error(" ++ msg.quote ++ ")"

def SequenceState.debug : SequenceState → String
  | .queued => "Queued"
  | .prefilling => "Prefilling"
  | .decoding => "Decoding"
  | .finished reason => "Finished(" ++ reason.debug ++ ")"

def SequenceState.transitionTo (state next : SequenceState) : Except String SequenceState :=
  if state.allows next then .ok next
  else .error ("invalid state transition: " ++ state.debug ++ " -> " ++ next.debug)

/-! ## The thinking budget -/

structure ThinkingTokenIds where
  opener : Token
  close : Token
  deriving DecidableEq, Repr

inductive ThinkingPhase
  | pending
  | inBlock
  | closed
  deriving DecidableEq, Repr

/-- `budget` is the cap of a `ThinkingBudget`; 0 is `ImmediateClose`. -/
structure ThinkingState where
  phase : ThinkingPhase := .closed
  inBlockCount : ℕ := 0
  tokenIds : Option ThinkingTokenIds := none
  budget : Option ℕ := none
  enterBlockOnStart : Bool := false
  deriving DecidableEq, Repr

namespace ThinkingState

def new (tokenIds : Option ThinkingTokenIds) (budget : Option ℕ) (enterBlockOnStart : Bool) :
    ThinkingState :=
  ⟨.pending, 0, tokenIds, budget, enterBlockOnStart⟩

def disabled : ThinkingState := {}

variable (t : ThinkingState)

def isDisabled : Bool := t.budget.isNone || t.tokenIds.isNone

/-- `decide_override`: the token that closes the block by force, if any. -/
def decideOverride (sampled : Token) : Option Token :=
  match t.tokenIds, t.budget with
  | some ids, some cap =>
    match t.phase with
    | .closed => none
    | .pending => if t.enterBlockOnStart && cap == 0 then some ids.close else none
    | .inBlock =>
      if sampled = ids.close then none
      else if cap ≤ t.inBlockCount then some ids.close
      else none
  | _, _ => none

def observe (final : Token) : ThinkingState :=
  match t.tokenIds, t.budget with
  | some ids, some _ =>
    match t.phase with
    | .closed => t
    | .pending =>
      if t.enterBlockOnStart then
        if final = ids.close then { t with phase := .closed }
        else { t with phase := .inBlock, inBlockCount := 1 }
      else if final = ids.opener then { t with phase := .inBlock, inBlockCount := 0 }
      else t
    | .inBlock =>
      if final = ids.close then { t with phase := .closed }
      else { t with inBlockCount := min (t.inBlockCount + 1) (2 ^ 32 - 1) }
  | _, _ => t

/-- `apply_thinking_budget`: the token that is committed and the state after it. -/
def applyThinkingBudget (sampled : Token) : Token × ThinkingState :=
  if t.isDisabled then (sampled, t)
  else
    let final := (t.decideOverride sampled).getD sampled
    (final, t.observe final)

end ThinkingState

/-! ## One sequence -/

/-- `params` stands for temperature, top-k, top-p, min-p and the seed, which are only compared. -/
structure SamplingConfig where
  params : ℕ := 0
  stopTokenIds : List Token := []
  hasTokenBias : Bool := false
  needsTokenHistory : Bool := false
  deriving DecidableEq, Repr

/-- `merge_config_stop_tokens` and `merged_eos_token_ids`: what is missing is appended. -/
def mergeTokenIds (ids more : List Token) : List Token :=
  more.foldl (fun ids id => if id ∈ ids then ids else ids ++ [id]) ids

def initialTokenHistory (promptTokens : List Token) (needsHistory : Bool) : List Token :=
  if needsHistory then promptTokens else []

/-- `SequenceInfo`. The streaming decoder is a function of the prompt and of the generated tokens,
and is left out. -/
structure SequenceInfo where
  seqId : SequenceId
  state : SequenceState
  promptTokens : List Token
  sampling : SamplingConfig
  maxTokens : ℕ
  priority : RequestPriority
  logprobs : Bool
  vlmEmbeddings : Bool
  hasImages : Bool
  hasAudio : Bool
  generatedTokens : List Token
  tokenHistory : List Token
  mergedEos : List Token
  prefillOffset : ℕ
  prefillStartOffset : ℕ
  alreadyCachedTokens : ℕ
  thinking : ThinkingState
  structured : Bool
  channel : Channel
  orphaned : Bool
  deriving DecidableEq, Repr

namespace SequenceInfo

/-- A transition whose refusal is only logged. -/
def transition (seq : SequenceInfo) (next : SequenceState) : SequenceInfo :=
  match seq.state.transitionTo next with
  | .ok state => { seq with state := state }
  | .error _ => seq

end SequenceInfo

/-! ## The prefill queue -/

structure PrefillQueue where
  high : List SequenceInfo
  normal : List SequenceInfo
  low : List SequenceInfo
  maxSize : ℕ

namespace PrefillQueue

def withCapacity (maxSize : ℕ) : PrefillQueue := ⟨[], [], [], maxSize⟩

variable (q : PrefillQueue)

def len : ℕ := q.high.length + q.normal.length + q.low.length

def isEmpty : Bool := q.high.isEmpty && q.normal.isEmpty && q.low.isEmpty

/-- All waiting sequences, in the order in which they are taken out. -/
def all : List SequenceInfo := q.high ++ q.normal ++ q.low

def lane : RequestPriority → List SequenceInfo
  | .high => q.high
  | .normal => q.normal
  | .low => q.low

variable (p : RequestPriority)

def setLane (l : List SequenceInfo) : PrefillQueue :=
  match p with
  | .high => { q with high := l }
  | .normal => { q with normal := l }
  | .low => { q with low := l }

/-- `none` gives the sequence back. -/
def enqueue (seq : SequenceInfo) : Option PrefillQueue :=
  if q.maxSize ≤ q.len then none
  else some (q.setLane seq.priority (q.lane seq.priority ++ [seq]))

def dequeue : Option (SequenceInfo × PrefillQueue) :=
  match q.high, q.normal, q.low with
  | seq :: rest, _, _ => some (seq, { q with high := rest })
  | [], seq :: rest, _ => some (seq, { q with normal := rest })
  | [], [], seq :: rest => some (seq, { q with low := rest })
  | [], [], [] => none

/-- The first `n` sequences that `dequeue` gives. -/
def dequeueMany (q : PrefillQueue) : ℕ → List SequenceInfo × PrefillQueue
  | 0 => ([], q)
  | n + 1 =>
    match q.dequeue with
    | none => ([], q)
    | some (seq, q) =>
      let (seqs, q) := q.dequeueMany n
      (seq :: seqs, q)

/-- `drain_matching_window`: the front of a lane as long as it matches, at most `maxExtra`. -/
def drainMatchingWindow (maxExtra : ℕ)
    (matching : SequenceInfo → Bool) : List SequenceInfo × PrefillQueue :=
  let window := ((q.lane p).takeWhile matching).take maxExtra
  (window, q.setLane p ((q.lane p).drop window.length))

def peekPriority : Option RequestPriority :=
  if !q.high.isEmpty then some .high
  else if !q.normal.isEmpty then some .normal
  else if !q.low.isEmpty then some .low
  else none

/-- `drain_cancelled`: lane by lane, each keeps its order. -/
def drainCancelled (cancelled : SequenceInfo → Bool) : List SequenceInfo × PrefillQueue :=
  (q.all.filter cancelled,
    { q with
      high := q.high.filter fun s => !cancelled s
      normal := q.normal.filter fun s => !cancelled s
      low := q.low.filter fun s => !cancelled s })

variable {q q' : PrefillQueue} {seq : SequenceInfo} {seqs : List SequenceInfo}

lemma enqueue_spec (h : q.enqueue seq = some q') :
    q'.all.Perm (seq :: q.all) ∧ q'.maxSize = q.maxSize := by
  unfold enqueue at h
  split_ifs at h with hlen
  rw [some.injEq] at h
  subst h
  cases seq.priority with
  | high => exact ⟨by simp [setLane, lane, all], rfl⟩
  | normal =>
    refine ⟨?_, rfl⟩
    simp only [setLane, all, append_assoc]
    exact (perm_middle.append_left q.high).trans perm_middle
  | low =>
    refine ⟨?_, rfl⟩
    simp only [setLane, all, ← append_assoc]
    exact perm_append_comm

lemma dequeue_spec (h : q.dequeue = some (seq, q')) :
    q.all = seq :: q'.all ∧ q'.maxSize = q.maxSize := by
  unfold dequeue at h
  split at h <;> simp only [some.injEq, reduceCtorEq] at h <;>
    obtain ⟨rfl, rfl⟩ := h <;> simp [all, *]

lemma dequeueMany_spec (q : PrefillQueue) (n : ℕ) :
    q.all = (q.dequeueMany n).1 ++ (q.dequeueMany n).2.all ∧
      (q.dequeueMany n).2.maxSize = q.maxSize ∧ (q.dequeueMany n).1.length ≤ n := by
  induction n generalizing q with
  | zero => simp [dequeueMany]
  | succ n ih =>
    rw [dequeueMany]
    cases h : q.dequeue with
    | none => simp
    | some out =>
      obtain ⟨seq, q'⟩ := out
      obtain ⟨hall, hmax⟩ := dequeue_spec h
      obtain ⟨hrest, hmax', hlen⟩ := ih q'
      refine ⟨?_, hmax'.trans hmax, Nat.succ_le_succ hlen⟩
      rw [hall, hrest]
      rfl

lemma setLane_all_perm (q : PrefillQueue) (p : RequestPriority) (seqs rest : List SequenceInfo)
    (h : q.lane p = seqs ++ rest) : q.all.Perm (seqs ++ (q.setLane p rest).all) := by
  cases p with
  | high =>
    have hhigh : q.high = seqs ++ rest := h
    simp [all, setLane, hhigh]
  | normal =>
    have hnormal : q.normal = seqs ++ rest := h
    simp only [all, hnormal, append_assoc]
    exact perm_append_comm_assoc _ _ _
  | low =>
    have hlow : q.low = seqs ++ rest := h
    have hcomm : (q.high ++ q.normal ++ seqs).Perm (seqs ++ (q.high ++ q.normal)) :=
      perm_append_comm
    simp only [all, setLane, hlow]
    simpa using hcomm.append_right rest

lemma drainMatchingWindow_spec (q : PrefillQueue) (p : RequestPriority) (n : ℕ)
    (matching : SequenceInfo → Bool) :
    q.all.Perm ((q.drainMatchingWindow p n matching).1 ++
      (q.drainMatchingWindow p n matching).2.all) := by
  refine q.setLane_all_perm p _ _ ?_
  have hpre : ((q.lane p).takeWhile matching).take n <+: q.lane p :=
    (List.take_prefix _ _).trans (List.takeWhile_prefix _)
  exact (prefix_iff_eq_append.mp hpre).symm

lemma drainCancelled_spec (q : PrefillQueue) (cancelled : SequenceInfo → Bool) :
    q.all.Perm ((q.drainCancelled cancelled).1 ++ (q.drainCancelled cancelled).2.all) := by
  have h := filter_append_perm cancelled q.all
  refine h.symm.trans (.append_left _ ?_)
  simp [drainCancelled, all]

end PrefillQueue

/-! ## The active batch -/

structure ActiveBatch where
  sequences : List SequenceInfo
  maxSize : ℕ

namespace ActiveBatch

variable (b : ActiveBatch)

def len : ℕ := b.sequences.length

def isEmpty : Bool := b.sequences.isEmpty

def isFull : Bool := b.maxSize ≤ b.len

def sequenceIds : List SequenceId := b.sequences.map (·.seqId)

def get (id : SequenceId) : Option SequenceInfo :=
  b.sequences.find? (·.seqId == id)

/-- `none` when the batch is full or knows the id; the sequence is then dropped by the caller. -/
def add (seq : SequenceInfo) : Option ActiveBatch :=
  if b.maxSize ≤ b.len then none
  else if seq.seqId ∈ b.sequenceIds then none
  else some { b with sequences := b.sequences ++ [seq] }

def remove (id : SequenceId) : Option (SequenceInfo × ActiveBatch) :=
  (b.get id).map fun seq =>
    (seq, { b with sequences := b.sequences.eraseP (·.seqId == id) })

/-- A write through `get_mut`. -/
def modify (id : SequenceId) (f : SequenceInfo → SequenceInfo) : ActiveBatch :=
  { b with sequences := b.sequences.map fun seq => if seq.seqId = id then f seq else seq }

def iterMinPriority : Option ℕ := (b.sequences.map (·.priority.rank)).min?

variable {b b' : ActiveBatch} {seq : SequenceInfo} {id : SequenceId}

lemma add_spec (h : b.add seq = some b') :
    b.len < b.maxSize ∧ b' = { b with sequences := b.sequences ++ [seq] } := by
  unfold add at h
  split_ifs at h with hfull hmem
  exact ⟨not_le.mp hfull, (some.inj h).symm⟩

/-- A sequence is turned away by a full batch or by one that knows its id. -/
lemma add_eq_none (h : b.add seq = none) : b.isFull ∨ seq.seqId ∈ b.sequenceIds := by
  unfold add at h
  split_ifs at h with hfull hmem
  · exact .inl (by simpa [isFull] using hfull)
  · exact .inr hmem

lemma remove_spec (h : b.remove id = some (seq, b')) :
    b.sequences.Perm (seq :: b'.sequences) ∧ seq.seqId = id ∧ b'.maxSize = b.maxSize := by
  simp only [remove, map_eq_some_iff, Prod.mk.injEq] at h
  obtain ⟨found, hget, rfl, rfl⟩ := h
  have hid : found.seqId = id := by simpa using find?_some hget
  refine ⟨?_, hid, rfl⟩
  obtain ⟨hp, left, right, hseqs, hleft⟩ := List.find?_eq_some_iff_append.mp hget
  have herase : b.sequences.eraseP (·.seqId == id) = left ++ right := by
    rw [hseqs, eraseP_append_right _ (fun x hx => by simpa using hleft x hx)]
    simp [hid]
  rw [herase, hseqs]
  exact perm_middle

end ActiveBatch

/-! ## Choosing a victim -/

inductive PreemptionPolicy
  | longestFirst
  | lowestPriority
  deriving DecidableEq, Repr

/-- `max_by_key`: the last of the largest. -/
def maxByKey (key : SequenceInfo → ℕ) (l : List SequenceInfo) : Option SequenceInfo :=
  l.foldl (fun best x =>
    match best with
    | none => some x
    | some b => if key b ≤ key x then some x else some b) none

/-- `min_by`: the first of the smallest. -/
def minBy (less : SequenceInfo → SequenceInfo → Bool) (l : List SequenceInfo) :
    Option SequenceInfo :=
  l.foldl (fun best x =>
    match best with
    | none => some x
    | some b => if less x b then some x else some b) none

/-- Lower priority first, ties broken by the longer output. -/
def evictedBefore (a b : SequenceInfo) : Bool :=
  a.priority.rank < b.priority.rank ||
    a.priority.rank == b.priority.rank && b.generatedTokens.length < a.generatedTokens.length

/-- `select_eviction_victim`: a sequence with a structured-output constraint is never chosen. -/
def selectEvictionVictim (policy : PreemptionPolicy) (b : ActiveBatch) : Option SequenceId :=
  let candidates := b.sequences.filter fun seq => !seq.structured
  match policy with
  | .longestFirst => (maxByKey (fun seq => seq.generatedTokens.length) candidates).map (·.seqId)
  | .lowestPriority => (minBy evictedBefore candidates).map (·.seqId)

/-- The first sequence that a policy evicts: the longest one, or the longest of lowest priority. -/
def PreemptionPolicy.first (policy : PreemptionPolicy) (l : List SequenceInfo) :
    Option SequenceInfo :=
  let candidates := l.filter fun seq => !seq.structured
  match policy with
  | .longestFirst => maxByKey (fun seq => seq.generatedTokens.length) candidates
  | .lowestPriority => minBy evictedBefore candidates

lemma selectEvictionVictim_eq (policy : PreemptionPolicy) (b : ActiveBatch) :
    selectEvictionVictim policy b = (policy.first b.sequences).map (·.seqId) := by
  cases policy <;> rfl

lemma mem_of_foldl_choose (choose : SequenceInfo → SequenceInfo → Bool) {seq : SequenceInfo}
    (l : List SequenceInfo) (best : Option SequenceInfo)
    (h : l.foldl (fun best x =>
      match best with
      | none => some x
      | some b => if choose b x then some x else some b) best = some seq) :
    best = some seq ∨ seq ∈ l := by
  revert h
  refine l.foldlRecOn (motive := fun b => b = some seq → _) _ .inl fun b hb x hx h => ?_
  cases b with
  | none => exact .inr (some.inj h ▸ hx)
  | some b =>
    dsimp only at h
    split_ifs at h
    · exact .inr (some.inj h ▸ hx)
    · exact hb h

lemma PreemptionPolicy.mem_of_first {policy : PreemptionPolicy} {l : List SequenceInfo}
    {seq : SequenceInfo} (h : policy.first l = some seq) : seq ∈ l ∧ seq.structured = false := by
  have hmem : seq ∈ l.filter fun seq => !seq.structured := by
    cases policy with
    | longestFirst =>
      refine (mem_of_foldl_choose (fun b x => b.generatedTokens.length ≤ x.generatedTokens.length)
        _ none ?_).resolve_left (by simp)
      simpa [first, maxByKey] using h
    | lowestPriority =>
      exact (mem_of_foldl_choose (fun b x => evictedBefore x b) _ none h).resolve_left (by simp)
  simpa using hmem

/-- A victim is one of the active sequences, and not one with a structured-output constraint. -/
lemma exists_of_selectEvictionVictim {policy : PreemptionPolicy} {b : ActiveBatch}
    {id : SequenceId} (h : selectEvictionVictim policy b = some id) :
    ∃ seq ∈ b.sequences, seq.structured = false ∧ seq.seqId = id := by
  rw [selectEvictionVictim_eq] at h
  obtain ⟨seq, hseq, hid⟩ := map_eq_some_iff.mp h
  obtain ⟨hmem, hfree⟩ := PreemptionPolicy.mem_of_first hseq
  exact ⟨seq, hmem, hfree, hid⟩

end Mlxcel.Batch
