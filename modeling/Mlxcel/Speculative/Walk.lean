import Mathlib.Algebra.Order.Ring.Rat
import Mathlib.Data.List.Forall2
import Mlxcel.Lib.Decode
import Mlxcel.Lib.Calls
import Mlxcel.Token

/-!
# What the speculative drivers share

The drivers of `speculative` and `drafter::dflash` run rounds of the same shape: a drafter proposes
a block of tokens, the target reads the block in one pass, and a walk keeps the proposals that the
target would have chosen itself.

**The target** is what its cache has read (a list of tokens for each row) and the token it prefers
after that. A verify pass reads its input and answers after each position; finalizing it takes back
what was rejected (`MtpTarget::verify_forward`, `verify_finalize`).

**The drafter** may answer anything. Its own state is modelled by the number of calls made so far,
and what it is shown of the target (hidden states, K/V slabs) by the tokens that the target has
read.
-/

namespace Mlxcel.Speculative

open List Decode CommonPrefix Option

/-- The errors of `DrafterError` that a round loop can return. -/
inductive DrafterError
  | bindFailed (reason : String)
  | draftFailed (reason : String)
  deriving DecidableEq, Repr

/-- A target model under greedy sampling. `logprob` is the log-probability record of the token
chosen after a context. -/
structure Target (L : Type) where
  next : List Token → Token
  logprob : List Token → L
  eosTokenIds : List Token

/-- A drafter. The first argument of every call is the number of blocks drafted before it. -/
structure Drafter where
  configuredBlockSize : Option ℕ
  preferRequestedBlockSize : Bool
  bind : Except DrafterError Unit
  reset : Except DrafterError Unit
  setSharedKvBatched : ℕ → List (List Token) → Except DrafterError Unit
  draftBlock : ℕ → Token → List Token → ℕ → Except DrafterError (List Token)
  draftBlockBatched : ℕ → List Token → List (List Token) → ℕ →
    Except DrafterError (List (List Token))

/-- `drafter.configured_block_size().unwrap_or(block_size).max(2)` of the MTP constructors. -/
def Drafter.configuredFor (drafter : Drafter) (blockSize : ℕ) : ℕ :=
  max (drafter.configuredBlockSize.getD blockSize) 2

def mergedEosTokenIds (modelEos stopTokenIds : List Token) : List Token :=
  stopTokenIds.foldl (fun eos id => if id ∈ eos then eos else eos ++ [id]) modelEos

/-! ## The target's cache -/

/-- `KVCache::trim`: the last `n` tokens are taken back. -/
def trim (n : ℕ) (context : List Token) : List Token := context.take (context.length - n)

lemma trim_append (context input : List Token) {n : ℕ} (hn : n ≤ input.length) :
    trim n (context ++ input) = context ++ input.take (input.length - n) := by
  rw [trim, length_append, take_append, take_of_length_le (by omega)]
  congr 2
  omega

/-- `rollback`: of a block of `blockSize` tokens, `accepted` and the one before them stay. -/
def verifyFinalize (accepted blockSize : ℕ) (context : List Token) : List Token :=
  trim (blockSize - (accepted + 1)) context

lemma verifyFinalize_append {accepted : ℕ} {input : List Token} (h : accepted + 1 ≤ input.length)
    (context : List Token) : verifyFinalize accepted input.length (context ++ input) =
      context ++ input.take (accepted + 1) := by
  rw [verifyFinalize, trim_append _ _ (by omega)]
  congr 2
  omega

/-! ## The walk -/

structure WalkResult where
  accepted : ℕ
  newTokens : List Token
  deriving DecidableEq, Repr

/-- `speculative_walk` of `mtp/walk.rs`. -/
def speculativeWalk (draftTokens targetTokens : List Token) (budget : ℕ) : WalkResult :=
  let nDraft := draftTokens.length
  let accepted :=
    ((range nDraft).find? fun i => decide (draftTokens[i]? ≠ targetTokens[i]?)).getD nDraft
  let emitLen := min (accepted + 1) budget
  let matched := draftTokens.take (min accepted emitLen)
  { accepted
    newTokens :=
      if matched.length < emitLen then matched ++ targetTokens[accepted]?.toList else matched }

/-- `speculative_walk_batched` of `mtp/walk.rs`: each row is walked on its own. -/
def speculativeWalkBatched (draftTokens targetTokens : List (List Token)) (budgets : List ℕ) :
    List WalkResult :=
  (draftTokens.zip (targetTokens.zip budgets)).map fun row =>
    speculativeWalk row.1 row.2.1 row.2.2

lemma find_ne_eq_commonPrefixLen {d t : List Token} (h : d.length ≤ t.length) :
    ((range d.length).find? fun i => decide (d[i]? ≠ t[i]?)).getD d.length =
      commonPrefixLen d t := by
  have hagree : ∀ i < commonPrefixLen d t, d[i]? = t[i]? := by
    intro i hi
    rw [← getElem?_take_of_lt hi, take_commonPrefixLen, getElem?_take_of_lt hi]
  rcases (commonPrefixLen_le_left d t).lt_or_eq with hlt | heq
  · -- one more equal token would make the common prefix longer
    have hdiffer : d[commonPrefixLen d t]? ≠ t[commonPrefixLen d t]? := by
      intro hsame
      have hlonger : commonPrefixLen d t + 1 ≤ commonPrefixLen d t := by
        rw [le_commonPrefixLen_iff]
        refine ⟨hlt, by omega, ?_⟩
        rw [take_add_one, take_add_one, take_commonPrefixLen, hsame]
      omega
    have hfind : ((range d.length).find? fun i => decide (d[i]? ≠ t[i]?)) =
        some (commonPrefixLen d t) := by
      rw [find?_range_eq_some]
      refine ⟨by simpa using hdiffer, by simpa using hlt, fun i hi => ?_⟩
      simpa using hagree i hi
    rw [hfind, getD_some]
  · have hfind : ((range d.length).find? fun i => decide (d[i]? ≠ t[i]?)) = none := by
      rw [find?_eq_none]
      intro i hi
      simpa using hagree i (by simpa [heq] using hi)
    rw [hfind, getD_none, heq]

lemma take_accepted (next : List Token → Token) (context : List Token) (bonus : Token)
    (drafts : List Token) : drafts.take (accepted next context bonus drafts) =
      (choices next context (bonus :: drafts)).take (accepted next context bonus drafts) :=
  take_commonPrefixLen _ _

/-- **The walk.** Against the answers of a verify pass it accepts the drafts that the target would
have chosen, and emits them with the answer after them. -/
theorem speculativeWalk_choices (next : List Token → Token) (context : List Token) (bonus : Token)
    (drafts : List Token) (budget : ℕ) :
    speculativeWalk drafts (choices next context (bonus :: drafts)) budget =
      ⟨accepted next context bonus drafts, roundTokens next context bonus drafts budget⟩ := by
  have hlen : (choices next context (bonus :: drafts)).length = drafts.length + 1 := by simp
  have hle := accepted_le next context bonus drafts
  have hagree := take_accepted next context bonus drafts
  simp only [speculativeWalk, find_ne_eq_commonPrefixLen (d := drafts)
    (t := choices next context (bonus :: drafts)) (by omega), WalkResult.mk.injEq]
  refine ⟨rfl, ?_⟩
  rw [← accepted, roundTokens, take_take]
  generalize accepted next context bonus drafts = a at hle hagree ⊢
  by_cases hbudget : a < budget
  · -- the budget has room for the answer after the accepted drafts
    rw [Nat.min_eq_left (by omega : a + 1 ≤ budget), Nat.min_eq_left (Nat.le_succ a),
      if_pos (by rw [length_take]; omega), hagree, Nat.min_eq_right (by omega), take_add_one]
  · rw [Nat.min_eq_right (by omega : budget ≤ a + 1), Nat.min_eq_right (by omega : budget ≤ a),
      if_neg (by rw [length_take]; omega), Nat.min_eq_left (by omega : budget ≤ a + 1)]
    have htake := congrArg (List.take budget) hagree
    rwa [take_take, take_take, Nat.min_eq_left (by omega)] at htake

/-! ## Emitting -/

/-- The emit loop: tokens go out one by one until a stop token went out or `maxTokens` are out, of
which `count` were before. The flag says whether a stop token went out. -/
def emitTokens (stops : List Token) (maxTokens : ℕ) : ℕ → List Token → List Token × Bool
  | _, [] => ([], false)
  | count, tok :: rest =>
    if tok ∈ stops then ([tok], true)
    else if maxTokens ≤ count + 1 then ([tok], false)
    else
      let more := emitTokens stops maxTokens (count + 1) rest
      (tok :: more.1, more.2)

lemma emitTokens_eq {stops : List Token} {maxTokens count : ℕ} {new : List Token}
    (h : count + new.length ≤ maxTokens) :
    emitTokens stops maxTokens count new = (cut stops new, decide (∃ x ∈ new, x ∈ stops)) := by
  induction new generalizing count with
  | nil => simp [emitTokens, cut]
  | cons tok rest ih =>
    rw [length_cons] at h
    rw [emitTokens, cut]
    split_ifs with htok hmax
    · simp [htok]
    · obtain rfl : rest = [] := length_eq_zero_iff.mp (by omega)
      simp [cut, htok]
    · rw [ih (by omega)]
      simp [htok]

/-! ## One round of a row -/

/-- A row of a driver after `rounds` rounds: `seen` is all that was emitted, the seed included. -/
def RowOk (next : List Token → Token) (stops prompt : List Token) (maxTokens rounds : ℕ)
    (seen context : List Token) (bonus : Token) (finished : Bool) : Prop :=
  if finished then seen = cut stops (continuation next prompt maxTokens)
  else Pending next stops prompt maxTokens seen context bonus ∧ rounds < seen.length

section Row

variable {next : List Token → Token} {stops prompt : List Token} {maxTokens rounds : ℕ}
  {seen context : List Token} {bonus : Token}

/-- The seed that the target chose after the prompt. -/
lemma RowOk.seed (hmax : 1 ≤ maxTokens) (hstop : next prompt ∉ stops) :
    RowOk next stops prompt maxTokens 0 [next prompt] prompt (next prompt)
      (decide (maxTokens ≤ 1)) := by
  rw [RowOk]
  split_ifs with hone
  · obtain rfl : maxTokens = 1 := by have := of_decide_eq_true hone; omega
    simp [continuation, cut]
  · exact ⟨.first (by simpa using hone) hstop, by simp⟩

/-- **One round of an active row**, for any drafts: the walk, the emit loop, the new bonus and the
rollback. -/
theorem RowOk.advance (h : RowOk next stops prompt maxTokens rounds seen context bonus false)
    (drafts : List Token) {new out : List Token} {hit : Bool}
    (hnew : new = roundTokens next context bonus drafts (maxTokens - seen.length))
    (hout : emitTokens stops maxTokens seen.length new = (out, hit)) :
    RowOk next stops prompt maxTokens (rounds + 1) (seen ++ out)
      (verifyFinalize (accepted next context bonus drafts) (bonus :: drafts).length
        (context ++ bonus :: drafts))
      (new.getLast?.getD bonus) (hit || decide (maxTokens ≤ (seen ++ out).length)) := by
  obtain ⟨hpending, hrounds⟩ : Pending next stops prompt maxTokens seen context bonus ∧
      rounds < seen.length := by simpa [RowOk] using h
  have hfits : seen.length + new.length ≤ maxTokens := by
    have hshort := hpending.short
    rw [hnew, roundTokens, length_take]
    omega
  rw [emitTokens_eq hfits] at hout
  obtain ⟨rfl, rfl⟩ := hout
  rw [verifyFinalize_append (by simpa using accepted_le next context bonus drafts)]
  by_cases hstop : ∃ x ∈ new, x ∈ stops
  · rw [decide_eq_true hstop, Bool.true_or, RowOk, hnew]
    exact hpending.ended drafts (.inl (hnew ▸ hstop))
  · have hkeep : cut stops new = new := cut_eq_self (by simpa using hstop)
    rw [decide_eq_false hstop, Bool.false_or, hkeep, length_append]
    by_cases hfull : maxTokens ≤ seen.length + new.length
    · rw [decide_eq_true hfull, RowOk, ← hkeep, hnew]
      exact hpending.ended drafts (.inr (hnew ▸ hfull))
    · obtain ⟨last, hlast, hnext⟩ := hpending.continues drafts
        (by simpa [← hnew] using hstop) (by rw [← hnew]; omega)
      rw [← hnew] at hlast hnext
      rw [decide_eq_false hfull, hlast]
      refine ⟨hnext, ?_⟩
      have hone : 0 < new.length := by
        rw [length_pos_iff]
        rintro rfl
        simp at hlast
      rw [length_append]
      omega

lemma RowOk.answer {finished : Bool}
    (h : RowOk next stops prompt maxTokens rounds seen context bonus finished)
    (hfinished : finished = true) : seen = cut stops (continuation next prompt maxTokens) := by
  rwa [RowOk, if_pos hfinished] at h

end Row

/-! ## Batches -/

/-- What a round over `rows` proves of each row, for rows and answers of equal number. -/
lemma forall₂_zipWith {α β γ δ : Type} {R : α → β → Prop} {S : α → γ → Prop} {f : β → δ → γ}
    {as : List α} {bs : List β} {ds : List δ} (h : Forall₂ R as bs)
    (hlen : ds.length = bs.length) (hstep : ∀ a b, ∀ d ∈ ds, R a b → S a (f b d)) :
    Forall₂ S as (zipWith f bs ds) := by
  induction h generalizing ds with
  | nil => simp
  | cons hab _ ih =>
    cases ds with
    | nil => simp at hlen
    | cons d ds =>
      refine .cons (hstep _ _ d (by simp) hab) (ih (by simpa using hlen) ?_)
      exact fun a b d hd => hstep a b d (by simp [hd])

lemma exists_of_mem_right {α β : Type} {R : α → β → Prop} {as : List α} {bs : List β} {b : β}
    (h : Forall₂ R as bs) (hb : b ∈ bs) : ∃ a ∈ as, R a b := by
  obtain ⟨i, hi, rfl⟩ := mem_iff_getElem.mp hb
  have hi' : i < as.length := h.length_eq ▸ hi
  exact ⟨as[i], getElem_mem hi', h.get hi' hi⟩

lemma forall₂_of_all {α β : Type} {P : α → β → Prop} {p : β → Bool} {as : List α} {bs : List β}
    (h : Forall₂ (fun a b => p b = true → P a b) as bs) (hall : bs.all p = true) :
    Forall₂ P as bs := by
  induction h with
  | nil => exact .nil
  | cons hab _ ih =>
    rw [all_cons, Bool.and_eq_true] at hall
    exact .cons (hab hall.1) (ih hall.2)

section Batch

variable {β : Type} {next : List Token → Token} {stops : List Token} {maxTokens rounds : ℕ}
  {seen : List Token → β → List Token} {context : β → List Token} {bonus : β → Token}
  {finished : β → Bool} {prompts : List (List Token)} {rows : List β}

/-- An active row has emitted a token in every round and is short of the limit. -/
lemma rounds_lt_of_active
    (h : Forall₂ (fun prompt row => RowOk next stops prompt maxTokens rounds (seen prompt row)
      (context row) (bonus row) (finished row)) prompts rows) {row : β} (hrow : row ∈ rows)
    (hactive : finished row = false) :
    ∃ prompt, rounds < (seen prompt row).length ∧ (seen prompt row).length < maxTokens := by
  obtain ⟨prompt, -, hok⟩ := exists_of_mem_right h hrow
  rw [hactive] at hok
  obtain ⟨hpending, hrounds⟩ : _ ∧ _ := hok
  exact ⟨prompt, hrounds, hpending.short⟩

end Batch

/-- The smallest number of positions that an active row has left, its bonus included; the rows are
given by their `finished` flag and the number of tokens they emitted. -/
def remainingMin (maxNewTokens : ℕ) (rows : List (Bool × ℕ)) : ℕ :=
  ((rows.filter fun row => !row.1).map fun row => max (maxNewTokens - row.2 + 1) 1).min?.getD 1

lemma two_le_remainingMin {maxNewTokens : ℕ} {rows : List (Bool × ℕ)}
    (hactive : ∃ row ∈ rows, row.1 = false)
    (hshort : ∀ row ∈ rows, row.1 = false → row.2 < maxNewTokens) :
    2 ≤ remainingMin maxNewTokens rows := by
  rw [remainingMin]
  cases hmin : ((rows.filter fun row => !row.1).map
      fun row => max (maxNewTokens - row.2 + 1) 1).min? with
  | none =>
    obtain ⟨row, hrow, hrun⟩ := hactive
    rw [min?_eq_none_iff, map_eq_nil_iff, filter_eq_nil_iff] at hmin
    exact absurd (by simpa using hrun) (hmin row hrow)
  | some least =>
    obtain ⟨row, hrow, rfl⟩ := mem_map.mp (min?_mem hmin)
    obtain ⟨hmem, hrun⟩ := mem_filter.mp hrow
    have hlt := hshort row hmem (by simpa using hrun)
    rw [getD_some]
    omega

/-! ## The block size -/

def minHistoryForExpansion : ℕ := 8
def recentHistory : ℕ := 32
def configuredPrefixHitRate : ℚ := 65 / 100

/-- `effective_mtp_block_size`. The acceptance history is rational: with at most 32 rounds in a
rate, the doubles of the source compare as the exact quotients do. -/
def effectiveMtpBlockSize (requested configured : ℕ) (acceptLens : List ℚ) (remaining : ℕ) : ℕ :=
  let blockTotal := min requested remaining
  let configuredTotal := min configured blockTotal
  if blockTotal ≤ configuredTotal ∨ configuredTotal ≤ 1 then blockTotal
  else if acceptLens.length < minHistoryForExpansion then configuredTotal
  else
    let recent := acceptLens.drop (acceptLens.length - recentHistory)
    let hits := (recent.filter fun accepted => ((configuredTotal - 1 : ℕ) : ℚ) ≤ accepted).length
    if (hits : ℚ) / recent.length < configuredPrefixHitRate then configuredTotal else blockTotal

example : effectiveMtpBlockSize 8 4 (replicate 8 0 ++ replicate 24 3) 16 = 8 := by
  decide +kernel

lemma two_le_effectiveMtpBlockSize {requested : ℕ} (configured : ℕ) (acceptLens : List ℚ)
    {remaining : ℕ} (hrequested : 2 ≤ requested) (hremaining : 2 ≤ remaining) :
    2 ≤ effectiveMtpBlockSize requested configured acceptLens remaining := by
  simp only [effectiveMtpBlockSize]
  split_ifs <;> omega

/-- The block size of an MTP round. -/
def mtpBlockSize (drafter : Drafter) (blockSize : ℕ) (acceptLens : List ℚ) (remaining : ℕ) : ℕ :=
  if drafter.preferRequestedBlockSize then min blockSize remaining
  else effectiveMtpBlockSize blockSize (drafter.configuredFor blockSize) acceptLens remaining

lemma two_le_mtpBlockSize (drafter : Drafter) {blockSize : ℕ} (acceptLens : List ℚ) {remaining : ℕ}
    (hblock : 2 ≤ blockSize) (hremaining : 2 ≤ remaining) :
    2 ≤ mtpBlockSize drafter blockSize acceptLens remaining := by
  rw [mtpBlockSize]
  split_ifs
  · omega
  · exact two_le_effectiveMtpBlockSize _ acceptLens hblock hremaining

end Mlxcel.Speculative
