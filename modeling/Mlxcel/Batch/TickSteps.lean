import Mlxcel.Batch.Steps

/-!
# Every tick is a chain of steps

The ways through a tick, cut into the steps of `Batch/Steps.lean`: `finish_prefill`, the single,
chunked, batched and speculative prefill, preemption, decoding and `finalize_completed`.

**When an irregular step is needed.**  A sequence is dropped only by a full batch. A sequence is told
twice only by a failed constraint in a decode step or by an orphaned prefill. A context stays behind
only at a preemption. Requests are left waiting only by a sequence that had requests waiting for it
and was preempted, failed its constraint, or did not get through the checks of a donation.
-/

namespace Mlxcel.Batch

open List Function ActiveBatch SequenceInfo SameRequest

open Scheduler (Quiet SameBatch)

namespace SameRequest

lemma refl (seq : SequenceInfo) : SameRequest seq seq := ⟨rfl, rfl, rfl⟩

lemma trans {a b c : SequenceInfo} (h : SameRequest a b) (h' : SameRequest b c) : SameRequest a c :=
  ⟨h'.seqId.trans h.seqId, h'.channel.trans h.channel, h'.promptTokens.trans h.promptTokens⟩

lemma transition {a b : SequenceInfo} (h : SameRequest a b) (next : SequenceState) :
    SameRequest a (b.transition next) := by
  rw [SequenceInfo.transition]
  split
  · exact ⟨h.seqId, h.channel, h.promptTokens⟩
  · exact h

end SameRequest

lemma SequenceInfo.beginPrefill_sameRequest {seq seq' : SequenceInfo}
    (h : seq.beginPrefill = .ok seq') : SameRequest seq seq' := by
  rw [beginPrefill, SequenceState.transitionTo] at h
  split_ifs at h
  · cases h
    exact ⟨rfl, rfl, rfl⟩
  · cases h

/-- The structured-output matcher refuses nothing. -/
def World.Accepts (w : World) : Prop :=
  ∀ seq : SequenceInfo, seq.structured = true →
    w.maskError seq = none ∧ w.consumeError seq (w.sample seq) = none

namespace Scheduler

/-! ## The checks of a donation -/

/-- The donation of a sequence passes all checks of `donate_finished_sequence_cache`, so that it
reaches the end, where the waiting requests are sent in again. -/
structure Publishes (s : Scheduler) (w : World) (id : SequenceId) (prompt tokens : List Token) :
    Prop where
  promptCache : s.cfg.promptCache = true
  noSnapshots : s.cfg.supportsSnapshotReuse = false
  context : (s.promptCacheSeqCtx id).isSome = true
  detached : ∃ kind set, s.detachable? id (prompt ++ tokens) = some (kind, set) ∧
    set.tokens ≠ [] ∧ (kind = .dense → w.layersAgree id = true) ∧
    set.tokens.length ≤ (prompt ++ tokens).length

variable {s : Scheduler} {w : World} {id : SequenceId} {tokens : List Token} {s' : Scheduler}

variable {prompt : List Token}

lemma donateDetached_unarmed {bucket : Bucket}
    (h : ∃ kind set, s.detachable? id tokens = some (kind, set) ∧ set.tokens ≠ [] ∧
      (kind = .dense → w.layersAgree id = true) ∧ set.tokens.length ≤ tokens.length) :
    (s.donateDetached w id bucket prompt tokens).prefillInProgress.lookup
      (s.cfg.hashTokens prompt) = none := by
  obtain ⟨kind, set, hdetach, hne, hagree, hlen⟩ := h
  have hpass : (set.tokens = [] || (kind == .dense && !w.layersAgree id) ||
      tokens.length < set.tokens.length) = false := by
    have hlayers : (kind == .dense && !w.layersAgree id) = false := by
      cases kind with
      | dense => simp [hagree rfl]
      | paged => rfl
      | snapshot => rfl
    simp [hne, hlayers, hlen]
  rw [donateDetached, hdetach]
  dsimp only
  rw [if_neg (by simp [hpass]), (s.dropSlot_sameBatch id).cfg]
  exact drainPrefillCoalescing_unarmed _ w _

/-- What waits for a sequence is sent in again when its donation passes. -/
lemma Publishes.settled {seq : SequenceInfo} (h : s.Publishes w seq.seqId seq.promptTokens tokens) :
    (s.settleSequence w seq tokens true).prefillInProgress.lookup
      (s.cfg.hashTokens seq.promptTokens) = none := by
  refine ((forget_sameBatch _ _).trans (dropSlot_sameBatch _ _)).unarmed _ ?_
  obtain ⟨bucket, hctx⟩ := Option.isSome_iff_exists.mp h.context
  rw [donateFinishedSequenceCache, if_neg (by simp [h.promptCache]), hctx]
  dsimp only
  have hsnap : (s.forget seq.seqId).cfg.supportsSnapshotReuse = false := h.noSnapshots
  rw [if_neg (by simp [hsnap])]
  exact donateDetached_unarmed (s := s.forget seq.seqId) h.detached

lemma detachable?_append {found : EntryKind × CacheSet} (more : List Token)
    (h : s.detachable? id tokens = some found) :
    s.detachable? id (tokens ++ more) = some found := by
  unfold detachable? at h ⊢
  cases hset : s.cacheSet? id with
  | none => simp [hset] at h
  | some set =>
    simp only [hset] at h ⊢
    cases hbackend : set.backend with
    | modelOwned => simp [hbackend] at h
    | denseKvCache => simpa [hbackend] using h
    | pagedKvCache =>
      simp only [hbackend] at h ⊢
      split_ifs at h with hmin
      have hmin' : ¬ (tokens ++ more).length < s.cfg.minPrefixTokens := by
        rw [length_append]
        omega
      rw [if_neg hmin']
      exact h

lemma Publishes.congr (h : s.Publishes w id prompt tokens) (hcfg : s'.cfg = s.cfg)
    (hctx : s'.promptCacheSeqCtx = s.promptCacheSeqCtx) (hpool : s'.pool = s.pool) :
    s'.Publishes w id prompt tokens where
  promptCache := by rw [hcfg, h.promptCache]
  noSnapshots := by rw [hcfg, h.noSnapshots]
  context := by rw [hctx, h.context]
  detached := by
    have hsame : s'.detachable? id (prompt ++ tokens) = s.detachable? id (prompt ++ tokens) := by
      simp only [detachable?, cacheSet?, hpool, hcfg]
    rw [hsame]
    exact h.detached

lemma Publishes.append (h : s.Publishes w id prompt []) (tokens : List Token) :
    s.Publishes w id prompt tokens where
  promptCache := h.promptCache
  noSnapshots := h.noSnapshots
  context := h.context
  detached := by
    obtain ⟨kind, set, hdetach, hne, hagree, hlen⟩ := h.detached
    rw [append_nil] at hdetach hlen
    refine ⟨kind, set, detachable?_append tokens hdetach, hne, hagree, ?_⟩
    rw [length_append]
    omega

/-! ## `finish_prefill` -/

/-- The token that `finish_prefill` commits. -/
def firstToken (w : World) (seq : SequenceInfo) : Token :=
  (seq.thinking.applyThinkingBudget (w.sample seq)).1

/-- `finish_prefill` leaves nobody waiting: the constraint of the sequence holds, and if the first
token ends it, its donation passes. -/
structure FinishesWell (s : Scheduler) (w : World) (seq : SequenceInfo) : Prop where
  mask : seq.structured = true → w.maskError seq = none
  consume : seq.structured = true → w.consumeError seq (w.sample seq) = none
  publishes : firstToken w seq ∈ mergeTokenIds s.cfg.modelEos seq.sampling.stopTokenIds ∨
    seq.maxTokens ≤ seq.generatedTokens.length + 1 →
    s.Publishes w seq.seqId seq.promptTokens []

variable {p : Allowed} {H : List Held} {I : List Request} {S : List SequenceId} {h : Held}

/-- A sequence in hand that joins the active batch, or may be dropped. -/
structure Joins (p : Allowed) (batch : ActiveBatch) (h : Held) : Prop where
  told : h.told = false
  freed : h.freed = false
  room : batch.isFull = false ∨ p.lose
  armed : batch.isFull = false ∨ h.armed = false

variable (s)

lemma activate_steps {seq : SequenceInfo} (hseq : SameRequest h.seq seq)
    (hjoins : Joins p s.active h) :
    Steps p ⟨s, h :: H, I, S⟩ ⟨s.activate seq, H, I, S⟩ := by
  refine .head (.editHeld hseq) ?_
  rw [activate]
  split
  · exact .single (.activate ‹_› hjoins.told hjoins.freed)
  · exact .single (.lose ‹_› hjoins.told hjoins.freed hjoins.room hjoins.armed)

lemma failStructured_steps (msg : String) (htold : h.told = false)
    (hends : h.armed = false ∨ p.strand) :
    Steps p ⟨s, h :: H, I, S⟩ ⟨s.failStructured h.seq msg, H, I, S⟩ := by
  refine .head (.tell (.error ("structured output: " ++ msg)) rfl htold) ?_
  refine .head (.clear h.seq.seqId) ?_
  refine .head (.absent (.inl (update_self _ _ _))) ?_
  refine .head (.free _) ?_
  rcases hends with harmed | hstrand
  · exact .single (.drop rfl rfl rfl harmed)
  · exact .head (.relieve (.inr (.inr hstrand))) (.single (.drop rfl rfl rfl rfl))

variable (w)

lemma finishOrphan_steps (hjoins : Joins p s.active h) :
    Steps p ⟨s, h :: H, I, S⟩ ⟨s.finishOrphan w h.seq, H, I, S⟩ := by
  have hdrain := s.drainPrefillCoalescing_sameBatch w (s.cfg.hashTokens h.seq.promptTokens)
  refine (s.drainPrefillCoalescing_steps w (s.cfg.hashTokens h.seq.promptTokens)).trans ?_
  rw [← hdrain.active] at hjoins
  refine .head (.quiet ?_) (activate_steps _ ((refl h.seq).transition _) hjoins)
  exact ⟨rfl, rfl, rfl, rfl, rfl, rfl, rfl, rfl, rfl, rfl, [], rfl, by simp⟩

/-- The edits of `finish_prefill` after which the sequence is completed. -/
lemma completeEdited_steps {seq : SequenceInfo} (tokens : List Token)
    (hseq : SameRequest h.seq seq) (htold : h.told = false)
    (hends : h.armed = false ∨ p.strand ∨ s.Publishes w h.seq.seqId h.seq.promptTokens []) :
    Steps p ⟨s, h :: H, I, S⟩ ⟨s.completeSequence w seq tokens, H, I, S⟩ := by
  refine .head (.editHeld hseq) (completeSequence_steps (h := { h with seq := seq }) s w tokens
    htold (hends.imp_right (.imp_right fun hpub => ?_)))
  rw [← hseq.seqId, ← hseq.promptTokens] at hpub
  have hsent : (s.send seq.channel (.done (seq.result tokens))).Publishes w seq.seqId
      seq.promptTokens tokens := (hpub.append tokens).congr rfl rfl rfl
  exact hsent.settled

lemma commitFirstToken_steps (sampled first : Token)
    (thinking : ThinkingState) (hjoins : Joins p s.active h)
    (hends : h.armed = false ∨ p.strand ∨
      (first ∈ mergeTokenIds s.cfg.modelEos h.seq.sampling.stopTokenIds ∨
        h.seq.maxTokens ≤ h.seq.generatedTokens.length + 1 →
        s.Publishes w h.seq.seqId h.seq.promptTokens [])) :
    Steps p ⟨s, h :: H, I, S⟩ ⟨s.commitFirstToken w h.seq sampled first thinking, H, I, S⟩ := by
  rw [commitFirstToken]
  dsimp only
  generalize mergeTokenIds s.cfg.modelEos h.seq.sampling.stopTokenIds = eos at hends ⊢
  split
  · rename_i heos
    have hseq : SameRequest h.seq { h.seq with thinking := thinking } := ⟨rfl, rfl, rfl⟩
    exact completeEdited_steps s w [] (hseq.transition _) hjoins.told
      (hends.imp_right (.imp_right fun hpub => hpub (.inl heos)))
  · generalize hfirst : h.seq.withFirstToken eos first thinking = seq
    have hseq : SameRequest h.seq seq := by
      subst hfirst
      exact ⟨rfl, rfl, rfl⟩
    have hquiet := s.sendToken_quiet w seq first (first == sampled)
    refine hquiet.steps.trans ?_
    rw [← hquiet.active] at hjoins
    split
    · rename_i hlen
      refine completeEdited_steps _ w _ (hseq.transition _) hjoins.told
        (hends.imp_right (.imp_right fun hpub => ?_))
      have hlast : h.seq.maxTokens ≤ h.seq.generatedTokens.length + 1 := by
        subst hfirst
        simpa [withFirstToken] using hlen
      exact (hpub (.inr hlast)).congr hquiet.cfg hquiet.contexts (s.sendToken_pool w seq _ _)
    · split
      · exact .head (.editHeld hseq)
          (abortSequence_steps (h := { h with seq := seq }) _ w _ hjoins.told)
      · exact activate_steps _ (hseq.trans ⟨rfl, rfl, rfl⟩) hjoins

lemma finishPrefill_steps (hjoins : Joins p s.active h)
    (hends : h.armed = false ∨ p.strand ∨ s.FinishesWell w h.seq) :
    Steps p ⟨s, h :: H, I, S⟩ ⟨s.finishPrefill w h.seq, H, I, S⟩ := by
  rw [finishPrefill]
  split
  · exact finishOrphan_steps s w hjoins
  · split
    · rename_i msg hmask
      refine failStructured_steps s msg hjoins.told (hends.imp_right fun hends =>
        hends.resolve_right fun hwell => ?_)
      split_ifs at hmask with hstructured
      rw [hwell.mask hstructured] at hmask
      cases hmask
    · dsimp only
      split
      · rename_i msg hconsume
        refine failStructured_steps s msg hjoins.told (hends.imp_right fun hends =>
          hends.resolve_right fun hwell => ?_)
        split_ifs at hconsume with hstructured
        rw [hwell.consume hstructured] at hconsume
        cases hconsume
      · exact commitFirstToken_steps s w _ _ _ hjoins
          (hends.imp_right (.imp_right fun hwell => hwell.publishes))

/-! ## One sequence at a time -/

variable (ids : List SequenceId) (seq : SequenceInfo) (seqs : List SequenceInfo) (armed : Bool)

/-- The sequence that `finish_prefill` goes on with. -/
def carried (o : Option SequenceInfo) : List Held :=
  (o.map fun seq => { seq := seq, armed := armed }).toList

lemma finishWith_steps {r : Scheduler × Option SequenceInfo} {armed : Bool}
    (hroom : r.1.active.isFull = false ∨ p.lose)
    (harmed : r.1.active.isFull = false ∨ armed = false)
    (hends : armed = false ∨ p.strand ∨ ∀ seq, r.2 = some seq → r.1.FinishesWell w seq) :
    Steps p ⟨r.1, carried armed r.2 ++ H, I, S⟩ ⟨finishWith w r, H, I, S⟩ := by
  obtain ⟨s, o⟩ := r
  cases o with
  | none => exact .refl
  | some seq =>
    exact finishPrefill_steps (h := { seq := seq, armed := armed }) s w ⟨rfl, rfl, hroom, harmed⟩
      (hends.imp_right (.imp_right fun hwell => hwell seq rfl))

/-- A padded forward is work on a cache, whether or not the padding can be taken back. -/
lemma paddedForward_quiet (id : SequenceId) (tokens : List Token) (padding : ℕ) :
    match s.paddedForward w id tokens padding with
    | .ok s' => Quiet s s'
    | .error s' => Quiet s s' := by
  have hforward := s.forward_quiet [(id, tokens ++ .replicate padding 0)]
  rw [paddedForward]
  split_ifs
  · exact hforward
  · exact hforward.trans (trimEnd_quiet _ _ _)

lemma abortCarried_steps (error : String) :
    Steps p ⟨s, { seq := seq, armed := armed } :: H, I, S⟩ ⟨s.abortSequence w seq error, H, I, S⟩ :=
  abortSequence_steps (h := { seq := seq, armed := armed }) s w error rfl

lemma executeFullPrefill_steps : Steps p ⟨s, { seq := seq, armed := armed } :: H, I, S⟩
        ⟨(s.executeFullPrefill w seq).1, carried armed (s.executeFullPrefill w seq).2 ++ H, I, S⟩ ∧
      SameBatch s (s.executeFullPrefill w seq).1 := by
  rw [executeFullPrefill]
  split
  · exact ⟨s.abortCarried_steps w seq armed _, s.abortSequence_sameBatch w seq _⟩
  · split
    · exact ⟨s.abortCarried_steps w seq armed _, s.abortSequence_sameBatch w seq _⟩
    · generalize (if seq.vlmEmbeddings = true then 0 else _) = padding
      have hforward := s.paddedForward_quiet w seq.seqId
        (seq.promptTokens.drop seq.prefillStartOffset) padding
      split <;> rename_i heq <;> rw [heq] at hforward
      · exact ⟨hforward.steps.trans (abortCarried_steps _ w seq armed _),
          hforward.sameBatch.trans (abortSequence_sameBatch _ w seq _)⟩
      · have hquiet := hforward.trans (enforceMaxKvSizeFor_quiet _ seq.seqId)
        exact ⟨hquiet.steps.tail (.editHeld ⟨rfl, rfl, rfl⟩), hquiet.sameBatch⟩

/-- What a chunked prefill does: a chain of steps, while the active batch stays. -/
def Prefills (p : Allowed) (s : Scheduler) (seq : SequenceInfo) (armed : Bool)
    (r : Scheduler × Option SequenceInfo) : Prop :=
  (∀ H I S, Steps p ⟨s, { seq := seq, armed := armed } :: H, I, S⟩
    ⟨r.1, carried armed r.2 ++ H, I, S⟩) ∧ r.1.active = s.active

lemma abortSequence_prefills
    (error : String) : Prefills p s seq armed (s.abortSequence w seq error, none) :=
  ⟨fun _ _ _ => s.abortCarried_steps w seq armed error, (s.abortSequence_sameBatch w seq error).active⟩

lemma Prefills.after {s : Scheduler} {r : Scheduler × Option SequenceInfo} {seq : SequenceInfo} {armed : Bool}
    (h : Prefills p s' seq armed r) (hquiet : Quiet s s') : Prefills p s seq armed r :=
  ⟨fun _ _ _ => hquiet.steps.trans (h.1 _ _ _), h.2.trans hquiet.active⟩

lemma executeChunk_prefills (offset stop : ℕ) (hchunked : s.chunked = none) :
    Prefills p s seq armed (s.executeChunk w seq offset stop) := by
  rw [executeChunk]
  generalize paddingOf s.cfg _ = padding
  have hforward := s.paddedForward_quiet w seq.seqId
    ((seq.promptTokens.drop offset).take (stop - offset)) padding
  dsimp only
  split <;> rename_i heq <;> rw [heq] at hforward
  · exact (abortSequence_prefills _ w seq armed _).after hforward
  · have hquiet := hforward.trans (enforceMaxKvSizeFor_quiet _ seq.seqId)
    have hedit : SameRequest seq { seq with prefillOffset := stop } := ⟨rfl, rfl, rfl⟩
    split
    · exact ⟨fun _ _ _ => hquiet.steps.tail (.editHeld hedit), hquiet.active⟩
    · refine ⟨fun _ _ _ => hquiet.steps.trans (.head (.editHeld hedit) ?_), hquiet.active⟩
      exact .single (.toChunked (hquiet.chunked.trans hchunked) rfl rfl)

lemma startChunkedPrefill_prefills
    (hchunked : s.chunked = none) : Prefills p s seq armed (s.startChunkedPrefill w seq) := by
  rw [startChunkedPrefill]
  split
  · exact s.abortSequence_prefills w seq armed _
  · split
    · exact s.abortSequence_prefills w seq armed _
    · split
      · exact s.abortSequence_prefills w seq armed _
      · exact s.executeChunk_prefills w seq armed _ _ hchunked

lemma continueChunkedPrefill_prefills :
    (∀ H I S, Steps p ⟨s, H, I, S⟩ ⟨(s.continueChunkedPrefill w).1,
        carried true (s.continueChunkedPrefill w).2 ++ H, I, S⟩) ∧
      (s.continueChunkedPrefill w).1.active = s.active := by
  rw [continueChunkedPrefill]
  split
  · exact ⟨fun _ _ _ => .refl, rfl⟩
  · rename_i seq hchunked
    have hresumed : ∀ {r}, Prefills p { s with chunked := none } seq true r →
        (∀ H I S, Steps p ⟨s, H, I, S⟩ ⟨r.1, carried true r.2 ++ H, I, S⟩) ∧
          r.1.active = s.active :=
      fun h => ⟨fun _ _ _ => .head (.fromChunked hchunked) (h.1 _ _ _), h.2⟩
    dsimp only
    split
    · exact hresumed (abortSequence_prefills _ w seq true _)
    · split
      · exact hresumed (abortSequence_prefills _ w seq true _)
      · exact hresumed (executeChunk_prefills _ w seq true _ _ rfl)

/-! ## Preemption and the block budget -/

/-- What preemption and eviction from the store do to the rest of the scheduler. -/
structure Preempts (s s' : Scheduler) : Prop where
  cfg : s'.cfg = s.cfg
  chunked : s'.chunked = s.chunked
  contexts : s'.promptCacheSeqCtx = s.promptCacheSeqCtx
  prefill : s'.prefillInProgress = s.prefillInProgress
  maxSize : s'.active.maxSize = s.active.maxSize
  subset : s'.active.sequences ⊆ s.active.sequences
  len : s'.active.len ≤ s.active.len

namespace Preempts

lemma refl (s : Scheduler) : Preempts s s :=
  ⟨rfl, rfl, rfl, rfl, rfl, Subset.refl _, le_refl _⟩

lemma trans {s s' s'' : Scheduler} (h : Preempts s s') (h' : Preempts s' s'') : Preempts s s'' :=
  ⟨h'.cfg.trans h.cfg, h'.chunked.trans h.chunked, h'.contexts.trans h.contexts,
    h'.prefill.trans h.prefill, h'.maxSize.trans h.maxSize, Subset.trans h'.subset h.subset,
    h'.len.trans h.len⟩

lemma isFull {s s' : Scheduler} (h : Preempts s s') (hs : s.active.isFull = false) :
    s'.active.isFull = false := by
  have hlen := h.len
  simp only [ActiveBatch.isFull, decide_eq_false_iff_not, h.maxSize] at hs ⊢
  omega

end Preempts

lemma Quiet.preempts {s : Scheduler} (h : Quiet s s') : Preempts s s' :=
  ⟨h.cfg, h.chunked, h.contexts, h.prefill, by rw [h.active], by rw [h.active]; exact Subset.refl _,
    by rw [h.active]⟩

/-- Nothing of a preempted sequence stays behind. -/
structure EvictsWell (p : Allowed) (s : Scheduler) : Prop where
  contexts : p.keepCtx ∨ ∀ seq ∈ s.active.sequences, seq.structured = false →
    s.promptCacheSeqCtx seq.seqId = none
  unarmed : p.strand ∨ ∀ seq ∈ s.active.sequences,
    s.prefillInProgress.lookup (s.cfg.hashTokens seq.promptTokens) = none

lemma EvictsWell.mono {s : Scheduler} (h : EvictsWell p s) (hp : Preempts s s') :
    EvictsWell p s' where
  contexts := h.contexts.imp_right fun hctx seq hseq => by
    rw [hp.contexts]
    exact hctx seq (hp.subset hseq)
  unarmed := h.unarmed.imp_right fun hctx seq hseq => by
    rw [hp.prefill, hp.cfg]
    exact hctx seq (hp.subset hseq)

/-- Only the slots, the queue and the log change when a victim goes back, and the queue only by a
sequence of its priority. -/
lemma requeueVictim_fields (victim : SequenceInfo) :
    (s.requeueVictim victim).cfg = s.cfg ∧ (s.requeueVictim victim).active = s.active ∧
      (s.requeueVictim victim).chunked = s.chunked ∧
      (s.requeueVictim victim).promptCacheSeqCtx = s.promptCacheSeqCtx ∧
      (s.requeueVictim victim).prefillInProgress = s.prefillInProgress ∧
      ((s.requeueVictim victim).queue = s.queue ∨ ∃ seq, seq.priority = victim.priority ∧
        s.queue.enqueue seq = some (s.requeueVictim victim).queue) := by
  rw [requeueVictim]
  dsimp only
  split
  · simp [send, note, releaseSequenceCaches]
  · rename_i halloc
    obtain ⟨-, rfl⟩ := allocateSequenceState_spec halloc
    split
    · simp [send, note, releaseSequenceCaches, insertSlot]
    · split
      · rename_i henqueue
        simp only [note, releaseSequenceCaches, insertSlot, dropSlot_fields, true_and] at henqueue ⊢
        refine .inr ⟨_, ?_, henqueue⟩
        rfl
      · simp [send, note, releaseSequenceCaches, insertSlot]

lemma requeueVictim_steps (victim : SequenceInfo)
    (hctx : s.promptCacheSeqCtx victim.seqId = none ∨ p.keepCtx)
    (hwait : s.prefillInProgress.lookup (s.cfg.hashTokens victim.promptTokens) = none ∨ p.strand) :
    Steps p ⟨s, { seq := victim, armed := true } :: H, I, S⟩ ⟨s.requeueVictim victim, H, I, S⟩ := by
  have hleave : Steps p ⟨s, { seq := victim, armed := true } :: H, I, S⟩
      ⟨s.dropSlot victim.seqId,
        { seq := victim, freed := true, forgotten := true } :: H, I, S⟩ := by
    refine .head (.absent hctx) ?_
    refine .head (.relieve (hwait.imp_right .inr)) ?_
    exact .single (.free _)
  refine hleave.trans ?_
  rw [requeueVictim]
  dsimp only
  split
  · exact .head (.tell (.error _) rfl rfl) (.single (.drop rfl rfl rfl rfl))
  · rename_i halloc
    obtain ⟨rfl, rfl⟩ := allocateSequenceState_spec halloc
    refine .head (.alloc [] []) ?_
    split
    · refine .head (.abandon _) ?_
      exact .head (.tell (.error _) rfl rfl) (.single (.drop rfl rfl rfl rfl))
    · rename_i state _
      refine .head (.rebind { resetForPrefill victim _ with state := state } rfl rfl rfl rfl rfl
        rfl) ?_
      split
      · exact .single (.push ‹_› rfl rfl rfl)
      · refine .head (.free _) ?_
        exact .head (.tell (.error _) rfl rfl) (.single (.drop rfl rfl rfl rfl))

lemma tryEvictForPreemption_preempts : Preempts s s.tryEvictForPreemption.1 ∧
      (s.tryEvictForPreemption.2 = true → s.tryEvictForPreemption.1.active.len < s.active.len) := by
  rw [tryEvictForPreemption]
  split
  · exact ⟨.refl s, by simp⟩
  · split
    · exact ⟨.refl s, by simp⟩
    · rename_i victim batch hremove
      obtain ⟨hperm, -, hmax⟩ := remove_spec hremove
      obtain ⟨hcfg, hactive, hchunked, hctx, hprefill, -⟩ :=
        requeueVictim_fields { s with active := batch } victim
      have hlen : batch.len < s.active.len := by
        have := hperm.length_eq
        simp only [len, length_cons] at this ⊢
        omega
      refine ⟨⟨hcfg, hchunked, hctx, hprefill, ?_, ?_, ?_⟩, fun _ => ?_⟩
      · rw [hactive]
        exact hmax
      · rw [hactive]
        exact fun seq hseq => hperm.mem_iff.mpr (mem_cons_of_mem _ hseq)
      · rw [hactive]
        exact hlen.le
      · rw [hactive]
        exact hlen

lemma tryEvictForPreemption_steps (he : EvictsWell p s) :
    Steps p ⟨s, H, I, S⟩ ⟨s.tryEvictForPreemption.1, H, I, S⟩ := by
  rw [tryEvictForPreemption]
  split
  · exact .refl
  · rename_i id hselect
    split
    · exact .refl
    · rename_i victim batch hremove
      obtain ⟨hperm, hid, -⟩ := remove_spec hremove
      refine .head (.deactivate hremove) (requeueVictim_steps _ victim ?_ ?_)
      · refine he.contexts.symm.imp_left fun hctx => ?_
        obtain ⟨seq, hseq, hfree, rfl⟩ := exists_of_selectEvictionVictim hselect
        rw [hid]
        exact hctx seq hseq hfree
      · exact he.unarmed.symm.imp_left fun hwait => hwait victim (hperm.mem_iff.mpr (by simp))

lemma preemptUntilRoom_steps (need : ℕ) (rounds : ℕ) (s : Scheduler) (he : EvictsWell p s) :
    Steps p ⟨s, H, I, S⟩ ⟨s.preemptUntilRoom need rounds, H, I, S⟩ ∧
      Preempts s (s.preemptUntilRoom need rounds) := by
  induction rounds generalizing s with
  | zero => exact ⟨.refl, .refl s⟩
  | succ rounds ih =>
    have hstep := s.tryEvictForPreemption_steps (H := H) (I := I) (S := S) he
    have hpre := s.tryEvictForPreemption_preempts.1
    rw [preemptUntilRoom]
    split
    · exact ⟨.refl, .refl s⟩
    · split <;> rename_i heq <;> rw [heq] at hstep hpre
      · obtain ⟨hsteps, hpreempts⟩ := ih _ (he.mono hpre)
        exact ⟨hstep.trans hsteps, hpre.trans hpreempts⟩
      · exact ⟨hstep, hpre⟩

lemma reclaimPagedBlocks_steps (need : ℕ) (he : EvictsWell p s) :
    Steps p ⟨s, H, I, S⟩ ⟨s.reclaimPagedBlocks w need, H, I, S⟩ ∧
      Preempts s (s.reclaimPagedBlocks w need) := by
  rw [reclaimPagedBlocks]
  split
  · have hevict := evictUntilRoom_quiet w need s.store.length s
    obtain ⟨hsteps, hpre⟩ := preemptUntilRoom_steps (H := H) (I := I) (S := S) need
      ((s.evictUntilRoom w need s.store.length).active.len + 1) _ (he.mono hevict.preempts)
    exact ⟨hevict.steps.trans hsteps, hevict.preempts.trans hpre⟩
  · exact preemptUntilRoom_steps need _ s he

lemma admitPagedPrefill_steps
    (he : s.hasRoom (s.estimatePrefillBlocks seq.promptTokens.length) = true ∨ EvictsWell p s) :
    Steps p ⟨s, { seq := seq } :: H, I, S⟩
      ⟨(s.admitPagedPrefill w seq).1, carried false (s.admitPagedPrefill w seq).2 ++ H, I, S⟩ ∧
    ((s.admitPagedPrefill w seq).2.isSome = true → Preempts s (s.admitPagedPrefill w seq).1) := by
  rw [admitPagedPrefill]
  split
  · exact ⟨.refl, fun _ => .refl s⟩
  · dsimp only
    split
    · exact ⟨.refl, fun _ => .refl s⟩
    · split
      · exact ⟨s.abortCarried_steps w seq false _, by simp⟩
      · split
        · exact ⟨.refl, fun _ => .refl s⟩
        · rename_i hroom
          obtain ⟨hsteps, hpre⟩ := s.reclaimPagedBlocks_steps (H := { seq := seq } :: H) (I := I)
            (S := S) w (s.estimatePrefillBlocks seq.promptTokens.length) (he.resolve_left hroom)
          split
          · exact ⟨hsteps, fun _ => hpre⟩
          · split
            · refine ⟨hsteps.trans ?_, by simp⟩
              exact .single (.push ‹_› rfl rfl rfl)
            · refine ⟨hsteps.trans ?_, by simp⟩
              exact turnAway_steps (h := { seq := seq }) _ _ rfl rfl

/-! ## Speculative bursts -/

lemma streamBurst_quiet (eos : List Token) (maxTokens : ℕ) (tokens : List Token)
    (s : Scheduler) (seq : SequenceInfo) :
    Quiet s (streamBurst w eos maxTokens s seq tokens).1 ∧
      SameRequest seq (streamBurst w eos maxTokens s seq tokens).2 := by
  induction tokens generalizing s seq with
  | nil => exact ⟨.refl s, .refl seq⟩
  | cons token tokens ih =>
    rw [streamBurst]
    split
    · exact ⟨.refl s, .refl seq⟩
    · dsimp only
      split
      · exact ⟨.refl s, ⟨rfl, rfl, rfl⟩⟩
      · obtain ⟨hquiet, hseq⟩ := ih (s.sendToken w _ _ _) _
        exact ⟨(sendToken_quiet _ _ _ _ _).trans hquiet,
          hseq.seqId, hseq.channel, hseq.promptTokens⟩

lemma finalizeBurstSuccess_steps (tokens fed : List Token) : Steps p ⟨s, { seq := seq } :: H, I, S⟩
      ⟨(s.finalizeBurstSuccess w seq tokens fed).1,
        { seq := (s.finalizeBurstSuccess w seq tokens fed).2, told := true } :: H, I, S⟩ := by
  rw [finalizeBurstSuccess]
  have hfed := s.modifySet_quiet seq.seqId (f := fun set => { set with tokens := fed }) fun _ => rfl
  generalize s.modifySet seq.seqId _ = s₁ at hfed ⊢
  obtain ⟨hquiet, hseq⟩ := streamBurst_quiet w
    (mergeTokenIds s₁.cfg.modelEos seq.sampling.stopTokenIds) (max seq.maxTokens 1) tokens s₁
    (seq.transition .prefilling)
  refine (hfed.trans hquiet).steps.trans ?_
  refine .head (.editHeld (((refl seq).transition _).trans hseq)) ?_
  exact .single (.tell (.done _) rfl rfl)

/-- Rows in hand that nothing has been done with. -/
abbrev freshRows (rows : List SequenceInfo) : List Held :=
  rows.map fun row => { seq := row }

/-- Rows in hand that have been told their result. -/
def toldRows (rows : List SequenceInfo) : List Held :=
  rows.map fun row => { seq := row, told := true }

/-- What is done with every row in turn, while the others are in hand. -/
lemma rows_shuffle {s : Scheduler} {h : Held} (rows : List Held) :
    Steps p ⟨s, h :: (rows ++ H), I, S⟩ ⟨s, rows ++ h :: H, I, S⟩ ∧
      Steps p ⟨s, rows ++ h :: H, I, S⟩ ⟨s, h :: (rows ++ H), I, S⟩ :=
  ⟨.single (.shuffle perm_middle.symm), .single (.shuffle perm_middle)⟩

lemma finalizeRows_steps (tokens fed : SequenceInfo → List Token)
    (seqs : List SequenceInfo) (s : Scheduler) :
    Steps p ⟨s, freshRows seqs ++ H, I, S⟩
      ⟨(finalizeRows w tokens fed s seqs).1, toldRows (finalizeRows w tokens fed s seqs).2 ++ H,
        I, S⟩ := by
  induction seqs generalizing s H with
  | nil => exact .refl
  | cons seq seqs ih =>
    refine (s.finalizeBurstSuccess_steps w seq (tokens seq) (fed seq)).trans ?_
    exact ((rows_shuffle _).1.trans (ih _)).trans (rows_shuffle _).2

lemma emitErrors_steps (msg : String) (seqs : List SequenceInfo) (s : Scheduler) :
    Steps p ⟨s, freshRows seqs ++ H, I, S⟩
      ⟨seqs.foldl (fun s seq => s.emitErrorAndFinalize seq msg) s, toldRows seqs ++ H, I, S⟩ := by
  induction seqs generalizing s H with
  | nil => exact .refl
  | cons seq seqs ih =>
    refine .head (.tell (.error ("Speculative burst: " ++ msg)) rfl rfl) ?_
    exact ((rows_shuffle _).1.trans (ih _)).trans (rows_shuffle _).2

lemma settleRows_steps (healthy : Bool) (rows : List SequenceInfo) (s : Scheduler) :
    Steps p ⟨s, toldRows rows ++ H, I, S⟩ ⟨s.settleRows w rows healthy, H, I, S⟩ := by
  induction rows generalizing s with
  | nil => exact .refl
  | cons row rows ih =>
    exact (settleSequence_steps (h := { seq := row, told := true }) s w row.generatedTokens healthy
      rfl (.inl rfl)).trans (ih _)

lemma requeueSiblings_steps (error : String) (siblings : List SequenceInfo) (s : Scheduler) :
    Steps p ⟨s, freshRows siblings ++ H, I, S⟩
        ⟨s.requeueSiblings w siblings error, H, I, S⟩ ∧
      SameBatch s (s.requeueSiblings w siblings error) := by
  induction siblings generalizing s with
  | nil => exact ⟨.refl, .refl s⟩
  | cons seq siblings ih =>
    rw [requeueSiblings, foldl_cons]
    split
    · rename_i queue hqueue
      obtain ⟨hsteps, hbatch⟩ := ih { s with queue := queue }
      exact ⟨.head (.push hqueue rfl rfl rfl) hsteps, (s.queue_sameBatch queue).trans hbatch⟩
    · obtain ⟨hsteps, hbatch⟩ := ih ((s.forget seq.seqId).abortSequence w seq error)
      have habort := (s.forget_sameBatch seq.seqId).trans
        (abortSequence_sameBatch _ w seq error)
      refine ⟨.head (.clear seq.seqId) ?_, habort.trans hbatch⟩
      exact (abortCarried_steps _ w seq false error).trans hsteps

lemma runBurst_steps (head : SequenceInfo) (siblings : List SequenceInfo) :
    Steps p ⟨s, freshRows siblings ++ { seq := head } :: H, I, S⟩
        ⟨(s.runBurst w head siblings).1, carried false (s.runBurst w head siblings).2 ++ H, I, S⟩ ∧
      ((s.runBurst w head siblings).2.isSome = true → SameBatch s (s.runBurst w head siblings).1) := by
  rw [runBurst]
  split
  · rename_i hnone
    have hempty : siblings = [] := by
      simp only [Bool.and_eq_true, decide_eq_true_eq] at hnone
      exact hnone.1.1
    subst hempty
    exact ⟨.refl, fun _ => .refl s⟩
  · split
    · obtain ⟨hsteps, hbatch⟩ := requeueSiblings_steps (p := p) (H := { seq := head } :: H) (I := I)
        (S := S) w "MTP batched speculative burst declined and prefill queue full" siblings s
      exact ⟨hsteps, fun _ => hbatch⟩
    · have hrows := (rows_shuffle (p := p) (s := s) (H := H) (I := I) (S := S)
        (h := { seq := head }) (freshRows siblings)).2
      split
      · obtain ⟨hsteps, hbatch⟩ := requeueSiblings_steps (p := p) (H := { seq := head } :: H)
          (I := I) (S := S) w "speculative burst declined and prefill queue full" siblings s
        exact ⟨hsteps, fun _ => hbatch⟩
      · refine ⟨hrows.trans ?_, by simp⟩
        exact (emitErrors_steps _ (head :: siblings) s).trans (settleRows_steps w false _ _)
      · refine ⟨hrows.trans ?_, by simp⟩
        exact (finalizeRows_steps w _ _ (head :: siblings) s).trans (settleRows_steps w true _ _)

lemma trySpeculativeBurst_steps : Steps p ⟨s, { seq := seq } :: H, I, S⟩
        ⟨(s.trySpeculativeBurst w seq).1, carried false (s.trySpeculativeBurst w seq).2 ++ H, I, S⟩ ∧
      ((s.trySpeculativeBurst w seq).2.isSome = true →
        SameBatch s (s.trySpeculativeBurst w seq).1) := by
  rw [trySpeculativeBurst]
  split
  · exact ⟨.refl, fun _ => .refl s⟩
  · split
    · have hpull := s.queue.drainMatchingWindow_spec seq.priority (s.active.maxSize - 1)
        (joinsWindow s.cfg seq)
      generalize s.queue.drainMatchingWindow seq.priority (s.active.maxSize - 1)
        (joinsWindow s.cfg seq) = out at hpull ⊢
      obtain ⟨hsteps, hbatch⟩ := runBurst_steps (p := p) (H := H) (I := I) (S := S)
        { s with queue := out.2 } w seq out.1
      exact ⟨.head (.pull hpull) hsteps, fun hsome =>
        (s.queue_sameBatch out.2).trans (hbatch hsome)⟩
    · exact runBurst_steps s w seq []

/-! ## `execute_prefill` -/

lemma prefillSequence_steps (hchunked : s.chunked = none) :
    (∃ armed, Steps p ⟨s, { seq := seq } :: H, I, S⟩
        ⟨(s.prefillSequence w seq).1, carried armed (s.prefillSequence w seq).2 ++ H, I, S⟩) ∧
      (s.prefillSequence w seq).1.active = s.active := by
  rw [prefillSequence]
  split
  · exact ⟨⟨false, s.abortCarried_steps w seq false _⟩, (s.abortSequence_sameBatch w seq _).active⟩
  · rename_i seq' hbegin
    have hbegun := beginPrefill_sameRequest hbegin
    -- arming is the only difference that prefill decoupling makes here
    have harm : ∃ armed, Steps p ⟨s, { seq := seq } :: H, I, S⟩
        ⟨s.arm (s.cfg.hashTokens seq'.promptTokens), { seq := seq', armed := armed } :: H, I, S⟩ ∧
        (s.arm (s.cfg.hashTokens seq'.promptTokens)).chunked = none ∧
        (s.arm (s.cfg.hashTokens seq'.promptTokens)).active = s.active := by
      rw [arm]
      split
      · exact ⟨true, .head (.editHeld hbegun) (.single (.arm rfl)), hchunked, rfl⟩
      · exact ⟨false, .single (.editHeld hbegun), hchunked, rfl⟩
    obtain ⟨armed, hsteps, hchunked', hactive⟩ := harm
    generalize s.arm (s.cfg.hashTokens seq'.promptTokens) = s' at hsteps hchunked' hactive ⊢
    dsimp only
    split
    · have hstart := s'.startChunkedPrefill_prefills (p := p) w seq' armed hchunked'
      exact ⟨⟨armed, hsteps.trans (hstart.1 _ _ _)⟩, hstart.2.trans hactive⟩
    · obtain ⟨hfull, hbatch⟩ := s'.executeFullPrefill_steps (p := p) (H := H) (I := I) (S := S) w
        seq' armed
      exact ⟨⟨armed, hsteps.trans hfull⟩, hbatch.active.trans hactive⟩

lemma prefillDequeued_steps (hchunked : s.chunked = none)
    (he : s.hasRoom (s.estimatePrefillBlocks seq.promptTokens.length) = true ∨ EvictsWell p s) :
    (∃ armed, Steps p ⟨s, { seq := seq } :: H, I, S⟩
        ⟨(s.prefillDequeued w seq).1, carried armed (s.prefillDequeued w seq).2 ++ H, I, S⟩) ∧
      ((s.prefillDequeued w seq).2.isSome = true → s.active.isFull = false →
        (s.prefillDequeued w seq).1.active.isFull = false) := by
  obtain ⟨hlet, hpre⟩ := s.admitPagedPrefill_steps (H := H) (I := I) (S := S) w seq he
  rw [prefillDequeued]
  split <;> rename_i hadmitted <;> rw [hadmitted] at hlet hpre
  · exact ⟨⟨false, hlet⟩, by simp⟩
  · rename_i s₁ seq₁
    have hpre := hpre rfl
    obtain ⟨hburst, hbatch⟩ := s₁.trySpeculativeBurst_steps (p := p) (H := H) (I := I) (S := S) w
      seq₁
    split <;> rename_i hbursted <;> rw [hbursted] at hburst hbatch
    · exact ⟨⟨false, hlet.trans hburst⟩, by simp⟩
    · rename_i s₂ seq₂
      have hbatch := hbatch rfl
      have hnone : s₂.chunked = none := hbatch.chunked.trans (hpre.chunked.trans hchunked)
      obtain ⟨⟨armed, hsteps⟩, hactive⟩ := s₂.prefillSequence_steps (p := p) (H := H) (I := I)
        (S := S) w seq₂ hnone
      refine ⟨⟨armed, hlet.trans (hburst.trans hsteps)⟩, fun _ hroom => ?_⟩
      rw [hactive, hbatch.active]
      exact hpre.isFull hroom

/-- Whether a prefill of the next sequence may preempt others: the batch is full, or the prompt does
not fit the free blocks. -/
def mayPreempt (s : Scheduler) : Bool :=
  s.active.isFull && s.cfg.enablePreemption ||
    match s.queue.dequeue with
    | none => false
    | some (seq, _) => !s.hasRoom (s.estimatePrefillBlocks seq.promptTokens.length)

lemma prefillNext_steps (hchunked : s.chunked = none)
    (he : (∀ seq queue, s.queue.dequeue = some (seq, queue) →
      s.hasRoom (s.estimatePrefillBlocks seq.promptTokens.length) = true) ∨ EvictsWell p s) :
    (∃ armed, Steps p ⟨s, H, I, S⟩
        ⟨(s.prefillNext w).1, carried armed (s.prefillNext w).2 ++ H, I, S⟩) ∧
      ((s.prefillNext w).2.isSome = true → s.active.isFull = false →
        (s.prefillNext w).1.active.isFull = false) := by
  rw [prefillNext]
  split
  · exact ⟨⟨false, .refl⟩, by simp⟩
  · rename_i seq queue hdequeue
    have hpull : s.queue.all.Perm ([seq] ++ queue.all) :=
      .of_eq (PrefillQueue.dequeue_spec hdequeue).1
    have he' : { s with queue := queue }.hasRoom
        ({ s with queue := queue }.estimatePrefillBlocks seq.promptTokens.length) = true ∨
        EvictsWell p { s with queue := queue } :=
      he.imp (fun hroom => hroom seq queue hdequeue) fun h => ⟨h.contexts, h.unarmed⟩
    obtain ⟨⟨armed, hsteps⟩, hroom⟩ := prefillDequeued_steps (p := p) (H := H) (I := I) (S := S)
      { s with queue := queue } w seq hchunked he'
    exact ⟨⟨armed, .head (.pull hpull) hsteps⟩, hroom⟩

lemma executePrefill_steps (hcap : s.active.len ≤ s.active.maxSize)
    (he : s.chunked = none → s.mayPreempt = false ∨ EvictsWell p s) :
    (∃ armed, Steps p ⟨s, H, I, S⟩
        ⟨(s.executePrefill w).1, carried armed (s.executePrefill w).2 ++ H, I, S⟩) ∧
      ((s.executePrefill w).2.isSome = true →
        s.active.isFull = false ∨ s.chunked = none ∧ s.cfg.enablePreemption = true →
        (s.executePrefill w).1.active.isFull = false) := by
  rw [executePrefill]
  split
  · rename_i hsome
    have hcontinue := s.continueChunkedPrefill_prefills (p := p) w
    refine ⟨⟨true, hcontinue.1 _ _ _⟩, fun _ hroom => ?_⟩
    rcases hroom with hroom | ⟨hnone, -⟩
    · rwa [hcontinue.2]
    · simp [hnone] at hsome
  · rename_i hnone
    rw [Option.not_isSome_iff_eq_none] at hnone
    split
    · rename_i hfull
      have hevicts : EvictsWell p s := (he hnone).resolve_left (by simp [mayPreempt, hfull])
      have hsteps := s.tryEvictForPreemption_steps (H := H) (I := I) (S := S) hevicts
      obtain ⟨hpre, hlen⟩ := s.tryEvictForPreemption_preempts
      split <;> rename_i s₁ heq <;> rw [heq] at hsteps hpre hlen
      · exact ⟨⟨false, hsteps⟩, by simp⟩
      · have hroom : s₁.active.isFull = false := by
          have hlen : s₁.active.len < s.active.len := hlen rfl
          have hmax : s₁.active.maxSize = s.active.maxSize := hpre.maxSize
          simp only [isFull, decide_eq_false_iff_not]
          omega
        obtain ⟨⟨armed, hnext⟩, hkeep⟩ := s₁.prefillNext_steps (p := p) (H := H) (I := I) (S := S) w
          (hpre.chunked.trans hnone) (.inr (hevicts.mono hpre))
        exact ⟨⟨armed, hsteps.trans hnext⟩, fun hsome _ => hkeep hsome hroom⟩
    · rename_i hfull
      have he' : (∀ seq queue, s.queue.dequeue = some (seq, queue) →
          s.hasRoom (s.estimatePrefillBlocks seq.promptTokens.length) = true) ∨ EvictsWell p s := by
        refine (he hnone).imp_left fun hmay seq queue hdequeue => ?_
        simpa [mayPreempt, hfull, hdequeue] using hmay
      obtain ⟨hsteps, hkeep⟩ := s.prefillNext_steps (p := p) (H := H) (I := I) (S := S) w hnone he'
      refine ⟨hsteps, fun hsome hroom => hkeep hsome (hroom.elim id fun hpre => ?_)⟩
      simpa [hpre.2] using hfull

/-! ## `execute_batched_prefill` -/

/-- At most `n` sequences join the active batch, and the chunked prefill is left alone. -/
structure Grows (n : ℕ) (s s' : Scheduler) : Prop where
  chunked : s'.chunked = s.chunked
  maxSize : s'.active.maxSize = s.active.maxSize
  len : s'.active.len ≤ s.active.len + n

lemma SameBatch.grows {s : Scheduler} (h : SameBatch s s') (n : ℕ) : Grows n s s' :=
  ⟨h.chunked, by rw [h.active], by rw [h.active]; omega⟩

lemma Grows.trans {s : Scheduler} {m n : ℕ} {s'' : Scheduler} (h : Grows m s s') (h' : Grows n s' s'') :
    Grows (m + n) s s'' where
  chunked := h'.chunked.trans h.chunked
  maxSize := h'.maxSize.trans h.maxSize
  len := by
    have h₁ := h.len
    have h₂ := h'.len
    omega

lemma activate_grows : Grows 1 s (s.activate seq) := by
  rw [activate]
  split
  · rename_i hadd
    obtain ⟨-, rfl⟩ := add_spec hadd
    exact ⟨rfl, rfl, by simp [len]⟩
  · exact (SameBatch.refl s).grows 1

lemma finishPrefill_grows : Grows 1 s (s.finishPrefill w seq) := by
  have hfail : ∀ msg, SameBatch s (s.failStructured seq msg) := fun msg =>
    (s.note_sameBatch _).trans ((forget_sameBatch _ _).trans (dropSlot_sameBatch _ _))
  rw [finishPrefill]
  split
  · have hdrain := s.drainPrefillCoalescing_sameBatch w (s.cfg.hashTokens seq.promptTokens)
    have hcount : SameBatch (s.drainPrefillCoalescing w (s.cfg.hashTokens seq.promptTokens))
      { s.drainPrefillCoalescing w (s.cfg.hashTokens seq.promptTokens) with
        orphanedPrefillCount :=
          (s.drainPrefillCoalescing w (s.cfg.hashTokens seq.promptTokens)).orphanedPrefillCount -
            1 } := ⟨rfl, rfl, rfl, fun _ h => h⟩
    exact ((hdrain.trans hcount).grows 0).trans (activate_grows _ _)
  · split
    · exact (hfail _).grows 1
    · dsimp only
      split
      · exact (hfail _).grows 1
      · rw [commitFirstToken]
        dsimp only
        split
        · exact (s.completeSequence_sameBatch w _ _).grows 1
        · generalize seq.withFirstToken _ _ _ = seq'
          have hsent := (s.sendToken_quiet w seq'
            (seq.thinking.applyThinkingBudget (w.sample seq)).1
            ((seq.thinking.applyThinkingBudget (w.sample seq)).1 == w.sample seq)).sameBatch
          split
          · exact (hsent.trans (completeSequence_sameBatch _ w _ _)).grows 1
          · split
            · exact (hsent.trans (abortSequence_sameBatch _ w _ _)).grows 1
            · exact (hsent.grows 0).trans (activate_grows _ _)

/-- Room for so many more sequences, or leave to drop some. -/
def RoomFor (p : Allowed) (s : Scheduler) (n : ℕ) : Prop :=
  s.active.len + n ≤ s.active.maxSize ∨ p.lose

lemma RoomFor.isFull {s : Scheduler} {n : ℕ} (h : RoomFor p s (n + 1)) : s.active.isFull = false ∨ p.lose := by
  refine h.imp_left fun hroom => ?_
  simp only [ActiveBatch.isFull, decide_eq_false_iff_not]
  omega

lemma RoomFor.after {s : Scheduler} {m n : ℕ} (h : RoomFor p s (m + n)) (hg : Grows m s s') : RoomFor p s' n := by
  refine h.imp_left fun hroom => ?_
  have hlen := hg.len
  rw [hg.maxSize]
  omega

/-- The rows of a window, one after another. -/
lemma foldRows_steps {f : Scheduler → SequenceInfo → Scheduler}
    (hf : ∀ s seq H, (s.active.isFull = false ∨ p.lose) →
      Steps p ⟨s, { seq := seq } :: H, I, S⟩ ⟨f s seq, H, I, S⟩ ∧ Grows 1 s (f s seq))
    (seqs : List SequenceInfo) (s : Scheduler) (hroom : RoomFor p s seqs.length) :
    Steps p ⟨s, freshRows seqs ++ H, I, S⟩ ⟨seqs.foldl f s, H, I, S⟩ ∧
      Grows seqs.length s (seqs.foldl f s) := by
  induction seqs generalizing s with
  | nil => exact ⟨.refl, (SameBatch.refl s).grows 0⟩
  | cons seq seqs ih =>
    obtain ⟨hrow, hgrow⟩ := hf s seq _ hroom.isFull
    have hfirst : RoomFor p s (1 + seqs.length) := by rwa [Nat.add_comm]
    obtain ⟨hsteps, hgrows⟩ := ih (f s seq) (hfirst.after hgrow)
    refine ⟨hrow.trans hsteps, ?_⟩
    rw [length_cons, Nat.add_comm]
    exact hgrow.trans hgrows

lemma finishFullPrefill_steps (hroom : s.active.isFull = false ∨ p.lose) :
    Steps p ⟨s, { seq := seq } :: H, I, S⟩
        ⟨finishWith w (s.executeFullPrefill w seq), H, I, S⟩ ∧
      Grows 1 s (finishWith w (s.executeFullPrefill w seq)) := by
  obtain ⟨hsteps, hbatch⟩ := s.executeFullPrefill_steps (p := p) (H := H) (I := I) (S := S) w seq
    false
  refine ⟨hsteps.trans (finishWith_steps w ?_ (.inr rfl) (.inl rfl)), ?_⟩
  · rwa [hbatch.active]
  · generalize s.executeFullPrefill w seq = r at hbatch ⊢
    obtain ⟨s', o⟩ := r
    cases o with
    | none => exact hbatch.grows 1
    | some seq' => exact (hbatch.grows 0).trans (s'.finishPrefill_grows w seq')

lemma prefillWhole_steps (hroom : s.active.isFull = false ∨ p.lose) :
    Steps p ⟨s, { seq := seq } :: H, I, S⟩ ⟨s.prefillWhole w seq, H, I, S⟩ ∧
      Grows 1 s (s.prefillWhole w seq) := by
  rw [prefillWhole]
  split
  · exact ⟨s.abortCarried_steps w seq false _, (s.abortSequence_sameBatch w seq _).grows 1⟩
  · rename_i hbegin
    exact (s.finishFullPrefill_steps w _ hroom).imp_left
      (.head (.editHeld (beginPrefill_sameRequest hbegin)))

lemma finishBatchedRow_steps (paddedLen : ℕ) (hroom : s.active.isFull = false ∨ p.lose) :
    Steps p ⟨s, { seq := seq } :: H, I, S⟩ ⟨s.finishBatchedRow w seq paddedLen, H, I, S⟩ ∧
      Grows 1 s (s.finishBatchedRow w seq paddedLen) := by
  rw [finishBatchedRow]
  split
  · exact ⟨s.abortCarried_steps w seq false _, (s.abortSequence_sameBatch w seq _).grows 1⟩
  · have hseq : SameRequest seq { seq with prefillOffset := seq.promptTokens.length } :=
      ⟨rfl, rfl, rfl⟩
    generalize { seq with prefillOffset := seq.promptTokens.length } = seq' at hseq ⊢
    have htrim := s.trimEnd_quiet seq.seqId (paddedLen - seq.promptTokens.length)
    refine ⟨htrim.steps.trans (.head (.editHeld hseq) ?_),
      (htrim.sameBatch.grows 0).trans (finishPrefill_grows _ w _)⟩
    exact finishPrefill_steps (h := { seq := seq' }) _ w ⟨rfl, rfl, hroom, .inr rfl⟩ (.inl rfl)

lemma editRows_steps {f : SequenceInfo → SequenceInfo} (hf : ∀ seq, SameRequest seq (f seq))
    (seqs : List SequenceInfo) (s : Scheduler) :
    Steps p ⟨s, freshRows seqs ++ H, I, S⟩ ⟨s, freshRows (seqs.map f) ++ H, I, S⟩ := by
  induction seqs generalizing H with
  | nil => exact .refl
  | cons seq seqs ih =>
    refine .head (.editHeld (hf seq)) ?_
    exact ((rows_shuffle _).1.trans ih).trans (rows_shuffle _).2

lemma beginOrKeep_sameRequest : SameRequest seq (beginOrKeep seq) := by
  rw [beginOrKeep]
  split
  · rename_i hbegin
    exact beginPrefill_sameRequest hbegin
  · exact .refl seq

lemma runPaddedBatchedPrefill_steps (hroom : RoomFor p s seqs.length) :
    Steps p ⟨s, freshRows seqs ++ H, I, S⟩
        ⟨s.runPaddedBatchedPrefill w seqs, H, I, S⟩ ∧
      Grows seqs.length s (s.runPaddedBatchedPrefill w seqs) := by
  unfold runPaddedBatchedPrefill
  split
  · exact ⟨.refl, (SameBatch.refl s).grows 0⟩
  · exact s.prefillWhole_steps w _ hroom.isFull
  · have hbegin := editRows_steps (p := p) (H := H) (I := I) (S := S) beginOrKeep_sameRequest seqs s
    have hlength : (seqs.map beginOrKeep).length = seqs.length := length_map _
    rw [← hlength] at hroom ⊢
    generalize seqs.map beginOrKeep = rows at hbegin hroom ⊢
    have hsequential := foldRows_steps (H := H) (I := I) (S := S)
      (fun s seq _ hroom => s.finishFullPrefill_steps w seq hroom) rows s hroom
    dsimp only
    split
    · exact ⟨hbegin.trans hsequential.1, hsequential.2⟩
    · split
      · exact ⟨hbegin.trans hsequential.1, hsequential.2⟩
      · generalize (if (s.cfg.supportsPaddedPrefill && s.cfg.shouldAlignPrefill) = true then _
          else _) = paddedLen
        have hforward := s.forward_quiet (rows.map fun seq =>
          (seq.seqId,
            seq.promptTokens ++ .replicate (paddedLen - seq.promptTokens.length) (0 : Token)))
        have hroom' : RoomFor p (s.forward (rows.map fun seq =>
          (seq.seqId, seq.promptTokens ++
            .replicate (paddedLen - seq.promptTokens.length) (0 : Token)))) rows.length := by
          rwa [RoomFor, hforward.active]
        obtain ⟨hsteps, hgrows⟩ := foldRows_steps (H := H) (I := I) (S := S)
          (fun s seq _ hroom => s.finishBatchedRow_steps w seq paddedLen hroom) rows _ hroom'
        refine ⟨hbegin.trans (hforward.steps.trans hsteps), ?_⟩
        have := (hforward.sameBatch.grows 0).trans hgrows
        rwa [Nat.zero_add] at this

lemma runCohort_steps (cohort : PrefillCohort) (hroom : RoomFor p s cohort.members.length) :
    Steps p ⟨s, freshRows cohort.members ++ H, I, S⟩
        ⟨s.runCohort w cohort, H, I, S⟩ ∧
      Grows cohort.members.length s (s.runCohort w cohort) := by
  rw [runCohort]
  split
  · exact s.runPaddedBatchedPrefill_steps w _ hroom
  · exact foldRows_steps (fun s seq _ hroom => s.prefillWhole_steps w seq hroom) _ s hroom

lemma runCohorts_steps (cohorts : List PrefillCohort) (s : Scheduler)
    (hroom : RoomFor p s (cohorts.flatMap (·.members)).length) :
    Steps p ⟨s, freshRows (cohorts.flatMap (·.members)) ++ H, I, S⟩
        ⟨cohorts.foldl (fun s cohort => s.runCohort w cohort) s, H, I, S⟩ := by
  induction cohorts generalizing s with
  | nil => exact .refl
  | cons cohort cohorts ih =>
    rw [flatMap_cons, length_append] at hroom
    rw [flatMap_cons, freshRows, map_append, append_assoc]
    have hfirst : RoomFor p s cohort.members.length := hroom.imp_left fun h => by omega
    obtain ⟨hsteps, hgrows⟩ := s.runCohort_steps (H := freshRows (cohorts.flatMap (·.members)) ++
      H) (I := I) (S := S) w cohort hfirst
    exact hsteps.trans (ih _ (hroom.after hgrows))

lemma flushSequential_members : (flushSequential seqs).flatMap (·.members) = seqs := by
  rw [flushSequential]
  split_ifs with h
  · simp [h]
  · simp

lemma closeRun_members (canPad : Bool) (pending run : List SequenceInfo) :
    (closeRun canPad pending run).1.flatMap (·.members) ++ (closeRun canPad pending run).2
      = pending ++ run := by
  rw [closeRun]
  split_ifs
  · simp [flushSequential_members]
  · simp

lemma planCohorts_members (canPad : Bool) (seqs pending run : List SequenceInfo) :
    (planCohorts canPad seqs pending run).flatMap (·.members) = pending ++ run ++ seqs := by
  induction seqs generalizing pending run with
  | nil =>
    have hrun := closeRun_members canPad pending run
    rw [planCohorts]
    simp [flushSequential_members, hrun]
  | cons seq seqs ih =>
    rw [planCohorts]
    split_ifs
    · rw [ih]
      simp
    · have hrun := closeRun_members canPad pending run
      simp only [flatMap_append, ih, append_assoc,
        singleton_append]
      rw [← append_assoc, hrun, append_assoc]

lemma planPrefillCohorts_members (canBatch canPad : Bool) (seqs : List SequenceInfo) :
    (planPrefillCohorts canBatch canPad seqs).flatMap (·.members) = seqs := by
  rw [planPrefillCohorts]
  split_ifs
  · simp [planCohorts_members]
  · exact flushSequential_members seqs

lemma executeBatchedPrefill_steps (hroom : RoomFor p s (min s.cfg.maxBatchPrefill s.queue.len)) :
    Steps p ⟨s, H, I, S⟩ ⟨s.executeBatchedPrefill w, H, I, S⟩ := by
  rw [executeBatchedPrefill]
  obtain ⟨hall, -, hlen⟩ :=
    s.queue.dequeueMany_spec (min s.cfg.maxBatchPrefill s.queue.len)
  generalize s.queue.dequeueMany (min s.cfg.maxBatchPrefill s.queue.len) = out at hall hlen ⊢
  refine .head (.pull (.of_eq hall)) ?_
  have hmembers := planPrefillCohorts_members s.cfg.supportsBatchedPrefill
    s.cfg.supportsPaddedPrefill out.1
  have hwindow : RoomFor p { s with queue := out.2 } out.1.length :=
    hroom.imp_left fun h => by
      dsimp only
      omega
  rw [← hmembers] at hwindow
  have hsteps := runCohorts_steps (H := H) (I := I) (S := S) w _ { s with queue := out.2 } hwindow
  rwa [hmembers] at hsteps

/-! ## Decoding -/

lemma modifyActive_steps (id : SequenceId) {f : SequenceInfo → SequenceInfo}
    (hf : ∀ seq, SameRequest seq (f seq)) :
    Steps p ⟨s, H, I, S⟩ ⟨{ s with active := s.active.modify id f }, H, I, S⟩ :=
  .single (.editActive (f := fun seq => if seq.seqId = id then f seq else seq) fun seq => by
    split_ifs
    exacts [hf seq, .refl seq])

lemma transitionActive_steps (id : SequenceId) (next : SequenceState) : Steps p ⟨s, H, I, S⟩
      ⟨{ s with active := s.active.modify id fun seq => seq.transition next }, H, I, S⟩ :=
  s.modifyActive_steps id fun seq => (refl seq).transition next

lemma abortSequenceWithError_steps (msg : String)
    (hp : p.stray) : Steps p ⟨s, H, I, S⟩ ⟨s.abortSequenceWithError seq msg, H, I, S⟩ :=
  .head (.stray hp _ _) (transitionActive_steps _ seq.seqId _)

lemma commitToken_steps (token : Token) (logprobs : Bool) :
    Steps p ⟨s, H, I, S⟩ ⟨s.commitToken w seq token logprobs, H, I, S⟩ := by
  rw [commitToken]
  split
  · exact s.transitionActive_steps seq.seqId _
  · refine (s.modifyActive_steps seq.seqId (f := fun seq => seq.pushToken token)
      fun seq => ⟨rfl, rfl, rfl⟩).trans ?_
    refine (sendToken_quiet _ w (seq.pushToken token) token logprobs).steps.trans ?_
    split
    · exact transitionActive_steps _ seq.seqId _
    · exact .refl

lemma sampleRow_steps (id : SequenceId) (hp : w.Accepts ∨ p.stray) :
    Steps p ⟨s, H, I, S⟩ ⟨s.sampleRow w id, H, I, S⟩ := by
  rw [sampleRow]
  split
  · exact .refl
  · rename_i seq _
    split
    · rename_i msg hmask
      refine s.abortSequenceWithError_steps seq msg (hp.resolve_left fun haccepts => ?_)
      split_ifs at hmask with hstructured
      rw [(haccepts seq hstructured).1] at hmask
      cases hmask
    · dsimp only
      refine (s.modifyActive_steps id (f := fun row =>
        { row with thinking := (seq.thinking.applyThinkingBudget (w.sample seq)).2 })
        fun seq => ⟨rfl, rfl, rfl⟩).trans ?_
      split
      · rename_i msg hconsume
        refine abortSequenceWithError_steps _ seq msg (hp.resolve_left fun haccepts => ?_)
        split_ifs at hconsume with hstructured
        rw [(haccepts seq hstructured).2] at hconsume
        cases hconsume
      · exact commitToken_steps _ w _ _ _

lemma decodeSingleStep_steps (id : SequenceId) (hp : w.Accepts ∨ p.stray) :
    Steps p ⟨s, H, I, S⟩ ⟨s.decodeSingleStep w id, H, I, S⟩ := by
  have hcut := s.enforceMaxKvSizeFor_quiet id
  rw [decodeSingleStep]
  split
  · exact .refl
  · refine hcut.steps.trans ?_
    dsimp only
    split
    · exact .refl
    · exact (forward_quiet _ _).steps.trans (sampleRow_steps _ w id hp)

lemma foldIds_steps {f : Scheduler → SequenceId → Scheduler}
    (hf : ∀ s id, Steps p ⟨s, H, I, S⟩ ⟨f s id, H, I, S⟩) (ids : List SequenceId) (s : Scheduler) :
    Steps p ⟨s, H, I, S⟩ ⟨ids.foldl f s, H, I, S⟩ := by
  induction ids generalizing s with
  | nil => exact .refl
  | cons id ids ih => exact (hf s id).trans (ih _)

lemma executeBatchedDecode_steps (hp : w.Accepts ∨ p.stray) :
    Steps p ⟨s, H, I, S⟩ ⟨s.executeBatchedDecode w ids, H, I, S⟩ := by
  have hcut := Quiet.foldl (fun s id => enforceMaxKvSizeFor_quiet s id) ids s
  rw [executeBatchedDecode]
  refine hcut.steps.trans ?_
  generalize ids.foldl enforceMaxKvSizeFor s = s₁
  split
  · exact foldIds_steps (fun s id => s.decodeSingleStep_steps w id hp) _ _
  · split
    · exact .refl
    · refine (s₁.forward_quiet ((ids.filterMap s₁.active.get).map fun seq =>
        (seq.seqId, [lastToken seq]))).steps.trans ?_
      split
      · refine foldIds_steps (fun s id => ?_) ids _
        split
        · exact .refl
        · exact s.commitToken_steps w _ _ _
      · exact foldIds_steps (fun s id => s.sampleRow_steps w id hp) ids _

lemma executeDecodeStep_steps (hp : w.Accepts ∨ p.stray) :
    Steps p ⟨s, H, I, S⟩ ⟨s.executeDecodeStep w ids, H, I, S⟩ := by
  rw [executeDecodeStep]
  split
  · exact foldIds_steps (fun s id => s.decodeSingleStep_steps w id hp) ids _
  · exact executeBatchedDecode_steps _ w ids hp

/-! ## `finalize_completed` -/

/-- The chunked prefill of a client that is gone goes on as an orphan. -/
def orphansPrefill (s : Scheduler) (w : World) : Bool :=
  match s.chunked with
  | none => false
  | some seq =>
    w.cancelled seq.channel &&
      shouldOrphanPrefill s.cfg.decouplePrefillOnDisconnect seq.promptTokens.length
        s.cfg.decouplePrefillMinTokens s.orphanedPrefillCount s.cfg.maxOrphanedPrefills

lemma cancelChunked_steps (hp : s.orphansPrefill w = false ∨ p.stray) :
    Steps p ⟨s, H, I, S⟩ ⟨s.cancelChunked w, H, I, S⟩ := by
  rw [cancelChunked]
  split
  · exact .refl
  · rename_i seq hchunked
    split
    · exact .refl
    · rename_i hcancelled
      split
      · rename_i horphan
        have hgone : w.cancelled seq.channel = true := by simpa using hcancelled
        have hstray : p.stray := hp.resolve_left (by simp [orphansPrefill, hchunked, hgone, horphan])
        have horphaned : SameRequest seq { seq with orphaned := true } := ⟨rfl, rfl, rfl⟩
        refine .head (.stray hstray seq.channel
          (.error "Request cancelled: client disconnected (prefill orphaned, will donate)")) ?_
        refine .head (.editChunked hchunked horphaned) ?_
        exact .single (.quiet ⟨rfl, rfl, rfl, rfl, rfl, rfl, rfl, rfl, rfl, rfl, [], rfl, by simp⟩)
      · have hdrain := drainPrefillCoalescing_unarmed ({ s with chunked := none }.send seq.channel
          (.error "Request cancelled: client disconnected")) w (s.cfg.hashTokens seq.promptTokens)
        have hcfg := (drainPrefillCoalescing_sameBatch ({ s with chunked := none }.send seq.channel
          (.error "Request cancelled: client disconnected")) w
          (s.cfg.hashTokens seq.promptTokens)).cfg
        refine .head (.fromChunked hchunked) ?_
        refine .head (.tell (.error "Request cancelled: client disconnected") rfl rfl) ?_
        refine (drainPrefillCoalescing_steps _ w (s.cfg.hashTokens seq.promptTokens)).trans ?_
        refine .head (.relieve (.inl ?_)) ?_
        · rw [hcfg]
          exact hdrain
        refine .head (.clear seq.seqId) ?_
        refine .head (.absent (.inl (update_self _ _ _))) ?_
        exact .head (.free _) (.single (.drop rfl rfl rfl rfl))

lemma cancelQueued_steps (s : Scheduler) :
    Steps p ⟨s, freshRows seqs ++ H, I, S⟩
      ⟨seqs.foldl cancelQueued s, H, I, S⟩ := by
  induction seqs generalizing s with
  | nil => exact .refl
  | cons seq seqs ih =>
    refine .head (.tell (.error "Request cancelled: client disconnected") rfl rfl) ?_
    refine .head (.clear seq.seqId) ?_
    refine .head (.absent (.inl (update_self _ _ _))) ?_
    refine .head (.free _) ?_
    exact .head (.drop rfl rfl rfl rfl) (ih _)

lemma cancelActive_steps : Steps p ⟨s, H, I, S⟩ ⟨s.cancelActive w, H, I, S⟩ :=
  .single (.editActive fun seq => by
    split_ifs
    exacts [(refl seq).transition _, .refl seq])

lemma cancelDisconnected_steps (hp : s.orphansPrefill w = false ∨ p.stray) :
    Steps p ⟨s, H, I, S⟩ ⟨s.cancelDisconnected w, H, I, S⟩ := by
  refine (s.cancelActive_steps w).trans ?_
  refine ((s.cancelActive w).cancelChunked_steps w hp).trans ?_
  exact .head (.pull (PrefillQueue.drainCancelled_spec _ _)) (cancelQueued_steps _ _)

/-- The end of a finished sequence leaves nobody waiting: its donation passes, nobody waits under
its prompt, or another sequence with its prompt goes on. -/
def SettlesWell (s : Scheduler) (w : World) (id : SequenceId) : Prop :=
  ∀ seq batch, s.active.remove id = some (seq, batch) →
    isHealthy seq.state = true ∧ s.Publishes w id seq.promptTokens seq.generatedTokens ∨
    s.prefillInProgress.lookup (s.cfg.hashTokens seq.promptTokens) = none ∨
    ∃ other ∈ batch.sequences ++ s.chunked.toList,
      s.cfg.hashTokens other.promptTokens = s.cfg.hashTokens seq.promptTokens

lemma finalizeSequence_steps (id : SequenceId) (hends : s.SettlesWell w id ∨ p.strand) :
    Steps p ⟨s, H, I, S⟩ ⟨s.finalizeSequence w id, H, I, S⟩ := by
  rw [finalizeSequence]
  split
  · exact .refl
  · rename_i seq batch hremove
    obtain ⟨-, hid, -⟩ := remove_spec hremove
    refine .head (.deactivate hremove) ?_
    have hleave : (isHealthy seq.state = true ∧
        s.Publishes w id seq.promptTokens seq.generatedTokens) ∨
        (s.prefillInProgress.lookup (s.cfg.hashTokens seq.promptTokens) = none ∨
          (∃ other ∈ batch.sequences ++ s.chunked.toList,
            s.cfg.hashTokens other.promptTokens = s.cfg.hashTokens seq.promptTokens) ∨ p.strand) := by
      rcases hends with hwell | hstrand
      · rcases hwell seq batch hremove with hpub | hnone | hother
        · exact .inl hpub
        · exact .inr (.inl hnone)
        · exact .inr (.inr (.inl hother))
      · exact .inr (.inr (.inr hstrand))
    rcases hleave with ⟨hhealthy, hpub⟩ | hrelieve
    · refine .head (.tell (.done (seq.result seq.generatedTokens)) rfl rfl) ?_
      rw [hhealthy]
      refine settleSequence_steps (h := { seq := seq, told := true, armed := true }) _ w _ true rfl
        (.inr (.inr ?_))
      rw [← hid] at hpub
      exact Publishes.settled (hpub.congr rfl rfl rfl)
    · refine .head (.relieve hrelieve) ?_
      refine .head (.tell (.done (seq.result seq.generatedTokens)) rfl rfl) ?_
      exact settleSequence_steps (h := { seq := seq, told := true }) _ w _ _ rfl (.inl rfl)

/-- All finished sequences are settled in turn, each in the state that the one before leaves. -/
def SettleWell (w : World) : Scheduler → List SequenceId → Prop
  | _, [] => True
  | s, id :: ids => s.SettlesWell w id ∧ SettleWell w (s.finalizeSequence w id) ids

lemma finalizeSequences_steps (s : Scheduler) (hends : SettleWell w s ids ∨ p.strand) :
    Steps p ⟨s, H, I, S⟩ ⟨ids.foldl (fun s id => s.finalizeSequence w id) s, H, I, S⟩ := by
  induction ids generalizing s with
  | nil => exact .refl
  | cons id ids ih =>
    exact (s.finalizeSequence_steps w id (hends.imp_left fun h => h.1)).trans
      (ih _ (hends.imp_left fun h => h.2))

lemma finalizeCompleted_steps (horphan : s.orphansPrefill w = false ∨ p.stray)
    (hends : SettleWell w (s.cancelDisconnected w) (s.cancelDisconnected w).finishedIds ∨ p.strand) :
    Steps p ⟨s, H, I, S⟩ ⟨s.finalizeCompleted w, H, I, S⟩ :=
  (s.cancelDisconnected_steps w horphan).trans (finalizeSequences_steps w _ _ hends)

/-! ## One tick -/

lemma drainIncomingRequests_steps : Steps p ⟨s, H, I, S⟩ ⟨s.drainIncomingRequests w, H, I, S⟩ := by
  refine .head (.reorder (w.order_perm s.active.sequences)) ?_
  rw [drainIncomingRequests]
  generalize { s with active := { s.active with sequences := w.order s.active.sequences } } = s₁
  induction w.arrivals generalizing s₁ with
  | nil => exact .refl
  | cons payload payloads ih => exact (s₁.arrive_steps w payload).trans (ih _)

/-- A prefill of one sequence finds room in the batch, or makes it. -/
lemma room_of_decideAction {s : Scheduler} (hpos : 0 < s.active.maxSize) (h : s.decideAction = .prefill) :
    s.active.isFull = false ∨ s.chunked = none ∧ s.cfg.enablePreemption = true := by
  have hempty : s.active.isEmpty = true → s.active.isFull = false := fun hempty => by
    simp only [ActiveBatch.isEmpty, List.isEmpty_iff] at hempty
    simpa [isFull, len, hempty] using Nat.pos_iff_ne_zero.mp hpos
  rw [decideAction] at h
  split_ifs at h with hchunked hactive hidle hactive hpreempt hroom
  · exact .inl (hempty (by simpa using hactive))
  · refine .inr ⟨by simpa using hchunked, ?_⟩
    rw [shouldPreempt] at hpreempt
    split_ifs at hpreempt with hoff
    simp only [Bool.or_eq_true, not_or, Bool.not_eq_true', Bool.not_eq_false] at hoff
    exact hoff.1
  · simp only [Bool.and_eq_true, Bool.not_eq_true'] at hroom
    exact .inl hroom.1
  · exact .inl (hempty (by simpa using hactive))

/-- What has to be said of the action of a tick. -/
structure ExecutesWell (p : Allowed) (s : Scheduler) (w : World) : Prop where
  /-- A window finds room for all its sequences. -/
  room : s.decideAction = .prefill → s.prefillsWindow = true →
    RoomFor p s (min s.cfg.maxBatchPrefill s.queue.len)
  /-- Preemption leaves nothing behind. -/
  evicts : s.decideAction = .prefill → s.prefillsWindow = false → s.chunked = none →
    s.mayPreempt = false ∨ EvictsWell p s
  /-- A prefill of one sequence leaves nobody waiting. -/
  finishes : s.decideAction = .prefill → s.prefillsWindow = false →
    p.strand ∨ ∀ s' seq, s.executePrefill w = (s', some seq) → s'.FinishesWell w seq
  /-- A decode step meets no refusal of a constraint. -/
  accepts : ∀ ids, s.decideAction = .decode ids → w.Accepts ∨ p.stray

lemma execute_steps (hpos : 0 < s.active.maxSize)
    (hcap : s.active.len ≤ s.active.maxSize) (hwell : ExecutesWell p s w) :
    Steps p ⟨s, H, I, S⟩ ⟨s.execute w, H, I, S⟩ := by
  rw [execute]
  split
  · rename_i haction
    split
    · rename_i hwindow
      exact s.executeBatchedPrefill_steps w (hwell.room haction hwindow)
    · rename_i hwindow
      have hsingle : s.prefillsWindow = false := by simpa using hwindow
      obtain ⟨⟨armed, hsteps⟩, hroom⟩ := s.executePrefill_steps (H := H) (I := I) (S := S) w hcap
        (hwell.evicts haction hsingle)
      refine hsteps.trans ?_
      have hends := hwell.finishes haction hsingle
      have hroom' := fun hsome => hroom hsome (room_of_decideAction hpos haction)
      generalize s.executePrefill w = r at hends hroom' ⊢
      obtain ⟨s', o⟩ := r
      cases o with
      | none => exact .refl
      | some seq =>
        exact finishWith_steps w (.inl (hroom' rfl)) (.inl (hroom' rfl))
          (.inr (hends.imp_right fun h seq' hseq => h s' seq' (by rw [← hseq])))
  · exact s.executeDecodeStep_steps w _ (hwell.accepts _ ‹_›)
  · split
    · exact s.arrive_steps w _
    · exact .refl

/-- What has to be said of the end of a tick. -/
structure FinalizesWell (p : Allowed) (s : Scheduler) (w : World) : Prop where
  /-- No prefill is orphaned. -/
  orphans : s.orphansPrefill w = false ∨ p.stray
  /-- Nobody waits for a finished sequence after its end. -/
  settles : SettleWell w (s.cancelDisconnected w) (s.cancelDisconnected w).finishedIds ∨ p.strand

/-- **Every tick is a chain of steps** between configurations with nothing in hand. -/
theorem tick_steps (hb : s.Bounded) (hexec : ExecutesWell p (s.drainIncomingRequests w) w)
    (hfin : FinalizesWell p ((s.drainIncomingRequests w).execute w) w) :
    Steps p ⟨s, [], [], []⟩ ⟨s.tick w, [], [], []⟩ := by
  have hdrain := s.drainIncomingRequests_steps (p := p) (H := []) (I := []) (S := []) w
  have hb' : (s.drainIncomingRequests w).Bounded := Steps.bounded hdrain hb
  have hpos : 0 < (s.drainIncomingRequests w).active.maxSize := by
    rw [hb'.maxSize]
    exact (s.drainIncomingRequests w).cfg.maxBatchSize_pos
  have hexecute := (s.drainIncomingRequests w).execute_steps (H := []) (I := []) (S := []) w hpos
    hb'.len hexec
  exact hdrain.trans (hexecute.trans (finalizeCompleted_steps _ w hfin.orphans hfin.settles))

end Scheduler

end Mlxcel.Batch
