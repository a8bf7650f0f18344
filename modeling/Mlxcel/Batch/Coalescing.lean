import Mlxcel.Batch.Lifecycle

/-!
# Requests that wait for a prompt

With prefill decoupling, requests for a prompt that is being prefilled wait in `prefill_in_progress`
until the sequence that is ahead of them ends. Here is what that takes: a prompt with an entry in the
map belongs to a sequence that decodes, is prefilled in chunks, or is in hand.

**When it holds.**  A sequence whose prompt has an entry must not be preempted, and its end must
reach the drain: `donate_finished_sequence_cache` has to get through all its checks, and
`finish_prefill` must not turn the sequence away for its constraint. An entry that outlives its
sequence is worse than a waiting request that is forgotten: every later request for the prompt parks
under it for good.
-/

namespace Mlxcel.Batch

open List

open Scheduler Conf

namespace Conf

/-- The sequences that somebody may wait for. -/
def awaited (c : Conf) : List SequenceInfo :=
  c.s.active.sequences ++ c.s.chunked.toList ++ (c.held.filter (·.armed)).map (·.seq)

/-- Every prompt with an entry belongs to a sequence that can be waited for. -/
def Armed (c : Conf) : Prop :=
  ∀ hash, c.s.prefillInProgress.lookup hash ≠ none →
    ∃ seq ∈ c.awaited, c.s.cfg.hashTokens seq.promptTokens = hash

lemma awaited_eq (s : Scheduler) (H : List Held) (I : List Request) (S : List SequenceId) :
    awaited ⟨s, H, I, S⟩ = s.active.sequences ++ s.chunked.toList ++
      (H.filter (·.armed)).map (·.seq) := rfl

lemma Armed.mono {c c' : Conf} (h : c.Armed) (hcfg : c'.s.cfg = c.s.cfg)
    (hkeys : ∀ hash, c'.s.prefillInProgress.lookup hash ≠ none →
      c.s.prefillInProgress.lookup hash ≠ none)
    (hseqs : ∀ seq ∈ c.awaited, ∃ seq' ∈ c'.awaited, seq'.promptTokens = seq.promptTokens) :
    c'.Armed := fun hash hkey => by
  obtain ⟨seq, hseq, hhash⟩ := h hash (hkeys hash hkey)
  obtain ⟨seq', hseq', hprompt⟩ := hseqs seq hseq
  exact ⟨seq', hseq', by rw [hcfg, hprompt, hhash]⟩

lemma Armed.subset {c c' : Conf} (h : c.Armed) (hcfg : c'.s.cfg = c.s.cfg)
    (hprefill : c'.s.prefillInProgress = c.s.prefillInProgress) (hseqs : c.awaited ⊆ c'.awaited) :
    c'.Armed :=
  h.mono hcfg (fun hash hkey => by rwa [hprefill] at hkey) fun seq hseq => ⟨seq, hseqs hseq, rfl⟩

end Conf

lemma mem_awaited {s : Scheduler} {H : List Held} {I : List Request} {S : List SequenceId}
    {seq : SequenceInfo} :
    seq ∈ awaited ⟨s, H, I, S⟩ ↔ seq ∈ s.active.sequences ∨ seq ∈ s.chunked.toList ∨
      ∃ h ∈ H, h.armed = true ∧ h.seq = seq := by
  simp [awaited_eq, and_assoc]

section Armed

variable {s s' : Scheduler} {h h' : Held} {H : List Held} {I I' : List Request}
  {S S' : List SequenceId}

lemma mem_awaited_cons {seq : SequenceInfo} : seq ∈ awaited ⟨s, h :: H, I, S⟩ ↔
    (h.armed = true ∧ h.seq = seq) ∨ seq ∈ awaited ⟨s, H, I, S⟩ := by
  simp only [mem_awaited, exists_mem_cons_iff]
  tauto

section

variable (ha : Armed ⟨s, h :: H, I, S⟩) (hcfg : s'.cfg = s.cfg)
  (hprefill : s'.prefillInProgress = s.prefillInProgress)

include ha hcfg hprefill

lemma Conf.Armed.edit (hprompt : h'.seq.promptTokens = h.seq.promptTokens)
    (harmed : h.armed = true → h'.armed = true) (hactive : s'.active = s.active)
    (hchunked : s'.chunked = s.chunked) : Armed ⟨s', h' :: H, I', S'⟩ := by
  refine ha.mono hcfg (fun hash hkey => by rwa [hprefill] at hkey) fun seq hseq => ?_
  rcases mem_awaited_cons.mp hseq with ⟨hh, rfl⟩ | hmem
  · exact ⟨h'.seq, mem_awaited_cons.mpr (.inl ⟨harmed hh, rfl⟩), hprompt⟩
  · refine ⟨seq, mem_awaited_cons.mpr (.inr ?_), rfl⟩
    rwa [awaited_eq, hactive, hchunked]

/-- A sequence in hand that nobody waits for goes. -/
lemma Conf.Armed.leave (harmed : h.armed = false) (hactive : s'.active = s.active)
    (hchunked : s'.chunked = s.chunked) :
    Armed ⟨s', H, I', S'⟩ := by
  refine ha.subset hcfg hprefill fun seq hseq => ?_
  rcases mem_awaited_cons.mp hseq with ⟨hh, -⟩ | hmem
  · rw [harmed] at hh
    cases hh
  · rwa [awaited_eq, hactive, hchunked]

/-- A sequence in hand comes back to a place where it can be waited for. -/
lemma Conf.Armed.settle
    (hseqs : h.seq :: (s.active.sequences ++ s.chunked.toList) ⊆
      s'.active.sequences ++ s'.chunked.toList) : Armed ⟨s', H, I', S'⟩ := by
  refine ha.subset hcfg hprefill fun seq hseq => ?_
  rcases mem_awaited_cons.mp hseq with ⟨-, rfl⟩ | hmem
  · exact mem_append_left _ (hseqs mem_cons_self)
  · rcases mem_append.mp hmem with hmem | hmem
    · exact mem_append_left _ (hseqs (mem_cons_of_mem _ hmem))
    · exact mem_append_right _ hmem

end

/-- A sequence is taken out of its place while requests may wait for it. -/
lemma Conf.Armed.takeOut (ha : Armed ⟨s, H, I, S⟩) (hcfg : s'.cfg = s.cfg)
    (hprefill : s'.prefillInProgress = s.prefillInProgress) (harmed : h.armed = true)
    (hseqs : s.active.sequences ++ s.chunked.toList ⊆
      h.seq :: (s'.active.sequences ++ s'.chunked.toList)) :
    Armed ⟨s', h :: H, I', S'⟩ := by
  refine ha.subset hcfg hprefill fun seq hseq => ?_
  rw [mem_awaited_cons]
  rcases mem_append.mp hseq with hmem | hmem
  · rcases mem_cons.mp (hseqs hmem) with rfl | hmem
    · exact .inl ⟨harmed, rfl⟩
    · exact .inr (mem_append_left _ hmem)
  · exact .inr (mem_append_right _ hmem)

/-- A sequence that ends while another one has its prompt, or nobody waits under it. -/
lemma Conf.Armed.relieve (ha : Armed ⟨s, h :: H, I, S⟩)
    (hw : s.prefillInProgress.lookup (s.cfg.hashTokens h.seq.promptTokens) = none ∨
      ∃ seq ∈ s.active.sequences ++ s.chunked.toList,
        s.cfg.hashTokens seq.promptTokens = s.cfg.hashTokens h.seq.promptTokens) :
    Armed ⟨s, { h with armed := false } :: H, I, S⟩ := by
  intro hash hkey
  obtain ⟨seq, hseq, hhash⟩ := ha hash hkey
  rcases mem_awaited_cons.mp hseq with ⟨-, rfl⟩ | hmem
  · rcases hw with hnone | ⟨other, hother, hsame⟩
    · exact absurd (hhash ▸ hnone) hkey
    · exact ⟨other, mem_append_left _ hother, hsame.trans hhash⟩
  · exact ⟨seq, mem_awaited_cons.mpr (.inr hmem), hhash⟩

/-- The entry of a prompt is made for a sequence in hand. -/
lemma Conf.Armed.arm (ha : Armed ⟨s, h :: H, I, S⟩) (waiting : List Request) :
    Armed ⟨{ s with prefillInProgress :=
        s.prefillInProgress.insert (s.cfg.hashTokens h.seq.promptTokens) waiting },
      { h with armed := true } :: H, I, S⟩ := by
  intro hash hkey
  by_cases hsame : hash = s.cfg.hashTokens h.seq.promptTokens
  · exact ⟨h.seq, mem_awaited_cons.mpr (.inl ⟨rfl, rfl⟩), hsame.symm⟩
  · simp only [AssocMap.lookup_insert_eq, if_neg hsame] at hkey
    have hkept : Armed ⟨s, { h with armed := true } :: H, I, S⟩ :=
      ha.edit rfl rfl rfl (fun _ => rfl) rfl rfl
    exact hkept hash hkey

end Armed

/-- Nobody is left waiting; full batches, events for sequences that go on and old contexts are no
matter here. -/
def Allowed.draining : Allowed := ⟨True, False, True, True⟩

/-- **No step leaves a prompt with an entry and without a sequence.** -/
lemma Step.armed {c c' : Conf} (hstep : Step .draining c c') (hl : SlotLedger False c)
    (ha : c.Armed) : c'.Armed := by
  cases hstep with
  | quiet hq =>
    refine ha.subset hq.cfg hq.prefill ?_
    rw [awaited_eq, awaited_eq, hq.active, hq.chunked]
    exact List.Subset.refl _
  | shuffle hH =>
    refine ha.subset rfl rfl ?_
    exact ((((hH.filter _).map _).append_left _)).subset
  | reorder hperm =>
    refine ha.subset rfl rfl ?_
    exact ((hperm.symm.append_right _).append_right _).subset
  | @editActive s H I S f hf =>
    refine ha.mono rfl (fun _ hkey => hkey) fun seq hseq => ?_
    rw [mem_awaited] at hseq
    rcases hseq with hmem | hmem
    · exact ⟨f seq, mem_awaited.mpr (.inl (mem_map_of_mem hmem)), (hf seq).promptTokens⟩
    · exact ⟨seq, mem_awaited.mpr (.inr hmem), rfl⟩
  | @editChunked s H I S old new hs hseq =>
    refine ha.mono rfl (fun _ hkey => hkey) fun seq hmem => ?_
    rw [mem_awaited, hs] at hmem
    rcases hmem with hmem | hmem | hmem
    · exact ⟨seq, mem_awaited.mpr (.inl hmem), rfl⟩
    · obtain rfl : seq = old := by simpa using hmem
      exact ⟨new, mem_awaited.mpr (.inr (.inl (by simp))), hseq.promptTokens⟩
    · exact ⟨seq, mem_awaited.mpr (.inr (.inr hmem)), rfl⟩
  | park req hw =>
    refine ha.mono rfl (fun hash hkey => ?_) fun seq hseq => ⟨seq, hseq, rfl⟩
    simp only [AssocMap.lookup_insert_eq] at hkey
    split_ifs at hkey with hsame
    · rw [hsame, hw]
      simp
    · exact hkey
  | unpark hw =>
    refine ha.mono rfl (fun hash hkey => ?_) fun seq hseq => ⟨seq, hseq, rfl⟩
    simp only [AssocMap.lookup_erase_eq] at hkey
    split_ifs at hkey
    · exact absurd rfl hkey
    · exact hkey
  | arm hh =>
    subst hh
    exact ha.arm _
  | abandon id =>
    refine ha.subset (by simp) (by simp) ?_
    simp [awaited]
  | @bind s H I S req id seq ctx hch hid =>
    refine ha.subset ?_ ?_ ?_ <;> cases ctx <;>
      first | rfl | simp [awaited, remember, note]
  | @rebind s H I S h id seq htold hfreed hforgotten harmed hch hid =>
    have hleft : Armed ⟨s, H, I, S⟩ := ha.leave rfl rfl harmed rfl rfl
    refine hleft.subset rfl rfl ?_
    simp [awaited, note]
  | pull hq =>
    refine ha.subset rfl rfl fun seq hseq => ?_
    rw [mem_awaited] at hseq ⊢
    refine hseq.imp_right (.imp_right ?_)
    rintro ⟨x, hx, hxa, rfl⟩
    exact ⟨x, mem_append_right _ hx, hxa, rfl⟩
  | enter hq htold hfreed harmed | push hq htold hfreed harmed
  | drop htold hfreed hforgotten harmed => exact ha.leave rfl rfl harmed rfl rfl
  | @activate s H I S h b hb htold hfreed =>
    obtain ⟨-, rfl⟩ := ActiveBatch.add_spec hb
    refine ha.settle rfl rfl ?_
    simp
  | @deactivate s H I S id seq b hb =>
    obtain ⟨hperm, -, -⟩ := ActiveBatch.remove_spec hb
    refine ha.takeOut rfl rfl rfl ?_
    exact (hperm.append_right s.chunked.toList).subset
  | @toChunked s H I S h hs htold hfreed =>
    refine ha.settle rfl rfl ?_
    simp [hs]
  | @fromChunked s H I S seq hs =>
    refine ha.takeOut rfl rfl rfl ?_
    simp [hs]
  | editHeld hseq => exact ha.edit rfl rfl hseq.promptTokens id rfl rfl
  | tell ev hev htold | absent hctx => exact ha.edit rfl rfl rfl id rfl rfl
  | free h => exact ha.edit (by simp) (by simp) rfl id (by simp) (by simp)
  | relieve hw => exact ha.relieve (hw.imp_right (Or.resolve_right · id))
  | lose hadd htold hfreed hroom harmed =>
    have hfull := hl.full_of_add_eq_none hfreed hadd
    exact ha.leave rfl rfl (harmed.resolve_left (by simp [hfull])) rfl rfl
  | _ => exact ha

namespace Scheduler

/-- Requests wait only for a prompt that belongs to a queued, prefilling or decoding sequence. -/
def NoneStranded (s : Scheduler) : Prop :=
  ∀ hash, s.parked hash ≠ [] → ∃ seq ∈ s.live, s.cfg.hashTokens seq.promptTokens = hash

lemma noneStranded_of_armed {s : Scheduler} (h : s.atRest.Armed) : s.NoneStranded := by
  intro hash hparked
  have hkey : s.prefillInProgress.lookup hash ≠ none := fun hnone => by
    simp [parked, hnone] at hparked
  obtain ⟨seq, hseq, hhash⟩ := h hash hkey
  refine ⟨seq, ?_, hhash⟩
  simp only [atRest, awaited_eq, mem_append] at hseq
  simp only [live, mem_append]
  tauto

/-- **The condition on a tick.**  No sequence whose prompt has an entry can be preempted; a prefill
of one sequence does not fail a constraint, and if its first token ends the sequence, the donation
passes its checks; and every finished sequence passes them too, or its prompt has no entry, or
another sequence with the prompt decodes or is prefilled in chunks. -/
structure Draining (s : Scheduler) (w : World) : Prop where
  preempts : (s.drainIncomingRequests w).decideAction = .prefill →
    (s.drainIncomingRequests w).prefillsWindow = false →
    (s.drainIncomingRequests w).chunked = none →
    (s.drainIncomingRequests w).mayPreempt = true →
    ∀ seq ∈ (s.drainIncomingRequests w).active.sequences,
      (s.drainIncomingRequests w).prefillInProgress.lookup
        ((s.drainIncomingRequests w).cfg.hashTokens seq.promptTokens) = none
  finishes : (s.drainIncomingRequests w).decideAction = .prefill →
    (s.drainIncomingRequests w).prefillsWindow = false →
    ∀ s' seq, (s.drainIncomingRequests w).executePrefill w = (s', some seq) → s'.FinishesWell w seq
  settles : SettleWell w (((s.drainIncomingRequests w).execute w).cancelDisconnected w)
    (((s.drainIncomingRequests w).execute w).cancelDisconnected w).finishedIds

lemma Draining.steps {s : Scheduler} {w : World} (h : s.Draining w) (hb : s.Bounded) :
    Steps .draining s.atRest (s.tick w).atRest := by
  refine s.tick_steps w hb ⟨?_, ?_, ?_, ?_⟩ ⟨.inr trivial, .inl h.settles⟩
  · exact fun _ _ => .inr trivial
  · intro hprefill hwindow hchunked
    cases hmay : (s.drainIncomingRequests w).mayPreempt with
    | false => exact .inl rfl
    | true => exact .inr ⟨.inl trivial, .inr (h.preempts hprefill hwindow hchunked hmay)⟩
  · exact fun hprefill hwindow => .inr (h.finishes hprefill hwindow)
  · exact fun _ _ => .inr trivial

lemma init_armed (cfg : Config) : (init cfg).atRest.Armed := by
  intro hash hkey
  exact absurd (by simp [atRest, init]) hkey

/-- **In every run of such ticks nobody waits for a sequence that is gone**, at every tick
boundary. -/
theorem noneStranded_of_draining (cfg : Config) (ws : List World)
    (h : AllTicks Draining (init cfg) ws) (n : ℕ) : (run cfg (ws.take n)).NoneStranded := by
  have hinv : ∀ s w, Draining s w → s.Bounded ∧ SlotLedger False s.atRest ∧ s.atRest.Armed →
      (s.tick w).Bounded ∧ SlotLedger False (s.tick w).atRest ∧ (s.tick w).atRest.Armed := by
    intro s w hw hs
    have hsteps := hw.steps hs.1
    refine ⟨hsteps.bounded hs.1, hsteps.invariant (P := fun c => SlotLedger False c ∧ c.Armed)
      (fun hstep hc => ⟨hstep.slotLedger hc.1 False.elim, hstep.armed hc.1 hc.2⟩) hs.2⟩
  exact noneStranded_of_armed
    ((h.take n).invariant hinv ⟨init_bounded cfg, init_slotLedger False cfg, init_armed cfg⟩).2.2

/-- One sequence at a time, with a prompt cache and with prefill decoupling. -/
def decoupledConfig : Config :=
  { plainConfig with promptCache := true, decouplePrefillOnDisconnect := true }

/-- A request for two tokens arrives. -/
def arrival : World := { arrivals := [{ prompt := "ab", maxTokens := 2, promptCacheCtx := some 0 }] }

/-- The second request waits for the first and is sent in again when the first has ended. -/
def coalescedRun : List World := [arrival, arrival]

lemma draining_first : (init decoupledConfig).Draining arrival := by
  have hnone : ((((init decoupledConfig).drainIncomingRequests arrival).execute
      arrival).cancelDisconnected arrival).finishedIds = [] := by decide +kernel
  refine ⟨by decide +kernel, fun _ _ s' seq hprefill => ?_, by trivial⟩
  have hseq : (((init decoupledConfig).drainIncomingRequests arrival).executePrefill arrival).2.map
      (fun seq => (seq.structured, seq.maxTokens, seq.generatedTokens, seq.sampling)) =
      some (false, 2, [], {}) := by decide +kernel
  have heos : (((init decoupledConfig).drainIncomingRequests arrival).executePrefill
      arrival).1.cfg.modelEos = [] := by decide +kernel
  rw [hprefill] at hseq heos
  simp only [Option.map_some, Option.some.injEq, Prod.mk.injEq] at hseq heos
  obtain ⟨hstructured, hmax, hgenerated, hsampling⟩ := hseq
  refine ⟨by simp [hstructured], by simp [hstructured], fun hends => ?_⟩
  rw [heos, hsampling, hmax, hgenerated] at hends
  simp [mergeTokenIds] at hends

lemma draining_second : ((init decoupledConfig).tick arrival).Draining arrival := by
  have hdecodes : (((init decoupledConfig).tick arrival).drainIncomingRequests
      arrival).decideAction ≠ .prefill := by decide +kernel
  generalize hs : ((((init decoupledConfig).tick arrival).drainIncomingRequests arrival).execute
    arrival).cancelDisconnected arrival = s
  have hids : s.finishedIds = [0] := by
    subst hs
    decide +kernel
  have hremoved : (s.active.remove 0).map (fun r =>
      (isHealthy r.1.state, r.1.promptTokens, r.1.generatedTokens)) =
      some (true, [97, 98], [0, 0]) := by
    subst hs
    decide +kernel
  have hpub : s.cfg.promptCache = true ∧ s.cfg.supportsSnapshotReuse = false ∧
      (s.promptCacheSeqCtx 0).isSome = true ∧
      s.detachable? 0 ([97, 98] ++ [0, 0]) = some (.dense, ⟨0, .denseKvCache, [97, 98, 0], 0, []⟩) := by
    subst hs
    decide +kernel
  refine ⟨fun h => absurd h hdecodes, fun h => absurd h hdecodes, ?_⟩
  rw [hs, hids]
  refine ⟨fun seq batch hremove => .inl ?_, trivial⟩
  rw [hremove] at hremoved
  simp only [Option.map_some, Option.some.injEq, Prod.mk.injEq] at hremoved
  obtain ⟨hhealthy, hprompt, hgenerated⟩ := hremoved
  obtain ⟨hcache, hsnapshots, hctx, hdetach⟩ := hpub
  rw [hprompt, hgenerated]
  exact ⟨hhealthy, hcache, hsnapshots, hctx, _, _, hdetach, by decide, fun _ => rfl, by decide⟩

theorem noneStranded_coalescedRun :
    (run decoupledConfig coalescedRun).NoneStranded ∧
      (run decoupledConfig coalescedRun).live.map (·.channel) = [1] :=
  ⟨noneStranded_of_draining decoupledConfig coalescedRun ⟨draining_first, draining_second, trivial⟩
    2, by decide +kernel⟩

/-- A constraint fails on the first token, and the prompt is asked for again. -/
def refusedPrompt : List World :=
  [{ arrivals := [{ prompt := "ab", maxTokens := 2, promptCacheCtx := some 0, structured := true }],
     maskError := fun _ => some "no token fits" }, arrival]

/-- A request is preempted, runs to its end later, and its prompt is asked for again. -/
def preemptedPrompt : List World :=
  [{ arrivals := [{ prompt := "ab", maxTokens := 2, priority := .low, promptCacheCtx := some 0 }] },
    { arrivals := [{ prompt := "cd", maxTokens := 1, priority := .high,
                     promptCacheCtx := some 0 }] }, {}, {}, arrival]

/-- A request is left waiting behind a sequence that ended without a prompt cache, with a cache below
the least length for paged reuse, or on a constraint, and behind one that was preempted. -/
theorem not_noneStranded :
    ¬ (run { decoupledConfig with promptCache := false } coalescedRun).NoneStranded ∧
    ¬ (run { decoupledConfig with backend := .pagedKvCache, minPrefixTokens := 100 }
        coalescedRun).NoneStranded ∧
    ¬ (run decoupledConfig refusedPrompt).NoneStranded ∧
    ¬ (run { decoupledConfig with enablePreemption := true } preemptedPrompt).NoneStranded := by
  refine ⟨fun h => ?_, fun h => ?_, fun h => ?_, fun h => ?_⟩
  all_goals exact absurd (h 9832) (by decide +kernel)

end Scheduler

end Mlxcel.Batch
