import Mlxcel.Batch.Lifecycle

/-!
# Chunked prefill and decoding

While a chunked prefill is in progress, a round of the loop is a decode step if sequences are active
and the next chunk if none is. `decide_action` has no memory of the round before, so the prefill waits
until the batch is empty.

**When they alternate.** `EndsNow` tells from the state in front of a decode step, and from what comes
in, that the step is the last one of a sequence. If it is the last one of every active sequence, the
step leaves only sequences that are over (`executeDecodeStep_over`) and `finalize_completed` takes
them all out (`finalizeCompleted_empties`), so that the next round is the next chunk.
-/

namespace Mlxcel.Batch

open List

/-! ## The end of a sequence -/

namespace SequenceInfo

/-- The decode step is the last one of the sequence: its client is gone, its constraint fails, or the
token that is committed is a stop token or the last one that was asked for. -/
def EndsNow (w : World) (seq : SequenceInfo) : Prop :=
  (w.cancelled seq.channel = true ∧ seq.orphaned = false) ∨
    (seq.structured = true ∧ ((w.maskError seq).isSome = true ∨
      (w.consumeError seq (w.sample seq)).isSome = true)) ∨
    seq.state ≠ .queued ∧ ((seq.thinking.applyThinkingBudget (w.sample seq)).1 ∈ seq.mergedEos ∨
      seq.maxTokens ≤ seq.generatedTokens.length + 1)

instance (w : World) (seq : SequenceInfo) : Decidable (seq.EndsNow w) := by
  unfold EndsNow
  infer_instance

/-- The sequence is finished, or will be when the scheduler looks at its client. -/
def Over (w : World) (seq : SequenceInfo) : Prop :=
  seq.state.isFinished = true ∨ w.cancelled seq.channel = true ∧ seq.orphaned = false

variable {w : World} {seq : SequenceInfo} {reason : FinishReason}

lemma seqId_transition (seq : SequenceInfo) (next : SequenceState) :
    (seq.transition next).seqId = seq.seqId :=
  ((SameRequest.refl seq).transition next).seqId

lemma transition_isFinished (h : seq.state ≠ .queued ∨ reason ≠ .stop ∧ reason ≠ .length) :
    (seq.transition (.finished reason)).state.isFinished = true := by
  unfold transition SequenceState.transitionTo
  cases hstate : seq.state <;> cases reason <;>
    simp_all [SequenceState.allows, SequenceState.isFinished]

end SequenceInfo

open SequenceInfo

namespace ActiveBatch

variable {b : ActiveBatch} {id : SequenceId} {seq y : SequenceInfo}

lemma seqId_of_get (h : b.get id = some seq) : seq.seqId = id := by
  simpa using find?_some h

lemma mem_of_get (h : b.get id = some seq) : seq ∈ b.sequences := mem_of_find?_eq_some h

/-- A write to a sequence whose id nobody else has. -/
lemma modify_of_get (hnodup : b.sequenceIds.Nodup) (h : b.get id = some seq)
    (f : SequenceInfo → SequenceInfo) : b.modify id f = b.modify id fun _ => f seq := by
  unfold modify
  congr 1
  refine map_congr_left fun x hx => ?_
  split_ifs with hid
  · rw [inj_on_of_nodup_map hnodup hx (mem_of_get h) (hid.trans (seqId_of_get h).symm)]
  · rfl

lemma modify_modify (hy : y.seqId = id) (f : SequenceInfo → SequenceInfo) :
    (b.modify id fun _ => y).modify id f = b.modify id fun _ => f y := by
  simp only [modify, map_map]
  congr 1
  refine map_congr_left fun x _ => ?_
  by_cases hid : x.seqId = id <;> simp [hid, hy]

lemma sequenceIds_modify (hy : y.seqId = id) :
    (b.modify id fun _ => y).sequenceIds = b.sequenceIds := by
  simp only [modify, sequenceIds, map_map]
  refine map_congr_left fun x _ => ?_
  by_cases hid : x.seqId = id <;> simp [hid, hy]

lemma mem_modify {x : SequenceInfo} (h : x ∈ (b.modify id fun _ => y).sequences) :
    x = y ∨ x ∈ b.sequences ∧ x.seqId ≠ id := by
  obtain ⟨z, hz, rfl⟩ := mem_map.mp h
  split_ifs with hid
  · exact .inl rfl
  · exact .inr ⟨hz, hid⟩

lemma get_of_mem (hnodup : b.sequenceIds.Nodup) (h : seq ∈ b.sequences) :
    b.get seq.seqId = some seq := by
  cases hget : b.get seq.seqId with
  | none => exact absurd (find?_eq_none.mp hget seq h) (by simp)
  | some x => rw [inj_on_of_nodup_map hnodup (mem_of_get hget) h (seqId_of_get hget)]

lemma filterMap_get (hnodup : b.sequenceIds.Nodup) : b.sequenceIds.filterMap b.get = b.sequences := by
  rw [sequenceIds, filterMap_map]
  refine (filterMap_congr fun x hx => ?_).trans filterMap_some
  exact get_of_mem hnodup hx

lemma get_modify (h : b.get id = some seq) (hy : y.seqId = id) :
    (b.modify id fun _ => y).get id = some y := by
  have hsame : ((fun x : SequenceInfo => x.seqId == id) ∘ fun x => if x.seqId = id then y else x) =
      fun x => x.seqId == id := by
    funext x
    by_cases hid : x.seqId = id <;> simp [hid, hy]
  unfold get modify
  rw [find?_map, hsame]
  rw [get] at h
  simp [h, seqId_of_get h]

end ActiveBatch

open ActiveBatch

namespace Scheduler

/-! ## One row of a decode step -/

variable {s s' : Scheduler} {w : World} {id : SequenceId} {seq : SequenceInfo}

/-- The row replaces its sequence by one that is over, and touches no other sequence and no slot. -/
structure RowEnds (w : World) (id : SequenceId) (s s' : Scheduler) : Prop where
  active : ∃ seq, seq.seqId = id ∧ seq.Over w ∧ s'.active = s.active.modify id fun _ => seq
  slotIds : s'.slotIds = s.slotIds

lemma commitToken_ends {token : Token} {logprobs : Bool} (hnodup : s.active.sequenceIds.Nodup)
    (hget : s.active.get seq.seqId = some seq)
    (hends : (w.cancelled seq.channel = true ∧ seq.orphaned = false) ∨
      seq.state ≠ .queued ∧ (token ∈ seq.mergedEos ∨
        seq.maxTokens ≤ seq.generatedTokens.length + 1)) :
    RowEnds w seq.seqId s (s.commitToken w seq token logprobs) := by
  have hover : ∀ (x : SequenceInfo) (reason : FinishReason), x.channel = seq.channel →
      x.orphaned = seq.orphaned → x.state = seq.state →
      (x.transition (.finished reason)).Over w := by
    intro x reason hchannel horphaned hstate
    rcases hends with hgone | ⟨hqueued, -⟩
    · unfold transition
      split <;> exact .inr ⟨hchannel ▸ hgone.1, horphaned ▸ hgone.2⟩
    · exact .inl (transition_isFinished (.inl (hstate ▸ hqueued)))
  rw [commitToken]
  split
  · exact ⟨⟨_, seq.seqId_transition _, hover seq .stop rfl rfl rfl, modify_of_get hnodup hget _⟩, rfl⟩
  · rename_i hstop
    have hpushed := modify_of_get hnodup hget fun seq => seq.pushToken token
    generalize hs₁ : ({ s with active := s.active.modify seq.seqId fun seq => seq.pushToken token } :
      Scheduler) = s₁
    have hquiet := s₁.sendToken_quiet w (seq.pushToken token) token logprobs
    have hactive : (s₁.sendToken w (seq.pushToken token) token logprobs).active =
        s.active.modify seq.seqId fun _ => seq.pushToken token := by
      rw [hquiet.active, ← hs₁, hpushed]
    have hslots : (s₁.sendToken w (seq.pushToken token) token logprobs).slotIds = s.slotIds := by
      rw [hquiet.slotIds, ← hs₁]
      rfl
    dsimp only
    split_ifs with hlength
    · refine ⟨⟨(seq.pushToken token).transition (.finished .length), seqId_transition _ _,
        hover _ _ rfl rfl rfl, ?_⟩, hslots⟩
      dsimp only
      rw [hactive]
      exact modify_modify (y := seq.pushToken token) rfl _
    · refine ⟨⟨seq.pushToken token, rfl, .inr (hends.resolve_right ?_), hactive⟩, hslots⟩
      rintro ⟨-, htoken | hmax⟩
      · exact hstop htoken
      · exact hlength (by simpa [pushToken] using hmax)

/-- The row first writes something else to its sequence. -/
lemma RowEnds.of_modify {t : Scheduler} {y : SequenceInfo} (hy : y.seqId = id)
    (hactive : t.active = s.active.modify id fun _ => y) (hslots : t.slotIds = s.slotIds)
    (h : RowEnds w id t s') : RowEnds w id s s' := by
  obtain ⟨⟨seq, hid, hover, hmodify⟩, hslots'⟩ := h
  refine ⟨⟨seq, hid, hover, ?_⟩, hslots'.trans hslots⟩
  rw [hmodify, hactive]
  exact modify_modify hy _

lemma abortSequenceWithError_ends {x : SequenceInfo} {msg : String}
    (hnodup : s.active.sequenceIds.Nodup) (hget : s.active.get seq.seqId = some x) :
    RowEnds w seq.seqId s (s.abortSequenceWithError seq msg) := by
  refine ⟨⟨x.transition (.finished (.error msg)), ?_, .inl (transition_isFinished (.inr (by simp))),
    modify_of_get hnodup hget _⟩, rfl⟩
  rw [seqId_transition, seqId_of_get hget]

lemma sampleRow_ends (hnodup : s.active.sequenceIds.Nodup) (hget : s.active.get id = some seq)
    (hends : seq.EndsNow w) : RowEnds w id s (s.sampleRow w id) := by
  obtain rfl := seqId_of_get hget
  rw [sampleRow, hget]
  dsimp only
  split
  · exact abortSequenceWithError_ends hnodup hget
  rename_i hmask
  rcases hfinal : seq.thinking.applyThinkingBudget (w.sample seq) with ⟨token, thinking⟩
  -- the rest of the row works on the sequence with the new thinking state
  have hactive := modify_of_get hnodup hget fun seq => { seq with thinking := thinking }
  refine .of_modify (t := { s with active := s.active.modify seq.seqId fun seq =>
    { seq with thinking := thinking } }) (y := { seq with thinking := thinking }) rfl hactive rfl ?_
  have hget' := get_modify hget (y := { seq with thinking := thinking }) rfl
  have hnodup' := hnodup
  rw [← sequenceIds_modify (y := { seq with thinking := thinking }) rfl] at hnodup'
  rw [← hactive] at hget' hnodup'
  dsimp only
  split
  · exact abortSequenceWithError_ends hnodup' hget'
  · rename_i hconsume
    refine @commitToken_ends _ _ { seq with thinking := thinking } _ _ hnodup' hget' ?_
    rcases hends with hgone | ⟨hstructured, herror⟩ | ⟨hqueued, hlast⟩
    · exact .inl hgone
    · rw [if_pos hstructured] at hmask hconsume
      simp [hmask, hconsume] at herror
    · rw [hfinal] at hlast
      exact .inr ⟨hqueued, hlast⟩

lemma RowEnds.of_quiet {s₁ : Scheduler} (hquiet : Quiet s s₁) (h : RowEnds w id s₁ s') :
    RowEnds w id s s' :=
  ⟨hquiet.active ▸ h.active, h.slotIds.trans hquiet.slotIds⟩

lemma decodeSingleStep_ends (hnodup : s.active.sequenceIds.Nodup) (hslot : id ∈ s.slotIds)
    (hget : s.active.get id = some seq) (hends : seq.EndsNow w) :
    RowEnds w id s (s.decodeSingleStep w id) := by
  have hcut := s.enforceMaxKvSizeFor_quiet id
  rw [decodeSingleStep, hget]
  refine .of_quiet hcut ?_
  rw [← hcut.slotIds, mem_slotIds] at hslot
  rw [← hcut.active] at hnodup hget
  dsimp only
  rw [if_neg (by simpa [Option.isSome_iff_ne_none] using hslot)]
  have hforward := forward_quiet (s.enforceMaxKvSizeFor id) [(id, [lastToken seq])]
  refine .of_quiet hforward (sampleRow_ends ?_ ?_ hends)
  · rwa [hforward.active]
  · rwa [hforward.active]

/-! ## A decode step -/

/-- The sequences whose rows are still to come meet `Q`, and the others are over. -/
structure Ending (w : World) (Q : SequenceInfo → Prop) (ids : List SequenceId) (s : Scheduler) :
    Prop where
  nodup : s.active.sequenceIds.Nodup
  slots : ∀ id ∈ s.active.sequenceIds, id ∈ s.slotIds
  rows : ∀ seq ∈ s.active.sequences, seq.seqId ∈ ids ∧ Q seq ∨ seq.seqId ∉ ids ∧ seq.Over w

variable {Q : SequenceInfo → Prop} {ids : List SequenceId}

lemma Ending.row (h : Ending w Q (id :: ids) s) (hid : id ∉ ids)
    (hnone : s.active.get id = none → s' = s)
    (hrow : ∀ seq, s.active.get id = some seq → Q seq → RowEnds w id s s') : Ending w Q ids s' := by
  cases hget : s.active.get id with
  | none =>
    rw [hnone hget]
    refine ⟨h.nodup, h.slots, fun seq hseq => ?_⟩
    have hne : seq.seqId ≠ id := by simpa using find?_eq_none.mp hget seq hseq
    simpa [hne] using h.rows seq hseq
  | some seq =>
    have hQ : Q seq := by
      rcases h.rows seq (mem_of_get hget) with ⟨-, hQ⟩ | ⟨hout, -⟩
      · exact hQ
      · exact absurd (mem_cons.mpr (.inl (seqId_of_get hget))) hout
    obtain ⟨⟨y, hy, hover, hactive⟩, hslots⟩ := hrow seq hget hQ
    have hids : s'.active.sequenceIds = s.active.sequenceIds := by
      rw [hactive, sequenceIds_modify hy]
    refine ⟨hids ▸ h.nodup, by rw [hids, hslots]; exact h.slots, fun x hx => ?_⟩
    rw [hactive] at hx
    rcases mem_modify hx with rfl | ⟨hx, hne⟩
    · exact .inr ⟨hy ▸ hid, hover⟩
    · simpa [hne] using h.rows x hx

lemma Ending.foldl {f : Scheduler → SequenceId → Scheduler}
    (hnone : ∀ s id, s.active.get id = none → f s id = s)
    (hrow : ∀ s id seq, s.active.sequenceIds.Nodup → id ∈ s.slotIds → s.active.get id = some seq →
      Q seq → RowEnds w id s (f s id))
    (hids : ids.Nodup) (h : Ending w Q ids s) : Ending w Q [] (ids.foldl f s) := by
  induction ids generalizing s with
  | nil => exact h
  | cons id ids ih =>
    refine ih (nodup_cons.mp hids).2 (h.row (nodup_cons.mp hids).1 (hnone s id) ?_)
    intro seq hget hQ
    refine hrow s id seq h.nodup (h.slots id ?_) hget hQ
    rw [← seqId_of_get hget]
    exact mem_map_of_mem (mem_of_get hget)

lemma Ending.of_quiet {s₁ : Scheduler} (hquiet : Quiet s s₁) (h : Ending w Q ids s) :
    Ending w Q ids s₁ := by
  refine ⟨?_, ?_, ?_⟩
  · rw [hquiet.active]
    exact h.nodup
  · rw [hquiet.active, hquiet.slotIds]
    exact h.slots
  · rw [hquiet.active]
    exact h.rows

lemma decodeSingleSteps_over (hids : ids.Nodup) (h : Ending w (EndsNow w) ids s) :
    Ending w (EndsNow w) [] (ids.foldl (fun s id => s.decodeSingleStep w id) s) := by
  refine h.foldl (fun s id hget => ?_) (fun s id seq hnodup hslot hget hends => ?_) hids
  · rw [decodeSingleStep, hget]
  · exact decodeSingleStep_ends hnodup hslot hget hends

lemma applyFusedDecodeTokens_over (hids : ids.Nodup)
    (h : Ending w (fun seq => seq.EndsNow w ∧ rowSupportsFusedBatch seq = true) ids s) :
    ∃ Q, Ending w Q [] (s.applyFusedDecodeTokens w ids) := by
  refine ⟨_, h.foldl (fun s id hget => ?_) (fun s id seq hnodup hslot hget hQ => ?_) hids⟩
  · rw [hget]
  · obtain ⟨hends, hfused⟩ := hQ
    simp only [rowSupportsFusedBatch, Bool.and_eq_true, Bool.not_eq_true'] at hfused
    obtain ⟨⟨⟨_, hplain⟩, hthinking⟩, _⟩ := hfused
    obtain rfl := seqId_of_get hget
    rw [hget]
    refine commitToken_ends hnodup hget ?_
    rcases hends with hgone | ⟨hstructured, -⟩ | hlast
    · exact .inl hgone
    · simp [hplain] at hstructured
    · rw [ThinkingState.applyThinkingBudget, if_pos hthinking] at hlast
      exact .inr hlast

lemma rowSupportsFusedBatch_of_mem {seqs : List SequenceInfo} (h : batchedDecodeFuses seqs = true)
    (hseq : seq ∈ seqs) : rowSupportsFusedBatch seq = true := by
  cases seqs with
  | nil => exact absurd hseq not_mem_nil
  | cons first seqs =>
    have hall := all_eq_true.mp h seq hseq
    exact (Bool.and_eq_true _ _ ▸ hall).1

/-- The rows of all active sequences. -/
lemma executeDecodeStep_over (h : Ending w (EndsNow w) s.active.sequenceIds s) :
    ∃ Q, Ending w Q [] (s.executeDecodeStep w s.active.sequenceIds) := by
  rw [executeDecodeStep]
  split
  · exact ⟨_, decodeSingleSteps_over h.nodup h⟩
  have hcut := Quiet.foldl (fun s id => enforceMaxKvSizeFor_quiet s id) s.active.sequenceIds s
  rw [executeBatchedDecode]
  generalize s.active.sequenceIds.foldl enforceMaxKvSizeFor s = s₁ at hcut ⊢
  have h₁ := h.of_quiet hcut
  rw [← hcut.active] at h₁ ⊢
  dsimp only
  rw [filterMap_get h₁.nodup, if_neg (by simp [sequenceIds]), if_neg ?_]
  · have hforward := s₁.forward_quiet (s₁.active.sequences.map fun seq =>
      (seq.seqId, [lastToken seq]))
    have h₂ := h₁.of_quiet hforward
    split
    · rename_i hfuses
      refine applyFusedDecodeTokens_over h₁.nodup ⟨h₂.nodup, h₂.slots, fun seq hseq => ?_⟩
      refine (h₂.rows seq hseq).imp_left fun hrow => ⟨hrow.1, hrow.2, ?_⟩
      rw [hforward.active] at hseq
      exact rowSupportsFusedBatch_of_mem hfuses hseq
    · refine ⟨_, h₂.foldl (fun s id hget => ?_) (fun s id seq hnodup hslot hget hends => ?_)
        h₁.nodup⟩
      · rw [sampleRow, hget]
      · exact sampleRow_ends hnodup hget hends
  · simp only [any_eq_true, not_exists, not_and, Bool.not_eq_true]
    intro id hid
    have := mem_slotIds.mp (h₁.slots id hid)
    simpa [Option.isSome_iff_ne_none] using this

/-! ## The end of a round -/

lemma cancelDisconnected_active : (s.cancelDisconnected w).active = (s.cancelActive w).active := by
  have hqueued : ∀ (seqs : List SequenceInfo) (s : Scheduler),
      (seqs.foldl cancelQueued s).active = s.active := by
    intro seqs
    induction seqs with
    | nil => exact fun s => rfl
    | cons seq seqs ih =>
      intro s
      rw [foldl_cons, ih, cancelQueued]
      exact ((note_sameBatch s _).trans ((forget_sameBatch _ _).trans (dropSlot_sameBatch _ _))).active
  rw [cancelDisconnected, cancelQueuedDisconnected]
  dsimp only
  rw [hqueued, cancelChunked]
  dsimp only
  split
  · rfl
  split_ifs
  · rfl
  · rfl
  · exact ((note_sameBatch _ _).trans ((drainPrefillCoalescing_sameBatch _ w _).trans
      ((forget_sameBatch _ _).trans (dropSlot_sameBatch _ _)))).active

lemma finalizeSequences_empties (ids : List SequenceId) (s : Scheduler)
    (hnodup : s.active.sequenceIds.Nodup) (hall : ∀ seq ∈ s.active.sequences, seq.seqId ∈ ids) :
    (ids.foldl (fun s id => s.finalizeSequence w id) s).active.isEmpty = true := by
  induction ids generalizing s with
  | nil =>
    rw [foldl_nil, ActiveBatch.isEmpty, List.isEmpty_iff, eq_nil_iff_forall_not_mem]
    exact fun seq hseq => absurd (hall seq hseq) not_mem_nil
  | cons id ids ih =>
    rw [foldl_cons]
    cases hremove : s.active.remove id with
    | none =>
      have hget : s.active.get id = none := by simpa [ActiveBatch.remove] using hremove
      rw [finalizeSequence, hremove]
      refine ih s hnodup fun seq hseq => (mem_cons.mp (hall seq hseq)).resolve_left ?_
      simpa using find?_eq_none.mp hget seq hseq
    | some found =>
      obtain ⟨seq, batch⟩ := found
      obtain ⟨hperm, hid, -⟩ := remove_spec hremove
      have hids := hperm.map (·.seqId)
      rw [map_cons] at hids
      have hactive : (s.finalizeSequence w id).active = batch := by
        rw [finalizeSequence, hremove]
        exact ((note_sameBatch _ _).trans (settleSequence_sameBatch _ w seq _ _)).active
      have hrest := nodup_cons.mp (hids.nodup_iff.mp hnodup)
      refine ih _ (hactive ▸ hrest.2) fun x hx => ?_
      rw [hactive] at hx
      refine (mem_cons.mp (hall x (hperm.mem_iff.mpr (mem_cons_of_mem _ hx)))).resolve_left ?_
      rintro rfl
      exact hrest.1 (hid ▸ mem_map_of_mem hx)

/-- A batch of sequences that are over is emptied. -/
lemma finalizeCompleted_empties (h : Ending w Q [] s) :
    (s.finalizeCompleted w).active.isEmpty = true := by
  have hactive := cancelDisconnected_active (s := s) (w := w)
  rw [finalizeCompleted]
  refine finalizeSequences_empties _ _ ?_ fun seq hseq => ?_
  · have hids : (s.cancelActive w).active.sequenceIds = s.active.sequenceIds := by
      simp only [cancelActive, sequenceIds, map_map]
      refine map_congr_left fun x _ => ?_
      rw [Function.comp_apply, apply_ite SequenceInfo.seqId, seqId_transition, ite_self]
    rw [hactive, hids]
    exact h.nodup
  · refine mem_map_of_mem (mem_filter.mpr ⟨hseq, ?_⟩)
    rw [hactive] at hseq
    obtain ⟨x, hx, rfl⟩ := mem_map.mp hseq
    have hover : x.Over w := ((h.rows x hx).resolve_left fun hrow => absurd hrow.1 not_mem_nil).2
    split_ifs with hgone
    · exact transition_isFinished (.inr (by simp))
    · rcases hover with hfinished | ⟨hcancelled, horphaned⟩
      · exact hfinished
      · simpa [hcancelled, horphaned] using hgone

/-! ## Rounds -/

variable (cfg : Config) (ws : ℕ → World)

/-- The state in which round `i` of a run decides what to do. -/
def decision (i : ℕ) : Scheduler :=
  (run cfg ((List.range i).map ws)).drainIncomingRequests (ws i)

/-- In the first `rounds` rounds, at most one decode step comes between two chunks of a prefill in
progress, and no chunk of it runs while sequences wait for their decode step. -/
structure Interleaves (rounds : ℕ) : Prop where
  decodes : ∀ i n, i + n < rounds → (∀ k ≤ n, (decision cfg ws (i + k)).chunked.isSome) →
    (∀ k < n, (decision cfg ws (i + k)).decideAction ≠ .prefill) →
    (decision cfg ws (i + n)).decideAction = .prefill → n ≤ 1
  chunks : ∀ i < rounds, (decision cfg ws i).chunked.isSome →
    (decision cfg ws i).decideAction = .prefill → (decision cfg ws i).active.isEmpty

lemma decideAction_eq_prefill_iff {s : Scheduler} (h : s.chunked.isSome) :
    s.decideAction = .prefill ↔ s.active.isEmpty := by
  cases hempty : s.active.isEmpty <;> simp [decideAction, h, hempty]

lemma decision_succ (i : ℕ) : decision cfg ws (i + 1) =
    (((decision cfg ws i).execute (ws i)).finalizeCompleted (ws i)).drainIncomingRequests
      (ws (i + 1)) := by
  rw [decision, range_succ, map_append, run, foldl_append]
  rfl

/-- Arrivals wait in the queue. -/
lemma drainIncomingRequests_isEmpty (h : s.active.isEmpty = true) :
    (s.drainIncomingRequests w).active.isEmpty = true := by
  have harrive : ∀ (s : Scheduler) (payload : Payload), SameBatch s (s.arrive w payload) := by
    intro s payload
    refine SameBatch.trans ?_ (enqueueRequest_sameBatch _ w _)
    exact ⟨rfl, rfl, rfl, fun _ h => h⟩
  rw [drainIncomingRequests, (SameBatch.foldl harrive w.arrivals _).active]
  simp only [ActiveBatch.isEmpty, List.isEmpty_iff] at h ⊢
  have hperm := w.order_perm s.active.sequences
  rw [h] at hperm ⊢
  exact hperm.eq_nil

/-- Every active sequence has an id and a slot of its own. -/
lemma decision_ending (i : ℕ)
    (h : ∀ seq ∈ (decision cfg ws i).active.sequences, seq.EndsNow (ws i)) :
    Ending (ws i) (EndsNow (ws i)) (decision cfg ws i).active.sequenceIds (decision cfg ws i) := by
  have hledger := (slotLedger_foldl ((List.range i).map ws)
    ⟨init_bounded cfg, init_slotLedger False cfg⟩).2
  have hdecision : SlotLedger False (decision cfg ws i).atRest :=
    (drainIncomingRequests_steps _ (ws i)).invariant (p := ⟨True, True, True, True⟩)
      (fun hstep h => hstep.slotLedger h False.elim) hledger
  have hcount : ∀ id, (decision cfg ws i).active.sequenceIds.count id ≤
      (decision cfg ws i).slotIds.count id := by
    intro id
    refine le_trans ?_ (hdecision.owned id)
    have hactive : (decision cfg ws i).active.sequenceIds.count id =
        (decision cfg ws i).active.sequences.countP (·.seqId == id) := by
      rw [sequenceIds, count, countP_map]
      rfl
    have howners : (decision cfg ws i).atRest.owners id =
        (decision cfg ws i).live.countP (·.seqId == id) := by simp [atRest, Conf.owners]
    rw [howners, live, countP_append, countP_append, hactive]
    omega
  refine ⟨nodup_iff_count_le_one.mpr fun id => ?_, fun id hid => ?_, fun seq hseq => ?_⟩
  · have hgiven : (decision cfg ws i).slotIds.count id + (decision cfg ws i).freedCount id = _ :=
      hdecision.given id
    have hle := hcount id
    split_ifs at hgiven <;> omega
  · exact count_pos_iff.mp ((count_pos_iff.mpr hid).trans_le (hcount id))
  · exact .inl ⟨mem_map_of_mem hseq, h seq hseq⟩

/-- **A chunked prefill alternates with decoding** in every run in which each decode step that is
taken while the prefill is in progress is the last one of all active sequences. -/
theorem interleaves_of_endsNow {rounds : ℕ}
    (h : ∀ i < rounds, (decision cfg ws i).chunked.isSome →
      ∀ seq ∈ (decision cfg ws i).active.sequences, seq.EndsNow (ws i)) :
    Interleaves cfg ws rounds := by
  refine ⟨fun i n hn hchunked hdecodes hchunk => ?_, fun i _ hchunked =>
    (decideAction_eq_prefill_iff hchunked).mp⟩
  by_contra hlt
  -- round `i` is a decode step, after which the batch is empty
  have hactive : (decision cfg ws i).active.isEmpty = false := by
    have hne := hdecodes 0 (by omega)
    rw [Ne, decideAction_eq_prefill_iff (hchunked 0 (by omega))] at hne
    simpa using hne
  have hdecode : (decision cfg ws i).decideAction =
      .decode (decision cfg ws i).active.sequenceIds := by
    simp [decideAction, show (decision cfg ws i).chunked.isSome from hchunked 0 (by omega), hactive]
  obtain ⟨Q, hover⟩ := executeDecodeStep_over
    (decision_ending cfg ws i (h i (by omega) (hchunked 0 (by omega))))
  have hempty : (decision cfg ws (i + 1)).active.isEmpty = true := by
    rw [decision_succ, execute, hdecode]
    exact drainIncomingRequests_isEmpty (finalizeCompleted_empties hover)
  exact hdecodes 1 (by omega) ((decideAction_eq_prefill_iff (hchunked 1 (by omega))).mpr hempty)

/-- Two sequences at most, and chunks of one token. -/
def chunkConfig : Config :=
  { plainConfig with maxBatchSize := 2, maxBatchSize_pos := Nat.two_pos, prefillChunkSize := 1 }

/-- A request for `maxTokens` tokens, and a long prompt behind it. -/
def waitingRun (maxTokens : ℕ) : ℕ → World
  | 0 => { arrivals := [{ prompt := "a", maxTokens := maxTokens }] }
  | 1 => { arrivals := [{ prompt := "bcd", maxTokens := 1 }] }
  | _ => {}

/-- The request for two tokens gets its second one between two chunks. -/
theorem interleaves_two_tokens :
    (decision chunkConfig (waitingRun 2) 2).chunked.isSome ∧
      (decision chunkConfig (waitingRun 2) 2).decideAction = .decode [0] ∧
      (decision chunkConfig (waitingRun 2) 3).decideAction = .prefill ∧
      Interleaves chunkConfig (waitingRun 2) 5 :=
  ⟨by decide +kernel, by decide +kernel, by decide +kernel,
    interleaves_of_endsNow _ _ (by decide +kernel)⟩

/-- The request for three tokens: the second chunk comes after two decode steps. -/
theorem not_interleaves : ¬ Interleaves chunkConfig (waitingRun 3) 5 := by
  intro h
  exact absurd (h.decodes 2 2 (by decide) (by decide +kernel) (by decide +kernel) (by decide +kernel))
    (by decide)

end Scheduler

end Mlxcel.Batch
