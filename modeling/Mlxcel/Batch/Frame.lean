import Mlxcel.Batch.Tick

/-!
# What the parts of a tick leave alone

Frame facts about the functions of the scheduler, one for each function. `Quiet` is said of work on
caches and on the prompt-cache store: no sequence moves, no slot is taken or given back and no
request ends. `SameBatch` is said of everything that happens around a request which comes in or goes
out: the sequences that decode and the one that is prefilled in chunks stay where they are, and no
new prompt gets waiting requests.
-/

namespace Mlxcel.Batch

/-- No request and no slot begins or ends with this effect. -/
def Effect.isQuiet : Effect → Bool
  | .sent _ ev => !ev.isTerminal
  | _ => false

namespace Scheduler

/-- The ids of the slots in use. -/
def slotIds (s : Scheduler) : List SequenceId := s.pool.active.map (·.seqId)

structure Quiet (s s' : Scheduler) : Prop where
  cfg : s'.cfg = s.cfg
  queue : s'.queue = s.queue
  active : s'.active = s.active
  chunked : s'.chunked = s.chunked
  contexts : s'.promptCacheSeqCtx = s.promptCacheSeqCtx
  donation : s'.donationInProgress = s.donationInProgress
  prefill : s'.prefillInProgress = s.prefillInProgress
  nextChannel : s'.nextChannel = s.nextChannel
  nextId : s'.pool.nextId = s.pool.nextId
  slotIds : s'.slotIds = s.slotIds
  log : ∃ l, s'.log = l ++ s.log ∧ ∀ e ∈ l, e.isQuiet = true

structure SameBatch (s s' : Scheduler) : Prop where
  cfg : s'.cfg = s.cfg
  active : s'.active = s.active
  chunked : s'.chunked = s.chunked
  unarmed : ∀ hash, s.prefillInProgress.lookup hash = none →
    s'.prefillInProgress.lookup hash = none

variable {s s' s'' : Scheduler}

namespace Quiet

lemma refl (s : Scheduler) : Quiet s s :=
  ⟨rfl, rfl, rfl, rfl, rfl, rfl, rfl, rfl, rfl, rfl, [], rfl, by simp⟩

lemma trans (h : Quiet s s') (h' : Quiet s' s'') : Quiet s s'' where
  cfg := h'.cfg.trans h.cfg
  queue := h'.queue.trans h.queue
  active := h'.active.trans h.active
  chunked := h'.chunked.trans h.chunked
  contexts := h'.contexts.trans h.contexts
  donation := h'.donation.trans h.donation
  prefill := h'.prefill.trans h.prefill
  nextChannel := h'.nextChannel.trans h.nextChannel
  nextId := h'.nextId.trans h.nextId
  slotIds := h'.slotIds.trans h.slotIds
  log := by
    obtain ⟨l, hl, hq⟩ := h.log
    obtain ⟨l', hl', hq'⟩ := h'.log
    refine ⟨l' ++ l, by rw [hl', hl, List.append_assoc], fun e he => ?_⟩
    rcases List.mem_append.mp he with he | he
    exacts [hq' e he, hq e he]

lemma sameBatch (h : Quiet s s') : SameBatch s s' :=
  ⟨h.cfg, h.active, h.chunked, fun hash hnone => by rwa [h.prefill]⟩

/-- Only the store and what waits for the pool have changed. -/
lemma store (s : Scheduler) (store : List CacheEntry) (pending : List BlockId) :
    Quiet s { s with store := store, pendingReleases := pending } :=
  ⟨rfl, rfl, rfl, rfl, rfl, rfl, rfl, rfl, rfl, rfl, [], rfl, by simp⟩

lemma foldl {α : Type*} {f : Scheduler → α → Scheduler} (h : ∀ s a, Quiet s (f s a)) (l : List α)
    (s : Scheduler) : Quiet s (l.foldl f s) :=
  l.foldlRecOn f (refl s) fun _ hs a _ => hs.trans (h _ a)

end Quiet

namespace SameBatch

lemma refl (s : Scheduler) : SameBatch s s := ⟨rfl, rfl, rfl, fun _ h => h⟩

lemma trans (h : SameBatch s s') (h' : SameBatch s' s'') : SameBatch s s'' :=
  ⟨h'.cfg.trans h.cfg, h'.active.trans h.active, h'.chunked.trans h.chunked,
    fun hash hnone => h'.unarmed hash (h.unarmed hash hnone)⟩

lemma foldl {α : Type*} {f : Scheduler → α → Scheduler} (h : ∀ s a, SameBatch s (f s a))
    (l : List α) (s : Scheduler) : SameBatch s (l.foldl f s) :=
  l.foldlRecOn f (refl s) fun _ hs a _ => hs.trans (h _ a)

end SameBatch

/-! ## Quiet functions -/

variable (s)

lemma note_quiet {e : Effect} (he : e.isQuiet = true) : Quiet s (s.note e) :=
  ⟨rfl, rfl, rfl, rfl, rfl, rfl, rfl, rfl, rfl, rfl, [e], rfl, by simpa using he⟩

variable (w : World) (id : SequenceId) (entry : CacheEntry) (seq : SequenceInfo)
  (tokens : List Token)

lemma modifySet_quiet {f : CacheSet → CacheSet}
    (hf : ∀ set, (f set).seqId = set.seqId) : Quiet s (s.modifySet id f) := by
  refine ⟨rfl, rfl, rfl, rfl, rfl, rfl, rfl, rfl, rfl, ?_, [], rfl, by simp⟩
  simp only [Scheduler.slotIds, modifySet, List.map_map]
  refine List.map_congr_left fun set _ => ?_
  simp only [Function.comp_apply]
  split_ifs
  exacts [hf set, rfl]

lemma feed_quiet : Quiet s (s.feed id tokens) := by
  rw [feed]
  split
  · exact .refl s
  · rename_i set _
    have hset := s.modifySet_quiet id (f := fun row =>
      { row with
        tokens := row.tokens ++ tokens
        blocks := row.blocks ++ .range' s.pool.nextBlock
          (set.newPositions s.cfg.blockSize tokens.length) }) fun _ => rfl
    exact ⟨rfl, rfl, rfl, rfl, rfl, rfl, rfl, rfl, rfl, hset.slotIds, [], rfl, by simp⟩

lemma forward_quiet (rows : List (SequenceId × List Token)) : Quiet s (s.forward rows) := by
  rw [forward]
  exact .foldl (fun s row => s.feed_quiet row.1 row.2) rows s

lemma trimEnd_quiet (n : ℕ) : Quiet s (s.trimEnd id n) :=
  s.modifySet_quiet id fun _ => rfl

lemma enforceMaxKvSizeFor_quiet : Quiet s (s.enforceMaxKvSizeFor id) := by
  rw [enforceMaxKvSizeFor]
  split
  · exact .refl s
  · exact s.modifySet_quiet id fun set => by split_ifs <;> rfl

lemma sendToken_quiet (token : Token)
    (logprobs : Bool) : Quiet s (s.sendToken w seq token logprobs) := by
  rw [sendToken]
  split
  · exact .refl s
  · split_ifs
    exacts [s.note_quiet rfl, s.note_quiet rfl]

lemma sendToken_pool (token : Token)
    (logprobs : Bool) : (s.sendToken w seq token logprobs).pool = s.pool := by
  rw [sendToken]
  split
  · rfl
  · split_ifs <;> rfl

lemma shrinkStore_quiet (keep : CacheEntry → Bool) : Quiet s (s.shrinkStore keep) :=
  .store s _ _

lemma drainStorePagedReleases_quiet : Quiet s s.drainStorePagedReleases :=
  .store s _ _

lemma insertEntry_quiet : Quiet s (s.insertEntry w entry) :=
  .store s _ _

lemma evictUntilRoom_quiet (need : ℕ) (rounds : ℕ) (s : Scheduler) :
    Quiet s (s.evictUntilRoom w need rounds) := by
  induction rounds generalizing s with
  | zero => exact .refl s
  | succ rounds ih =>
    rw [evictUntilRoom]
    split_ifs
    · exact .refl s
    · exact (Quiet.store s _ _).trans (ih _)

/-! ## Functions that keep the batch -/

lemma note_sameBatch (e : Effect) : SameBatch s (s.note e) := ⟨rfl, rfl, rfl, fun _ h => h⟩

lemma queue_sameBatch (queue : PrefillQueue) : SameBatch s { s with queue := queue } :=
  ⟨rfl, rfl, rfl, fun _ h => h⟩

lemma forget_sameBatch : SameBatch s (s.forget id) :=
  ⟨rfl, rfl, rfl, fun _ h => h⟩

lemma dropSlot_sameBatch : SameBatch s (s.dropSlot id) := by
  rw [dropSlot]
  split_ifs
  exacts [⟨rfl, rfl, rfl, fun _ h => h⟩, .refl s]

/-- Only the pool and the log know of a slot that is given up. -/
@[simp] lemma dropSlot_fields : (s.dropSlot id).cfg = s.cfg ∧ (s.dropSlot id).queue = s.queue ∧
    (s.dropSlot id).active = s.active ∧ (s.dropSlot id).chunked = s.chunked ∧
    (s.dropSlot id).promptCacheSeqCtx = s.promptCacheSeqCtx ∧
    (s.dropSlot id).prefillInProgress = s.prefillInProgress ∧
    (s.dropSlot id).donationInProgress = s.donationInProgress ∧
    (s.dropSlot id).nextChannel = s.nextChannel := by
  rw [dropSlot]
  split_ifs <;> simp

lemma allocateSequenceState_spec {s s' : Scheduler} {id : SequenceId}
    (h : s.allocateSequenceState = .ok (id, s')) : id = s.pool.nextId ∧ s' = s.insertSlot [] [] := by
  rw [allocateSequenceState] at h
  split_ifs at h
  simp only [Except.ok.injEq, Prod.mk.injEq] at h
  exact ⟨h.1.symm, h.2.symm⟩

lemma insertSlot_sameBatch (blocks : List BlockId) : SameBatch s (s.insertSlot tokens blocks) :=
  ⟨rfl, rfl, rfl, fun _ h => h⟩

lemma adopt_sameBatch (blocks : List BlockId) : SameBatch s (s.adopt tokens blocks).1 := by
  rw [adopt]
  split_ifs
  exacts [.refl s, s.insertSlot_sameBatch tokens blocks]

lemma adoptSnapshot_sameBatch : SameBatch s (s.adoptSnapshot w entry tokens).1 := by
  rw [adoptSnapshot]
  split
  · exact .refl s
  · split
    · exact .refl s
    · rename_i id s' halloc
      obtain ⟨-, rfl⟩ := allocateSequenceState_spec halloc
      split
      · exact (s.insertSlot_sameBatch [] []).trans (dropSlot_sameBatch _ _)
      · exact ⟨rfl, rfl, rfl, fun _ h => h⟩

lemma adoptPagedEntry_sameBatch (matched : ℕ) :
    SameBatch s (s.adoptPagedEntry entry matched).1 := by
  rw [adoptPagedEntry]
  split_ifs
  exacts [.refl s, .refl s, .refl s, s.adopt_sameBatch _ _]

lemma adoptDenseEntry_sameBatch (matched : ℕ) :
    SameBatch s (s.adoptDenseEntry w entry matched).1 := by
  have hstore := (Quiet.store s (s.store.erase entry) s.pendingReleases).sameBatch
  rw [adoptDenseEntry]
  split_ifs
  exacts [hstore, hstore, hstore.trans (adopt_sameBatch _ _ _)]

lemma tryAdoptCachedPrefix_sameBatch (bucket : Bucket) (tokens : List Token) (whole : Bool) :
    SameBatch s (s.tryAdoptCachedPrefix w bucket tokens whole).1 := by
  have hsweep := (s.drainStorePagedReleases_quiet.trans
    (shrinkStore_quiet _ w.sweep)).sameBatch
  rw [tryAdoptCachedPrefix]
  split_ifs
  · exact .refl s
  · refine hsweep.trans ?_
    dsimp only
    split
    · exact adoptSnapshot_sameBatch _ w _ tokens
    · split
      · exact .refl _
      · split
        · exact .refl _
        · split
          · exact .refl _
          · split_ifs
            exacts [.refl _, adoptPagedEntry_sameBatch _ _ _, adoptDenseEntry_sameBatch _ w _ _]

variable (req : Request) (ctx : Option Bucket)

lemma adoptPrefixFor_sameBatch
    (tokens : List Token) (mm : Bool) : SameBatch s (s.adoptPrefixFor w ctx tokens mm).1 := by
  unfold adoptPrefixFor
  split
  · exact .refl s
  · rename_i bucket
    have htry := s.tryAdoptCachedPrefix_sameBatch w bucket tokens mm
    split
    · rename_i heq
      rwa [heq] at htry
    · rename_i heq
      rw [heq] at htry
      split_ifs
      · exact htry
      · exact htry.trans (dropSlot_sameBatch _ _)

lemma takeSlotFor_sameBatch
    (tokens : List Token) (mm : Bool) : SameBatch s (s.takeSlotFor w ctx tokens mm).1 := by
  have hadopt := s.adoptPrefixFor_sameBatch w ctx tokens mm
  rw [takeSlotFor]
  split
  · rename_i heq
    rwa [heq] at hadopt
  · rename_i heq
    rw [heq] at hadopt
    split
    · exact hadopt
    · rename_i halloc
      obtain ⟨-, rfl⟩ := allocateSequenceState_spec halloc
      exact hadopt.trans (insertSlot_sameBatch _ _ _)

lemma enqueueSequence_sameBatch : SameBatch s (s.enqueueSequence seq) := by
  rw [enqueueSequence]
  split
  · exact ⟨rfl, rfl, rfl, fun _ h => h⟩
  · exact ((s.forget_sameBatch _).trans (dropSlot_sameBatch _ _)).trans (note_sameBatch _ _)

lemma remember_sameBatch : SameBatch s (s.remember id ctx) := by
  cases ctx with
  | none => exact .refl s
  | some bucket => exact ⟨rfl, rfl, rfl, fun _ h => h⟩

lemma bindRequest_sameBatch (prepared : Option Bool)
    (sharing : Bool) (tokens : List Token) (id : SequenceId) (start : ℕ) :
    SameBatch s (s.bindRequest w req prepared sharing tokens id start) := by
  unfold bindRequest
  split
  · exact ((s.forget_sameBatch _).trans (dropSlot_sameBatch _ _)).trans (note_sameBatch _ _)
  · split_ifs
    · exact ((s.remember_sameBatch id _).trans (note_sameBatch _ _)).trans
        (enqueueSequence_sameBatch _ _)
    · exact (s.note_sameBatch _).trans (enqueueSequence_sameBatch _ _)

lemma admitRequest_sameBatch (tokens : List Token) : SameBatch s (s.admitRequest w req tokens) := by
  rw [admitRequest]
  dsimp only
  split
  · exact s.note_sameBatch _
  · split <;> rename_i heq <;>
      have htake := congrArg Prod.fst heq ▸ s.takeSlotFor_sameBatch w _ _ _
    · exact htake.trans (note_sameBatch _ _)
    · exact htake.trans (bindRequest_sameBatch _ w req _ _ _ _ _)

/-- A prompt under which a request is parked had its entry before. -/
lemma park_sameBatch {hash : UInt64} {waiting : List Request}
    (h : s.prefillInProgress.lookup hash = some waiting) :
    SameBatch s
      { s with prefillInProgress := s.prefillInProgress.insert hash (waiting ++ [req]) } := by
  refine ⟨rfl, rfl, rfl, fun other hnone => ?_⟩
  have hne : other ≠ hash := by
    rintro rfl
    rw [h] at hnone
    cases hnone
  rwa [AList.lookup_insert_ne hne]

lemma enqueueRequest_sameBatch : SameBatch s (s.enqueueRequest w req) := by
  rw [enqueueRequest]
  split
  · exact s.note_sameBatch _
  · dsimp only
    split_ifs
    · exact s.note_sameBatch _
    · split
      · exact ⟨rfl, rfl, rfl, fun _ h => h⟩
      · exact s.park_sameBatch req ‹_›
      · exact s.admitRequest_sameBatch w req _
    · split
      · exact ⟨rfl, rfl, rfl, fun _ h => h⟩
      · exact s.admitRequest_sameBatch w req _
      · exact s.admitRequest_sameBatch w req _

lemma handleIncoming_sameBatch (reqs : List Request) : SameBatch s (s.handleIncoming w reqs) :=
  .foldl (fun s req => s.enqueueRequest_sameBatch w req) reqs s

lemma drainPrefillCoalescing_sameBatch (hash : UInt64) :
    SameBatch s (s.drainPrefillCoalescing w hash) := by
  rw [drainPrefillCoalescing]
  split
  · exact .refl s
  · have herase : SameBatch s { s with prefillInProgress := s.prefillInProgress.erase hash } :=
      ⟨rfl, rfl, rfl, fun other hnone => by
        simp [AssocMap.lookup_erase_eq, hnone]⟩
    exact herase.trans (handleIncoming_sameBatch _ w _)

/-- A drained prompt has no entry left: requests that are sent in again are not parked. -/
lemma drainPrefillCoalescing_unarmed (hash : UInt64) :
    (s.drainPrefillCoalescing w hash).prefillInProgress.lookup hash = none := by
  rw [drainPrefillCoalescing]
  split
  · assumption
  · exact (handleIncoming_sameBatch _ w _).unarmed hash (AList.lookup_erase _ _)

lemma publishDonation_sameBatch (hash : UInt64) : SameBatch s (s.publishDonation w entry hash) := by
  have hinsert := ((s.insertEntry_quiet w entry).trans (drainStorePagedReleases_quiet _)).sameBatch
  have herase : SameBatch (s.insertEntry w entry).drainStorePagedReleases
      { (s.insertEntry w entry).drainStorePagedReleases with
        donationInProgress := s.donationInProgress.erase hash } := ⟨rfl, rfl, rfl, fun _ h => h⟩
  exact hinsert.trans (herase.trans
    ((handleIncoming_sameBatch _ w _).trans (drainPrefillCoalescing_sameBatch _ w hash)))

lemma donateFinishedSequenceCache_sameBatch (prompt generated : List Token) (healthy : Bool) :
    SameBatch s (s.donateFinishedSequenceCache w id prompt generated healthy) := by
  rw [donateFinishedSequenceCache]
  split_ifs
  · exact .refl s
  · split
    · exact .refl s
    · refine (s.forget_sameBatch id).trans ?_
      dsimp only
      split_ifs
      · rw [donateSnapshot]
        split_ifs
        · exact .refl _
        · split
          · exact .refl _
          · split_ifs
            exacts [.refl _, (insertEntry_quiet _ w _).sameBatch]
      · rw [donateDetached]
        split
        · exact .refl _
        · split_ifs
          · exact dropSlot_sameBatch _ _
          · exact (dropSlot_sameBatch _ _).trans (publishDonation_sameBatch _ w _ _)

lemma abortSequence_sameBatch (error : String) : SameBatch s (s.abortSequence w seq error) :=
  ((s.drainPrefillCoalescing_sameBatch w _).trans (note_sameBatch _ _)).trans
    ((forget_sameBatch _ _).trans (dropSlot_sameBatch _ _))

lemma settleSequence_sameBatch (healthy : Bool) : SameBatch s (s.settleSequence w seq tokens healthy) :=
  (s.donateFinishedSequenceCache_sameBatch w _ _ _ _).trans
    ((forget_sameBatch _ _).trans (dropSlot_sameBatch _ _))

lemma completeSequence_sameBatch : SameBatch s (s.completeSequence w seq tokens) :=
  (s.note_sameBatch _).trans (settleSequence_sameBatch _ w seq tokens true)

end Scheduler

end Mlxcel.Batch
