import Mlxcel.Batch.Frame

/-!
# The scheduler as a transition system

A tick runs through functions that hold a sequence in a local variable while they end it, hand it
on or work on its caches. Here a tick is cut into small steps over configurations that show these
local variables: the sequences in hand, the requests on their way to `enqueue_request`, and the slots
that have no sequence yet. `tick_steps` says that every tick is a chain of steps. An invariant of the
loop is then a statement about configurations that every single step preserves.

**Four irregular steps.**  The paths on which a sequence is dropped, a waiting request loses the
sequence it waits for, a sequence is told twice, or a context stays behind are steps that `Allowed`
has to permit. The chain lemmas say under which circumstances each of them is needed.
-/

namespace Mlxcel.Batch

open Function ActiveBatch

open Scheduler (Quiet SameBatch)

/-- A sequence whose slot, channel and prompt are those of another one. -/
structure SameRequest (a b : SequenceInfo) : Prop where
  seqId : b.seqId = a.seqId
  channel : b.channel = a.channel
  promptTokens : b.promptTokens = a.promptTokens

/-- A sequence in a local variable: whether its terminal event has been sent, its slot given back and
its context removed, and whether requests may be waiting for it. -/
structure Held where
  seq : SequenceInfo
  told : Bool := false
  freed : Bool := false
  forgotten : Bool := false
  armed : Bool := false

/-- The scheduler and the local variables of the functions that work on it. -/
structure Conf where
  s : Scheduler
  held : List Held
  inbox : List Request
  spare : List SequenceId

/-- Which irregular steps are permitted. -/
structure Allowed where
  /-- A full batch drops a sequence. -/
  lose : Prop
  /-- A sequence ends while requests may still wait for it. -/
  strand : Prop
  /-- A terminal event for a sequence that goes on. -/
  stray : Prop
  /-- A sequence leaves its slot and its context stays. -/
  keepCtx : Prop

/-- One small step. -/
inductive Step (p : Allowed) : Conf → Conf → Prop
  | quiet {s s' H I S} (hq : Quiet s s') : Step p ⟨s, H, I, S⟩ ⟨s', H, I, S⟩
  | shuffle {s H H' I S} (hH : H.Perm H') : Step p ⟨s, H, I, S⟩ ⟨s, H', I, S⟩
  | reorder {s H I S} {l : List SequenceInfo} (hl : l.Perm s.active.sequences) :
      Step p ⟨s, H, I, S⟩ ⟨{ s with active := { s.active with sequences := l } }, H, I, S⟩
  | editActive {s H I S} {f : SequenceInfo → SequenceInfo} (hf : ∀ seq, SameRequest seq (f seq)) :
      Step p ⟨s, H, I, S⟩
        ⟨{ s with active := { s.active with sequences := s.active.sequences.map f } }, H, I, S⟩
  | editChunked {s H I S} {seq seq' : SequenceInfo} (hs : s.chunked = some seq)
      (hseq : SameRequest seq seq') :
      Step p ⟨s, H, I, S⟩ ⟨{ s with chunked := some seq' }, H, I, S⟩
  | stray {s H I S} (hp : p.stray) (ch : Channel) (ev : GenerateEvent) :
      Step p ⟨s, H, I, S⟩ ⟨s.send ch ev, H, I, S⟩
  -- requests
  | arrive {s H I S} (payload : Payload) :
      Step p ⟨s, H, I, S⟩
        ⟨{ s with nextChannel := s.nextChannel + 1 }, H, ⟨payload, s.nextChannel⟩ :: I, S⟩
  | reject {s H I S} (req : Request) (msg : String) :
      Step p ⟨s, H, req :: I, S⟩ ⟨s.send req.channel (.error msg), H, I, S⟩
  | hold {s H I S} (req : Request) {hash : UInt64} {waiting : List Request}
      (hw : s.donationInProgress.lookup hash = some waiting) :
      Step p ⟨s, H, req :: I, S⟩
        ⟨{ s with donationInProgress := s.donationInProgress.insert hash (waiting ++ [req]) },
          H, I, S⟩
  | park {s H I S} (req : Request) {hash : UInt64} {waiting : List Request}
      (hw : s.prefillInProgress.lookup hash = some waiting) :
      Step p ⟨s, H, req :: I, S⟩
        ⟨{ s with prefillInProgress := s.prefillInProgress.insert hash (waiting ++ [req]) },
          H, I, S⟩
  | unhold {s H I S} {hash : UInt64} {waiting : List Request}
      (hw : s.donationInProgress.lookup hash = some waiting) :
      Step p ⟨s, H, I, S⟩
        ⟨{ s with donationInProgress := s.donationInProgress.erase hash }, H, waiting ++ I, S⟩
  | unpark {s H I S} {hash : UInt64} {waiting : List Request}
      (hw : s.prefillInProgress.lookup hash = some waiting) :
      Step p ⟨s, H, I, S⟩
        ⟨{ s with prefillInProgress := s.prefillInProgress.erase hash }, H, waiting ++ I, S⟩
  | arm {s H I S} {h : Held} {hash : UInt64} (hh : hash = s.cfg.hashTokens h.seq.promptTokens) :
      Step p ⟨s, h :: H, I, S⟩
        ⟨{ s with prefillInProgress := s.prefillInProgress.insert hash (s.parked hash) },
          { h with armed := true } :: H, I, S⟩
  -- slots
  | alloc {s H I S} (tokens : List Token) (blocks : List BlockId) :
      Step p ⟨s, H, I, S⟩ ⟨s.insertSlot tokens blocks, H, I, s.pool.nextId :: S⟩
  | abandon {s H I S} (id : SequenceId) : Step p ⟨s, H, I, id :: S⟩ ⟨s.dropSlot id, H, I, S⟩
  | clear {s H I S} (id : SequenceId) : Step p ⟨s, H, I, S⟩ ⟨s.forget id, H, I, S⟩
  | bind {s H I S} (req : Request) {id : SequenceId} (seq : SequenceInfo) (ctx : Option Bucket)
      (hch : seq.channel = req.channel) (hid : seq.seqId = id) :
      Step p ⟨s, H, req :: I, id :: S⟩
        ⟨(s.remember id ctx).note (.bound req.channel id), { seq := seq } :: H, I, S⟩
  | rebind {s H I S} {h : Held} {id : SequenceId} (seq : SequenceInfo)
      (htold : h.told = false) (hfreed : h.freed = true) (hforgotten : h.forgotten = true)
      (harmed : h.armed = false) (hch : seq.channel = h.seq.channel) (hid : seq.seqId = id) :
      Step p ⟨s, h :: H, I, id :: S⟩
        ⟨s.note (.bound h.seq.channel id), { seq := seq, forgotten := true } :: H, I, S⟩
  -- sequences between the lists and the local variables
  | pull {s H I S} {seqs : List SequenceInfo} {q : PrefillQueue}
      (hq : s.queue.all.Perm (seqs ++ q.all)) :
      Step p ⟨s, H, I, S⟩ ⟨{ s with queue := q }, seqs.map (fun seq => { seq := seq }) ++ H, I, S⟩
  | enter {s H I S} {h : Held} {q : PrefillQueue} (hq : s.queue.enqueue h.seq = some q)
      (htold : h.told = false) (hfreed : h.freed = false) (harmed : h.armed = false) :
      Step p ⟨s, h :: H, I, S⟩ ⟨{ s with queue := q }.note (.entered h.seq.channel), H, I, S⟩
  | push {s H I S} {h : Held} {q : PrefillQueue} (hq : s.queue.enqueue h.seq = some q)
      (htold : h.told = false) (hfreed : h.freed = false) (harmed : h.armed = false) :
      Step p ⟨s, h :: H, I, S⟩ ⟨{ s with queue := q }, H, I, S⟩
  | activate {s H I S} {h : Held} {b : ActiveBatch} (hb : s.active.add h.seq = some b)
      (htold : h.told = false) (hfreed : h.freed = false) :
      Step p ⟨s, h :: H, I, S⟩ ⟨{ s with active := b }, H, I, S⟩
  | deactivate {s H I S} {id : SequenceId} {seq : SequenceInfo} {b : ActiveBatch}
      (hb : s.active.remove id = some (seq, b)) :
      Step p ⟨s, H, I, S⟩ ⟨{ s with active := b }, { seq := seq, armed := true } :: H, I, S⟩
  | toChunked {s H I S} {h : Held} (hs : s.chunked = none)
      (htold : h.told = false) (hfreed : h.freed = false) :
      Step p ⟨s, h :: H, I, S⟩ ⟨{ s with chunked := some h.seq }, H, I, S⟩
  | fromChunked {s H I S} {seq : SequenceInfo} (hs : s.chunked = some seq) :
      Step p ⟨s, H, I, S⟩ ⟨{ s with chunked := none }, { seq := seq, armed := true } :: H, I, S⟩
  -- the end of a sequence
  | editHeld {s H I S} {h : Held} {seq : SequenceInfo} (hseq : SameRequest h.seq seq) :
      Step p ⟨s, h :: H, I, S⟩ ⟨s, { h with seq := seq } :: H, I, S⟩
  | tell {s H I S} {h : Held} (ev : GenerateEvent) (hev : ev.isTerminal = true)
      (htold : h.told = false) :
      Step p ⟨s, h :: H, I, S⟩ ⟨s.send h.seq.channel ev, { h with told := true } :: H, I, S⟩
  | absent {s H I S} {h : Held} (hctx : s.promptCacheSeqCtx h.seq.seqId = none ∨ p.keepCtx) :
      Step p ⟨s, h :: H, I, S⟩ ⟨s, { h with forgotten := true } :: H, I, S⟩
  | free {s H I S} (h : Held) :
      Step p ⟨s, h :: H, I, S⟩ ⟨s.dropSlot h.seq.seqId, { h with freed := true } :: H, I, S⟩
  | relieve {s H I S} {h : Held}
      (hw : s.prefillInProgress.lookup (s.cfg.hashTokens h.seq.promptTokens) = none ∨
        (∃ seq ∈ s.active.sequences ++ s.chunked.toList,
          s.cfg.hashTokens seq.promptTokens = s.cfg.hashTokens h.seq.promptTokens) ∨ p.strand) :
      Step p ⟨s, h :: H, I, S⟩ ⟨s, { h with armed := false } :: H, I, S⟩
  | drop {s H I S} {h : Held} (htold : h.told = true) (hfreed : h.freed = true)
      (hforgotten : h.forgotten = true) (harmed : h.armed = false) :
      Step p ⟨s, h :: H, I, S⟩ ⟨s, H, I, S⟩
  | lose {s H I S} {h : Held} (hb : s.active.add h.seq = none)
      (htold : h.told = false) (hfreed : h.freed = false)
      (hroom : s.active.isFull = false ∨ p.lose)
      (harmed : s.active.isFull = false ∨ h.armed = false) :
      Step p ⟨s, h :: H, I, S⟩ ⟨s, H, I, S⟩

abbrev Steps (p : Allowed) : Conf → Conf → Prop := Relation.ReflTransGen (Step p)

variable {p : Allowed} {c c' : Conf}

/-- What every step preserves holds along a chain. -/
lemma Steps.invariant {P : Conf → Prop} (hstep : ∀ {c c'}, Step p c c' → P c → P c')
    (h : Steps p c c') (hc : P c) : P c' := by
  induction h with
  | refl => exact hc
  | tail _ hlast ih => exact hstep hlast ih

/-! ## Bounds -/

/-- The active batch has the configured capacity and keeps to it. -/
structure Scheduler.Bounded (s : Scheduler) : Prop where
  maxSize : s.active.maxSize = s.cfg.maxBatchSize
  len : s.active.len ≤ s.active.maxSize

lemma Scheduler.dropSlot_bounded {s : Scheduler} (id : SequenceId) (h : s.Bounded) :
    (s.dropSlot id).Bounded :=
  ⟨by simpa using h.maxSize, by simpa using h.len⟩

lemma Step.bounded (h : Step p c c') (hb : c.s.Bounded) :
    c'.s.Bounded := by
  cases h with
  | quiet hq => exact ⟨by rw [hq.active, hq.cfg]; exact hb.maxSize, by rw [hq.active]; exact hb.len⟩
  | reorder hl => exact ⟨hb.maxSize, by simpa [len, hl.length_eq] using hb.len⟩
  | editActive hf => exact ⟨hb.maxSize, by simpa [len] using hb.len⟩
  | activate hadd =>
    obtain ⟨hroom, rfl⟩ := add_spec hadd
    refine ⟨hb.maxSize, ?_⟩
    simp only [len, List.length_append, List.length_singleton] at hroom ⊢
    omega
  | deactivate hremove =>
    obtain ⟨hperm, -, hmax⟩ := remove_spec hremove
    have hlen := hperm.length_eq
    have hcap := hb.len
    refine ⟨hmax.trans hb.maxSize, ?_⟩
    simp only [len, List.length_cons] at hlen hcap ⊢
    omega
  | abandon id => exact Scheduler.dropSlot_bounded id hb
  | free h => exact Scheduler.dropSlot_bounded _ hb
  | bind req seq ctx => cases ctx <;> exact ⟨hb.maxSize, hb.len⟩
  | _ => exact ⟨hb.maxSize, hb.len⟩

lemma Steps.bounded (h : Steps p c c') (hb : c.s.Bounded) :
    c'.s.Bounded :=
  h.invariant (P := fun c => c.s.Bounded) Step.bounded hb

namespace Scheduler

variable {p : Allowed} {H : List Held} {I : List Request} {S : List SequenceId} {h : Held}

lemma Quiet.steps {s s' : Scheduler} (hq : Quiet s s') : Steps p ⟨s, H, I, S⟩ ⟨s', H, I, S⟩ :=
  .single (.quiet hq)

/-! ## Slots -/

/-- The slot in the answer of an adoption. -/
def slotOf (o : Option (SequenceId × ℕ)) : List SequenceId := (o.map Prod.fst).toList

variable (s : Scheduler) (w : World) (entry : CacheEntry) (tokens : List Token)

lemma adopt_steps (blocks : List BlockId) : Steps p ⟨s, H, I, S⟩
      ⟨(s.adopt tokens blocks).1, H, I, (s.adopt tokens blocks).2.toList ++ S⟩ := by
  rw [adopt]
  split_ifs
  · exact .refl
  · exact .single (.alloc tokens blocks)

lemma adoptSnapshot_steps : Steps p ⟨s, H, I, S⟩
      ⟨(s.adoptSnapshot w entry tokens).1, H, I, slotOf (s.adoptSnapshot w entry tokens).2 ++ S⟩ := by
  rw [adoptSnapshot]
  split
  · exact .refl
  · split
    · exact .refl
    · rename_i id s' halloc
      obtain ⟨rfl, rfl⟩ := allocateSequenceState_spec halloc
      have halloc : Steps p ⟨s, H, I, S⟩ ⟨s.insertSlot [] [], H, I, s.pool.nextId :: S⟩ :=
        .single (.alloc [] [])
      split
      · exact halloc.tail (.abandon _)
      · exact halloc.tail (.quiet (modifySet_quiet _ _ fun _ => rfl))

variable (matched : ℕ)

lemma adoptPagedEntry_steps : Steps p ⟨s, H, I, S⟩
      ⟨(s.adoptPagedEntry entry matched).1, H, I,
        slotOf (s.adoptPagedEntry entry matched).2 ++ S⟩ := by
  rw [adoptPagedEntry]
  split_ifs
  · exact .refl
  · exact .refl
  · exact .refl
  · simpa [slotOf, comp_def] using s.adopt_steps _ _

lemma adoptDenseEntry_steps : Steps p ⟨s, H, I, S⟩
      ⟨(s.adoptDenseEntry w entry matched).1, H, I,
        slotOf (s.adoptDenseEntry w entry matched).2 ++ S⟩ := by
  have hstore : Quiet s { s with store := s.store.erase entry } := .store s _ _
  rw [adoptDenseEntry]
  split_ifs
  · exact hstore.steps
  · exact hstore.steps
  · refine hstore.steps.trans ?_
    simpa [slotOf, comp_def] using
      adopt_steps { s with store := s.store.erase entry } _ _

lemma tryAdoptCachedPrefix_steps (bucket : Bucket) (tokens : List Token) (whole : Bool) :
    Steps p ⟨s, H, I, S⟩
      ⟨(s.tryAdoptCachedPrefix w bucket tokens whole).1, H, I,
        slotOf (s.tryAdoptCachedPrefix w bucket tokens whole).2 ++ S⟩ := by
  have hsweep := s.drainStorePagedReleases_quiet.trans (shrinkStore_quiet _ w.sweep)
  rw [tryAdoptCachedPrefix]
  split
  · exact .refl
  · refine hsweep.steps.trans ?_
    dsimp only
    split
    · exact adoptSnapshot_steps _ w _ tokens
    · split
      · exact .refl
      · split
        · exact .refl
        · split
          · exact .refl
          · split_ifs
            exacts [.refl, adoptPagedEntry_steps _ _ _, adoptDenseEntry_steps _ w _ _]

variable (ctx : Option Bucket)

lemma adoptPrefixFor_steps (tokens : List Token) (mm : Bool) :
    Steps p ⟨s, H, I, S⟩
      ⟨(s.adoptPrefixFor w ctx tokens mm).1, H, I,
        slotOf (s.adoptPrefixFor w ctx tokens mm).2 ++ S⟩ := by
  unfold adoptPrefixFor
  split
  · exact .refl
  · rename_i bucket
    have htry := s.tryAdoptCachedPrefix_steps (p := p) (H := H) (I := I) (S := S) w bucket tokens mm
    split
    · rename_i heq
      rwa [heq] at htry
    · rename_i heq
      rw [heq] at htry
      split_ifs
      · exact htry
      · exact htry.tail (.abandon _)

/-- A slot is found for the request, or none is taken. -/
lemma takeSlotFor_steps (tokens : List Token) (mm : Bool) :
    Steps p ⟨s, H, I, S⟩
      ⟨(s.takeSlotFor w ctx tokens mm).1, H, I,
        slotOf (s.takeSlotFor w ctx tokens mm).2.toOption ++ S⟩ := by
  have hadopt := s.adoptPrefixFor_steps (p := p) (H := H) (I := I) (S := S) w ctx tokens mm
  rw [takeSlotFor]
  split
  · rename_i heq
    rwa [heq] at hadopt
  · rename_i heq
    rw [heq] at hadopt
    split
    · exact hadopt
    · rename_i halloc
      obtain ⟨rfl, rfl⟩ := allocateSequenceState_spec halloc
      exact hadopt.tail (.alloc [] [])

/-! ## Requests -/

/-- A sequence that has not been told anything goes after its context is removed, its slot is freed
and a terminal event is sent, in whatever order. -/
lemma turnAway_steps (msg : String) (hnew : h.told = false) (harmed : h.armed = false) :
    Steps p ⟨s, h :: H, I, S⟩
      ⟨((s.forget h.seq.seqId).releaseSequenceCaches h.seq.seqId).send h.seq.channel (.error msg),
        H, I, S⟩ := by
  refine .head (.clear h.seq.seqId) ?_
  refine .head (.absent (.inl (update_self _ _ _))) ?_
  refine .head (.free _) ?_
  refine .head (.tell (.error msg) rfl hnew) ?_
  exact .single (.drop rfl rfl rfl harmed)

lemma enqueueSequence_steps (seq : SequenceInfo) :
    Steps p ⟨s, { seq := seq } :: H, I, S⟩ ⟨s.enqueueSequence seq, H, I, S⟩ := by
  rw [enqueueSequence]
  split
  · exact .single (.enter ‹_› rfl rfl rfl)
  · exact turnAway_steps s _ rfl rfl

variable (req : Request)

lemma bindRequest_steps (prepared : Option Bool) (sharing : Bool) (tokens : List Token)
    (id : SequenceId) (start : ℕ) :
    Steps p ⟨s, H, req :: I, id :: S⟩
      ⟨s.bindRequest w req prepared sharing tokens id start, H, I, S⟩ := by
  unfold bindRequest
  split
  · exact .head (.clear id) (.head (.abandon id) (.single (.reject req _)))
  · rename_i tokens embeddings _
    dsimp only
    split_ifs
    · rw [(s.remember_sameBatch id req.promptCacheCtx).cfg]
      exact .head (.bind req (sequenceOf s.cfg req id start tokens embeddings) req.promptCacheCtx
        rfl rfl) (enqueueSequence_steps _ _)
    · exact .head (.bind req (sequenceOf s.cfg req id start tokens embeddings) none rfl rfl)
        (enqueueSequence_steps _ _)

lemma admitRequest_steps (tokens : List Token) :
    Steps p ⟨s, H, req :: I, S⟩ ⟨s.admitRequest w req tokens, H, I, S⟩ := by
  rw [admitRequest]
  dsimp only
  split
  · exact .single (.reject req _)
  · split <;> rename_i heq <;>
      have htake := heq ▸ s.takeSlotFor_steps (p := p) (H := H) (I := req :: I) (S := S) w _ _ _
    · exact htake.tail (.reject req _)
    · exact htake.trans (bindRequest_steps _ w req _ _ _ _ _)

lemma enqueueRequest_steps :
    Steps p ⟨s, H, req :: I, S⟩ ⟨s.enqueueRequest w req, H, I, S⟩ := by
  rw [enqueueRequest]
  split
  · exact .single (.reject req _)
  · dsimp only
    split
    · exact .single (.reject req _)
    · split
      · exact .single (.hold req ‹_›)
      · split
        · exact .single (.park req ‹_›)
        · exact s.admitRequest_steps w req _
      · exact s.admitRequest_steps w req _

lemma handleIncoming_steps (reqs : List Request) (s : Scheduler) :
    Steps p ⟨s, H, reqs ++ I, S⟩ ⟨s.handleIncoming w reqs, H, I, S⟩ := by
  induction reqs generalizing s with
  | nil => exact .refl
  | cons req reqs ih => exact (s.enqueueRequest_steps w req).trans (ih _)

lemma arrive_steps (payload : Payload) : Steps p ⟨s, H, I, S⟩ ⟨s.arrive w payload, H, I, S⟩ :=
  .head (.arrive payload) (enqueueRequest_steps _ w _)

variable (hash : UInt64)

lemma drainPrefillCoalescing_steps :
    Steps p ⟨s, H, I, S⟩ ⟨s.drainPrefillCoalescing w hash, H, I, S⟩ := by
  rw [drainPrefillCoalescing]
  split
  · exact .refl
  · exact .head (.unpark ‹_›) (handleIncoming_steps w _ _)

/-! ## Donation and the ways out -/

lemma publishDonation_steps :
    Steps p ⟨s, H, I, S⟩ ⟨s.publishDonation w entry hash, H, I, S⟩ := by
  have hinsert := (s.insertEntry_quiet w entry).trans (drainStorePagedReleases_quiet _)
  refine hinsert.steps.trans (.trans ?_ (drainPrefillCoalescing_steps _ w hash))
  cases hwait : s.donationInProgress.lookup hash with
  | none =>
    have herase := AssocMap.erase_eq_self hwait
    have hsame : { (s.insertEntry w entry).drainStorePagedReleases with
        donationInProgress := s.donationInProgress.erase hash }
          = (s.insertEntry w entry).drainStorePagedReleases := by
      rw [herase]
      rfl
    simp only [hinsert.donation, hsame]
    exact .refl
  | some waiting =>
    have hwait' : (s.insertEntry w entry).drainStorePagedReleases.donationInProgress.lookup hash
        = some waiting := by rwa [hinsert.donation]
    exact .head (.unhold hwait') (handleIncoming_steps w _ _)

/-- A donation may take the slot of the sequence and may remove its context. -/
lemma donateFinishedSequenceCache_steps (healthy : Bool) :
    ∃ freed forgotten, Steps p ⟨s, h :: H, I, S⟩
      ⟨s.donateFinishedSequenceCache w h.seq.seqId h.seq.promptTokens tokens healthy,
        { h with freed := freed, forgotten := forgotten } :: H, I, S⟩ := by
  rw [donateFinishedSequenceCache]
  split
  · exact ⟨h.freed, h.forgotten, .refl⟩
  · split
    · exact ⟨h.freed, h.forgotten, .refl⟩
    · have hclear : Steps p ⟨s, h :: H, I, S⟩ ⟨s.forget h.seq.seqId, h :: H, I, S⟩ :=
        .single (.clear _)
      dsimp only
      split
      · refine ⟨h.freed, h.forgotten, hclear.trans ?_⟩
        rw [donateSnapshot]
        split_ifs
        · exact .refl
        · split
          · exact .refl
          · split_ifs
            exacts [.refl, (insertEntry_quiet _ w _).steps]
      · rw [donateDetached]
        split
        · exact ⟨h.freed, h.forgotten, hclear⟩
        · refine ⟨true, h.forgotten, (hclear.tail (.free h)).trans ?_⟩
          split_ifs
          exacts [.refl, publishDonation_steps _ w _ _]

/-- **How a sequence with a terminal event leaves.**  Requests that wait for it must have been sent
in again. -/
lemma settleSequence_steps (healthy : Bool) (htold : h.told = true)
    (hdrained : h.armed = false ∨ p.strand ∨
      (s.settleSequence w h.seq tokens healthy).prefillInProgress.lookup
        (s.cfg.hashTokens h.seq.promptTokens) = none) :
    Steps p ⟨s, h :: H, I, S⟩ ⟨s.settleSequence w h.seq tokens healthy, H, I, S⟩ := by
  have hcfg := (s.settleSequence_sameBatch w h.seq tokens healthy).cfg
  obtain ⟨freed, forgotten, hdonate⟩ :=
    s.donateFinishedSequenceCache_steps (p := p) (h := h) (H := H) (I := I) (S := S) w tokens healthy
  refine hdonate.trans ?_
  refine .head (.clear h.seq.seqId) ?_
  refine .head (.absent (.inl (update_self _ _ _))) ?_
  refine .head (.free _) ?_
  rcases hdrained with harmed | hstrand | hnone
  · exact .single (.drop htold rfl rfl harmed)
  · exact .head (.relieve (.inr (.inr hstrand))) (.single (.drop htold rfl rfl rfl))
  · rw [← hcfg] at hnone
    exact .head (.relieve (.inl hnone)) (.single (.drop htold rfl rfl rfl))

lemma completeSequence_steps (htold : h.told = false) (hdrained : h.armed = false ∨ p.strand ∨
      (s.completeSequence w h.seq tokens).prefillInProgress.lookup
        (s.cfg.hashTokens h.seq.promptTokens) = none) :
    Steps p ⟨s, h :: H, I, S⟩ ⟨s.completeSequence w h.seq tokens, H, I, S⟩ :=
  .head (.tell (.done (h.seq.result tokens)) rfl htold)
    (settleSequence_steps (h := { h with told := true }) _ w tokens true rfl hdrained)

lemma abortSequence_steps (error : String) (htold : h.told = false) :
    Steps p ⟨s, h :: H, I, S⟩ ⟨s.abortSequence w h.seq error, H, I, S⟩ := by
  have hdrained := s.drainPrefillCoalescing_unarmed w (s.cfg.hashTokens h.seq.promptTokens)
  have hcfg := (s.drainPrefillCoalescing_sameBatch w (s.cfg.hashTokens h.seq.promptTokens)).cfg
  refine (s.drainPrefillCoalescing_steps w (s.cfg.hashTokens h.seq.promptTokens)).trans ?_
  refine .head (.relieve (.inl (by rwa [hcfg]))) ?_
  refine .head (.tell (.error error) rfl htold) ?_
  refine .head (.clear h.seq.seqId) ?_
  refine .head (.absent (.inl (update_self _ _ _))) ?_
  exact .head (.free _) (.single (.drop rfl rfl rfl rfl))

end Scheduler

end Mlxcel.Batch
