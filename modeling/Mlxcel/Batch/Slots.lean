import Mlxcel.Batch.TickSteps

/-!
# Cache slots have one owner

Every slot id that was ever given out is in use or has been freed once, and no slot in use has two
owners. Both hold in every run, whatever irregular steps happen. Owners are the sequences that wait,
decode or are prefilled in chunks, the sequences in hand whose slot is not freed, and the ids in hand
that have no sequence yet.
-/

namespace Mlxcel.Batch

open List

open Scheduler Conf

namespace Scheduler

variable (s : Scheduler) (id : SequenceId)

/-- How often a slot has been freed. -/
def freedCount : ℕ := s.log.count (.freed id)

lemma mem_slotIds {s : Scheduler} {id : SequenceId} :
    id ∈ s.slotIds ↔ (s.cacheSet? id).isSome = true := by
  simp [slotIds, cacheSet?]

@[simp] lemma dropSlot_slotIds : (s.dropSlot id).slotIds = s.slotIds.erase id := by
  rw [dropSlot]
  split_ifs with hslot
  · simp only [slotIds, erase_eq_eraseP', eraseP_map]
    rfl
  · rw [erase_of_not_mem (fun hmem => hslot (mem_slotIds.mp hmem))]

@[simp] lemma dropSlot_freedCount (id other : SequenceId) : (s.dropSlot id).freedCount other
      = s.freedCount other + if id = other ∧ id ∈ s.slotIds then 1 else 0 := by
  rw [dropSlot]
  split_ifs with hslot hid hid
  · simp [freedCount, hid.1]
  · have hne : id ≠ other := fun heq => hid ⟨heq, mem_slotIds.mpr hslot⟩
    simp [freedCount, hne]
  · exact absurd (mem_slotIds.mp hid.2) hslot
  · rfl

@[simp] lemma dropSlot_nextId : (s.dropSlot id).pool.nextId = s.pool.nextId := by
  rw [dropSlot]
  split_ifs <;> rfl

lemma Quiet.freedCount {s s' : Scheduler} (h : Quiet s s') (id : SequenceId) :
    s'.freedCount id = s.freedCount id := by
  obtain ⟨l, hlog, hquiet⟩ := h.log
  have hnone : l.count (.freed id) = 0 := count_eq_zero.mpr fun hmem => by
    simpa [Effect.isQuiet] using hquiet _ hmem
  rw [Scheduler.freedCount, hlog, count_append, hnone, Nat.zero_add]
  rfl

lemma Quiet.live {s s' : Scheduler} (h : Quiet s s') : s'.live = s.live := by
  simp only [Scheduler.live, h.queue, h.active, h.chunked]

@[simp] lemma dropSlot_live : (s.dropSlot id).live = s.live := by
  rw [dropSlot]
  split_ifs <;> rfl

/-! ## Where the sequences are -/

section Live

variable (s : Scheduler) {seq : SequenceInfo} {seqs : List SequenceInfo}

variable {q : PrefillQueue}

lemma live_pull (h : s.queue.all.Perm (seqs ++ q.all)) :
    s.live.Perm (seqs ++ { s with queue := q }.live) := by
  simpa [live] using h.append_right (s.active.sequences ++ s.chunked.toList)

lemma live_push (h : s.queue.enqueue seq = some q) :
    { s with queue := q }.live.Perm (seq :: s.live) := by
  simpa [live] using
    (PrefillQueue.enqueue_spec h).1.append_right (s.active.sequences ++ s.chunked.toList)

lemma live_reorder {l : List SequenceInfo} (h : l.Perm s.active.sequences) :
    { s with active := { s.active with sequences := l } }.live.Perm s.live := by
  simp only [live, append_assoc]
  exact (h.append_right _).append_left _

variable {b : ActiveBatch}

lemma live_activate (h : s.active.add seq = some b) :
    { s with active := b }.live.Perm (seq :: s.live) := by
  obtain ⟨-, rfl⟩ := ActiveBatch.add_spec h
  simp only [live, append_assoc]
  exact (perm_middle.append_left _).trans perm_middle

lemma live_deactivate {id : SequenceId} (h : s.active.remove id = some (seq, b)) :
    s.live.Perm (seq :: { s with active := b }.live) := by
  have hperm := (ActiveBatch.remove_spec h).1
  simp only [live, append_assoc]
  exact ((hperm.append_right _).append_left _).trans perm_middle

lemma live_toChunked (h : s.chunked = none) :
    { s with chunked := some seq }.live.Perm (seq :: s.live) := by
  simp only [live, h, Option.toList_none, append_nil]
  exact perm_append_comm

lemma live_fromChunked (h : s.chunked = some seq) :
    s.live.Perm (seq :: { s with chunked := none }.live) := by
  simp only [live, h, Option.toList_none, append_nil]
  exact perm_append_comm

variable {g : SequenceInfo → Bool}

lemma countP_live_editActive {f : SequenceInfo → SequenceInfo} (h : ∀ seq, g (f seq) = g seq) :
    { s with active := { s.active with sequences := s.active.sequences.map f } }.live.countP g
      = s.live.countP g := by
  simp [live, Function.comp_def, h]

lemma countP_live_editChunked {seq' : SequenceInfo} (hs : s.chunked = some seq)
    (h : g seq' = g seq) :
    { s with chunked := some seq' }.live.countP g = s.live.countP g := by
  simp [live, hs, h]

end Live

end Scheduler

namespace Conf

/-- The owners of a slot. -/
def owners (c : Conf) (id : SequenceId) : ℕ :=
  c.s.live.countP (·.seqId == id) + c.held.countP (fun h => h.seq.seqId == id && !h.freed) +
    c.spare.count id

end Conf

/-- The account of all slots. It is tight when no slot in use is without an owner. -/
structure SlotLedger (tight : Prop) (c : Conf) : Prop where
  /-- A slot that was given out is in use or was freed, once. -/
  given : ∀ id, c.s.slotIds.count id + c.s.freedCount id = if id < c.s.pool.nextId then 1 else 0
  /-- Every owner has its slot, and no slot has two owners. -/
  owned : ∀ id, c.owners id ≤ c.s.slotIds.count id
  used : tight → ∀ id, c.s.slotIds.count id ≤ c.owners id
  freed : ∀ h ∈ c.held, h.freed = true → 0 < c.s.freedCount h.seq.seqId

variable {tight : Prop}

variable {c c' : Conf}

/-- Steps that change neither the slots nor who owns them. -/
lemma SlotLedger.same (h : SlotLedger tight c) (howners : ∀ id, c'.owners id = c.owners id)
    (hheld : ∀ h' ∈ c'.held, h'.freed = true →
      ∃ h ∈ c.held, h.freed = true ∧ h.seq.seqId = h'.seq.seqId)
    (hfreed : ∀ id, c'.s.freedCount id = c.s.freedCount id := by exact fun _ => rfl)
    (hids : c'.s.slotIds = c.s.slotIds := by rfl)
    (hnext : c'.s.pool.nextId = c.s.pool.nextId := by rfl) : SlotLedger tight c' where
  given id := by rw [hids, hfreed, hnext]; exact h.given id
  owned id := by rw [hids, howners]; exact h.owned id
  used ht id := by rw [hids, howners]; exact h.used ht id
  freed h' hh' hf := by
    obtain ⟨old, hold, hfreed', hid⟩ := hheld h' hh' hf
    rw [hfreed, ← hid]
    exact h.freed old hold hfreed'

variable (s : Scheduler)

lemma Scheduler.dropSlot_given (id other : SequenceId) :
    (s.dropSlot id).slotIds.count other + (s.dropSlot id).freedCount other
      = s.slotIds.count other + s.freedCount other := by
  rw [dropSlot_slotIds, dropSlot_freedCount, count_erase]
  by_cases hid : id = other
  · subst hid
    by_cases hmem : id ∈ s.slotIds
    · have hpos := count_pos_iff.mpr hmem
      simp only [beq_self_eq_true, if_true, hmem, and_self]
      omega
    · have hzero := count_eq_zero.mpr hmem
      simp [hmem, hzero]
  · simp [hid]

/-- A slot is given back, and whoever owned it no longer does. -/
lemma SlotLedger.giveBack (h : SlotLedger tight c) {id : SequenceId} (hs : c'.s = c.s.dropSlot id)
    (howners : ∀ other, c'.owners other + (if id = other then 1 else 0) = c.owners other)
    (hheld : ∀ h' ∈ c'.held, h'.freed = true →
      h'.seq.seqId = id ∨ 0 < c.s.freedCount h'.seq.seqId) :
    SlotLedger tight c' where
  given other := by
    rw [hs, c.s.dropSlot_given, dropSlot_nextId]
    exact h.given other
  owned other := by
    have howned := h.owned other
    have hother := howners other
    rw [hs, dropSlot_slotIds, count_erase]
    simp only [beq_iff_eq]
    omega
  used ht other := by
    have hused := h.used ht other
    have hother := howners other
    rw [hs, dropSlot_slotIds, count_erase]
    simp only [beq_iff_eq]
    omega
  freed h' hh' hf := by
    have hmem : id ∈ c.s.slotIds := count_pos_iff.mp (by
      have howned := h.owned id
      have hid := howners id
      simp only [if_true] at hid
      omega)
    rw [hs, dropSlot_freedCount]
    rcases hheld h' hh' hf with hid | hpos
    · simp [hid, hmem]
    · omega

/-- Giving back a slot that has been freed before does nothing. -/
lemma SlotLedger.dropSlot_freed (h : SlotLedger tight c) {id : SequenceId}
    (hfreed : 0 < c.s.freedCount id) : c.s.dropSlot id = c.s := by
  have hgiven := h.given id
  have hcount : c.s.slotIds.count id = 0 := by
    split_ifs at hgiven <;> omega
  rw [dropSlot, if_neg]
  rw [← mem_slotIds]
  exact count_eq_zero.mp hcount

lemma Conf.owners_eq (H : List Held) (I : List Request) (S : List SequenceId) (id : SequenceId) :
    owners ⟨s, H, I, S⟩ id = s.live.countP (·.seqId == id) +
      H.countP (fun h => h.seq.seqId == id && !h.freed) + S.count id := rfl

@[simp] lemma Scheduler.send_freedCount (ch : Channel) (ev : GenerateEvent)
    (id : SequenceId) : (s.send ch ev).freedCount id = s.freedCount id := by
  simp [freedCount, send, note]

lemma Scheduler.remember_slots (id : SequenceId)
    (ctx : Option Bucket) : (s.remember id ctx).slotIds = s.slotIds ∧
      (s.remember id ctx).live = s.live ∧ (s.remember id ctx).pool = s.pool ∧
      (s.remember id ctx).log = s.log := by
  cases ctx <;> exact ⟨rfl, rfl, rfl, rfl⟩

/-- The first sequence in hand is edited and stays the owner that it was. -/
lemma held_edit {h h' : Held} {H : List Held} (hid : h'.seq.seqId = h.seq.seqId)
    (hf : h'.freed = h.freed) : ∀ x ∈ h' :: H, x.freed = true →
      ∃ y ∈ h :: H, y.freed = true ∧ y.seq.seqId = x.seq.seqId := by
  intro x hx hfreed
  rcases mem_cons.mp hx with rfl | hx
  · exact ⟨h, mem_cons_self, by rw [← hf, hfreed], hid.symm⟩
  · exact ⟨x, mem_cons_of_mem h hx, hfreed, rfl⟩

lemma held_drop {h : Held} {H : List Held} : ∀ x ∈ H, x.freed = true →
    ∃ y ∈ h :: H, y.freed = true ∧ y.seq.seqId = x.seq.seqId :=
  fun x hx hfreed => ⟨x, mem_cons_of_mem h hx, hfreed, rfl⟩

/-- The counts after one more id or channel has been given out. -/
lemma count_next {used done i n : ℕ} (h : used + done = if i < n then 1 else 0) :
    used + (if n = i then 1 else 0) + done = if i < n + 1 then 1 else 0 := by
  split_ifs at h ⊢ <;> omega

variable {s} {h : Held} {H : List Held} {I : List Request} {S : List SequenceId}

/-- The batch never knows the id of a sequence in hand, so it turns one away only when it is full. -/
lemma SlotLedger.full_of_add_eq_none (hl : SlotLedger tight ⟨s, h :: H, I, S⟩)
    (hf : h.freed = false) (hadd : s.active.add h.seq = none) : s.active.isFull = true := by
  refine (ActiveBatch.add_eq_none hadd).resolve_right fun hmem => ?_
  obtain ⟨other, hother, hid⟩ := mem_map.mp hmem
  have hlive : 0 < s.live.countP (·.seqId == h.seq.seqId) :=
    countP_pos_iff.mpr ⟨other, by simp [live, hother], by simp [hid]⟩
  have howned := hl.owned h.seq.seqId
  have hgiven := hl.given h.seq.seqId
  rw [owners_eq, countP_cons, hf] at howned
  simp only [beq_self_eq_true, Bool.not_false, Bool.and_true, if_true] at howned
  split_ifs at hgiven <;> simp only at hgiven <;> omega

end Mlxcel.Batch
