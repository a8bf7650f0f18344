import Mlxcel.Batch.Slots

/-!
# Every request ends once

The account of requests: a channel that was ever opened has been sent one terminal event, or belongs
to one sequence that has not been told, or to one request that waits to be taken in. Together with
the account of slots this is the life cycle of a request: it is in one place or it has ended, and then
its slot has been freed once and its context is gone.

**When it holds.**  `Orderly` excludes, tick by tick, the four circumstances in which the loop breaks
it: a prefill window that is larger than the room in the batch, a constraint that fails in a decode
step, an orphaned prefill, and the preemption of a sequence with a prompt-cache context.
-/

namespace Mlxcel.Batch

open Function List Effect

open Scheduler Conf

/-- A terminal event for a channel. -/
def Effect.ends (ch : Channel) : Effect → Bool
  | .sent receiver ev => receiver == ch && ev.isTerminal
  | _ => false

/-- The requests in a map of waiting requests that answer to a channel. -/
def waitingCount (m : AList fun _ : UInt64 => List Request) (ch : Channel) : ℕ :=
  (m.entries.map fun e => e.2.countP (·.channel == ch)).sum

variable {hash : UInt64} {waiting : List Request}

lemma waitingCount_erase {m : AList fun _ : UInt64 => List Request}
    (h : m.lookup hash = some waiting) (ch : Channel) :
    waitingCount m ch = waiting.countP (·.channel == ch) + waitingCount (m.erase hash) ch :=
  AssocMap.sum_erase h (List.countP fun req : Request => req.channel == ch)

lemma waitingCount_append {m : AList fun _ : UInt64 => List Request}
    (h : m.lookup hash = some waiting) (req : Request) (ch : Channel) :
    waitingCount (m.insert hash (waiting ++ [req])) ch
      = waitingCount m ch + if req.channel = ch then 1 else 0 := by
  rw [waitingCount_erase h]
  show _ + waitingCount (m.erase hash) ch = _
  simp only [countP_append, countP_cons, countP_nil, beq_iff_eq]
  omega

lemma waitingCount_arm (m : AList fun _ : UInt64 => List Request) (hash : UInt64) (ch : Channel) :
    waitingCount (m.insert hash ((m.lookup hash).getD [])) ch = waitingCount m ch := by
  have hinsert := AssocMap.sum_insert m hash ((m.lookup hash).getD [])
    (List.countP fun req : Request => req.channel == ch)
  refine hinsert.trans ?_
  cases h : m.lookup hash with
  | none =>
    rw [AssocMap.erase_eq_self h]
    exact Nat.zero_add _
  | some waiting => exact (waitingCount_erase h ch).symm

namespace Scheduler

/-- How many terminal events a channel has been sent. -/
def endedCount (s : Scheduler) (ch : Channel) : ℕ := s.log.countP (ends ch)

variable (s : Scheduler)

@[simp] lemma note_endedCount (e : Effect) (ch : Channel) :
    (s.note e).endedCount ch = s.endedCount ch + if e.ends ch = true then 1 else 0 := by
  simp [endedCount, note, countP_cons]

@[simp] lemma dropSlot_endedCount (id : SequenceId) (ch : Channel) :
    (s.dropSlot id).endedCount ch = s.endedCount ch := by
  rw [dropSlot]
  split_ifs
  · simp [endedCount, ends]
  · rfl

lemma Quiet.endedCount {s s' : Scheduler} (h : Quiet s s') (ch : Channel) :
    s'.endedCount ch = s.endedCount ch := by
  obtain ⟨l, hlog, hquiet⟩ := h.log
  have hnone : l.countP (ends ch) = 0 := countP_eq_zero.mpr fun e he => by
    have := hquiet e he
    cases e <;> simp_all [isQuiet, ends]
  rw [Scheduler.endedCount, hlog, countP_append, hnone, Nat.zero_add]
  rfl

end Scheduler

namespace Conf

/-- A channel's terminal events and the sequences that still owe it one. -/
def served (c : Conf) (ch : Channel) : ℕ :=
  c.s.endedCount ch + c.s.live.countP (·.channel == ch) +
    c.held.countP fun h => h.seq.channel == ch && !h.told

/-- The requests that wait to be taken in. -/
def pending (c : Conf) (ch : Channel) : ℕ :=
  c.inbox.countP (·.channel == ch) + waitingCount c.s.prefillInProgress ch +
    waitingCount c.s.donationInProgress ch

variable (s : Scheduler) (H : List Held) (I : List Request) (S : List SequenceId) (ch : Channel)

lemma served_eq :
    served ⟨s, H, I, S⟩ ch = s.endedCount ch + s.live.countP (·.channel == ch) +
      H.countP (fun h => h.seq.channel == ch && !h.told) := rfl

lemma pending_eq :
    pending ⟨s, H, I, S⟩ ch = I.countP (·.channel == ch) + waitingCount s.prefillInProgress ch +
      waitingCount s.donationInProgress ch := rfl

end Conf

/-- What a step can do to one channel: it takes in `n` of its requests, or it opens it. -/
inductive Flow (c c' : Conf) (ch : Channel) : Prop
  | takes (n : ℕ) (hserved : c'.served ch = c.served ch + n)
      (hpending : c'.pending ch + n = c.pending ch)
      (hnext : c'.s.nextChannel = c.s.nextChannel)
  | opens (hserved : c'.served ch = c.served ch)
      (hpending : c'.pending ch = c.pending ch + if c.s.nextChannel = ch then 1 else 0)
      (hnext : c'.s.nextChannel = c.s.nextChannel + 1)

variable {p : Allowed} {c c' : Conf} {tight : Prop}

lemma Flow.keep {ch : Channel} (hserved : c'.served ch = c.served ch)
    (hpending : c'.pending ch = c.pending ch) (hnext : c'.s.nextChannel = c.s.nextChannel) :
    Flow c c' ch :=
  .takes 0 hserved hpending hnext

/-! ## What a step does to the sequences -/

/-- What the accounts read of a sequence: its slot and channel, and whether it was told and freed. -/
def Held.mark (h : Held) : (SequenceId × Channel) × Bool × Bool :=
  ((h.seq.seqId, h.seq.channel), h.told, h.freed)

/-- All sequences. One in the lists is like one in hand that was neither told nor freed. -/
def Conf.marks (c : Conf) : List ((SequenceId × Channel) × Bool × Bool) :=
  c.s.live.map (fun seq => Held.mark { seq }) ++ c.held.map Held.mark

lemma Conf.owners_eq_marks (c : Conf) (id : SequenceId) :
    c.owners id = c.marks.countP (fun m => m.1.1 == id && !m.2.2) + c.spare.count id := by
  simp [owners, marks, Held.mark, comp_def]

lemma Conf.served_eq_marks (c : Conf) (ch : Channel) :
    c.served ch = c.s.endedCount ch + c.marks.countP fun m => m.1.2 == ch && !m.2.1 := by
  simp [served, marks, Held.mark, comp_def, Nat.add_assoc]

/-- **A regular step** keeps the sequences and the slots, and takes requests in by ending them. -/
structure Regular (p : Allowed) (c c' : Conf) : Prop where
  marks : c'.marks.Perm c.marks
  spare : c'.spare = c.spare := by rfl
  slotIds : c'.s.slotIds = c.s.slotIds := by rfl
  nextId : c'.s.pool.nextId = c.s.pool.nextId := by rfl
  freedCount : ∀ id, c'.s.freedCount id = c.s.freedCount id := by exact fun _ => rfl
  bound : ∀ ch id, bound ch id ∈ c'.s.log → bound ch id ∈ c.s.log := by exact fun _ _ h => h
  taken : ¬ p.stray → ∀ ch, ∃ n, c'.s.endedCount ch = c.s.endedCount ch + n ∧
    c'.pending ch + n = c.pending ch ∧ c'.s.nextChannel = c.s.nextChannel := by
      exact fun _ _ => ⟨0, rfl, rfl, rfl⟩

/-- The other steps. -/
inductive Turn (p : Allowed) : Conf → Conf → Prop
  | arrive {s H I S} (payload : Payload) : Turn p ⟨s, H, I, S⟩
      ⟨{ s with nextChannel := s.nextChannel + 1 }, H, ⟨payload, s.nextChannel⟩ :: I, S⟩
  | alloc {s H I S} (tokens : List Token) (blocks : List BlockId) :
      Turn p ⟨s, H, I, S⟩ ⟨s.insertSlot tokens blocks, H, I, s.pool.nextId :: S⟩
  | abandon {s H I S} (id : SequenceId) : Turn p ⟨s, H, I, id :: S⟩ ⟨s.dropSlot id, H, I, S⟩
  | bind {s H I S req id seq ctx} (hch : seq.channel = req.channel) (hid : seq.seqId = id) :
      Turn p ⟨s, H, req :: I, id :: S⟩
        ⟨(s.remember id ctx).note (.bound req.channel id), { seq := seq } :: H, I, S⟩
  | rebind {s H I S h id seq} (htold : h.told = false) (hfreed : h.freed = true)
      (hch : seq.channel = h.seq.channel) (hid : seq.seqId = id) : Turn p ⟨s, h :: H, I, id :: S⟩
        ⟨s.note (.bound h.seq.channel id), { seq := seq, forgotten := true } :: H, I, S⟩
  | tell {s H I S h ev} (hev : ev.isTerminal = true) (htold : h.told = false) :
      Turn p ⟨s, h :: H, I, S⟩ ⟨s.send h.seq.channel ev, { h with told := true } :: H, I, S⟩
  | free {s H I S} (h : Held) :
      Turn p ⟨s, h :: H, I, S⟩ ⟨s.dropSlot h.seq.seqId, { h with freed := true } :: H, I, S⟩
  | drop {s H I S h} (htold : h.told = true) (hfreed : h.freed = true) :
      Turn p ⟨s, h :: H, I, S⟩ ⟨s, H, I, S⟩
  | lose {s H I S h} (hb : s.active.add h.seq = none) (hfreed : h.freed = false)
      (hroom : s.active.isFull = false ∨ p.lose) : Turn p ⟨s, h :: H, I, S⟩ ⟨s, H, I, S⟩

section Marks

variable {s s' : Scheduler} {h : Held} {H L : List Held} {I : List Request} {S : List SequenceId}

/-- Sequences of the lists are taken in hand. -/
lemma Conf.marks_lift {Q : List SequenceInfo} (hlive : s.live.Perm (Q ++ s'.live))
    (hL : L.map Held.mark = Q.map fun seq => Held.mark { seq }) :
    (marks ⟨s', L ++ H, I, S⟩).Perm (marks ⟨s, H, I, S⟩) := by
  simp only [marks, map_append, hL]
  rw [← append_assoc]
  refine .append_right _ (perm_append_comm.trans ?_)
  rw [← map_append]
  exact (hlive.map _).symm

/-- A sequence in hand goes to one of the lists. -/
lemma Conf.marks_land (hlive : s'.live.Perm (h.seq :: s.live)) (htold : h.told = false)
    (hfreed : h.freed = false) : (marks ⟨s', H, I, S⟩).Perm (marks ⟨s, h :: H, I, S⟩) :=
  (marks_lift (Q := [h.seq]) (L := [h]) hlive (by simp [Held.mark, htold, hfreed])).symm

end Marks

/-- **What a step can do.** -/
lemma Step.turn (hstep : Step p c c') : Regular p c c' ∨ Turn p c c' := by
  cases hstep with
  | quiet hq =>
    refine .inl ⟨.of_eq ?_, rfl, hq.slotIds, hq.nextId, hq.freedCount, fun ch id hmem => ?_,
      fun _ ch => ⟨0, hq.endedCount ch, ?_, hq.nextChannel⟩⟩
    · simp only [marks, hq.live]
    · obtain ⟨l, hlog, hquiet⟩ := hq.log
      rw [hlog, mem_append] at hmem
      exact hmem.resolve_left fun hl => by simpa [isQuiet] using hquiet _ hl
    · rw [pending_eq, pending_eq, hq.prefill, hq.donation]
      rfl
  | shuffle hH => exact .inl { marks := (hH.symm.map _).append_left _ }
  | reorder hl => exact .inl { marks := ((live_reorder _ hl).map _).append_right _ }
  | editActive hf =>
    refine .inl { marks := .of_eq ?_ }
    simp [marks, live, Held.mark, comp_def, (hf _).seqId, (hf _).channel]
  | editChunked hs hseq =>
    refine .inl { marks := .of_eq ?_ }
    simp [marks, live, hs, Held.mark, hseq.seqId, hseq.channel]
  | stray hp ch ev =>
    exact .inl ⟨.refl _, rfl, rfl, rfl, by simp, by simp [send, note], fun hstray => absurd hp hstray⟩
  | @reject s H I S req msg =>
    refine .inl ⟨.refl _, rfl, rfl, rfl, by simp, by simp [send, note],
      fun _ ch => ⟨if req.channel = ch then 1 else 0, ?_, ?_, rfl⟩⟩
    · simp [send, ends, GenerateEvent.isTerminal]
    · rw [pending_eq, pending_eq, countP_cons]
      simp only [beq_iff_eq, send, note]
      omega
  | hold req hw | park req hw =>
    refine .inl { marks := .refl _, taken := fun _ ch => ⟨0, rfl, ?_, rfl⟩ }
    rw [pending_eq, pending_eq, waitingCount_append hw, countP_cons]
    simp only [beq_iff_eq]
    omega
  | @unhold s H I S hash waiting hw | @unpark s H I S hash waiting hw =>
    refine .inl { marks := .refl _, taken := fun _ ch => ⟨0, rfl, ?_, rfl⟩ }
    have herase := waitingCount_erase hw ch
    rw [pending_eq, pending_eq, countP_append]
    dsimp only
    omega
  | @arm s H I S old hash hh =>
    refine .inl { marks := .refl _, taken := fun _ ch => ⟨0, rfl, ?_, rfl⟩ }
    have harm := waitingCount_arm s.prefillInProgress hash ch
    simp only [pending_eq]
    exact congrArg (_ + · + _) harm
  | clear id | absent hctx | relieve hw => exact .inl { marks := .refl _ }
  | @pull s H I S seqs q hq =>
    refine .inl { marks := marks_lift (s.live_pull hq) ?_ }
    rw [map_map]
    rfl
  | @enter s H I S old q hq htold hfreed harmed =>
    exact .inl ⟨marks_land (s.live_push hq) htold hfreed, rfl, rfl, rfl, by simp [freedCount, note],
      by simp [note], fun _ ch => ⟨0, by rfl, rfl, rfl⟩⟩
  | @push s H I S old q hq htold hfreed harmed =>
    exact .inl { marks := marks_land (s.live_push hq) htold hfreed }
  | @activate s H I S old b hb htold hfreed =>
    exact .inl { marks := marks_land (s.live_activate hb) htold hfreed }
  | @deactivate s H I S id seq b hb =>
    exact .inl { marks := marks_lift (Q := [seq]) (L := [_]) (s.live_deactivate hb) rfl }
  | @toChunked s H I S old hs htold hfreed =>
    exact .inl { marks := marks_land (s.live_toChunked hs) htold hfreed }
  | @fromChunked s H I S seq hs =>
    exact .inl { marks := marks_lift (Q := [seq]) (L := [_]) (s.live_fromChunked hs) rfl }
  | editHeld hseq =>
    refine .inl { marks := .of_eq ?_ }
    simp [marks, Held.mark, hseq.seqId, hseq.channel]
  | arrive payload => exact .inr (.arrive payload)
  | alloc tokens blocks => exact .inr (.alloc tokens blocks)
  | abandon id => exact .inr (.abandon id)
  | bind req seq ctx hch hid => exact .inr (.bind hch hid)
  | rebind seq htold hfreed hforgotten harmed hch hid => exact .inr (.rebind htold hfreed hch hid)
  | tell ev hev htold => exact .inr (.tell hev htold)
  | free old => exact .inr (.free old)
  | drop htold hfreed => exact .inr (.drop htold hfreed)
  | lose hb htold hfreed hroom => exact .inr (.lose hb hfreed hroom)

lemma SlotLedger.regular (h : SlotLedger tight c) (hreg : Regular p c c') : SlotLedger tight c' := by
  refine h.same (fun id => ?_) (fun x hx hf => ?_) hreg.freedCount hreg.slotIds hreg.nextId
  · rw [owners_eq_marks, owners_eq_marks, hreg.marks.countP_eq, hreg.spare]
  · have hmark := hreg.marks.subset (mem_append_right _ (mem_map_of_mem hx))
    rcases mem_append.mp hmark with hmem | hmem
    · obtain ⟨seq, -, heq⟩ := mem_map.mp hmem
      simp [Held.mark, hf] at heq
    · obtain ⟨y, hy, heq⟩ := mem_map.mp hmem
      simp only [Held.mark, Prod.mk.injEq] at heq
      exact ⟨y, hy, heq.2.2.trans hf, heq.1.1⟩

/-- **Every step keeps the account of slots.** -/
lemma Step.slotLedger (hstep : Step p c c') (h : SlotLedger tight c) (htight : tight → ¬ p.lose) :
    SlotLedger tight c' := by
  have hsame : ∀ x ∈ c.held, x.freed = true →
      ∃ y ∈ c.held, y.freed = true ∧ y.seq.seqId = x.seq.seqId := fun x hx hf => ⟨x, hx, hf, rfl⟩
  rcases hstep.turn with hreg | hturn
  · exact h.regular hreg
  cases hturn with
  | arrive payload => exact ⟨h.given, h.owned, h.used, h.freed⟩
  | @alloc s H I S tokens blocks =>
    refine ⟨fun id => ?_, fun id => ?_, fun ht id => ?_, h.freed⟩
    · have hgiven : s.slotIds.count id + s.freedCount id
          = if id < s.pool.nextId then 1 else 0 := h.given id
      show (s.pool.nextId :: s.slotIds).count id + s.freedCount id
        = if id < s.pool.nextId + 1 then 1 else 0
      rw [count_cons]
      simp only [beq_iff_eq]
      exact count_next hgiven
    · have howned : owners ⟨s, H, I, S⟩ id ≤ s.slotIds.count id := h.owned id
      rw [owners_eq] at howned ⊢
      show s.live.countP _ + _ + _ ≤ (s.pool.nextId :: s.slotIds).count id
      rw [count_cons, count_cons]
      omega
    · have hused : s.slotIds.count id ≤ owners ⟨s, H, I, S⟩ id := h.used ht id
      rw [owners_eq] at hused ⊢
      show (s.pool.nextId :: s.slotIds).count id ≤ s.live.countP _ + _ + _
      rw [count_cons, count_cons]
      omega
  | abandon id =>
    refine h.giveBack rfl (fun other => ?_) fun h' hh' hf => .inr (h.freed h' hh' hf)
    rw [owners_eq, owners_eq, dropSlot_live, count_cons]
    simp only [beq_iff_eq]
    omega
  | @bind s H I S req id seq ctx hch hid =>
    obtain ⟨hids, hlive, hpool, hlog⟩ := s.remember_slots id ctx
    refine h.same (fun other => ?_) (fun x hx hf => ?_) (fun other => ?_) hids
      (by rw [← hpool]; rfl)
    · have hlive' : ((s.remember id ctx).note (.bound req.channel id)).live = s.live := hlive
      rw [owners_eq, owners_eq, hlive', countP_cons, count_cons, hid]
      simp only [Bool.not_false, Bool.and_true]
      omega
    · rcases mem_cons.mp hx with rfl | hx
      · cases hf
      · exact hsame x hx hf
    · simp [freedCount, note, hlog]
  | @rebind s H I S old id seq htold hfreed hch hid =>
    refine h.same (fun other => ?_) (fun x hx hf => ?_) fun other => ?_
    · have hlive : (s.note (.bound old.seq.channel id)).live = s.live := rfl
      rw [owners_eq, owners_eq, hlive, countP_cons, countP_cons,
        count_cons, hid, hfreed]
      simp only [Bool.not_false, Bool.and_true, Bool.not_true, Bool.and_false, Bool.false_eq_true,
        if_false]
      omega
    · rcases mem_cons.mp hx with rfl | hx
      · cases hf
      · exact hsame x (mem_cons_of_mem _ hx) hf
    · simp [freedCount, note]
  | tell hev htold =>
    refine h.same (fun id => ?_) (held_edit rfl rfl) (fun _ => by simp)
    rfl
  | @free s H I S old =>
    cases hold : old.freed with
    | false =>
      refine h.giveBack rfl (fun other => ?_) fun x hx hf => ?_
      · rw [owners_eq, owners_eq, dropSlot_live, countP_cons,
          countP_cons, hold]
        simp only [Bool.not_true, Bool.and_false, Bool.false_eq_true, if_false, Bool.not_false,
          Bool.and_true, beq_iff_eq]
        omega
      · rcases mem_cons.mp hx with rfl | hx
        · exact .inl rfl
        · exact .inr (h.freed x (mem_cons_of_mem _ hx) hf)
    | true =>
      have hpos := h.freed old mem_cons_self hold
      have hnoop : s.dropSlot old.seq.seqId = s := h.dropSlot_freed hpos
      rw [hnoop]
      refine h.same (fun id => ?_) (held_edit rfl hold.symm)
      simp [owners_eq, hold]
  | drop htold hfreed =>
    refine h.same (fun id => ?_) held_drop
    simp [owners_eq, hfreed]
  | lose hb hfreed hroom =>
    refine ⟨h.given, fun id => (h.owned id).trans' ?_, fun ht => ?_, fun x hx => h.freed x
      (mem_cons_of_mem _ hx)⟩
    · rw [owners_eq, owners_eq, countP_cons]
      omega
    · exact absurd (hroom.resolve_right (htight ht)) (by simp [h.full_of_add_eq_none hfreed hb])

/-- **What every regular step does to a channel.** -/
lemma Step.flow (hstep : Step p c c') (h : SlotLedger True c) (hlose : ¬ p.lose)
    (hstray : ¬ p.stray) (ch : Channel) : Flow c c' ch := by
  rcases hstep.turn with hreg | hturn
  · obtain ⟨n, hended, hpending, hnext⟩ := hreg.taken hstray ch
    refine .takes n ?_ hpending hnext
    rw [served_eq_marks, served_eq_marks, hreg.marks.countP_eq, hended]
    omega
  cases hturn with
  | arrive payload =>
    refine .opens rfl ?_ rfl
    rw [pending_eq, pending_eq, countP_cons]
    simp only [beq_iff_eq]
    omega
  | alloc tokens blocks => exact .keep rfl rfl rfl
  | @abandon s H I S id =>
    refine .keep ?_ ?_ (by simp)
    · rw [served_eq, served_eq, dropSlot_endedCount, dropSlot_live]
    · simp [pending_eq]
  | @bind s H I S req id seq ctx hch hid =>
    obtain ⟨-, hlive, -, hlog⟩ := s.remember_slots id ctx
    have hlive' : ((s.remember id ctx).note (.bound req.channel id)).live = s.live := hlive
    refine .takes (if req.channel = ch then 1 else 0) ?_ ?_ (by cases ctx <;> rfl)
    · rw [served_eq, served_eq, note_endedCount, hlive', countP_cons, hch]
      simp only [ends, endedCount, hlog, Bool.not_false, Bool.and_true,
        beq_iff_eq, Bool.false_eq_true, if_false]
      omega
    · rw [pending_eq, pending_eq, countP_cons]
      cases ctx <;> simp only [beq_iff_eq, remember, note] <;> omega
  | @rebind s H I S old id seq htold hfreed hch hid =>
    refine .keep ?_ rfl rfl
    have hlive : (s.note (.bound old.seq.channel id)).live = s.live := rfl
    simp [served_eq, countP_cons, ends, hlive, hch, htold]
  | @tell s H I S old ev hev htold =>
    have hlive : (s.note (.sent old.seq.channel ev)).live = s.live := rfl
    refine .keep ?_ rfl rfl
    rw [served_eq, served_eq, send, note_endedCount, hlive,
      countP_cons, countP_cons, htold]
    simp only [ends, hev, Bool.not_true, Bool.and_false,
      Bool.false_eq_true, if_false, Bool.not_false]
    omega
  | free old =>
    refine .keep ?_ ?_ (by simp)
    · simp [served_eq, countP_cons]
    · simp [pending_eq]
  | drop htold hfreed =>
    refine .keep ?_ rfl rfl
    simp [served_eq, htold]
  | lose hb hfreed hroom =>
    exact absurd (hroom.resolve_right hlose) (by simp [h.full_of_add_eq_none hfreed hb])
/-! ## Contexts -/

namespace Conf

/-- The sequences that will remove the context of a slot. -/
def recalling (c : Conf) (id : SequenceId) : ℕ :=
  c.s.live.countP (·.seqId == id) + c.held.countP fun h => h.seq.seqId == id && !h.forgotten

lemma recalling_eq (s : Scheduler) (H : List Held) (I : List Request) (S : List SequenceId)
    (id : SequenceId) :
    recalling ⟨s, H, I, S⟩ id = s.live.countP (·.seqId == id) +
      H.countP (fun h => h.seq.seqId == id && !h.forgotten) := rfl

/-- Every context belongs to a sequence that will remove it. -/
def Contexts (c : Conf) : Prop :=
  ∀ id, c.s.promptCacheSeqCtx id ≠ none → 0 < c.recalling id

lemma Contexts.mono (h : c.Contexts)
    (hctx : ∀ id, c'.s.promptCacheSeqCtx id ≠ none → c.s.promptCacheSeqCtx id ≠ none)
    (hrec : ∀ id, c'.s.promptCacheSeqCtx id ≠ none → c.recalling id ≤ c'.recalling id) :
    c'.Contexts := fun id hid => (h id (hctx id hid)).trans_le (hrec id hid)

lemma Contexts.same (h : c.Contexts) (hctx : c'.s.promptCacheSeqCtx = c.s.promptCacheSeqCtx)
    (hrec : ∀ id, c.recalling id ≤ c'.recalling id) : c'.Contexts :=
  h.mono (fun id hne => by rwa [hctx] at hne) fun id _ => hrec id

end Conf

section Contexts

variable {s s' : Scheduler} {h h' : Held} {H : List Held} {I : List Request}
  {S S' : List SequenceId}

section

variable (hc : Contexts ⟨s, h :: H, I, S⟩) (hctx : s'.promptCacheSeqCtx = s.promptCacheSeqCtx)

include hc hctx

lemma Conf.Contexts.edit (hid : h'.seq.seqId = h.seq.seqId) (hf : h'.forgotten = h.forgotten)
    (hlive : s'.live = s.live) : Contexts ⟨s', h' :: H, I, S'⟩ := by
  refine hc.same hctx fun id => ?_
  simp [recalling_eq, countP_cons, hid, hf, hlive]

lemma Conf.Contexts.land (hlive : s'.live.Perm (h.seq :: s.live)) : Contexts ⟨s', H, I, S⟩ := by
  refine hc.same hctx fun id => ?_
  simp only [recalling_eq, hlive.countP_eq, countP_cons]
  cases h.forgotten with
  | false =>
    simp only [Bool.not_false, Bool.and_true]
    omega
  | true => simp

end

lemma Conf.Contexts.lift (hc : Contexts ⟨s, H, I, S⟩) (hf : h.forgotten = false)
    (hlive : s.live.Perm (h.seq :: s'.live))
    (hctx : s'.promptCacheSeqCtx = s.promptCacheSeqCtx) : Contexts ⟨s', h :: H, I, S⟩ := by
  refine hc.same hctx fun id => ?_
  simp only [recalling_eq, hlive.countP_eq, countP_cons, hf, Bool.not_false, Bool.and_true]
  omega

end Contexts

lemma Step.contexts (hstep : Step p c c') (h : SlotLedger True c) (hlose : ¬ p.lose)
    (hkeep : ¬ p.keepCtx) (hc : c.Contexts) : c'.Contexts := by
  cases hstep with
  | quiet hq =>
    refine hc.same hq.contexts fun id => ?_
    rw [recalling_eq, recalling_eq, hq.live]
  | shuffle hH =>
    refine hc.same rfl fun id => ?_
    rw [recalling_eq, recalling_eq, hH.countP_eq]
  | reorder hl =>
    refine hc.same rfl fun id => ?_
    rw [recalling_eq, recalling_eq, (live_reorder _ hl).countP_eq]
  | editActive hf =>
    refine hc.same rfl fun id => ?_
    rw [recalling_eq, recalling_eq, countP_live_editActive _ fun seq => by
      rw [(hf seq).seqId]]
  | editChunked hs hseq =>
    refine hc.same rfl fun id => ?_
    rw [recalling_eq, recalling_eq,
      countP_live_editChunked _ hs (by rw [hseq.seqId])]
  | @clear s H I S id =>
    refine hc.mono (fun other hne hnone => hne ?_) fun _ _ => le_refl _
    show Function.update s.promptCacheSeqCtx id none other = none
    rw [update_apply]
    split_ifs
    exacts [rfl, hnone]
  | @bind s H I S req id seq ctx hch hid =>
    have hlive := (s.remember_slots id ctx).2.1
    intro other hne
    rw [recalling_eq, countP_cons, hid]
    by_cases hother : id = other
    · simp only [hother, beq_self_eq_true, Bool.not_false, Bool.and_true, if_true]
      omega
    · have hold : s.promptCacheSeqCtx other ≠ none := by
        cases ctx with
        | none => exact hne
        | some bucket =>
          have hother' : other ≠ id := fun heq => hother heq.symm
          simpa [remember, note, hother'] using hne
      have hpos : 0 < recalling ⟨s, H, req :: I, id :: S⟩ other := hc other hold
      rw [recalling_eq] at hpos
      have hlive' : ((s.remember id ctx).note (.bound req.channel id)).live = s.live := hlive
      rw [hlive']
      omega
  | @rebind s H I S old id seq htold hfreed hforgotten harmed hch hid =>
    refine hc.same rfl fun other => ?_
    simp [recalling_eq, hforgotten, note, live]
  | @pull s H I S seqs q hq =>
    refine hc.same rfl fun id => ?_
    rw [recalling_eq, recalling_eq, (s.live_pull hq).countP_eq, countP_append,
      countP_append, countP_map]
    simp only [comp_def, Bool.not_false, Bool.and_true]
    omega
  | @enter s H I S old q hq htold hfreed harmed | @push s H I S old q hq htold hfreed harmed =>
    exact hc.land rfl (s.live_push hq)
  | @activate s H I S old b hb htold hfreed => exact hc.land rfl (s.live_activate hb)
  | @deactivate s H I S id seq b hb => exact hc.lift rfl (s.live_deactivate hb) rfl
  | @toChunked s H I S old hs htold hfreed => exact hc.land rfl (s.live_toChunked hs)
  | @fromChunked s H I S seq hs => exact hc.lift rfl (s.live_fromChunked hs) rfl
  | arm hh | tell ev hev htold | relieve hw => exact hc.edit rfl rfl rfl rfl
  | editHeld hseq => exact hc.edit rfl hseq.seqId rfl rfl
  | free old => exact hc.edit (by simp) rfl rfl (by simp)
  | @absent s H I S old hctx =>
    refine hc.mono (fun _ hne => hne) fun id hne => ?_
    have hother : old.seq.seqId ≠ id := by
      rintro rfl
      exact hne (hctx.resolve_right hkeep)
    simp [recalling_eq, hother]
  | drop htold hfreed hforgotten harmed =>
    refine hc.same rfl fun id => ?_
    simp [recalling_eq, hforgotten]
  | abandon id =>
    refine hc.same (by simp) fun id => ?_
    rw [recalling_eq, recalling_eq, dropSlot_live]
  | lose hb htold hfreed hroom harmed =>
    exact absurd (hroom.resolve_right hlose) (by simp [h.full_of_add_eq_none hfreed hb])
  | _ => exact hc

/-! ## Which slots a request has had -/

namespace Conf

/-- The slots in use and the channels of their owners. -/
def owning (c : Conf) : List (SequenceId × Channel) :=
  c.s.live.map (fun seq => (seq.seqId, seq.channel)) ++
    (c.held.filter fun h => !h.freed).map fun h => (h.seq.seqId, h.seq.channel)

/-- A slot in use belongs to the request that it was bound to. -/
def Bindings (c : Conf) : Prop :=
  ∀ ch id, bound ch id ∈ c.s.log →
    id < c.s.pool.nextId ∧ id ∉ c.spare ∧ ∀ pair ∈ c.owning, pair.1 = id → pair.2 = ch

lemma owning_eq_marks (c : Conf) : c.owning = (c.marks.filter (!·.2.2)).map Prod.fst := by
  simp [owning, marks, Held.mark, filter_map, comp_def]

lemma owning_eq (s : Scheduler) (H : List Held) (I : List Request) (S : List SequenceId) :
    owning ⟨s, H, I, S⟩ = s.live.map (fun seq => (seq.seqId, seq.channel)) ++
      (H.filter fun h => !h.freed).map fun h => (h.seq.seqId, h.seq.channel) := rfl

lemma Bindings.mono (h : c.Bindings)
    (hlog : ∀ ch id, bound ch id ∈ c'.s.log → bound ch id ∈ c.s.log)
    (hnext : c'.s.pool.nextId = c.s.pool.nextId) (hspare : c'.spare ⊆ c.spare)
    (howning : c'.owning ⊆ c.owning) : c'.Bindings := fun ch id hbound => by
  obtain ⟨hid, hfree, hown⟩ := h ch id (hlog ch id hbound)
  rw [hnext]
  exact ⟨hid, fun hmem => hfree (hspare hmem), fun pair hpair => hown pair (howning hpair)⟩

end Conf

section Bindings

variable {s s' : Scheduler} {h h' : Held} {H : List Held} {I I' : List Request}
  {S : List SequenceId}

/-- A slot without a sequence is bound to a request: it is bound for the first time, and nobody else
has it. -/
lemma Conf.Bindings.bind {id : SequenceId} {ch : Channel} {H' : List Held}
    (hb : Bindings ⟨s, H, I, id :: S⟩) (hl : SlotLedger True ⟨s, H, I, id :: S⟩)
    (hseq : h.seq.seqId = id) (hch : h.seq.channel = ch)
    (hlive : s'.live = s.live) (hlog : s'.log = .bound ch id :: s.log)
    (hnext : s'.pool.nextId = s.pool.nextId)
    (hheld : ∀ x ∈ H', x.freed = false → x ∈ H) : Bindings ⟨s', h :: H', I', S⟩ := by
  have howned := hl.owned id
  have hgiven := hl.given id
  rw [owners_eq, count_cons_self] at howned
  simp only at howned hgiven
  have hgiven' : id < s.pool.nextId := by
    by_contra hge
    rw [if_neg hge] at hgiven
    omega
  have hone : s.slotIds.count id ≤ 1 := by
    rw [if_pos hgiven'] at hgiven
    omega
  -- the pair of an owner other than the new one cannot carry this id
  have hfresh : ∀ pair ∈ owning ⟨s, H, I, id :: S⟩, pair.1 ≠ id := by
    intro pair hpair heq
    simp only [owning_eq, mem_append, mem_map, mem_filter] at hpair
    rcases hpair with ⟨seq, hmem, rfl⟩ | ⟨x, ⟨hmem, hf⟩, rfl⟩
    · have : 0 < s.live.countP (·.seqId == id) := countP_pos_iff.mpr ⟨seq, hmem, by simpa using heq⟩
      omega
    · have : 0 < H.countP (fun h => h.seq.seqId == id && !h.freed) :=
        countP_pos_iff.mpr ⟨x, hmem, by
          simp only [Bool.and_eq_true, beq_iff_eq]
          exact ⟨heq, hf⟩⟩
      omega
  have hpairs : ∀ pair ∈ owning ⟨s', h :: H', I', S⟩,
      pair = (id, ch) ∨ pair ∈ owning ⟨s, H, I, id :: S⟩ := by
    intro pair hpair
    simp only [owning_eq, hlive, mem_append, mem_map, mem_filter,
      mem_cons] at hpair ⊢
    rcases hpair with hpair | ⟨x, ⟨rfl | hx, hxf⟩, hkey⟩
    · exact .inr (.inl hpair)
    · exact .inl (by rw [← hkey, hseq, hch])
    · exact .inr (.inr ⟨x, ⟨hheld x hx (by simpa using hxf), hxf⟩, hkey⟩)
  intro ch' id' hbound
  simp only [hlog, mem_cons, bound.injEq] at hbound
  rw [hnext]
  rcases hbound with ⟨rfl, rfl⟩ | hold
  · refine ⟨hgiven', fun hmem => ?_, fun pair hpair hid => ?_⟩
    · have : 0 < S.count id' := count_pos_iff.mpr hmem
      omega
    · rcases hpairs pair hpair with rfl | hpair
      · rfl
      · exact absurd hid (hfresh pair hpair)
  · obtain ⟨hlt, hfree, hown⟩ := hb ch' id' hold
    refine ⟨hlt, fun hmem => hfree (mem_cons_of_mem _ hmem), fun pair hpair hid => ?_⟩
    rcases hpairs pair hpair with rfl | hpair
    · exact absurd mem_cons_self (hid ▸ hfree)
    · exact hown pair hpair hid

end Bindings

lemma Scheduler.bound_mem_dropSlot {s : Scheduler} {id : SequenceId} (ch : Channel)
    (other : SequenceId) (h : bound ch other ∈ (s.dropSlot id).log) :
    bound ch other ∈ s.log := by
  rw [dropSlot] at h
  split_ifs at h
  · simpa using h
  · exact h

lemma Step.bindings (hstep : Step p c c') (h : SlotLedger True c) (hlose : ¬ p.lose)
    (hb : c.Bindings) : c'.Bindings := by
  rcases hstep.turn with hreg | hturn
  · refine hb.mono hreg.bound hreg.nextId (hreg.spare ▸ .refl _) ?_
    rw [owning_eq_marks, owning_eq_marks]
    exact ((hreg.marks.filter _).map _).subset
  cases hturn with
  | arrive payload => exact hb
  | @alloc s H I S tokens blocks =>
    intro ch id hbound
    obtain ⟨hlt, hfree, hown⟩ := hb ch id hbound
    refine ⟨Nat.lt_succ_of_lt hlt, fun hmem => ?_, hown⟩
    rcases mem_cons.mp hmem with rfl | hmem
    · exact absurd hlt (lt_irrefl _)
    · exact hfree hmem
  | @abandon s H I S id =>
    refine hb.mono bound_mem_dropSlot (by simp) (subset_cons_self _ _) ?_
    rw [owning_eq, dropSlot_live]
    exact Subset.refl _
  | @bind s H I S req id seq ctx hch hid =>
    obtain ⟨-, hlive, hpool, hlog⟩ := s.remember_slots id ctx
    refine hb.bind (h := { seq := seq }) h hid hch hlive ?_ (by rw [← hpool]; rfl)
      fun x hx _ => hx
    rw [← hlog]
    rfl
  | @rebind s H I S old id seq htold hfreed hch hid =>
    exact hb.bind (h := { seq := seq, forgotten := true }) h hid hch rfl rfl rfl
      fun x hx _ => mem_cons_of_mem _ hx
  | @tell s H I S old ev hev htold =>
    refine hb.mono (fun ch id hmem => by simpa [send, note] using hmem) rfl (.refl _) ?_
    rw [owning_eq, owning_eq, filter_cons, filter_cons]
    cases old.freed <;> exact Subset.refl _
  | free old =>
    refine hb.mono bound_mem_dropSlot (by simp) (.refl _) ?_
    rw [owning_eq, owning_eq, dropSlot_live, filter_cons, filter_cons]
    cases old.freed <;> simp
  | drop htold hfreed =>
    refine hb.mono (fun _ _ => id) rfl (.refl _) ?_
    simp [owning_eq, hfreed]
  | lose hadd hfreed hroom =>
    exact absurd (hroom.resolve_right hlose) (by simp [h.full_of_add_eq_none hfreed hadd])

/-! ## The ledger -/

/-- A request that enters the queue has a sequence. -/
lemma Step.entered (hstep : Step p c c') {ch : Channel} (hmem : entered ch ∈ c'.s.log) :
    entered ch ∈ c.s.log ∨ 0 < c'.served ch := by
  cases hstep with
  | quiet hq =>
    obtain ⟨l, hlog, hquiet⟩ := hq.log
    rw [hlog, mem_append] at hmem
    exact .inl (hmem.resolve_left fun hl => by simpa [isQuiet] using hquiet _ hl)
  | @enter s H I S old q hq htold hfreed harmed =>
    simp only [note, mem_cons, entered.injEq] at hmem
    rcases hmem with rfl | hmem
    · have hmem := (s.live_push hq).mem_iff.mpr mem_cons_self
      have hpos : 0 < ({ s with queue := q }.note (.entered old.seq.channel)).live.countP
          (fun seq : SequenceInfo => seq.channel == old.seq.channel) :=
        countP_pos_iff.mpr ⟨old.seq, hmem, by simp⟩
      rw [served_eq]
      omega
    · exact .inl hmem
  | abandon id | free old =>
    rw [dropSlot] at hmem
    split_ifs at hmem
    · exact .inl (by simpa using hmem)
    · exact .inl hmem
  | @bind s H I S req id seq ctx hch hid =>
    have hlog := (s.remember_slots id ctx).2.2.2
    simp only [note, hlog, mem_cons, reduceCtorEq, false_or] at hmem
    exact .inl hmem
  | stray hp ch ev | reject req msg | tell ev hev htold | rebind seq htold =>
    exact .inl (by simpa [send, note] using hmem)
  | _ => exact .inl hmem

/-- The accounts of slots and of requests. -/
structure Ledger (c : Conf) : Prop where
  slots : SlotLedger True c
  /-- A channel that was opened has one terminal event, one sequence or one request. -/
  channels : ∀ ch, c.served ch + c.pending ch = if ch < c.s.nextChannel then 1 else 0
  entered : ∀ ch, entered ch ∈ c.s.log → c.served ch = 1
  contexts : c.Contexts
  bindings : c.Bindings

/-- No irregular step but that waiting requests may be left behind. -/
def Allowed.orderly : Allowed := ⟨False, True, False, False⟩

/-- **Every regular step keeps the ledger.** -/
lemma Step.ledger (hstep : Step .orderly c c') (h : Ledger c) : Ledger c' := by
  have hchannels : ∀ ch, c'.served ch + c'.pending ch
      = if ch < c'.s.nextChannel then 1 else 0 := by
    intro ch
    have hch := h.channels ch
    cases hstep.flow h.slots id id ch with
    | takes n hserved hpending hnext =>
      rw [hnext]
      omega
    | opens hserved hpending hnext =>
      rw [hserved, hpending, hnext, ← Nat.add_assoc]
      exact (Nat.add_right_comm _ _ _).trans (count_next hch)
  refine ⟨hstep.slotLedger h.slots fun _ => id, hchannels, fun ch hmem => ?_,
    hstep.contexts h.slots id id h.contexts, hstep.bindings h.slots id h.bindings⟩
  rcases hstep.entered hmem with hold | hpos
  · have hone := h.entered ch hold
    have hch := h.channels ch
    cases hstep.flow h.slots id id ch with
    | takes n hserved hpending hnext =>
      have : c.pending ch = 0 := by split_ifs at hch <;> omega
      omega
    | opens hserved hpending hnext => rw [hserved, hone]
  · have hch := hchannels ch
    split_ifs at hch <;> omega

/-! ## Runs -/

namespace Scheduler

/-- Every tick of a run meets a condition on the state before it and on what comes in. -/
def AllTicks (P : Scheduler → World → Prop) : Scheduler → List World → Prop
  | _, [] => True
  | s, w :: ws => P s w ∧ AllTicks P (s.tick w) ws

variable {s : Scheduler}

variable {P : Scheduler → World → Prop} {ws : List World}

lemma AllTicks.take (h : AllTicks P s ws) (n : ℕ) :
    AllTicks P s (ws.take n) := by
  induction ws generalizing s n with
  | nil => simpa using h
  | cons w ws ih =>
    cases n with
    | zero => exact trivial
    | succ n => exact ⟨h.1, ih h.2 n⟩

/-- What such ticks preserve holds at the end of the run. -/
lemma AllTicks.invariant {Q : Scheduler → Prop} (htick : ∀ s w, P s w → Q s → Q (s.tick w))
    (h : AllTicks P s ws) (hs : Q s) :
    Q (ws.foldl tick s) := by
  induction ws generalizing s with
  | nil => exact hs
  | cons w ws ih => exact ih h.2 (htick s w h.1 hs)

variable (cfg : Config)

lemma init_bounded : (init cfg).Bounded := ⟨rfl, Nat.zero_le _⟩

/-- The configuration with nothing in hand. -/
def atRest (s : Scheduler) : Conf := ⟨s, [], [], []⟩

lemma init_slotLedger (tight : Prop) (cfg : Config) : SlotLedger tight (init cfg).atRest where
  given id := by simp [atRest, init, slotIds, freedCount]
  owned id := by simp [atRest, owners_eq, init, live, PrefillQueue.withCapacity,
    PrefillQueue.all]
  used _ id := by simp [atRest, init, slotIds]
  freed h hh := by simp [atRest] at hh

lemma init_ledger : Ledger (init cfg).atRest where
  slots := init_slotLedger True cfg
  channels ch := by
    simp [atRest, served_eq, pending_eq, init, live, PrefillQueue.withCapacity,
      PrefillQueue.all, endedCount, waitingCount]
  entered ch hmem := by simp [atRest, init] at hmem
  contexts id hne := by simp [atRest, init] at hne
  bindings ch id hmem := by simp [atRest, init] at hmem

/-- **Every request ends once.**  A request that entered the prefill queue is in one place and has
been sent no terminal event, or it is in no place and has been sent one. In the second case every slot
that it was given has been freed once and has no context. The slots in use are as many as the
requests that have not ended. -/
structure EndsOnce (s : Scheduler) : Prop where
  placed : ∀ ch, entered ch ∈ s.log →
    s.live.countP (·.channel == ch) = 1 ∧ s.endedCount ch = 0 ∨
    s.live.countP (·.channel == ch) = 0 ∧ s.endedCount ch = 1
  released : ∀ ch id, entered ch ∈ s.log → s.live.countP (·.channel == ch) = 0 →
    bound ch id ∈ s.log → s.freedCount id = 1 ∧ s.promptCacheSeqCtx id = none
  inUse : s.pool.active.length = s.live.length

/-- With nothing in hand, the ledger says that every request ends once. -/
lemma endsOnce_of_ledger (h : Ledger s.atRest) : s.EndsOnce where
  placed ch hmem := by
    have hone := h.entered ch hmem
    simp only [atRest, served_eq, countP_nil] at hone
    omega
  released ch id hmem hgone hbound := by
    obtain ⟨hlt, -, hown⟩ := h.bindings ch id hbound
    -- an owner of the slot would be a sequence of this request
    have hnone : s.live.countP (·.seqId == id) = 0 := by
      refine countP_eq_zero.mpr fun seq hseq hid => ?_
      have hch : seq.channel = ch := hown (seq.seqId, seq.channel)
        (by simp only [atRest, owning_eq, mem_append, mem_map]
            exact .inl ⟨seq, hseq, rfl⟩) (by simpa using hid)
      exact countP_eq_zero.mp hgone seq hseq (by simp [hch])
    refine ⟨?_, by_contra fun hne => ?_⟩
    · have hgiven : s.slotIds.count id + s.freedCount id
          = if id < s.pool.nextId then 1 else 0 := h.slots.given id
      have hused := h.slots.used trivial id
      simp only [atRest, owners_eq, countP_nil, count_nil] at hused
      have hlt : id < s.pool.nextId := hlt
      rw [if_pos hlt] at hgiven
      omega
    · have hpos := h.contexts id hne
      simp only [atRest, recalling_eq, countP_nil] at hpos
      omega
  inUse := by
    have hperm : s.slotIds.Perm (s.live.map (·.seqId)) := perm_iff_count.mpr fun id => by
      have howned := h.slots.owned id
      have hused := h.slots.used trivial id
      simp only [atRest, owners_eq, countP_nil, count_nil] at howned hused
      rw [count_eq_countP, count_eq_countP, countP_map] at *
      simp only [comp_def] at *
      omega
    simpa [slotIds] using hperm.length_eq

/-- **The condition on a tick.**  A prefill window finds room for all its sequences; no constraint
fails in a decode step; when a prefill may preempt, no sequence that can be preempted has a
prompt-cache context; and no chunked prefill is orphaned at the end of the tick. -/
structure Orderly (s : Scheduler) (w : World) : Prop where
  room : (s.drainIncomingRequests w).decideAction = .prefill →
    (s.drainIncomingRequests w).prefillsWindow = true →
    (s.drainIncomingRequests w).active.len +
      min (s.drainIncomingRequests w).cfg.maxBatchPrefill (s.drainIncomingRequests w).queue.len ≤
        (s.drainIncomingRequests w).active.maxSize
  constraints : ∀ ids, (s.drainIncomingRequests w).decideAction = .decode ids → w.Accepts
  contexts : (s.drainIncomingRequests w).decideAction = .prefill →
    (s.drainIncomingRequests w).prefillsWindow = false →
    (s.drainIncomingRequests w).chunked = none →
    (s.drainIncomingRequests w).mayPreempt = true →
    ∀ seq ∈ (s.drainIncomingRequests w).active.sequences, seq.structured = false →
      (s.drainIncomingRequests w).promptCacheSeqCtx seq.seqId = none
  orphans : ((s.drainIncomingRequests w).execute w).orphansPrefill w = false

lemma Orderly.steps {w : World} (h : s.Orderly w) (hb : s.Bounded) :
    Steps .orderly s.atRest (s.tick w).atRest := by
  refine s.tick_steps w hb ⟨?_, ?_, ?_, ?_⟩ ⟨.inl h.orphans, .inr trivial⟩
  · exact fun hprefill hwindow => .inl (h.room hprefill hwindow)
  · intro hprefill hwindow hchunked
    cases hmay : (s.drainIncomingRequests w).mayPreempt with
    | false => exact .inl rfl
    | true => exact .inr ⟨.inr (h.contexts hprefill hwindow hchunked hmay), .inl trivial⟩
  · exact fun _ _ => .inl trivial
  · exact fun ids hdecode => .inl (h.constraints ids hdecode)

/-- **In every run of orderly ticks every request ends once**, at every tick boundary. -/
theorem endsOnce_of_orderly (cfg : Config) (ws : List World)
    (h : AllTicks Orderly (init cfg) ws) (n : ℕ) : (run cfg (ws.take n)).EndsOnce := by
  have hinv : ∀ s w, Orderly s w → s.Bounded ∧ Ledger s.atRest →
      (s.tick w).Bounded ∧ Ledger (s.tick w).atRest := by
    intro s w hw hs
    have hsteps := hw.steps hs.1
    exact ⟨hsteps.bounded hs.1, hsteps.invariant Step.ledger hs.2⟩
  exact endsOnce_of_ledger
    ((h.take n).invariant hinv ⟨init_bounded cfg, init_ledger cfg⟩).2

/-- One sequence at a time, a token for every character. -/
def plainConfig : Config where
  maxBatchSize := 1
  maxBatchSize_pos := Nat.one_pos
  maxBatchPrefill_pos := Nat.one_pos
  encodeRenderedPrompt := fun s => .ok (s.toList.map fun c => Int32.ofNat c.toNat)
  hashTokens := fun tokens => tokens.foldl (fun h t => 31 * h + t.toUInt32.toUInt64) 7

/-- A request for two tokens, from its arrival to its end. -/
def plainRun : List World := [{ arrivals := [{ prompt := "ab", maxTokens := 2 }] }, {}]

theorem endsOnce_plainRun :
    (run plainConfig plainRun).EndsOnce ∧ (run plainConfig plainRun).endedCount 0 = 1 := by
  refine ⟨endsOnce_of_orderly plainConfig plainRun ⟨?_, ?_, trivial⟩ 2, by decide +kernel⟩
  · have hprefill : ((init plainConfig).drainIncomingRequests
        { arrivals := [{ prompt := "ab", maxTokens := 2 }] }).decideAction = .prefill := by
      decide +kernel
    refine ⟨by decide +kernel, fun ids hdecode => ?_, by decide +kernel, by decide +kernel⟩
    cases hdecode
  · exact ⟨by decide +kernel, fun ids _ seq _ => ⟨rfl, rfl⟩, by decide +kernel, by decide +kernel⟩

/-- Two requests in one window and room for one. -/
def crowdedRun : List World :=
  [{ arrivals := [{ prompt := "ab", maxTokens := 9 }, { prompt := "cd", maxTokens := 9 }] }]

/-- A constraint that fails in the second tick, which is a decode step. -/
def refusedRun : List World :=
  [{ arrivals := [{ prompt := "ab", maxTokens := 9, structured := true }] },
    { maskError := fun _ => some "no token fits" }]

/-- A client that goes away behind the first chunk of its prompt. -/
def orphanedRun : List World :=
  [{ arrivals := [{ prompt := "abc", maxTokens := 9 }], cancelled := fun _ => true }]

/-- A request of low priority is preempted, and comes to its end later. -/
def preemptedRun : List World :=
  [{ arrivals := [{ prompt := "ab", maxTokens := 2, priority := .low, promptCacheCtx := some 0 }] },
    { arrivals := [{ prompt := "cd", maxTokens := 1, priority := .high }] }, {}, {}]

/-- A window that is larger than the batch drops a request; a refused token and an orphaned prefill
send two terminal events; a preempted sequence leaves its context behind. -/
theorem not_endsOnce :
    ¬ (run { plainConfig with maxBatchPrefill := 2, maxBatchPrefill_pos := by decide }
        crowdedRun).EndsOnce ∧
    ¬ (run plainConfig refusedRun).EndsOnce ∧
    ¬ (run { plainConfig with
        prefillChunkSize := 1, decouplePrefillOnDisconnect := true,
        decouplePrefillMinTokens := 0 } orphanedRun).EndsOnce ∧
    ¬ (run { plainConfig with enablePreemption := true, promptCache := true }
        preemptedRun).EndsOnce := by
  refine ⟨fun h => ?_, fun h => ?_, fun h => ?_, fun h => ?_⟩
  · exact absurd (h.placed 1) (by decide +kernel)
  · exact absurd (h.placed 0) (by decide +kernel)
  · exact absurd (h.placed 0) (by decide +kernel)
  · exact absurd (h.released 0 0) (by decide +kernel)

/-- Ticks keep the account of slots, whatever they do. -/
lemma slotLedger_foldl (ws : List World) (h : s.Bounded ∧ SlotLedger False s.atRest) :
    (ws.foldl tick s).Bounded ∧ SlotLedger False (ws.foldl tick s).atRest := by
  refine foldlRecOn (motive := fun s => s.Bounded ∧ SlotLedger False s.atRest) ws tick h
    fun s hs w _ => ?_
  -- every irregular step is permitted
  have hsteps : Steps ⟨True, True, True, True⟩ s.atRest (s.tick w).atRest :=
    s.tick_steps w hs.1 ⟨fun _ _ => .inr trivial, fun _ _ _ => .inr ⟨.inl trivial, .inl trivial⟩,
      fun _ _ => .inl trivial, fun _ _ => .inr trivial⟩ ⟨.inr trivial, .inr trivial⟩
  exact ⟨hsteps.bounded hs.1,
    hsteps.invariant (fun hstep h => hstep.slotLedger h False.elim) hs.2⟩

/-- **In every run**, whatever its ticks do, the active batch keeps to its size, every sequence has a
slot of its own, and a slot that was given out is in use or was freed, once. -/
theorem slotLedger_run (cfg : Config) (ws : List World) :
    (run cfg ws).Bounded ∧ SlotLedger False (run cfg ws).atRest :=
  slotLedger_foldl ws ⟨init_bounded cfg, init_slotLedger False cfg⟩

end Scheduler

end Mlxcel.Batch
