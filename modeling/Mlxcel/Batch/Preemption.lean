import Mlxcel.Batch.Lifecycle

/-!
# Preemption by priority

Three choices make a preemption: `should_preempt` compares the lowest active priority with the head
of the queue, the policy picks a victim among the sequences without a structured-output constraint,
and `dequeue` takes the head of the queue that the victim was put back into.

**Helping.** `helpsHigher_iff`: a request of strictly higher priority gets the slot exactly if the
sequence that the policy puts first is below the head of the queue. Neither policy sees to that:
the longest sequence may have any priority, and the lowest one may be structured.
-/

namespace Mlxcel.Batch

open List

namespace PrefillQueue

variable {q q' : PrefillQueue} {seq : SequenceInfo} {p : RequestPriority}

/-- Every sequence waits in the lane of its priority. -/
def Laned (q : PrefillQueue) : Prop := ∀ p, ∀ seq ∈ q.lane p, seq.priority = p

/-- What is taken out next has the highest priority in the queue. -/
lemma Laned.exists_dequeue (hq : q.Laned) (hp : q.peekPriority = some p) :
    ∃ head rest, q.dequeue = some (head, rest) ∧ head ∈ q.all ∧ head.priority = p ∧
      ∀ seq ∈ q.all, seq.priority.rank ≤ p.rank := by
  have hhigh := hq .high
  have hnormal := hq .normal
  have hlow := hq .low
  rcases q with ⟨_ | ⟨x, high⟩, _ | ⟨y, normal⟩, _ | ⟨z, low⟩, m⟩ <;>
    simp_all [peekPriority, dequeue, all, lane, RequestPriority.rank] <;> grind

/-- A sequence of lower priority does not get ahead of the head of the queue. -/
lemma dequeue_enqueue (h : q.enqueue seq = some q') (hp : q.peekPriority = some p)
    (hlt : seq.priority.rank < p.rank) : q'.dequeue.map Prod.fst = q.dequeue.map Prod.fst := by
  unfold enqueue at h
  split_ifs at h
  obtain rfl := Option.some.inj h
  rcases q with ⟨_ | ⟨x, high⟩, _ | ⟨y, normal⟩, _ | ⟨z, low⟩, m⟩ <;>
    cases hseq : seq.priority <;> simp_all [peekPriority, dequeue, setLane, lane] <;>
    exact absurd (hp ▸ hlt) (by decide)

end PrefillQueue

namespace Scheduler

variable (s : Scheduler)

/-- A prefill action makes room in a full batch. -/
structure Preempting : Prop where
  chunked : s.chunked = none
  single : s.prefillsWindow = false
  preempt : s.shouldPreempt = true

/-- The sequence that `try_evict_for_preemption` takes out. -/
def victim : Option SequenceInfo :=
  (selectEvictionVictim s.cfg.preemptionPolicy s.active).bind s.active.get

/-- What `execute_prefill` takes out of the queue after an eviction was waiting before it, and has a
higher priority than the victim. -/
def HelpsHigher : Prop :=
  ∀ victim ∈ s.victim, ∃ head queue,
    s.tryEvictForPreemption.1.queue.dequeue = some (head, queue) ∧ head ∈ s.queue.all ∧
      victim.priority.rank < head.priority.rank

variable {s}

lemma victim_eq_first (hids : s.active.sequenceIds.Nodup) :
    s.victim = s.cfg.preemptionPolicy.first s.active.sequences := by
  rw [victim, selectEvictionVictim_eq]
  cases hfirst : s.cfg.preemptionPolicy.first s.active.sequences with
  | none => rfl
  | some seq =>
    have hmem := (PreemptionPolicy.mem_of_first hfirst).1
    obtain ⟨found, hfound⟩ : ∃ found, s.active.get seq.seqId = some found :=
      Option.isSome_iff_exists.mp (find?_isSome.mpr ⟨seq, hmem, beq_self_eq_true _⟩)
    have hid : found.seqId = seq.seqId := by simpa using find?_some hfound
    obtain rfl := inj_on_of_nodup_map hids (mem_of_find?_eq_some hfound) hmem hid
    exact hfound

/-- **Helping** takes a victim of lower priority than the head of the queue. -/
theorem helpsHigher_iff (hids : s.active.sequenceIds.Nodup) (hq : s.queue.Laned)
    (hs : s.Preempting) :
    s.HelpsHigher ↔ ∀ victim ∈ s.cfg.preemptionPolicy.first s.active.sequences,
      ∀ p ∈ s.queue.peekPriority, victim.priority.rank < p.rank := by
  rw [HelpsHigher, ← victim_eq_first hids]
  refine forall₂_congr fun victim hvictim => ?_
  obtain ⟨id, hselect, hget⟩ := Option.bind_eq_some_iff.mp hvictim
  have hevict : s.tryEvictForPreemption.1.queue = s.queue ∨ ∃ seq, seq.priority = victim.priority ∧
      s.queue.enqueue seq = some s.tryEvictForPreemption.1.queue := by
    simp only [tryEvictForPreemption, hselect, ActiveBatch.remove, hget, Option.map_some]
    exact (requeueVictim_fields _ victim).2.2.2.2.2
  obtain ⟨p, hp⟩ : ∃ p, s.queue.peekPriority = some p := by
    have hpreempt := hs.preempt
    rw [shouldPreempt] at hpreempt
    cases hp : s.queue.peekPriority <;> simp_all
  obtain ⟨head, rest, hhead, hmem, rfl, hle⟩ := hq.exists_dequeue hp
  constructor
  · rintro ⟨next, _, _, hnext, hlt⟩ p' hp'
    obtain rfl := Option.some.inj (hp.symm.trans hp')
    exact hlt.trans_le (hle next hnext)
  · intro h
    have hlt := h _ hp
    have hfst : s.tryEvictForPreemption.1.queue.dequeue.map Prod.fst = some head := by
      rcases hevict with heq | ⟨seq, hseq, henqueue⟩
      · rw [heq, hhead, Option.map_some]
      · rw [PrefillQueue.dequeue_enqueue henqueue hp (hseq ▸ hlt), hhead, Option.map_some]
    obtain ⟨⟨_, queue⟩, hdequeue, rfl⟩ := Option.map_eq_some_iff.mp hfst
    exact ⟨_, queue, hdequeue, hmem, hlt⟩

def arriving (p : RequestPriority) : World :=
  { arrivals := [{ prompt := "ab", maxTokens := 9, priority := p }] }

/-- A request that has decoded, a younger one of low priority, and one that finds the batch full. -/
def contested (first waiting : RequestPriority) : Scheduler :=
  (run { plainConfig with
      maxBatchSize := 2, maxBatchSize_pos := Nat.two_pos, enablePreemption := true }
    [arriving first, {}, arriving .low]).drainIncomingRequests (arriving waiting)

theorem helpsHigher_contested : (contested .low .high).HelpsHigher :=
  (helpsHigher_iff (by decide +kernel) (fun p => by cases p <;> decide +kernel)
    ⟨by decide +kernel, by decide +kernel, by decide +kernel⟩).mpr (by decide +kernel)

/-- The longest sequence is the one of high priority: it makes room for itself. -/
theorem not_helpsHigher :
    (contested .high .normal).Preempting ∧ ¬ (contested .high .normal).HelpsHigher := by
  refine ⟨⟨by decide +kernel, by decide +kernel, by decide +kernel⟩, fun h => ?_⟩
  have hvictim : (contested .high .normal).victim.map (·.priority) = some .high := by decide +kernel
  obtain ⟨victim, hmem, hvictim⟩ := Option.map_eq_some_iff.mp hvictim
  obtain ⟨head, _, _, hhead, hlt⟩ := h victim hmem
  rw [hvictim] at hlt
  exact absurd (hlt.trans_le (by cases head.priority <;> decide)) (lt_irrefl _)

end Scheduler

end Mlxcel.Batch
