import Mathlib.Data.Finset.Card

/-!
# The micro-batch schedule

`GPipeSchedule` hands out the actions of a pipeline step from a queue, which the reports of the
executor fill: a stage that is done queues the next one, the last stage a flush.

**Bad reports.** `notifyFlushComplete` takes the report of any flush, although its comment speaks of
the micro-batches that are ready for it, and `maxInFlight` is never read. A schedule withstands all
other reports if its limit cannot be exceeded (`resists_of_flushesDue`).
-/

namespace Mlxcel.Pipeline

structure PipelineConfig where
  numStages : ℕ
  two_le : 2 ≤ numStages
  maxInFlight : ℕ := 0

inductive ScheduleAction
  | forward (stageIndex microBatchId : ℕ)
  | receive (stageIndex microBatchId : ℕ)
  | flush (microBatchId : ℕ)
  | idle
  | done
deriving DecidableEq

structure GPipeSchedule where
  config : PipelineConfig
  numMicroBatches : ℕ
  readyToFlush : List ℕ := []
  flushed : Finset ℕ := ∅
  actionQueue : List ScheduleAction := []
  initialActionsGenerated : Bool := false

namespace GPipeSchedule

variable (s : GPipeSchedule) (stageIndex microBatchId : ℕ)

def new (config : PipelineConfig) (numMicroBatches : ℕ) : Except String GPipeSchedule :=
  if numMicroBatches = 0 then .error "must have at least 1 micro-batch"
  else .ok { config, numMicroBatches }

def generateInitialActions : GPipeSchedule :=
  { s with
    actionQueue := s.actionQueue ++ (List.range s.numMicroBatches).map (.forward 0)
    initialActionsGenerated := true }

def scheduleNextForward : GPipeSchedule :=
  if stageIndex + 1 < s.config.numStages then
    { s with actionQueue := s.actionQueue ++
      [.receive (stageIndex + 1) microBatchId, .forward (stageIndex + 1) microBatchId] }
  else
    { s with
      readyToFlush := s.readyToFlush ++ [microBatchId]
      actionQueue := s.actionQueue ++ [.flush microBatchId] }

def isComplete : Bool := s.flushed.card = s.numMicroBatches

/-- The first call of `next_action` fills the queue. -/
def begun : GPipeSchedule := if s.initialActionsGenerated then s else s.generateInitialActions

def nextAction : ScheduleAction × GPipeSchedule :=
  match s.begun.actionQueue with
  | action :: rest => (action, { s.begun with actionQueue := rest })
  | [] => (if s.begun.isComplete then .done else .idle, s.begun)

def notifyForwardComplete : GPipeSchedule :=
  if s.config.numStages ≤ stageIndex ∨ s.numMicroBatches ≤ microBatchId then s
  else s.scheduleNextForward stageIndex microBatchId

def notifyFlushComplete : GPipeSchedule :=
  if s.numMicroBatches ≤ microBatchId then s
  else { s with
    readyToFlush := s.readyToFlush.filter (· ≠ microBatchId)
    flushed := insert microBatchId s.flushed }

end GPipeSchedule

open GPipeSchedule Finset

/-- What an executor sees and reports. -/
inductive Event
  | emitted (action : ScheduleAction)
  | forwarded (stageIndex microBatchId : ℕ)
  | flushed (microBatchId : ℕ)
deriving DecidableEq

/-- A schedule after the calls that a history shows, oldest first. The reports are arbitrary except
that `may` is asked before each of them. -/
inductive Run (start : GPipeSchedule) (may : GPipeSchedule → List Event → Event → Prop) :
    List Event → GPipeSchedule → Prop
  | start : Run start may [] start
  | next {t s} (h : Run start may t s) : Run start may (t ++ [.emitted s.nextAction.1]) s.nextAction.2
  | forwarded {t s} (h : Run start may t s) {stage mb : ℕ} (hmay : may s t (.forwarded stage mb)) :
      Run start may (t ++ [.forwarded stage mb]) (s.notifyForwardComplete stage mb)
  | flushed {t s} (h : Run start may t s) {mb : ℕ} (hmay : may s t (.flushed mb)) :
      Run start may (t ++ [.flushed mb]) (s.notifyFlushComplete mb)

/-! ## Arbitrary reports -/

/-- The micro-batches that have entered the first stage and whose flush was not reported. -/
def inFlight (n : ℕ) (t : List Event) : Finset ℕ :=
  (Finset.range n).filter fun mb => .emitted (.forward 0 mb) ∈ t ∧ .flushed mb ∉ t

/-- At the end of a history: a `Done` comes after the last stage of every micro-batch was reported,
and the limit is kept. -/
structure Resists (start : GPipeSchedule) (t : List Event) : Prop where
  done : ∀ t', t = t' ++ [.emitted .done] →
    ∀ mb < start.numMicroBatches, .forwarded (start.config.numStages - 1) mb ∈ t'
  limit : start.config.maxInFlight ≠ 0 →
    (inFlight start.numMicroBatches t).card ≤ start.config.maxInFlight

/-- Every report is let through, but the first flush of a micro-batch only when it is due. -/
def flushesDue (s : GPipeSchedule) (_ : List Event) : Event → Prop
  | .flushed mb => mb ∈ s.readyToFlush ∨ mb ∈ s.flushed ∨ s.numMicroBatches ≤ mb
  | _ => True

/-- What every run keeps whose flushes are due. -/
structure Sound (start : GPipeSchedule) (t : List Event) (s : GPipeSchedule) : Prop where
  config : s.config = start.config
  size : s.numMicroBatches = start.numMicroBatches
  queue : .done ∉ s.actionQueue
  ready : ∀ mb ∈ s.readyToFlush, .forwarded (start.config.numStages - 1) mb ∈ t
  flushed : ∀ mb ∈ s.flushed, mb < start.numMicroBatches ∧
    .forwarded (start.config.numStages - 1) mb ∈ t

variable {start s : GPipeSchedule} {t : List Event}

lemma Sound.begun (h : Sound start t s) : Sound start t s.begun := by
  rw [GPipeSchedule.begun]
  split
  · exact h
  · exact { h with queue := by simp [generateInitialActions, h.queue] }

/-- A longer history shows more reports. -/
lemma Sound.longer (h : Sound start t s) (e : Event) : Sound start (t ++ [e]) s :=
  { h with
    ready := fun mb hmb => List.mem_append_left _ (h.ready mb hmb)
    flushed := fun mb hmb => ⟨(h.flushed mb hmb).1, List.mem_append_left _ (h.flushed mb hmb).2⟩ }

lemma Sound.next (h : Sound start t s) :
    Sound start (t ++ [.emitted s.nextAction.1]) s.nextAction.2 := by
  have hlonger := h.begun.longer (.emitted s.nextAction.1)
  rw [nextAction] at hlonger ⊢
  cases hqueue : s.begun.actionQueue with
  | nil =>
    rw [hqueue] at hlonger
    exact hlonger
  | cons action rest =>
    rw [hqueue] at hlonger
    refine { hlonger with queue := fun hdone => h.begun.queue ?_ }
    rw [hqueue]
    exact List.mem_cons_of_mem _ hdone

/-- `Done` never stands in the queue, so it comes from the completion test. -/
lemma Sound.flushed_card (h : Sound start t s) (hdone : s.nextAction.1 = .done) :
    s.begun.flushed.card = start.numMicroBatches := by
  rw [nextAction] at hdone
  cases hqueue : s.begun.actionQueue with
  | nil =>
    rw [hqueue] at hdone
    have hcomplete : s.begun.isComplete = true := by
      by_contra hne
      simp [hne] at hdone
    rw [← h.begun.size]
    simpa [isComplete] using hcomplete
  | cons action rest =>
    rw [hqueue] at hdone
    subst hdone
    exact absurd (hqueue ▸ List.mem_cons_self) h.begun.queue

lemma Sound.forwarded (h : Sound start t s) (stage mb : ℕ) :
    Sound start (t ++ [.forwarded stage mb]) (s.notifyForwardComplete stage mb) := by
  have hlonger := h.longer (.forwarded stage mb)
  rw [notifyForwardComplete]
  split_ifs with hrange
  · exact hlonger
  rw [scheduleNextForward]
  split_ifs with hstage
  · exact { hlonger with queue := by simp [h.queue] }
  · refine { hlonger with queue := by simp [h.queue], ready := fun mb' hmb' => ?_ }
    rcases List.mem_append.mp hmb' with hmb' | hmb'
    · exact hlonger.ready mb' hmb'
    · rw [List.mem_singleton.mp hmb']
      have hlast : stage = start.config.numStages - 1 := by
        rw [← h.config]
        omega
      rw [← hlast]
      exact List.mem_append_right _ List.mem_cons_self

lemma Sound.reportFlush (h : Sound start t s) {mb : ℕ} (hmay : flushesDue s t (.flushed mb)) :
    Sound start (t ++ [.flushed mb]) (s.notifyFlushComplete mb) := by
  have hlonger := h.longer (.flushed mb)
  rw [notifyFlushComplete]
  split_ifs with hrange
  · exact hlonger
  refine { hlonger with ready := fun mb' hmb' => ?_, flushed := fun mb' hmb' => ?_ }
  · exact hlonger.ready mb' (List.mem_filter.mp hmb').1
  · rcases mem_insert.mp hmb' with rfl | hmb'
    · rcases hmay with hdue | hagain | hout
      · exact ⟨h.size ▸ not_le.mp hrange, hlonger.ready mb' hdue⟩
      · exact hlonger.flushed mb' hagain
      · exact absurd hout hrange
    · exact hlonger.flushed mb' hmb'

lemma sound_of_run (hnew : start.actionQueue = [] ∧ start.readyToFlush = [] ∧ start.flushed = ∅)
    (h : Run start flushesDue t s) : Sound start t s := by
  induction h with
  | start => exact ⟨rfl, rfl, by simp [hnew], by simp [hnew], by simp [hnew]⟩
  | next _ ih => exact ih.next
  | forwarded _ _ ih => exact ih.forwarded _ _
  | flushed _ hmay ih => exact ih.reportFlush hmay

lemma run_of_append_done {may} (h : Run start may (t ++ [.emitted .done]) s) :
    ∃ s', Run start may t s' ∧ s'.nextAction.1 = .done := by
  generalize ht : t ++ [.emitted .done] = t' at h
  cases h with
  | start => simp at ht
  | next h =>
    obtain ⟨rfl, he⟩ := List.append_inj' ht rfl
    exact ⟨_, h, by simpa using he.symm⟩
  | forwarded h _ | flushed h _ => simpa using (List.append_inj' ht rfl).2

/-- **Bad reports** do no harm if flushes are only reported when they are due and there are not more
micro-batches than may be in flight. -/
theorem resists_of_flushesDue {config : PipelineConfig} {n : ℕ} (hnew : new config n = .ok start)
    (hlimit : config.maxInFlight = 0 ∨ n ≤ config.maxInFlight) (hrun : Run start flushesDue t s) :
    Resists start t := by
  rw [new] at hnew
  split_ifs at hnew
  obtain rfl := Except.ok.inj hnew
  refine ⟨?_, fun hne => ?_⟩
  · rintro t rfl mb hmb
    obtain ⟨s', hrun', hdone⟩ := run_of_append_done hrun
    have hsound := sound_of_run ⟨rfl, rfl, rfl⟩ hrun'
    have hall : s'.begun.flushed = .range n :=
      eq_of_subset_of_card_le (fun mb hmb => mem_range.mpr
        (hsound.begun.flushed mb hmb).1) (by rw [hsound.flushed_card hdone, card_range])
    exact (hsound.begun.flushed mb (by simpa [hall] using hmb)).2
  · refine (card_filter_le _ _).trans ?_
    rw [card_range]
    exact hlimit.resolve_left hne

/-- Two stages and two micro-batches, with reports about a stage and a micro-batch that there are
not, and of last stages that have not begun. -/
def badReports : List Event :=
  [.forwarded 5 0, .forwarded 0 7, .emitted (.forward 0 0), .forwarded 1 1, .flushed 1,
    .emitted (.forward 0 1), .forwarded 1 0, .emitted (.flush 1), .flushed 0, .emitted (.flush 0),
    .emitted .done]

theorem resists_badReports :
    Resists { config := ⟨2, le_rfl, 2⟩, numMicroBatches := 2 } badReports := by
  let start : GPipeSchedule := { config := ⟨2, le_rfl, 2⟩, numMicroBatches := 2 }
  have hbegun : Run start flushesDue (badReports.take 3)
      { start with actionQueue := [.forward 0 1], initialActionsGenerated := true } :=
    .next (@Run.forwarded _ _ _ _ (@Run.forwarded _ _ _ _ .start 5 0 trivial) 0 7 trivial)
  have hfirst : Run start flushesDue (badReports.take 6)
      { start with
        actionQueue := [.flush 1], flushed := {1}, initialActionsGenerated := true } :=
    (@Run.flushed _ _ _ _ (@Run.forwarded _ _ _ _ hbegun 1 1 trivial) 1 (.inl (by decide))).next
  have hsecond : Run start flushesDue (badReports.take 10)
      { start with actionQueue := [], flushed := {0, 1}, initialActionsGenerated := true } :=
    (@Run.flushed _ _ _ _ (@Run.forwarded _ _ _ _ hfirst 1 0 trivial).next 0
      (.inl (by decide))).next
  exact resists_of_flushesDue (rfl : new ⟨2, le_rfl, 2⟩ 2 = _) (.inr le_rfl) hsecond.next

/-- Two stages and one micro-batch, of which at most one may be in flight. -/
def oneMicroBatch : GPipeSchedule := { config := ⟨2, le_rfl, 1⟩, numMicroBatches := 1 }

/-- A flush that was never due ends the step, and two micro-batches are in flight where one may. -/
theorem not_resists :
    (∃ t s, Run oneMicroBatch (fun _ _ _ => True) t s ∧ ¬ Resists oneMicroBatch t) ∧
    ∃ t s, Run { oneMicroBatch with numMicroBatches := 2 } (fun _ _ _ => True) t s ∧
      ¬ Resists { oneMicroBatch with numMicroBatches := 2 } t := by
  refine ⟨⟨_, _, .next (.next (@.flushed _ _ _ _ .start 0 trivial)), fun h => ?_⟩,
    _, _, .next (.next .start), fun h => ?_⟩
  · exact absurd (h.done [.flushed 0, .emitted (.forward 0 0)] rfl 0 Nat.one_pos) (by simp)
  · exact absurd (h.limit one_ne_zero) (by decide)

end Mlxcel.Pipeline
