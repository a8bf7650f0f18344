import Mathlib.Algebra.BigOperators.Group.Finset.Basic
import Mathlib.Algebra.Order.BigOperators.Group.Finset
import Mlxcel.Pipeline.Schedule

/-!
# The schedule runs to its end

An honest executor reports each forward and each flush that it was handed once, in any order. Its
events about one micro-batch are then read off one `script`: a stage is handed out and reported
before the next one is received and handed out, and the flush comes last. The schedule queues what
the script asks of it at once, so it only waits for reports.

* `Scripted` — the events of a micro-batch and its queued actions are the script up to a report;
* **`completes_of_honest`** — every run follows the scripts, ends them all before `Done`, is of
  bounded length and is never idle with nothing to report.
-/

namespace Mlxcel.Pipeline

open GPipeSchedule List

/-- The micro-batch of an action. -/
def ScheduleAction.microBatch? : ScheduleAction → Option ℕ
  | .forward _ mb | .receive _ mb | .flush mb => some mb
  | .idle | .done => none

def Event.microBatch? : Event → Option ℕ
  | .emitted action => action.microBatch?
  | .forwarded _ mb | .flushed mb => some mb

/-- What a history shows of a micro-batch. -/
def eventsOf (mb : ℕ) (t : List Event) : List Event := t.filter fun e => e.microBatch? = some mb

/-- A history with the queued actions as the events that they will be. -/
def GPipeSchedule.foreseen (s : GPipeSchedule) (t : List Event) : List Event :=
  t ++ s.actionQueue.map .emitted

lemma GPipeSchedule.foreseen_of_nil {s : GPipeSchedule} {t : List Event}
    (h : s.actionQueue = []) : s.foreseen t = t := by
  rw [foreseen, h, map_nil, append_nil]

/-- One stage of a micro-batch: received from the one before, handed out, reported. -/
def stageScript (mb stage : ℕ) : List Event :=
  (if stage = 0 then [] else [.emitted (.receive stage mb)]) ++
    [.emitted (.forward stage mb), .forwarded stage mb]

/-- All events of a micro-batch in their order. -/
def script (stages mb : ℕ) : List Event :=
  (range stages).flatMap (stageScript mb) ++ [.emitted (.flush mb), .flushed mb]

/-- The report that an executor owes for an action. -/
def ScheduleAction.report? : ScheduleAction → Option Event
  | .forward stage mb => some (.forwarded stage mb)
  | .flush mb => some (.flushed mb)
  | _ => none

/-- The reports of an honest executor: of what it was handed, and once. -/
def honest (_ : GPipeSchedule) (t : List Event) (r : Event) : Prop :=
  r ∉ t ∧ ∃ x, x.report? = some r ∧ .emitted x ∈ t

/-- All that was handed out has been reported. -/
def AllReported (t : List Event) : Prop :=
  ∀ x r, .emitted x ∈ t → x.report? = some r → r ∈ t

/-- **The step completes exactly.** -/
structure Completes (start : GPipeSchedule) (t : List Event) (s : GPipeSchedule) : Prop where
  /-- Each micro-batch follows its script, and none of its events occurs twice. -/
  follows : ∀ mb < start.numMicroBatches,
    eventsOf mb t <+: script start.config.numStages mb
  once : ∀ mb < start.numMicroBatches, (eventsOf mb t).Nodup
  /-- `Done` is returned when all scripts are at their end. -/
  done : ∀ t', t = t' ++ [.emitted .done] → ∀ mb < start.numMicroBatches,
    eventsOf mb t' = script start.config.numStages mb
  /-- There are finitely many events besides `Idle` and `Done`, all of them in the scripts. -/
  bounded : (t.filter fun e => e ≠ .emitted .idle ∧ e ≠ .emitted .done).length ≤
    start.numMicroBatches * (3 * start.config.numStages + 2)
  /-- The schedule is idle only while a report is due. -/
  progress : AllReported t → s.nextAction.1 ≠ .idle

@[simp] lemma eventsOf_append {mb : ℕ} {t t' : List Event} :
    eventsOf mb (t ++ t') = eventsOf mb t ++ eventsOf mb t' := filter_append _ _

lemma eventsOf_of_forall {mb mb' : ℕ} {t : List Event}
    (h : ∀ e ∈ t, e.microBatch? = some mb) : eventsOf mb' t = if mb' = mb then t else [] := by
  split_ifs with heq
  · exact filter_eq_self.mpr fun e he => by simp [h e he, heq]
  · exact filter_eq_nil_iff.mpr fun e he => by simp [h e he, Ne.symm heq]

/-! ## Scripts -/

section Script

variable {stages stage mb : ℕ}

/-- The script before a stage is handed out. -/
def scriptBefore (mb stage : ℕ) : List Event :=
  (range stage).flatMap (stageScript mb) ++
    if stage = 0 then [] else [.emitted (.receive stage mb)]

/-- The script behind a stage. -/
def scriptBehind (stages mb stage : ℕ) : List Event :=
  (range' (stage + 1) (stages - (stage + 1))).flatMap (stageScript mb) ++
    [.emitted (.flush mb), .flushed mb]

lemma script_eq (h : stage < stages) : script stages mb = scriptBefore mb stage ++
    .emitted (.forward stage mb) :: .forwarded stage mb :: scriptBehind stages mb stage := by
  have hsplit : range stages = range stage ++ stage :: range' (stage + 1) (stages - (stage + 1)) := by
    have happend := @range'_append_1 0 stage (stages - stage)
    have hfirst : stages - stage = stages - (stage + 1) + 1 := by omega
    rw [zero_add, Nat.add_sub_cancel' h.le, hfirst, range'_succ] at happend
    rw [range_eq_range', range_eq_range', happend]
  rw [script, hsplit, scriptBefore, scriptBehind]
  simp [stageScript]

lemma scriptBehind_of_lt (h : stage + 1 < stages) : scriptBehind stages mb stage =
    [.receive (stage + 1) mb, .forward (stage + 1) mb].map .emitted ++
      .forwarded (stage + 1) mb :: scriptBehind stages mb (stage + 1) := by
  have hnext : stages - (stage + 1) = stages - (stage + 1 + 1) + 1 := by omega
  rw [scriptBehind, hnext, range'_succ, scriptBehind]
  simp [stageScript]

lemma scriptBehind_of_le (h : stages ≤ stage + 1) :
    scriptBehind stages mb stage = [.flush mb].map .emitted ++ [.flushed mb] := by
  rw [scriptBehind, Nat.sub_eq_zero_of_le h]
  rfl

lemma nodup_script : (script stages mb).Nodup := by
  rw [script, nodup_append, nodup_flatMap]
  refine ⟨⟨fun stage _ => ?_, pairwise_lt_range.imp fun {stage stage'} hlt => ?_⟩, by simp, ?_⟩
  · rw [stageScript]
    split_ifs <;> simp
  · rw [Function.onFun, disjoint_left]
    simp only [stageScript]
    grind
  · simp only [stageScript, mem_flatMap, mem_range]
    grind

lemma microBatch?_of_mem_script {e : Event} (h : e ∈ script stages mb) :
    e.microBatch? = some mb := by
  simp only [script, stageScript, mem_append, mem_flatMap, mem_range] at h
  grind [Event.microBatch?, ScheduleAction.microBatch?]

lemma lt_of_mem_script (h : .emitted (.forward stage mb) ∈ script stages mb) : stage < stages := by
  simp only [script, stageScript, mem_append, mem_flatMap, mem_range] at h
  grind

lemma length_script_le : (script stages mb).length ≤ 3 * stages + 2 := by
  have hstage : ∀ stage, (stageScript mb stage).length ≤ 3 := by
    intro stage
    rw [stageScript]
    split_ifs <;> simp
  rw [script, length_append]
  refine Nat.add_le_add_right ?_ 2
  induction stages with
  | zero => rfl
  | succ stages ih =>
    rw [range_succ, flatMap_append, length_append, flatMap_singleton]
    have := hstage stages
    omega

end Script

/-- A list that reaches a report's action, but not the report, stops between them. -/
lemma eq_of_isPrefix {α : Type} {p A B : List α} {e r : α} (h : p <+: A ++ e :: r :: B)
    (he : e ∈ p) (heA : e ∉ A) (hr : r ∉ p) : p = A ++ [e] := by
  obtain ⟨q, hq⟩ := h
  rcases append_eq_append_iff.mp hq with ⟨a, rfl, -⟩ | ⟨c, rfl, hc⟩
  · exact absurd (mem_append_left _ he) heA
  · rcases c with _ | ⟨d, _ | ⟨d', c⟩⟩
    · exact absurd (by simpa using he) heA
    · rw [(cons.inj hc).1]
    · have hd' : r = d' := (cons.inj (cons.inj hc).2).1
      rw [hd'] at hr
      simp at hr

/-! ## Runs -/

section Run

variable {start s : GPipeSchedule} {t : List Event}

/-- What an honest run keeps, once the queue has been filled: each micro-batch has followed its
script, with its queued actions as the next events, up to a report or the end. -/
structure Scripted (start : GPipeSchedule) (t : List Event) (s : GPipeSchedule) : Prop where
  begun : s.initialActionsGenerated = true
  config : s.config = start.config
  size : s.numMicroBatches = start.numMicroBatches
  queued : ∀ a ∈ s.actionQueue, ∃ mb < start.numMicroBatches, a.microBatch? = some mb
  events : ∀ e ∈ t, (∃ mb < start.numMicroBatches, e.microBatch? = some mb) ∨
    e = .emitted .idle ∨ e = .emitted .done
  script : ∀ mb < start.numMicroBatches, ∃ rest, eventsOf mb (s.foreseen t) ++ rest =
    Pipeline.script start.config.numStages mb ∧
      ∀ r ∈ rest.head?, ∃ x, x.report? = some r ∧ .emitted x ∈ s.foreseen t
  flushed : ∀ mb, mb ∈ s.flushed ↔ mb < start.numMicroBatches ∧ .flushed mb ∈ t

lemma scripted_start (config : PipelineConfig) (n : ℕ) :
    Scripted { config, numMicroBatches := n } []
      (GPipeSchedule.begun { config, numMicroBatches := n }) := by
  refine ⟨rfl, rfl, rfl, ?_, by simp, ?_, by simp [GPipeSchedule.begun, generateInitialActions]⟩
  · intro a ha
    obtain ⟨mb, hmb, rfl⟩ := mem_map.mp ha
    exact ⟨mb, mem_range.mp hmb, rfl⟩
  · intro mb hmb
    have hone : (range n).filter (· = mb) = [mb] := by
      rw [filter_eq, count_eq_one_of_mem nodup_range (mem_range.mpr hmb), replicate_one]
    have hfirst : eventsOf mb ((GPipeSchedule.begun { config, numMicroBatches := n }).foreseen []) =
        [.emitted (.forward 0 mb)] := by
      simp [eventsOf, foreseen, GPipeSchedule.begun, generateInitialActions, filter_map,
        Function.comp_def, Event.microBatch?, ScheduleAction.microBatch?, hone]
    have hpos := Nat.lt_of_lt_of_le Nat.two_pos config.two_le
    rw [script_eq hpos, hfirst]
    exact ⟨_, rfl, fun r hr => ⟨.forward 0 mb, hr, mem_of_mem_filter (hfirst ▸ mem_cons_self)⟩⟩

lemma Scripted.next (h : Scripted start t s) :
    Scripted start (t ++ [.emitted s.nextAction.1]) s.nextAction.2 := by
  have hlonger : ∀ action mb, mb ∈ s.flushed ↔
      mb < start.numMicroBatches ∧ .flushed mb ∈ t ++ [.emitted action] := by
    intro action mb
    rw [h.flushed]
    simp
  rw [nextAction, show s.begun = s from if_pos h.begun]
  cases hqueue : s.actionQueue with
  | nil =>
    have hscript := h.script
    simp only [foreseen_of_nil hqueue] at hscript
    refine ⟨h.begun, h.config, h.size, h.queued, forall_mem_append.mpr ⟨h.events, ?_⟩, ?_, hlonger _⟩
    · rw [forall_mem_singleton]
      split_ifs <;> simp
    · intro mb hmb
      obtain ⟨rest, hrest, hhead⟩ := hscript mb hmb
      rw [foreseen_of_nil hqueue, eventsOf_append]
      refine ⟨rest, ?_, fun r hr => ?_⟩
      · rw [← hrest]
        dsimp only
        split_ifs <;> rw [show eventsOf mb [_] = [] from rfl, append_nil]
      · obtain ⟨x, hreport, hx⟩ := hhead r hr
        exact ⟨x, hreport, mem_append_left _ hx⟩
  | cons a rest =>
    have hqueued := h.queued
    rw [hqueue, forall_mem_cons] at hqueued
    -- the event takes the place of the queued action
    have hmoved : s.foreseen t =
        foreseen { s with actionQueue := rest } (t ++ [.emitted a]) := by
      simp [foreseen, hqueue]
    refine ⟨h.begun, h.config, h.size, hqueued.2, forall_mem_append.mpr ⟨h.events, ?_⟩,
      hmoved ▸ h.script, hlonger _⟩
    exact forall_mem_singleton.mpr (.inl hqueued.1)

/-- A micro-batch waits for the report of an action right behind it, with nothing in the queue. -/
lemma Scripted.waiting (h : Scripted start t s) {mb : ℕ} (hmb : mb < start.numMicroBatches)
    {x : ScheduleAction} {r : Event} {A B : List Event}
    (hscript : Pipeline.script start.config.numStages mb = A ++ .emitted x :: r :: B)
    (hx : .emitted x ∈ t) (hr : r ∉ t) (hreport : ∀ a, r ≠ .emitted a) :
    eventsOf mb t = A ++ [.emitted x] ∧ eventsOf mb (s.actionQueue.map .emitted) = [] := by
  obtain ⟨rest, hrest, -⟩ := h.script mb hmb
  have hprefix : eventsOf mb (s.foreseen t) <+: A ++ .emitted x :: r :: B := hscript ▸ ⟨rest, hrest⟩
  have hfor : (Event.emitted x).microBatch? = some mb :=
    microBatch?_of_mem_script (hscript ▸ mem_append_right A mem_cons_self)
  have hxmem : .emitted x ∈ eventsOf mb t := mem_filter.mpr ⟨hx, decide_eq_true hfor⟩
  have hxA : .emitted x ∉ A := fun hmem =>
    disjoint_of_nodup_append (hscript ▸ nodup_script) hmem mem_cons_self
  have hrnot : r ∉ eventsOf mb (s.foreseen t) := by
    intro hmem
    rcases mem_append.mp (mem_of_mem_filter hmem) with hmem | hmem
    · exact hr hmem
    · obtain ⟨a, -, ha⟩ := mem_map.mp hmem
      exact hreport a ha.symm
  rw [foreseen, eventsOf_append] at hprefix hrnot
  have hevents := eq_of_isPrefix ((prefix_append _ _).trans hprefix) hxmem hxA
    fun hmem => hrnot (mem_append_left _ hmem)
  have hboth := eq_of_isPrefix hprefix (mem_append_left _ hxmem) hxA hrnot
  rw [hevents] at hboth
  exact ⟨hevents, append_right_eq_self.mp hboth⟩

/-- A report of what was handed out, and the actions that the script has behind it. -/
lemma Scripted.report (h : Scripted start t s) {s' : GPipeSchedule} {mb : ℕ}
    (hmb : mb < start.numMicroBatches) {x : ScheduleAction} {r : Event} {A B : List Event}
    {actions : List ScheduleAction}
    (hscript : Pipeline.script start.config.numStages mb =
      A ++ .emitted x :: r :: (actions.map .emitted ++ B))
    (hx : .emitted x ∈ t) (hr : r ∉ t) (hreport : ∀ a, r ≠ .emitted a)
    (hB : ∀ r' ∈ B.head?, ∃ x' ∈ actions, x'.report? = some r')
    (hsame : s'.initialActionsGenerated = s.initialActionsGenerated ∧ s'.config = s.config ∧
      s'.numMicroBatches = s.numMicroBatches)
    (hqueue : s'.actionQueue = s.actionQueue ++ actions)
    (hflushed : ∀ mb', mb' ∈ s'.flushed ↔ mb' ∈ s.flushed ∨ .flushed mb' = r) :
    Scripted start (t ++ [r]) s' := by
  have hfor : ∀ e ∈ A ++ .emitted x :: r :: (actions.map .emitted ++ B), e.microBatch? = some mb :=
    fun e he => microBatch?_of_mem_script (hscript ▸ he)
  have hrfor : r.microBatch? = some mb := hfor r (by simp)
  have hactions : ∀ e ∈ actions.map Event.emitted, e.microBatch? = some mb := fun e he =>
    hfor e (mem_append_right A (mem_cons_of_mem _ (mem_cons_of_mem _ (mem_append_left B he))))
  refine ⟨hsame.1.trans h.begun, hsame.2.1.trans h.config, hsame.2.2.trans h.size, ?_, ?_, ?_, ?_⟩
  · rw [hqueue]
    exact forall_mem_append.mpr ⟨h.queued, fun a ha => ⟨mb, hmb, hactions _ (mem_map_of_mem ha)⟩⟩
  · exact forall_mem_append.mpr ⟨h.events, forall_mem_singleton.mpr (.inl ⟨mb, hmb, hrfor⟩)⟩
  · intro mb' hmb'
    obtain ⟨rest, hrest, hhead⟩ := h.script mb' hmb'
    rw [foreseen, eventsOf_append] at hrest
    rw [foreseen, hqueue, map_append, eventsOf_append, eventsOf_append, eventsOf_append,
      eventsOf_of_forall (forall_mem_singleton.mpr hrfor),
      eventsOf_of_forall hactions]
    by_cases heq : mb' = mb
    · subst heq
      obtain ⟨hevents, hempty⟩ := h.waiting hmb hscript hx hr hreport
      rw [if_pos rfl, if_pos rfl, hevents, hempty, hscript]
      refine ⟨B, by simp, fun r' hr' => ?_⟩
      obtain ⟨x', hx', hreport'⟩ := hB r' hr'
      exact ⟨x', hreport', by simp [hx']⟩
    · rw [if_neg heq, if_neg heq, append_nil, append_nil]
      refine ⟨rest, hrest, fun r' hr' => ?_⟩
      obtain ⟨x', hreport', hx'⟩ := hhead r' hr'
      refine ⟨x', hreport', ?_⟩
      rcases mem_append.mp hx' with hx' | hx' <;> simp [hx']
  · intro mb'
    rw [hflushed, h.flushed, mem_append, mem_singleton, and_or_left]
    refine or_congr_right ⟨fun heq => ⟨?_, heq⟩, And.right⟩
    rw [← heq] at hrfor
    exact Option.some.inj hrfor ▸ hmb

/-- What an honest executor was handed lies in the script. -/
lemma Scripted.mem_script (h : Scripted start t s) {x : ScheduleAction} {mb : ℕ}
    (hx : .emitted x ∈ t) (hmb : x.microBatch? = some mb) : mb < start.numMicroBatches ∧
      .emitted x ∈ Pipeline.script start.config.numStages mb := by
  have hlt : mb < start.numMicroBatches := by
    rcases h.events _ hx with ⟨mb', hlt, hfor⟩ | hnone | hnone
    · rw [Event.microBatch?, hmb] at hfor
      exact Option.some.inj hfor ▸ hlt
    all_goals
      cases hnone
      cases hmb
  obtain ⟨rest, hrest, -⟩ := h.script mb hlt
  refine ⟨hlt, hrest ▸ mem_append_left _ (mem_filter.mpr ⟨mem_append_left _ hx, ?_⟩)⟩
  exact decide_eq_true hmb

lemma Scripted.forwarded (h : Scripted start t s) {stage mb : ℕ}
    (hmay : honest s t (.forwarded stage mb)) :
    Scripted start (t ++ [.forwarded stage mb]) (s.notifyForwardComplete stage mb) := by
  obtain ⟨hnot, x, hreport, hx⟩ := hmay
  obtain rfl : x = .forward stage mb := by cases x <;> simp_all [ScheduleAction.report?]
  obtain ⟨hmb, hmem⟩ := h.mem_script hx rfl
  have hstage := lt_of_mem_script hmem
  have hscript := @script_eq start.config.numStages stage mb hstage
  have hrange : ¬ (s.config.numStages ≤ stage ∨ s.numMicroBatches ≤ mb) := by
    rw [h.config, h.size]
    omega
  rw [notifyForwardComplete, if_neg hrange, scheduleNextForward]
  split_ifs with hnext <;> rw [h.config] at hnext
  · rw [scriptBehind_of_lt hnext] at hscript
    exact h.report hmb hscript hx hnot (by simp) (by simp [ScheduleAction.report?])
      ⟨rfl, rfl, rfl⟩ rfl (by simp)
  · rw [scriptBehind_of_le (not_lt.mp hnext)] at hscript
    exact h.report hmb hscript hx hnot (by simp) (by simp [ScheduleAction.report?])
      ⟨rfl, rfl, rfl⟩ rfl (by simp)

lemma Scripted.reportFlush (h : Scripted start t s) {mb : ℕ} (hmay : honest s t (.flushed mb)) :
    Scripted start (t ++ [.flushed mb]) (s.notifyFlushComplete mb) := by
  obtain ⟨hnot, x, hreport, hx⟩ := hmay
  obtain rfl : x = .flush mb := by cases x <;> simp_all [ScheduleAction.report?]
  obtain ⟨hmb, -⟩ := h.mem_script hx rfl
  rw [notifyFlushComplete, if_neg (by rw [h.size]; exact not_le.mpr hmb)]
  have hscript : Pipeline.script start.config.numStages mb = _ ++ .emitted (.flush mb) ::
      .flushed mb :: (([] : List ScheduleAction).map .emitted ++ []) := rfl
  refine h.report hmb hscript hx hnot (by simp) (by simp) ⟨rfl, rfl, rfl⟩
    (append_nil _).symm fun mb' => ?_
  rw [Finset.mem_insert, or_comm, Event.flushed.injEq]

/-- Before the first call of `next_action` there is nothing to report, and that call fills the
queue. -/
lemma scripted_of_run {config : PipelineConfig} {n : ℕ}
    (h : Run { config, numMicroBatches := n } honest t s) :
    ∃ s₀, Scripted { config, numMicroBatches := n } t s₀ ∧ s.nextAction = s₀.nextAction ∧
      (t = [] ∨ s = s₀) := by
  induction h with
  | start => exact ⟨_, scripted_start config n, rfl, .inl rfl⟩
  | next _ ih =>
    obtain ⟨s₀, hscripted, hnext, -⟩ := ih
    rw [hnext]
    exact ⟨_, hscripted.next, rfl, .inr rfl⟩
  | forwarded _ hmay ih =>
    obtain ⟨s₀, hscripted, -, rfl | rfl⟩ := ih
    · simp [honest] at hmay
    · exact ⟨_, hscripted.forwarded hmay, rfl, .inr rfl⟩
  | flushed _ hmay ih =>
    obtain ⟨s₀, hscripted, -, rfl | rfl⟩ := ih
    · simp [honest] at hmay
    · exact ⟨_, hscripted.reportFlush hmay, rfl, .inr rfl⟩

/-- A queued action is never `Idle` or `Done`: these come from the completion test. -/
lemma Scripted.nextAction_of_nil (h : Scripted start t s)
    (hnext : s.nextAction.1 = .idle ∨ s.nextAction.1 = .done) : s.actionQueue = [] ∧
      s.nextAction.1 = if s.isComplete then .done else .idle := by
  rw [nextAction, show s.begun = s from if_pos h.begun] at hnext ⊢
  cases hqueue : s.actionQueue with
  | nil => exact ⟨rfl, rfl⟩
  | cons a rest =>
    obtain ⟨mb, -, ha⟩ := h.queued a (hqueue ▸ mem_cons_self)
    rw [hqueue] at hnext
    rcases hnext with rfl | rfl <;> cases ha

lemma Scripted.isComplete_iff (h : Scripted start t s) :
    s.isComplete = true ↔ ∀ mb < start.numMicroBatches, .flushed mb ∈ t := by
  have hsubset : s.flushed ⊆ Finset.range start.numMicroBatches :=
    fun mb hmb => Finset.mem_range.mpr ((h.flushed mb).mp hmb).1
  rw [isComplete, decide_eq_true_eq, h.size]
  constructor
  · intro hcard mb hmb
    have hall : s.flushed = Finset.range start.numMicroBatches :=
      Finset.eq_of_subset_of_card_le hsubset (by rw [hcard, Finset.card_range])
    exact ((h.flushed mb).mp (hall ▸ Finset.mem_range.mpr hmb)).2
  · intro hall
    have hrange : Finset.range start.numMicroBatches ⊆ s.flushed := fun mb hmb =>
      (h.flushed mb).mpr ⟨Finset.mem_range.mp hmb, hall mb (Finset.mem_range.mp hmb)⟩
    rw [hsubset.antisymm hrange, Finset.card_range]

/-- With an empty queue a micro-batch is at the end of its script or waits for a report. -/
lemma Scripted.atEnd_or_waits (h : Scripted start t s) (hqueue : s.actionQueue = []) {mb : ℕ}
    (hmb : mb < start.numMicroBatches) :
    eventsOf mb t = Pipeline.script start.config.numStages mb ∨
      .flushed mb ∉ t ∧ ¬ AllReported t := by
  obtain ⟨rest, hrest, hhead⟩ := h.script mb hmb
  rw [foreseen_of_nil hqueue] at hrest hhead
  have hcoming : ∀ r ∈ rest, r ∉ t := by
    intro r hr ht
    have hfor := microBatch?_of_mem_script (hrest ▸ mem_append_right _ hr)
    exact disjoint_of_nodup_append (hrest ▸ nodup_script)
      (mem_filter.mpr ⟨ht, decide_eq_true hfor⟩) hr
  cases rest with
  | nil => exact .inl (by rwa [append_nil] at hrest)
  | cons r rest =>
    obtain ⟨x, hreport, hx⟩ := hhead r rfl
    have hlast : (r :: rest).getLast? = some (.flushed mb) := by
      simpa [Pipeline.script] using congrArg getLast? hrest
    exact .inr ⟨hcoming _ (mem_of_getLast? hlast),
      fun hall => hcoming r mem_cons_self (hall x r hx hreport)⟩

/-- The events of a history are those of its micro-batches. -/
lemma length_filter_le {n : ℕ} (hevents : ∀ e ∈ t, (∃ mb < n, e.microBatch? = some mb) ∨
    e = .emitted .idle ∨ e = .emitted .done) :
    (t.filter fun e => e ≠ .emitted .idle ∧ e ≠ .emitted .done).length ≤
      ∑ mb ∈ Finset.range n, (eventsOf mb t).length := by
  induction t with
  | nil => exact Nat.zero_le _
  | cons e t ih =>
    rw [forall_mem_cons] at hevents
    have hrest := ih hevents.2
    have hmono : ∀ mb, (eventsOf mb t).length ≤ (eventsOf mb (e :: t)).length :=
      fun mb => ((sublist_cons_self e t).filter _).length_le
    rcases hevents.1 with ⟨mb, hmb, hfor⟩ | hnone
    · have hlt : (eventsOf mb t).length < (eventsOf mb (e :: t)).length := by
        simp [eventsOf, hfor]
      have hsum := Finset.sum_lt_sum (fun mb _ => hmono mb) ⟨mb, Finset.mem_range.mpr hmb, hlt⟩
      refine le_trans ?_ (Nat.succ_le_of_lt (hrest.trans_lt hsum))
      rw [filter_cons]
      split_ifs
      · rfl
      · exact Nat.le_succ _
    · have hsum := hrest.trans (Finset.sum_le_sum fun mb _ => hmono mb)
      rcases hnone with rfl | rfl <;> simpa using hsum

end Run

/-- **Every honest run completes exactly.** -/
theorem completes_of_honest {config : PipelineConfig} {n : ℕ} {start s : GPipeSchedule}
    {t : List Event} (hnew : new config n = .ok start) (hrun : Run start honest t s) :
    Completes start t s := by
  rw [new] at hnew
  split_ifs at hnew
  obtain rfl := Except.ok.inj hnew
  obtain ⟨s₀, h, hnext, -⟩ := scripted_of_run hrun
  have hfollows : ∀ mb < n, eventsOf mb t <+: script config.numStages mb := by
    intro mb hmb
    obtain ⟨rest, hrest, -⟩ := h.script mb hmb
    exact (eventsOf_append ▸ prefix_append _ _).trans ⟨rest, hrest⟩
  refine ⟨hfollows, fun mb hmb => nodup_script.sublist (hfollows mb hmb).sublist, ?_, ?_, ?_⟩
  · rintro t rfl mb hmb
    obtain ⟨s', hrun', hdone⟩ := run_of_append_done hrun
    obtain ⟨s₀, h, hnext, -⟩ := scripted_of_run hrun'
    rw [hnext] at hdone
    obtain ⟨hqueue, hcomplete⟩ := h.nextAction_of_nil (.inr hdone)
    have hall : s₀.isComplete = true := by
      by_contra hnot
      simp [hdone, hnot] at hcomplete
    exact (h.atEnd_or_waits hqueue hmb).resolve_right fun hwaits =>
      hwaits.1 (h.isComplete_iff.mp hall mb hmb)
  · refine (length_filter_le h.events).trans ?_
    have hscript : ∀ mb ∈ Finset.range n, (eventsOf mb t).length ≤ 3 * config.numStages + 2 :=
      fun mb hmb => (hfollows mb (Finset.mem_range.mp hmb)).length_le.trans length_script_le
    simpa using Finset.sum_le_card_nsmul _ _ _ hscript
  · intro hreported hidle
    rw [hnext] at hidle
    obtain ⟨hqueue, hcomplete⟩ := h.nextAction_of_nil (.inl hidle)
    have hall : ∀ mb < n, .flushed mb ∈ t := by
      intro mb hmb
      have hend := (h.atEnd_or_waits hqueue hmb).resolve_right fun hwaits => hwaits.2 hreported
      refine mem_of_mem_filter (p := fun e => e.microBatch? = some mb) ?_
      rw [← eventsOf, hend, script]
      simp
    simp [hidle, h.isComplete_iff.mpr hall] at hcomplete

/-- Two stages and two micro-batches, of which the second is ahead in the first stage and in the
flush, with an idle call before the last report. -/
theorem completes_out_of_order : ∃ t s, t.getLast? = some (.emitted .done) ∧
    .emitted .idle ∈ t ∧ Completes { config := ⟨2, le_rfl, 0⟩, numMicroBatches := 2 } t s := by
  let start : GPipeSchedule := { config := ⟨2, le_rfl, 0⟩, numMicroBatches := 2 }
  have hsecond := @Run.forwarded start honest _ _ (.next (.next .start)) 0 1
    ⟨by decide, .forward 0 1, rfl, by decide⟩
  have hfirst := @Run.forwarded start honest _ _ hsecond.next 0 0
    ⟨by decide, .forward 0 0, rfl, by decide⟩
  have hlast := @Run.forwarded start honest _ _ hfirst.next.next.next 1 0
    ⟨by decide, .forward 1 0, rfl, by decide⟩
  have hboth := @Run.forwarded start honest _ _ hlast 1 1
    ⟨by decide, .forward 1 1, rfl, by decide⟩
  have hflush := @Run.flushed start honest _ _ hboth.next.next 1
    ⟨by decide, .flush 1, rfl, by decide⟩
  have hend := @Run.flushed start honest _ _ hflush.next 0 ⟨by decide, .flush 0, rfl, by decide⟩
  exact ⟨_, _, by decide, by decide,
    completes_of_honest (rfl : new ⟨2, le_rfl, 0⟩ 2 = _) hend.next⟩

end Mlxcel.Pipeline
