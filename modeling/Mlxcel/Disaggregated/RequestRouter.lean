import Mlxcel.Lib.AssocMap

/-!
# The request router of disaggregated serving

The router keeps the phase of every request between the prefill and the decode nodes. Each call holds
the lock of the request map while it changes it, so a run is a list of calls. What a call learns from
the node registry, the load of the nodes, the clock and the order of a hash map is its `Cluster`; the
results hold whatever that is.

* `EndsOnce` — a request that has ended stays in its last phase, and no request is counted twice;
* `DecodesLive` — `route_to_decode` is not called for a request that has ended;
* **`endsOnce_iff`** — the first holds of a run exactly if the second does.

`route_to_decode` is the one call that does not look at the phase.
-/

namespace Mlxcel.Disaggregated

open List AssocMap

inductive RequestPhase
  | queued
  | prefilling (nodeId : String)
  | transferringCache (fromNode toNode : String)
  | decoding (nodeId : String)
  | completed
  | failed (reason : String)
  deriving DecidableEq

namespace RequestPhase

def isTerminal : RequestPhase → Bool
  | completed | failed _ => true
  | _ => false

/-- The phase depends on a node. -/
def isOn (node : String) : RequestPhase → Bool
  | prefilling nodeId => nodeId = node
  | transferringCache fromNode toNode => fromNode = node || toNode = node
  | decoding nodeId => nodeId = node
  | _ => false

end RequestPhase

structure TrackedRequest where
  phase : RequestPhase := .queued
  prefillNode : Option String := none
  decodeNode : Option String := none
  retryCount : ℕ := 0

/-- What a call learns from outside. -/
structure Cluster where
  /-- Some prefill node is online and not critical. -/
  anyAvailable : Bool := true
  selectPrefillNode : Except String String := .ok "prefill"
  selectDecodeNode : Except String String := .ok "decode"
  prefillCandidates : List String := []
  decodeCandidates : List String := []
  /-- The request is younger than the age of a purge. -/
  recent : String → Bool := fun _ => true
  /-- The order in which the request map is walked. -/
  order : List String → List String := id

structure RouterConfig where
  prefillQueueCapacity : ℕ := 256
  maxTrackedRequests : ℕ := 10000

structure RequestRouter where
  config : RouterConfig := {}
  requests : AList fun _ : String => TrackedRequest := ∅
  totalCompleted : ℕ := 0
  totalFailed : ℕ := 0
  /-- Not in the source: what was added to the two totals, the last one first. -/
  ended : List (String × RequestPhase) := []

namespace RequestRouter

section Calls

variable (c : Cluster) (r : RequestRouter) (id : String)

/-- A request is stored, and counted if this ends it. -/
def record (request : TrackedRequest) : RequestRouter :=
  let r := { r with requests := r.requests.insert id request }
  match request.phase with
  | .completed =>
    { r with totalCompleted := r.totalCompleted + 1, ended := (id, request.phase) :: r.ended }
  | .failed _ =>
    { r with totalFailed := r.totalFailed + 1, ended := (id, request.phase) :: r.ended }
  | _ => r

/-- Requests that have ended go, unless they are recent. -/
def purgeTerminal : RequestRouter :=
  { r with requests := ⟨r.requests.entries.filter fun e => !e.2.phase.isTerminal || c.recent e.1,
    r.requests.nodupKeys.sublist filter_sublist⟩ }

def maybeAutoPurge : RequestRouter :=
  if r.config.maxTrackedRequests = 0 ∨
      r.requests.entries.length ≤ r.config.maxTrackedRequests then r
  else r.purgeTerminal c

def routeToPrefill : Except String String × RequestRouter :=
  if r.config.prefillQueueCapacity ≤ r.requests.entries.countP fun e => e.2.phase = .queued then
    (.error "request rejected: prefill queue at capacity", r)
  else if !c.anyAvailable then
    (.error "all prefill nodes busy; request queued", (r.record id {}).maybeAutoPurge c)
  else
    match c.selectPrefillNode with
    | .error e => (.error e, r)
    | .ok node => (.ok node, (r.record id
        { phase := .prefilling node, prefillNode := some node }).maybeAutoPurge c)

def routeToDecode : Except String String × RequestRouter :=
  match c.selectDecodeNode with
  | .error e => (.error e, r)
  | .ok node =>
    match r.requests.lookup id with
    | none => (.error ("request " ++ id ++ " not found in router"), r)
    | some request => (.ok node, r.record id { request with
        phase := .transferringCache (request.prefillNode.getD "unknown") node
        decodeNode := some node })

def updatePhase (newPhase : RequestPhase) : Bool × RequestRouter :=
  match r.requests.lookup id with
  | none => (false, r)
  | some request =>
    if request.phase.isTerminal then (false, r)
    else (true, r.record id { request with phase := newPhase })

/-- The router and the counters of the loop of `handle_node_failure`. -/
structure Rerouting where
  router : RequestRouter
  prefillRr : ℕ := 0
  decodeRr : ℕ := 0
  rerouted : ℕ := 0
  failed : ℕ := 0

/-- One request of the loop. The failures are counted here and not behind the loop, which holds the
lock all the time. -/
def reroute (failedNode : String) (st : Rerouting) : Rerouting :=
  let prefill := c.prefillCandidates[st.prefillRr % c.prefillCandidates.length]?
  let decode := c.decodeCandidates[st.decodeRr % c.decodeCandidates.length]?
  match st.router.requests.lookup id with
  | none => st
  | some request =>
    let again (request : TrackedRequest) :=
      st.router.record id { request with retryCount := request.retryCount + 1 }
    match request.phase with
    | .prefilling _ => { st with
        router := again { request with
          phase := prefill.elim .queued .prefilling, prefillNode := prefill <|> request.prefillNode }
        prefillRr := st.prefillRr + prefill.toList.length
        rerouted := st.rerouted + 1 }
    | .transferringCache _ _ => { st with
        router := again { request with
          phase := prefill.elim .queued .prefilling, prefillNode := prefill, decodeNode := none }
        prefillRr := st.prefillRr + prefill.toList.length
        rerouted := st.rerouted + 1 }
    | .decoding _ =>
      match decode with
      | some alt => { st with
          router := again { request with phase := .decoding alt, decodeNode := some alt }
          decodeRr := st.decodeRr + 1
          rerouted := st.rerouted + 1 }
      | none => { st with
          router := st.router.record id { request with
            phase := .failed ("node " ++ failedNode ++ " failed; no alternative decode node") }
          failed := st.failed + 1 }
    | _ => st

def handleNodeFailure (failedNode : String) : (ℕ × ℕ) × RequestRouter :=
  let affected := (c.order r.requests.keys).filter fun id =>
    (r.requests.lookup id).any fun request => request.phase.isOn failedNode
  let st := affected.foldl (fun st id => reroute c id failedNode st) { router := r }
  ((st.rerouted, st.failed), st.router)

end Calls

/-! ## Runs -/

inductive Call
  | routeToPrefill (id : String)
  | routeToDecode (id : String)
  | updatePhase (id : String) (newPhase : RequestPhase)
  | handleNodeFailure (failedNode : String)
  | purgeTerminal

def step (r : RequestRouter) : Cluster × Call → RequestRouter
  | (c, .routeToPrefill id) => (r.routeToPrefill c id).2
  | (c, .routeToDecode id) => (r.routeToDecode c id).2
  | (_, .updatePhase id newPhase) => (r.updatePhase id newPhase).2
  | (c, .handleNodeFailure failedNode) => (r.handleNodeFailure c failedNode).2
  | (c, .purgeTerminal) => r.purgeTerminal c

/-- The router after some calls. -/
def run (config : RouterConfig) (calls : List (Cluster × Call)) : RequestRouter :=
  calls.foldl step { config }

/-- The id that a call brings in. -/
def Call.newId : Call → Option String
  | .routeToPrefill id => some id
  | _ => none

def newIds (calls : List (Cluster × Call)) : List String := calls.filterMap (·.2.newId)

/-- A request that has ended, and is still tracked later, is in the same phase then. -/
def KeepsEnded (r r' : RequestRouter) : Prop :=
  ∀ id request request', r.requests.lookup id = some request → request.phase.isTerminal = true →
    r'.requests.lookup id = some request' → request'.phase = request.phase

/-- **Requests end once**: from any point of the run to any later one those that have ended keep
their phase, and no request is counted twice. -/
structure EndsOnce (config : RouterConfig) (calls : List (Cluster × Call)) : Prop where
  keepsEnded : ∀ {earlier later rest}, calls = earlier ++ later ++ rest →
    KeepsEnded (run config earlier) (run config (earlier ++ later))
  counted_once : ((run config calls).ended.map Prod.fst).Nodup
  totals_eq : (run config calls).totalCompleted + (run config calls).totalFailed =
    (run config calls).ended.length

/-- **No decode routing after the end**: if a decode node can be had, the request of a
`route_to_decode` has not ended before the call. -/
def Live (r : RequestRouter) : Cluster × Call → Prop
  | (c, .routeToDecode id) => c.selectDecodeNode.toOption.isSome →
    ∀ request ∈ r.requests.lookup id, request.phase.isTerminal = false
  | _ => True

/-- Every call of a run meets the condition in the state before it. -/
def DecodesLive : RequestRouter → List (Cluster × Call) → Prop
  | _, [] => True
  | r, call :: calls => r.Live call ∧ DecodesLive (r.step call) calls

/-! ## What a call changes -/

section Record

variable {used : List String} {r : RequestRouter} {id : String} {request : TrackedRequest}

@[simp] lemma requests_record : (r.record id request).requests = r.requests.insert id request := by
  rw [record]
  split <;> rfl

lemma ended_record : (r.record id request).ended =
    if request.phase.isTerminal then (id, request.phase) :: r.ended else r.ended := by
  rw [record]
  split <;> simp_all [RequestPhase.isTerminal]

lemma totals_record : (r.record id request).totalCompleted + (r.record id request).totalFailed =
    r.totalCompleted + r.totalFailed + if request.phase.isTerminal then 1 else 0 := by
  rw [record]
  split <;> simp_all [RequestPhase.isTerminal] <;> omega

lemma mem_ended_record {id' : String} {phase : RequestPhase} :
    (id', phase) ∈ (r.record id request).ended ↔
      (id' = id ∧ request.phase = phase ∧ phase.isTerminal = true) ∨ (id', phase) ∈ r.ended := by
  rw [ended_record]
  split_ifs <;> grind

/-- The phases of the tracked requests agree with the list of those that have ended, and all are
among the ids `used` so far. -/
structure Consistent (used : List String) (r : RequestRouter) : Prop where
  tracked_used : ∀ {id request}, r.requests.lookup id = some request → id ∈ used
  ended_used : ∀ {id phase}, (id, phase) ∈ r.ended → id ∈ used
  ended_iff : ∀ {id request phase}, r.requests.lookup id = some request →
    ((id, phase) ∈ r.ended ↔ request.phase = phase ∧ phase.isTerminal = true)
  nodup : (r.ended.map Prod.fst).Nodup
  totals_eq : r.totalCompleted + r.totalFailed = r.ended.length

/-- The state after a call, as the state before it sees it. -/
structure Follows (used : List String) (r r' : RequestRouter) : Prop where
  consistent : Consistent used r'
  ended_suffix : r.ended <:+ r'.ended

lemma Follows.trans {r' r'' : RequestRouter} {used' : List String} (h : Follows used r r')
    (h' : Follows used' r' r'') : Follows used' r r'' :=
  ⟨h'.consistent, h.ended_suffix.trans h'.ended_suffix⟩

/-- A request that has not ended is stored again. -/
lemma Consistent.record (h : Consistent used r) {used' : List String} (hused : used ⊆ used')
    (hid : id ∈ used') (hlive : ∀ phase, (id, phase) ∉ r.ended) (request : TrackedRequest) :
    Follows used' r (r.record id request) := by
  refine ⟨⟨?_, ?_, ?_, ?_, ?_⟩, ?_⟩
  · intro id' request' hlookup
    rw [requests_record] at hlookup
    rcases lookup_insert_eq_some hlookup with ⟨rfl, _⟩ | ⟨_, hold⟩
    · exact hid
    · exact hused (h.tracked_used hold)
  · intro id' phase hended
    rcases mem_ended_record.mp hended with ⟨rfl, _⟩ | hold
    · exact hid
    · exact hused (h.ended_used hold)
  · intro id' request' phase hlookup
    rw [requests_record] at hlookup
    rw [mem_ended_record]
    rcases lookup_insert_eq_some hlookup with ⟨rfl, rfl⟩ | ⟨hne, hold⟩
    · simp [hlive]
    · simp [hne, h.ended_iff hold]
  · rw [ended_record]
    split_ifs
    · refine nodup_cons.mpr ⟨fun hmem => ?_, h.nodup⟩
      obtain ⟨⟨id', phase⟩, hended, rfl⟩ := mem_map.mp hmem
      exact hlive phase hended
    · exact h.nodup
  · rw [totals_record, h.totals_eq, ended_record]
    split_ifs <;> rfl
  · rw [ended_record]
    split_ifs
    · exact suffix_cons _ _
    · exact suffix_rfl

lemma Consistent.refl_follows (h : Consistent used r) : Follows used r r := ⟨h, suffix_rfl⟩

lemma Consistent.record_live (h : Consistent used r) {old : TrackedRequest}
    (hlookup : r.requests.lookup id = some old) (hold : old.phase.isTerminal = false)
    (request : TrackedRequest) : Follows used r (r.record id request) := by
  refine h.record (Subset.refl _) (h.tracked_used hlookup) (fun phase hended => ?_) request
  obtain ⟨rfl, hterminal⟩ := (h.ended_iff hlookup).mp hended
  rw [hold] at hterminal
  cases hterminal

lemma Consistent.purgeTerminal (h : Consistent used r) (c : Cluster) :
    Follows used r (r.purgeTerminal c) := by
  have hlookup : ∀ {id request}, (r.purgeTerminal c).requests.lookup id = some request →
      r.requests.lookup id = some request := by
    intro id request hfound
    have hmem := AList.mem_lookup_iff.mp hfound
    exact AList.mem_lookup_iff.mpr (mem_of_mem_filter hmem)
  exact ⟨⟨fun hfound => h.tracked_used (hlookup hfound), h.ended_used,
    fun hfound => h.ended_iff (hlookup hfound), h.nodup, h.totals_eq⟩, suffix_rfl⟩

lemma Consistent.maybeAutoPurge (h : Consistent used r) (c : Cluster) :
    Follows used r (r.maybeAutoPurge c) := by
  rw [RequestRouter.maybeAutoPurge]
  split_ifs
  · exact h.refl_follows
  · exact h.purgeTerminal c

end Record

/-! ## The calls -/

section Step

variable {used : List String} {r : RequestRouter}

lemma Consistent.mono (h : Consistent used r) {used' : List String} (hused : used ⊆ used') :
    Consistent used' r :=
  ⟨fun hfound => hused (h.tracked_used hfound), fun hended => hused (h.ended_used hended),
    h.ended_iff, h.nodup, h.totals_eq⟩

lemma Consistent.routeToPrefill (h : Consistent used r) {id : String} (hfresh : id ∉ used)
    (c : Cluster) : Follows (used ++ [id]) r (r.routeToPrefill c id).2 := by
  have hsame : Follows (used ++ [id]) r r := ⟨h.mono (subset_append_left _ _), suffix_rfl⟩
  have hnew : ∀ request, Follows (used ++ [id]) r ((r.record id request).maybeAutoPurge c) := by
    intro request
    have hrecord : Follows (used ++ [id]) r (r.record id request) :=
      h.record (subset_append_left _ _) (by simp) (fun phase hended => hfresh (h.ended_used hended))
        request
    exact hrecord.trans (hrecord.consistent.maybeAutoPurge c)
  rw [RequestRouter.routeToPrefill]
  split_ifs
  · exact hsame
  · exact hnew _
  · cases c.selectPrefillNode with
    | error e => exact hsame
    | ok node => exact hnew _

lemma Consistent.routeToDecode (h : Consistent used r) {c : Cluster} {id : String}
    (hlive : r.Live (c, .routeToDecode id)) : Follows used r (r.routeToDecode c id).2 := by
  rw [RequestRouter.routeToDecode]
  cases hnode : c.selectDecodeNode with
  | error e => exact h.refl_follows
  | ok node =>
    cases hlookup : r.requests.lookup id with
    | none => exact h.refl_follows
    | some request =>
      have hsome : c.selectDecodeNode.toOption.isSome := by
        rw [hnode]
        rfl
      dsimp only
      exact h.record_live hlookup (hlive hsome request hlookup) _

lemma Consistent.updatePhase (h : Consistent used r) (id : String) (newPhase : RequestPhase) :
    Follows used r (r.updatePhase id newPhase).2 := by
  rw [RequestRouter.updatePhase]
  cases hlookup : r.requests.lookup id with
  | none => exact h.refl_follows
  | some request =>
    dsimp only
    split_ifs with hterminal
    · exact h.refl_follows
    · exact h.record_live hlookup (Bool.eq_false_iff.mpr hterminal) _

/-- The loop of `handle_node_failure` stores requests that are on the way only. -/
lemma Consistent.reroute {st : Rerouting} (h : Consistent used st.router) (c : Cluster)
    (id failedNode : String) :
    Follows used st.router (RequestRouter.reroute c id failedNode st).router := by
  rw [RequestRouter.reroute]
  cases hlookup : st.router.requests.lookup id with
  | none => exact h.refl_follows
  | some request =>
    dsimp only
    split
    next hphase => exact h.record_live hlookup (by rw [hphase]; rfl) _
    next hphase => exact h.record_live hlookup (by rw [hphase]; rfl) _
    next hphase =>
      have hlive : request.phase.isTerminal = false := by rw [hphase]; rfl
      split
      all_goals
        dsimp only
        exact h.record_live hlookup hlive _
    next => exact h.refl_follows

lemma Consistent.handleNodeFailure (h : Consistent used r) (c : Cluster) (failedNode : String) :
    Follows used r (r.handleNodeFailure c failedNode).2 := by
  have hloop : ∀ (ids : List String) (st : Rerouting), Consistent used st.router →
      Follows used st.router
        (ids.foldl (fun st id => RequestRouter.reroute c id failedNode st) st).router := by
    intro ids
    induction ids with
    | nil => exact fun st hst => hst.refl_follows
    | cons id ids ih =>
      intro st hst
      have hfirst := hst.reroute c id failedNode
      exact hfirst.trans (ih _ hfirst.consistent)
  exact hloop _ { router := r } h

lemma Consistent.step (h : Consistent used r) {call : Cluster × Call} (hlive : r.Live call)
    (hfresh : ∀ id ∈ call.2.newId, id ∉ used) :
    Follows (used ++ call.2.newId.toList) r (r.step call) := by
  obtain ⟨c, call⟩ := call
  cases call with
  | routeToPrefill id => exact h.routeToPrefill (hfresh id rfl) c
  | routeToDecode id => simpa [Call.newId, RequestRouter.step] using h.routeToDecode hlive
  | updatePhase id newPhase => simpa [Call.newId, RequestRouter.step] using h.updatePhase id newPhase
  | handleNodeFailure failedNode =>
    simpa [Call.newId, RequestRouter.step] using h.handleNodeFailure c failedNode
  | purgeTerminal => simpa [Call.newId, RequestRouter.step] using h.purgeTerminal c

end Step

/-! ## Whole runs -/

section Run

variable {used : List String} {r r' : RequestRouter} {calls : List (Cluster × Call)}

lemma consistent_new (config : RouterConfig) : Consistent [] { config } := by
  constructor <;> simp

lemma newIds_cons (call : Cluster × Call) :
    newIds (call :: calls) = call.2.newId.toList ++ newIds calls := by
  rw [newIds, filterMap_cons]
  cases call.2.newId <;> rfl

lemma Consistent.foldl_step (h : Consistent used r) (hlive : DecodesLive r calls)
    (hfresh : (used ++ newIds calls).Nodup) :
    Follows (used ++ newIds calls) r (calls.foldl RequestRouter.step r) := by
  induction calls generalizing used r with
  | nil =>
    rw [newIds, filterMap_nil, append_nil]
    exact h.refl_follows
  | cons call calls ih =>
    rw [newIds_cons, ← append_assoc] at hfresh ⊢
    have hnew : ∀ id ∈ call.2.newId, id ∉ used := by
      intro id hid hused
      have hdisjoint := nodup_append.mp (nodup_append.mp hfresh).1
      exact hdisjoint.2.2 id hused id (Option.mem_toList.mpr hid) rfl
    have hfirst := h.step hlive.1 hnew
    exact hfirst.trans (ih hfirst.consistent hlive.2 hfresh)

lemma decodesLive_append {later : List (Cluster × Call)} : DecodesLive r (calls ++ later) ↔
    DecodesLive r calls ∧ DecodesLive (calls.foldl RequestRouter.step r) later := by
  induction calls generalizing r with
  | nil => simp [DecodesLive]
  | cons call calls ih => simp [DecodesLive, ih, and_assoc]

lemma Consistent.keepsEnded (h : Consistent used r) {used' : List String}
    (h' : Follows used' r r') : KeepsEnded r r' := by
  intro id request request' hlookup hterminal hlookup'
  have hended := h'.ended_suffix.subset ((h.ended_iff hlookup).mpr ⟨rfl, hterminal⟩)
  exact ((h'.consistent.ended_iff hlookup').mp hended).1

/-- A request that had ended is transferred again. -/
lemma live_of_keepsEnded {call : Cluster × Call} (h : KeepsEnded r (r.step call)) :
    r.Live call := by
  obtain ⟨c, call⟩ := call
  cases call with
  | routeToDecode id =>
    intro hnode request hlookup
    by_contra hended
    rw [Bool.not_eq_false] at hended
    cases hselect : c.selectDecodeNode with
    | error e => simp [hselect, Except.toOption] at hnode
    | ok node =>
      have hstep : (r.step (c, .routeToDecode id)).requests.lookup id = some
          { request with
            phase := .transferringCache (request.prefillNode.getD "unknown") node
            decodeNode := some node } := by
        simp [step, routeToDecode, hselect, Option.mem_def.mp hlookup]
      have hphase := h _ _ _ hlookup hended hstep
      rw [← hphase] at hended
      cases hended
  | _ => trivial

end Run

/-- **Requests end once** in a run exactly if no request is routed to a decode node after its end. -/
theorem endsOnce_iff (config : RouterConfig) {calls : List (Cluster × Call)}
    (hfresh : (newIds calls).Nodup) : EndsOnce config calls ↔ DecodesLive { config } calls := by
  constructor
  · intro h
    have hrest : ∀ later earlier, calls = earlier ++ later →
        DecodesLive (run config earlier) later := by
      intro later
      induction later with
      | nil => exact fun _ _ => trivial
      | cons call later ih =>
        intro earlier hcalls
        rw [append_cons] at hcalls
        have hkeeps := h.keepsEnded hcalls
        have hlater := ih _ hcalls
        rw [run, foldl_append] at hlater
        rw [run, run, foldl_append] at hkeeps
        exact ⟨live_of_keepsEnded hkeeps, hlater⟩
    exact hrest calls [] rfl
  · intro hlive
    have hall := (consistent_new config).foldl_step hlive (by simpa using hfresh)
    refine ⟨?_, hall.consistent.nodup, hall.consistent.totals_eq⟩
    rintro earlier later rest rfl
    rw [decodesLive_append, decodesLive_append] at hlive
    rw [newIds, filterMap_append, filterMap_append] at hfresh
    have hfirst := nodup_append.mp (nodup_append.mp hfresh).1
    have hbefore := (consistent_new config).foldl_step hlive.1.1 (by simpa [newIds] using hfirst.1)
    have hbetween := hbefore.consistent.foldl_step hlive.1.2
      (by simpa [newIds] using (nodup_append.mp hfresh).1)
    rw [run, run, foldl_append]
    exact hbefore.consistent.keepsEnded hbetween

instance (r : RequestRouter) (call : Cluster × Call) : Decidable (r.Live call) := by
  unfold Live
  split <;> infer_instance

instance decidableDecodesLive : (r : RequestRouter) → (calls : List (Cluster × Call)) →
    Decidable (DecodesLive r calls)
  | _, [] => isTrue trivial
  | r, call :: calls =>
    have := decidableDecodesLive (r.step call) calls
    inferInstanceAs (Decidable (r.Live call ∧ DecodesLive (r.step call) calls))

/-- Two requests; the decode node of the first fails before it completes, that of the second fails
with no other to take over. -/
def failingNodes : List (Cluster × Call) :=
  [({}, .routeToPrefill "a"), ({}, .routeToPrefill "b"), ({}, .routeToDecode "a"),
    ({}, .routeToDecode "b"), ({}, .updatePhase "b" (.decoding "decode")),
    ({ prefillCandidates := ["other"] }, .handleNodeFailure "decode"),
    ({ selectDecodeNode := .ok "other" }, .routeToDecode "a"), ({}, .updatePhase "a" .completed),
    ({}, .updatePhase "a" (.failed "late")), ({ recent := fun _ => false }, .purgeTerminal)]

theorem endsOnce_failingNodes : (newIds failingNodes).Nodup ∧ EndsOnce {} failingNodes := by
  have hfresh : (newIds failingNodes).Nodup := by decide
  exact ⟨hfresh, (endsOnce_iff {} hfresh).mpr (by decide +kernel)⟩

/-- A completed request is routed to a decode node and completes again. -/
def revived : List (Cluster × Call) :=
  [({}, .routeToPrefill "a"), ({}, .updatePhase "a" .completed), ({}, .routeToDecode "a"),
    ({}, .updatePhase "a" .completed)]

theorem not_endsOnce_revived : (newIds revived).Nodup ∧ ¬ EndsOnce {} revived ∧
    (run {} revived).totalCompleted = 2 := by
  refine ⟨by decide, fun h => ?_, by decide +kernel⟩
  have htwice : (run {} revived).ended.map Prod.fst = ["a", "a"] := by decide +kernel
  have honce := h.counted_once
  rw [htwice] at honce
  exact absurd honce (by decide)

end RequestRouter

end Mlxcel.Disaggregated
