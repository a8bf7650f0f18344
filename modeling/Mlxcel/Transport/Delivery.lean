import Mlxcel.Transport.Tcp
import Mathlib.Data.List.Perm.Subperm

/-!
# What the TCP transport delivers

`Delivers` is what the three patterns of the transport promise: `recv` returns exactly what was
passed to `send`, `recvStream` exactly what was passed to `sendStream` and in that order, and
`rpcCall` the answer of the peer's handler. "Exactly" is meant at rest, when no handler can go on
and the channels have been emptied; before that nothing else comes out.

**Streams are never delivered.** `sendStream` writes a frame of kind `TensorData`, which the
handler takes for a message: it is dropped, or read as a message that nobody sent. Nothing is ever
put into the channel of streams. A frame above the receiver's limit ends the handler, and what is
written to the connection after it is lost (`not_delivers`).

**Everything else is.** In a run without `sendStream`, whose frames respect the receivers' limits
and whose connections are accepted, all messages are delivered (`delivers_of_respectsLimits`). The
invariant is `Conn.Ok`: the bytes in flight on a connection are whole frames within the limit, and
the messages among them are those that were sent and not delivered yet.

**Calls never return.** The answer to a request travels back on the connection of the request, on
the client's side of which nobody reads; so in such a run no call has returned
(`Node.Quiet.returned`), and the promise about `rpcCall` is kept trivially.
-/

namespace Mlxcel.Transport

open List Delimited Text Option

variable {ν : Type} [DecidableEq ν]

/-! ## The specification -/

/-- What was passed to `send` for a node, with the addresses it was sent from. -/
def State.sentTo (s : State ν) (n : ν) : List (String × TransportMessage) :=
  s.conns.flatMap fun c => if c.server = n then c.sent.map (c.address, ·) else []

/-- No handler can go on. -/
def AtRest (cfg : ν → NodeConfig) (s : State ν) : Prop :=
  ∀ i, step cfg s (.handle i) = none

/-- **The transport delivers what is sent.** -/
structure Delivers (cfg : ν → NodeConfig) (s : State ν) : Prop where
  recv_subperm : ∀ n, (s.node n).received.Subperm (s.sentTo n)
  recv_exact : AtRest cfg s → ∀ n, (s.node n).inbound = [] →
    (s.node n).received.Perm (s.sentTo n)
  stream_isPrefix : ∀ n, (s.node n).streamsReceived.map Prod.snd <+: (s.node n).streamsSent
  stream_exact : AtRest cfg s → ∀ n, (s.node n).streams = [] →
    (s.node n).streamsReceived.map Prod.snd = (s.node n).streamsSent
  rpc : ∀ n, ∀ r ∈ (s.node n).returned,
    (cfg r.1.peer).rpcHandler.map (· r.1.request) = some r.2

/-- The states that a run leads through, with a condition on each of its steps. -/
inductive Reachable (cfg : ν → NodeConfig) (ok : State ν → Event ν → Prop) : State ν → Prop
  | initial : Reachable cfg ok .initial
  | step {s s' : State ν} {e : Event ν} (h : Reachable cfg ok s) (hok : ok s e)
      (hstep : step cfg s e = some s') : Reachable cfg ok s'

/-- The limits of the receiver: no streams, frames of at most `maxFrameSize` bytes with fields that
their length prefixes can hold, and no more connections than are accepted. -/
def RespectsLimits (cfg : ν → NodeConfig) (s : State ν) : Event ν → Prop
  | .connect _ server _ => s.handledAt server < (cfg server).maxConnections
  | .send i message => message.SizesFit ∧ ∀ c, s.conns[i]? = some c →
      (serializeMessage message).2.length ≤ (cfg c.server).maxFrameSize.toNat
  | .sendStream _ _ => False
  | .rpcCall i request => ∀ c, s.conns[i]? = some c →
      8 + request.length ≤ (cfg c.server).maxFrameSize.toNat
  | _ => True

/-! ## The invariant -/

/-- A frame in flight: a message or a request. -/
inductive InFlight
  | message (message : TransportMessage)
  | request (payload : List UInt8)

open InFlight

namespace InFlight

def bytes : InFlight → List UInt8
  | message m => frame (serializeMessage m).1 (serializeMessage m).2
  | request payload => frame .rpcRequest payload

def Fits (limit : UInt64) : InFlight → Prop
  | message m => m.SizesFit ∧ (serializeMessage m).2.length ≤ limit.toNat
  | request payload => payload.length ≤ limit.toNat

/-- The messages among frames. -/
def messages : List InFlight → List TransportMessage
  | [] => []
  | message m :: rest => m :: messages rest
  | request _ :: rest => messages rest

lemma messages_append (fs gs : List InFlight) :
    messages (fs ++ gs) = messages fs ++ messages gs := by
  induction fs with
  | nil => rfl
  | cons f fs ih => cases f <;> simp [messages, ih]

end InFlight

/-- A connection that is in order. -/
def Conn.Ok (cfg : ν → NodeConfig) (c : Conn ν) : Prop :=
  c.handled = true ∧ ∃ flight : List InFlight,
    c.toServer = flight.flatMap bytes ∧
    (∀ f ∈ flight, f.Fits (cfg c.server).maxFrameSize) ∧
    c.sent = c.delivered ++ messages flight

/-- What the handlers put into a node's inbound channel. -/
def State.deliveredTo (s : State ν) (n : ν) : List (String × TransportMessage) :=
  s.conns.flatMap fun c => if c.server = n then c.delivered.map (c.address, ·) else []

/-- No stream was sent or received, and no call has returned. -/
structure Node.Quiet (n : Node ν) : Prop where
  streams : n.streams = []
  streamsSent : n.streamsSent = []
  streamsReceived : n.streamsReceived = []
  returned : n.returned = []

structure Invariant (cfg : ν → NodeConfig) (s : State ν) : Prop where
  conns : ∀ c ∈ s.conns, c.Ok cfg
  delivered : ∀ n, ((s.node n).received ++ (s.node n).inbound).Perm (s.deliveredTo n)
  quiet : ∀ n, (s.node n).Quiet

/-! ## Single changes -/

variable {α : Type} {l : List α} {i : ℕ} {c : Conn ν}

lemma mem_modify {f : α → α} {a : α} (h : a ∈ l.modify i f) :
    a ∈ l ∨ ∃ b, l[i]? = some b ∧ a = f b := by
  obtain ⟨j, hj, rfl⟩ := mem_iff_getElem.mp h
  rw [getElem_modify]
  split
  case isTrue hij =>
      subst hij
      rw [length_modify] at hj
      exact .inr ⟨l[i], getElem?_eq_getElem hj, rfl⟩
  case isFalse => exact .inl (getElem_mem _)

/-- A change of one element that leaves its part of a concatenation as it is. -/
lemma flatMap_modify_of_eq {β : Type} {f : α → α} {g : α → List β}
    (h : ∀ a, l[i]? = some a → g (f a) = g a) : (l.modify i f).flatMap g = l.flatMap g := by
  induction l generalizing i with
  | nil => simp
  | cons a l ih =>
    cases i with
    | zero => simp [h a (by simp)]
    | succ i => simp [ih fun b hb => h b (by simpa using hb)]

/-- A change of one element that adds to its part of a concatenation. -/
lemma flatMap_modify_perm {β : Type} {f : α → α} {g : α → List β} {a : α} {x : β}
    (ha : l[i]? = some a) (h : g (f a) = g a ++ [x]) :
    ((l.modify i f).flatMap g).Perm (l.flatMap g ++ [x]) := by
  induction l generalizing i with
  | nil => simp at ha
  | cons b l ih =>
    cases i with
    | zero =>
      obtain rfl : b = a := by simpa using ha
      simp only [modify_zero_cons, flatMap_cons, h, append_assoc]
      exact .append_left _ perm_append_comm
    | succ i =>
      simp only [flatMap_cons, append_assoc]
      exact .append_left _ (ih (by simpa using ha))

lemma updateNode_node (s : State ν) (n m : ν) (f : Node ν → Node ν) :
    (s.updateNode n f).node m = if m = n then f (s.node m) else s.node m := rfl

variable {cfg : ν → NodeConfig} {s s' : State ν}

/-- A change of a node that keeps its messages and its quiet. -/
lemma Invariant.updateNode {n : ν} {f : Node ν → Node ν} (h : Invariant cfg s)
    (hmessages : (f (s.node n)).received ++ (f (s.node n)).inbound
      = (s.node n).received ++ (s.node n).inbound)
    (hquiet : (s.node n).Quiet → (f (s.node n)).Quiet) : Invariant cfg (s.updateNode n f) := by
  refine ⟨h.conns, fun m => ?_, fun m => ?_⟩
  all_goals
    rw [updateNode_node]
    by_cases hm : m = n
  · subst hm
    rw [if_pos rfl, hmessages]
    exact h.delivered m
  · rw [if_neg hm]
    exact h.delivered m
  · subst hm
    rw [if_pos rfl]
    exact hquiet (h.quiet m)
  · rw [if_neg hm]
    exact h.quiet m

/-- A change of a connection that keeps it in order and delivers nothing. -/
lemma Invariant.updateConn {f : Conn ν → Conn ν} (h : Invariant cfg s)
    (hok : ∀ c, s.conns[i]? = some c → c.Ok cfg → (f c).Ok cfg)
    (hsame : ∀ c : Conn ν, (f c).server = c.server ∧ (f c).address = c.address ∧
      (f c).delivered = c.delivered) :
    Invariant cfg (s.updateConn i f) := by
  obtain ⟨hconns, hdelivered, hquiet⟩ := h
  refine ⟨fun c hc => ?_, fun n => ?_, hquiet⟩
  · rcases mem_modify hc with hmem | ⟨b, hb, rfl⟩
    · exact hconns c hmem
    · exact hok b hb (hconns b (mem_of_getElem? hb))
  · refine (hdelivered n).trans (.of_eq (.symm (flatMap_modify_of_eq ?_)))
    intro c _
    obtain ⟨h1, h2, h3⟩ := hsame c
    rw [h1, h2, h3]

/-! ## The steps -/

omit [DecidableEq ν] in
lemma Conn.Ok.write {c' : Conn ν} {f : InFlight} (h : c.Ok cfg) (hserver : c'.server = c.server)
    (hhandled : c'.handled = c.handled) (hbytes : c'.toServer = c.toServer ++ f.bytes)
    (hsent : c'.sent = c.sent ++ messages [f]) (hdelivered : c'.delivered = c.delivered)
    (hfits : f.Fits (cfg c.server).maxFrameSize) : c'.Ok cfg := by
  obtain ⟨hopen, flight, hflight, hall, hmessages⟩ := h
  refine ⟨hhandled.trans hopen, flight ++ [f], ?_, ?_, ?_⟩
  · rw [hbytes, hflight]
    simp
  · intro g hg
    rw [hserver]
    rcases mem_append.mp hg with hg | hg
    · exact hall g hg
    · rw [mem_singleton.mp hg]
      exact hfits
  · rw [hsent, hmessages, hdelivered, messages_append, append_assoc]

lemma Invariant.send {message : TransportMessage} (h : Invariant cfg s)
    (hok : RespectsLimits cfg s (.send i message))
    (hstep : step cfg s (.send i message) = some s') : Invariant cfg s' := by
  simp only [step] at hstep
  split at hstep
  · cases hstep
  · cases hstep
    refine h.updateConn (fun c hc hconn => ?_) fun _ => ⟨rfl, rfl, rfl⟩
    exact hconn.write (f := .message message) rfl rfl rfl rfl rfl ⟨hok.1, hok.2 c hc⟩

lemma length_rpcPayload (id : UInt64) (data : List UInt8) :
    (rpcPayload id data).length = 8 + data.length := by
  simp [rpcPayload]

section

variable (h : Invariant cfg s)

include h

lemma Invariant.rpcCall {request : List UInt8} (hok : RespectsLimits cfg s (.rpcCall i request))
    (hstep : step cfg s (.rpcCall i request) = some s') : Invariant cfg s' := by
  simp only [step] at hstep
  split at hstep
  · cases hstep
  · cases hstep
    refine .updateNode ?_ rfl fun hquiet => ⟨hquiet.1, hquiet.2, hquiet.3, hquiet.4⟩
    refine h.updateConn (fun c hc hconn => ?_) fun _ => ⟨rfl, rfl, rfl⟩
    refine hconn.write (f := .request _) rfl rfl rfl (by simp [messages, Conn.write]) rfl ?_
    rw [Fits, length_rpcPayload]
    exact hok c hc

lemma Invariant.connect {client server : ν} {address : String}
    (hok : RespectsLimits cfg s (.connect client server address))
    (hstep : step cfg s (.connect client server address) = some s') : Invariant cfg s' := by
  simp only [step, some.injEq] at hstep
  subst hstep
  obtain ⟨hconns, hdelivered, hquiet⟩ := h
  refine ⟨fun c hc => ?_, fun n => ?_, hquiet⟩
  · rcases mem_append.mp hc with hc | hc
    · exact hconns c hc
    · rw [mem_singleton.mp hc]
      exact ⟨decide_eq_true hok, [], rfl, by simp, rfl⟩
  · refine (hdelivered n).trans (.of_eq ?_)
    simp [State.deliveredTo]

lemma Invariant.recv {n : ν} (hstep : step cfg s (.recv n) = some s') :
    Invariant cfg s' := by
  simp only [step] at hstep
  split at hstep
  · cases hstep
  case h_2 m rest hinbound =>
      cases hstep
      refine h.updateNode ?_ fun hquiet => ⟨hquiet.1, hquiet.2, hquiet.3, hquiet.4⟩
      simp [hinbound]

/-- A message at the head of a connection goes into the channel of the server. -/
lemma Invariant.deliver {m : TransportMessage} {rest : List UInt8} (hc : s.conns[i]? = some c)
    (hok : Conn.Ok cfg { c with toServer := rest, delivered := c.delivered ++ [m] }) :
    Invariant cfg ((s.updateConn i fun c =>
        { c with toServer := rest, delivered := c.delivered ++ [m] }).updateNode c.server
      fun n => { n with inbound := n.inbound ++ [(c.address, m)] }) := by
  obtain ⟨hconns, hdelivered, hquiet⟩ := h
  refine ⟨fun d hd => ?_, fun n => ?_, fun n => ?_⟩
  · rcases mem_modify hd with hmem | ⟨b, hb, rfl⟩
    · exact hconns d hmem
    · obtain rfl : c = b := by rw [hc] at hb; cases hb; rfl
      exact hok
  all_goals rw [updateNode_node]
  · by_cases hn : n = c.server
    · rw [if_pos hn, ← append_assoc]
      refine ((hdelivered n).append_right _).trans (.symm ?_)
      exact flatMap_modify_perm hc (by simp [hn])
    · rw [if_neg hn]
      refine (hdelivered n).trans (.of_eq (.symm (flatMap_modify_of_eq ?_)))
      intro d hd
      obtain rfl : c = d := by rw [hc] at hd; cases hd; rfl
      simp [Ne.symm hn]
  · obtain ⟨h1, h2, h3, h4⟩ := hquiet n
    split
    all_goals exact ⟨h1, h2, h3, h4⟩

end

omit [DecidableEq ν] in
/-- What a handler finds on a connection that is in order: nothing, or the first frame. -/
lemma Conn.Ok.readFrame (h : c.Ok cfg) :
    (c.toServer = [] ∧ c.sent = c.delivered) ∨
    (∃ m rest, readFrame (cfg c.server).maxFrameSize.toNat c.toServer
        = .frame (serializeMessage m).1 (serializeMessage m).2 rest ∧ m.SizesFit ∧
      Conn.Ok cfg { c with toServer := rest, delivered := c.delivered ++ [m] }) ∨
    (∃ payload rest, readFrame (cfg c.server).maxFrameSize.toNat c.toServer
        = .frame .rpcRequest payload rest ∧ Conn.Ok cfg { c with toServer := rest }) := by
  obtain ⟨hopen, flight, hflight, hall, hmessages⟩ := h
  cases flight with
  | nil => exact .inl ⟨hflight, by simpa [messages] using hmessages⟩
  | cons f flight =>
    have hf := hall f (by simp)
    rw [hflight, flatMap_cons]
    cases f with
    | message m =>
      refine .inr (.inl ⟨m, flight.flatMap bytes, readFrame_frame hf.2 _, hf.1, hopen,
        flight, rfl, fun g hg => hall g (by simp [hg]), ?_⟩)
      simp [hmessages, messages]
    | request payload =>
      exact .inr (.inr ⟨payload, flight.flatMap bytes, readFrame_frame hf _, hopen,
        flight, rfl, fun g hg => hall g (by simp [hg]), hmessages⟩)

/-- The kind of a message is one that the handler takes for a message. -/
lemma handleFrame_message {m : TransportMessage} (hm : m.SizesFit) (node : NodeConfig)
    (rest : List UInt8) :
    handleFrame node s i c (serializeMessage m).1 (serializeMessage m).2 rest
      = (s.updateConn i fun c =>
          { c with toServer := rest, delivered := c.delivered ++ [m] }).updateNode c.server
        fun n => { n with inbound := n.inbound ++ [(c.address, m)] } := by
  have hread := deserializeMessage_serializeMessage hm
  cases m with
  | tensorData tensorId shape data | control operation payload =>
    simp only [serializeMessage] at hread
    simp only [handleFrame, serializeMessage, hread]

lemma Invariant.handle (h : Invariant cfg s) (hstep : step cfg s (.handle i) = some s') :
    Invariant cfg s' := by
  simp only [step] at hstep
  split at hstep
  · cases hstep
  case h_2 c hc =>
      have hconn := h.conns c (mem_of_getElem? hc)
      unfold handleConnection at hstep
      rw [if_pos hconn.1] at hstep
      obtain ⟨hempty, -⟩ | ⟨m, rest, hread, hfit, hok⟩ | ⟨payload, rest, hread, hok⟩ :=
        hconn.readFrame
      · rw [hempty] at hstep
        cases hstep
      · rw [hread] at hstep
        simp only [some.injEq] at hstep
        rw [← hstep, handleFrame_message hfit]
        exact h.deliver hc hok
      · rw [hread] at hstep
        simp only [some.injEq] at hstep
        subst hstep
        have hkeep : ∀ d, s.conns[i]? = some d → d.Ok cfg →
            Conn.Ok cfg { d with toServer := rest } := by
          intro d hd _
          obtain rfl : c = d := by rw [hc] at hd; cases hd; rfl
          exact hok
        simp only [handleFrame]
        split
        · exact h.updateConn hkeep fun _ => ⟨rfl, rfl, rfl⟩
        · split
          all_goals exact h.updateConn hkeep fun _ => ⟨rfl, rfl, rfl⟩

lemma Invariant.step {e : Event ν} (h : Invariant cfg s) (hok : RespectsLimits cfg s e)
    (hstep : step cfg s e = some s') : Invariant cfg s' := by
  cases e with
  | connect client server address => exact h.connect hok hstep
  | send i message => exact h.send hok hstep
  | sendStream i data => exact hok.elim
  | rpcCall i request => exact h.rpcCall hok hstep
  | rpcTimeout n id =>
    simp only [Transport.step, some.injEq] at hstep
    subst hstep
    exact h.updateNode rfl fun hquiet => ⟨hquiet.1, hquiet.2, hquiet.3, hquiet.4⟩
  | handle i => exact h.handle hstep
  | recv n => exact h.recv hstep
  | recvStream n =>
    simp only [Transport.step, (h.quiet n).streams] at hstep
    cases hstep

/-- Every state of a run within the limits is in order. -/
lemma Reachable.invariant (h : Reachable cfg (RespectsLimits cfg) s) : Invariant cfg s := by
  induction h with
  | initial =>
    refine ⟨fun c hc => ?_, fun _ => .refl _, fun _ => ⟨rfl, rfl, rfl, rfl⟩⟩
    cases hc
  | step _ hok hstep ih => exact ih.step hok hstep

lemma Invariant.deliveredTo_sublist (h : Invariant cfg s) (n : ν) :
    (s.deliveredTo n).Sublist (s.sentTo n) := by
  have hpart : ∀ c ∈ s.conns,
      (if c.server = n then c.delivered.map (c.address, ·) else []).Sublist
        (if c.server = n then c.sent.map (c.address, ·) else []) := by
    intro c hc
    obtain ⟨-, flight, -, -, hmessages⟩ := h.conns c hc
    split
    · rw [hmessages]
      exact (sublist_append_left _ _).map _
    · exact .refl _
  exact .flatMap_right _ hpart

lemma Invariant.deliveredTo_eq (h : Invariant cfg s) (hrest : AtRest cfg s) (n : ν) :
    s.deliveredTo n = s.sentTo n := by
  have hall : ∀ c ∈ s.conns, c.sent = c.delivered := by
    intro c hc
    obtain ⟨i, hi⟩ := getElem?_of_mem hc
    have hnone := hrest i
    have hconn := h.conns c hc
    simp only [Transport.step, hi] at hnone
    unfold handleConnection at hnone
    rw [if_pos hconn.1] at hnone
    obtain ⟨-, hsame⟩ | ⟨m, rest, hread, -, -⟩ | ⟨payload, rest, hread, -⟩ := hconn.readFrame
    · exact hsame
    · rw [hread] at hnone; cases hnone
    · rw [hread] at hnone; cases hnone
  refine flatMap_congr fun c hc => ?_
  rw [hall c hc]

/-- **Within the limits the transport delivers.** In every run in which no stream is sent, every
frame respects the receiver's limits and every connection is accepted, each state delivers what was
sent. -/
theorem delivers_of_respectsLimits (cfg : ν → NodeConfig) (s : State ν)
    (h : Reachable cfg (RespectsLimits cfg) s) : Delivers cfg s where
  recv_subperm n := by
    have hinv := h.invariant
    have hall : ((s.node n).received ++ (s.node n).inbound).Subperm (s.sentTo n) :=
      (hinv.delivered n).subperm.trans (hinv.deliveredTo_sublist n).subperm
    exact (sublist_append_left _ _).subperm.trans hall
  recv_exact hrest n hempty := by
    have hperm := h.invariant.delivered n
    rwa [hempty, append_nil, h.invariant.deliveredTo_eq hrest] at hperm
  stream_isPrefix n := by
    rw [(h.invariant.quiet n).streamsReceived, (h.invariant.quiet n).streamsSent]
    exact prefix_refl []
  stream_exact _ n _ := by
    rw [(h.invariant.quiet n).streamsReceived, (h.invariant.quiet n).streamsSent]
    rfl
  rpc n r hr := by
    rw [(h.invariant.quiet n).returned] at hr
    cases hr

/-! ## Two nodes -/

/-- A run of given steps. -/
def runEvents (cfg : ν → NodeConfig) (s : State ν) : List (Event ν) → Option (State ν)
  | [] => some s
  | e :: es => (step cfg s e).bind fun s' => runEvents cfg s' es

lemma Reachable.runEvents {ok : State ν → Event ν → Prop} {es : List (Event ν)}
    (h : Reachable cfg ok s) (hok : ∀ s e, ok s e) (hrun : runEvents cfg s es = some s') :
    Reachable cfg ok s' := by
  induction es generalizing s with
  | nil => cases hrun; exact h
  | cons e es ih =>
    obtain ⟨t, ht, hrest⟩ := bind_eq_some_iff.mp hrun
    exact ih (h.step (hok s e) ht) hrest

/-- Two nodes that accept frames of sixteen bytes. -/
def twoNodes : Bool → NodeConfig := fun _ => ⟨16, 4, none⟩

/-- A control message is sent, handled and received. -/
theorem delivers_ping : ∃ s, Reachable twoNodes (RespectsLimits twoNodes) s ∧
    (s.node true).received = [("client:1", .control "ping" [7])] ∧ Delivers twoNodes s := by
  have hconnect : Reachable twoNodes (RespectsLimits twoNodes) _ :=
    .step .initial (e := .connect false true "client:1") (show (0 : ℕ) < 4 by decide) rfl
  have hsizes : (utf8 "ping").length < 2 ^ 32 := by decide
  have hfits : ∀ c : Conn Bool, (serializeMessage (.control "ping" [7])).2.length
      ≤ (twoNodes c.server).maxFrameSize.toNat := fun _ => (by decide : 9 ≤ 16)
  have hsend : Reachable twoNodes (RespectsLimits twoNodes) _ :=
    hconnect.step (e := .send 0 (.control "ping" [7])) ⟨hsizes, fun c _ => hfits c⟩ rfl
  have hrecv : Reachable twoNodes (RespectsLimits twoNodes) _ :=
    (hsend.step (e := .handle 0) trivial rfl).step (e := .recv true) trivial rfl
  exact ⟨_, hrecv, rfl, delivers_of_respectsLimits twoNodes _ hrecv⟩

/-- Any step. -/
abbrev AnyStep (_ : State Bool) (_ : Event Bool) : Prop := True

/-- A stream is sent and its frame handled. -/
def streamRun : List (Event Bool) :=
  [.connect false true "client:1", .sendStream 0 [1, 2, 3], .handle 0]

/-- A message of twenty bytes is sent, then one of nine, and the first frame is handled. -/
def longFrameRun : List (Event Bool) :=
  [.connect false true "client:1", .send 0 (.control "a long operation" []),
    .send 0 (.control "ping" [7]), .handle 0]

/-- **The transport does not deliver everything.** A stream never arrives; and a message behind a
frame above the receiver's limit is lost with it. -/
theorem not_delivers :
    (∃ s, runEvents twoNodes .initial streamRun = some s ∧ Reachable twoNodes AnyStep s ∧
      ¬Delivers twoNodes s) ∧
    (∃ s, runEvents twoNodes .initial longFrameRun = some s ∧ Reachable twoNodes AnyStep s ∧
      ¬Delivers twoNodes s) := by
  have hreachable : ∀ es s, runEvents twoNodes .initial es = some s → Reachable twoNodes AnyStep s :=
    fun es s => Reachable.initial.runEvents fun _ _ => trivial
  refine ⟨⟨_, rfl, hreachable streamRun _ rfl, fun h => ?_⟩,
    ⟨_, rfl, hreachable longFrameRun _ rfl, fun h => ?_⟩⟩
  · have hstreams := h.stream_exact (fun i => by cases i <;> rfl) true rfl
    exact absurd hstreams (by decide)
  · have hmessages := h.recv_exact (fun i => by cases i <;> rfl) true rfl
    exact absurd hmessages.length_eq (by decide)

end Mlxcel.Transport
