import Mlxcel.Lib.Text
import Mathlib.Tactic.NormNum

/-!
# The TCP transport

Nodes talk over pooled connections, each a reliable stream of bytes in both directions. A frame is
a kind, the length of the payload as eight bytes and the payload. Four kinds share a connection:
tensors and control messages (`send`), requests and responses (`rpcCall`).

**Who writes and who reads.** A client writes to a connection that its pool hands out, and never
reads from it. The server's handler of an accepted connection reads frame after frame
(`handleConnection`): it puts messages into the node's inbound channel, answers a request on the
same connection, and gives a response to the call that waits for it. A frame that cannot be read
ends the handler.

**The model.** `step` is one atomic action: a write, one round of a handler, or one value taken
from a channel. The pool's choice of a connection is left open. The histories of what was passed to
`send` and `sendStream` and of what `recv`, `recvStream` and `rpcCall` returned are part of the
state and decide nothing.
-/

namespace Mlxcel.Transport

open List Delimited Text

/-! ## Messages and frames -/

inductive TransportMessage
  | tensorData (tensorId : String) (shape : List UInt64) (data : List UInt8)
  | control (operation : String) (payload : List UInt8)
deriving DecidableEq

inductive MessageKind
  | tensorData
  | control
  | rpcRequest
  | rpcResponse
deriving Repr, DecidableEq

namespace MessageKind

def toU8 : MessageKind → UInt8
  | tensorData => 1
  | control => 2
  | rpcRequest => 3
  | rpcResponse => 4

def tryFrom (value : UInt8) : Option MessageKind :=
  match value.toNat with
  | 1 => some tensorData
  | 2 => some control
  | 3 => some rpcRequest
  | 4 => some rpcResponse
  | _ => none

@[simp] lemma tryFrom_toU8 (kind : MessageKind) : tryFrom kind.toU8 = some kind := by
  cases kind <;> rfl

end MessageKind

def serializeMessage : TransportMessage → MessageKind × List UInt8
  | .tensorData tensorId shape data =>
    (.tensorData, beBytes 4 (utf8 tensorId).length ++ utf8 tensorId ++ beBytes 4 shape.length
      ++ shape.flatMap (fun dim => beBytes 8 dim.toNat) ++ data)
  | .control operation payload =>
    (.control, beBytes 4 (utf8 operation).length ++ utf8 operation ++ payload)

/-- The dimension at position `i` of a field of dimensions. -/
def readDim (dims : List UInt8) (i : ℕ) : UInt64 :=
  UInt64.ofNat (beNat ((dims.drop (i * 8)).take 8))

def deserializeTensor (payload : List UInt8) : Except String TransportMessage :=
  if payload.length < 4 then .error "tensor message too short for id length"
  else
    let idLen := beNat (payload.take 4)
    if payload.length < 4 + idLen + 4 then
      .error "tensor message too short for id + shape length"
    else
      match ofUtf8? ((payload.drop 4).take idLen) with
      | none => .error "invalid tensor id"
      | some tensorId =>
        let ndims := beNat ((payload.drop (4 + idLen)).take 4)
        if payload.length < 4 + idLen + 4 + ndims * 8 then
          .error "tensor message too short for shape"
        else
          let dims := payload.drop (4 + idLen + 4)
          .ok (.tensorData tensorId ((List.range ndims).map (readDim dims)) (dims.drop (ndims * 8)))

def deserializeControl (payload : List UInt8) : Except String TransportMessage :=
  if payload.length < 4 then .error "control message too short for operation length"
  else
    let opLen := beNat (payload.take 4)
    if payload.length < 4 + opLen then .error "control message too short for operation"
    else
      match ofUtf8? ((payload.drop 4).take opLen) with
      | none => .error "invalid operation"
      | some operation => .ok (.control operation (payload.drop (4 + opLen)))

def deserializeMessage (kind : MessageKind) (payload : List UInt8) :
    Except String TransportMessage :=
  match kind with
  | .tensorData => deserializeTensor payload
  | .control => deserializeControl payload
  | .rpcRequest => .error "unexpected message kind for deserialization: RpcRequest"
  | .rpcResponse => .error "unexpected message kind for deserialization: RpcResponse"

/-- A frame as `write_frame` puts it on a connection. -/
def frame (kind : MessageKind) (payload : List UInt8) : List UInt8 :=
  kind.toU8 :: (beBytes 8 payload.length ++ payload)

/-- What a handler finds on its connection. -/
inductive FrameRead
  /-- The frame is not there yet. -/
  | waiting
  /-- An unknown kind or a frame above the limit. -/
  | failed
  | frame (kind : MessageKind) (payload rest : List UInt8)
deriving DecidableEq

def readFrame (maxFrameSize : ℕ) : List UInt8 → FrameRead
  | [] => .waiting
  | header :: bytes =>
    match MessageKind.tryFrom header with
    | none => .failed
    | some kind =>
      if bytes.length < 8 then .waiting
      else
        let len := beNat (bytes.take 8)
        if maxFrameSize < len then .failed
        else if bytes.length < 8 + len then .waiting
        else .frame kind ((bytes.drop 8).take len) (bytes.drop (8 + len))

/-! ## Nodes and connections -/

variable {ν : Type}

/-- The settings of a node and the handler it serves requests with. -/
structure NodeConfig where
  maxFrameSize : UInt64
  maxConnections : ℕ
  rpcHandler : Option (List UInt8 → List UInt8)

/-- A connection, its bytes in flight, and whether the server's handler still reads it. -/
structure Conn (ν : Type) where
  client : ν
  server : ν
  /-- The address of the client's end, as the server sees it. -/
  address : String
  handled : Bool
  toServer : List UInt8
  toClient : List UInt8
  /-- The messages passed to `send` that were written here. -/
  sent : List TransportMessage
  /-- The messages that the handler put into the inbound channel. -/
  delivered : List TransportMessage

/-- A request and the node it went to. -/
structure Call (ν : Type) where
  peer : ν
  request : List UInt8

structure Node (ν : Type) where
  inbound : List (String × TransportMessage)
  /-- The channel of inbound streams. -/
  streams : List (String × List UInt8)
  rpcPending : List (UInt64 × Call ν)
  rpcNextId : UInt64
  /-- What `recv` returned. -/
  received : List (String × TransportMessage)
  /-- What was passed to `sendStream` for this node. -/
  streamsSent : List (List UInt8)
  /-- What `recvStream` returned. -/
  streamsReceived : List (String × List UInt8)
  /-- What `rpcCall` returned. -/
  returned : List (Call ν × List UInt8)

structure State (ν : Type) where
  conns : List (Conn ν)
  node : ν → Node ν

/-- No connections and empty channels. -/
def State.initial : State ν where
  conns := []
  node _ := ⟨[], [], [], 0, [], [], [], []⟩

inductive Event (ν : Type)
  /-- The pool opens a connection. -/
  | connect (client server : ν) (address : String)
  | send (conn : ℕ) (message : TransportMessage)
  | sendStream (conn : ℕ) (data : List UInt8)
  | rpcCall (conn : ℕ) (request : List UInt8)
  /-- A call gives up. -/
  | rpcTimeout (node : ν) (id : UInt64)
  /-- One round of the handler of a connection. -/
  | handle (conn : ℕ)
  | recv (node : ν)
  | recvStream (node : ν)

section Steps

variable [DecidableEq ν]

/-- A change of one node. -/
def State.updateNode (s : State ν) (n : ν) (f : Node ν → Node ν) : State ν :=
  { s with node := fun m => if m = n then f (s.node m) else s.node m }

/-- A change of one connection. -/
def State.updateConn (s : State ν) (i : ℕ) (f : Conn ν → Conn ν) : State ν :=
  { s with conns := s.conns.modify i f }

/-- The number of connections that a node's handlers read. -/
def State.handledAt (s : State ν) (server : ν) : ℕ :=
  (s.conns.filter fun c => c.handled ∧ c.server = server).length

/-- Bytes written by the client. -/
def Conn.write (c : Conn ν) (bytes : List UInt8) : Conn ν :=
  { c with toServer := c.toServer ++ bytes }

def rpcPayload (id : UInt64) (data : List UInt8) : List UInt8 := beBytes 8 id.toNat ++ data

/-- A frame at the server: what happens to the connection and to the server's node. -/
def handleFrame (cfg : NodeConfig) (s : State ν) (i : ℕ) (c : Conn ν) (kind : MessageKind)
    (payload rest : List UInt8) : State ν :=
  let read := s.updateConn i fun c => { c with toServer := rest }
  match kind with
  | .tensorData | .control =>
    match deserializeMessage kind payload with
    | .ok message =>
      (s.updateConn i fun c =>
          { c with toServer := rest, delivered := c.delivered ++ [message] }).updateNode c.server
        fun n => { n with inbound := n.inbound ++ [(c.address, message)] }
    | .error _ => read
  | .rpcResponse =>
    if payload.length < 8 then read
    else
      let id := UInt64.ofNat (beNat (payload.take 8))
      read.updateNode c.server fun n =>
        match n.rpcPending.find? (·.1 == id) with
        | some (_, call) =>
          { n with
            rpcPending := n.rpcPending.filter (·.1 != id)
            returned := n.returned ++ [(call, payload.drop 8)] }
        | none => n
  | .rpcRequest =>
    if payload.length < 8 then read
    else
      match cfg.rpcHandler with
      | some h =>
        -- the answer goes back on the connection that the request came on
        s.updateConn i fun c => { c with
          toServer := rest
          toClient := c.toClient ++ frame .rpcResponse (payload.take 8 ++ h (payload.drop 8)) }
      | none => read

/-- One round of `handle_connection`. -/
def handleConnection (cfg : ν → NodeConfig) (s : State ν) (i : ℕ) (c : Conn ν) :
    Option (State ν) :=
  if c.handled then
    match readFrame (cfg c.server).maxFrameSize.toNat c.toServer with
    | .waiting => none
    | .failed => some (s.updateConn i fun c => { c with handled := false })
    | .frame kind payload rest => some (handleFrame (cfg c.server) s i c kind payload rest)
  else none

def step (cfg : ν → NodeConfig) (s : State ν) : Event ν → Option (State ν)
  | .connect client server address =>
    -- beyond the limit the server drops the connection
    some { s with conns := s.conns ++ [⟨client, server, address,
      decide (s.handledAt server < (cfg server).maxConnections), [], [], [], []⟩] }
  | .send i message =>
    match s.conns[i]? with
    | none => none
    | some _ =>
      let (kind, payload) := serializeMessage message
      some (s.updateConn i fun c =>
        { c.write (frame kind payload) with sent := c.sent ++ [message] })
  | .sendStream i data =>
    match s.conns[i]? with
    | none => none
    | some c =>
      some ((s.updateConn i fun c => c.write (frame .tensorData data)).updateNode c.server
        fun n => { n with streamsSent := n.streamsSent ++ [data] })
  | .rpcCall i request =>
    match s.conns[i]? with
    | none => none
    | some c =>
      let id := (s.node c.client).rpcNextId
      some ((s.updateConn i fun c => c.write (frame .rpcRequest (rpcPayload id request))).updateNode
        c.client fun n => { n with
          rpcNextId := id + 1
          rpcPending := (id, ⟨c.server, request⟩) :: n.rpcPending.filter (·.1 != id) })
  | .rpcTimeout n id =>
    some (s.updateNode n fun n => { n with rpcPending := n.rpcPending.filter (·.1 != id) })
  | .handle i =>
    match s.conns[i]? with
    | none => none
    | some c => handleConnection cfg s i c
  | .recv n =>
    match (s.node n).inbound with
    | [] => none
    | m :: rest =>
      some (s.updateNode n fun n => { n with inbound := rest, received := n.received ++ [m] })
  | .recvStream n =>
    match (s.node n).streams with
    | [] => none
    | m :: rest =>
      some (s.updateNode n fun n =>
        { n with streams := rest, streamsReceived := n.streamsReceived ++ [m] })

end Steps

/-! ## A frame that was written is read -/

/-- The sizes that the fields of a message have to keep to. -/
def TransportMessage.SizesFit : TransportMessage → Prop
  | .tensorData tensorId shape _ => (utf8 tensorId).length < 2 ^ 32 ∧ shape.length < 2 ^ 32
  | .control operation _ => (utf8 operation).length < 2 ^ 32

lemma length_flatMap_dims (shape : List UInt64) :
    (shape.flatMap fun dim => beBytes 8 dim.toNat).length = shape.length * 8 := by
  induction shape with
  | nil => rfl
  | cons d shape ih => simp [ih]; omega

lemma readDim_flatMap (shape : List UInt64) (data : List UInt8) :
    (List.range shape.length).map
      (readDim (shape.flatMap (fun dim => beBytes 8 dim.toNat) ++ data)) = shape := by
  induction shape with
  | nil => rfl
  | cons d shape ih =>
    rw [length_cons, range_succ_eq_map, map_cons, map_map]
    congr 1
    · simp only [readDim, flatMap_cons, Nat.zero_mul, drop_zero, append_assoc]
      rw [take_left' (length_beBytes 8 _), beNat_beBytes_of_lt d.toNat_lt,
        UInt64.ofNat_toNat]
    · conv_rhs => rw [← ih]
      refine map_congr_left fun i _ => ?_
      simp only [Function.comp_apply, readDim, flatMap_cons, append_assoc]
      rw [show (i + 1) * 8 = 8 + i * 8 by omega, ← drop_drop,
        drop_left' (length_beBytes 8 _)]

lemma deserializeTensor_serialize {tensorId : String} {shape : List UInt64} {data : List UInt8}
    (hid : (utf8 tensorId).length < 2 ^ 32) (hshape : shape.length < 2 ^ 32) :
    deserializeTensor (beBytes 4 (utf8 tensorId).length ++ utf8 tensorId ++ beBytes 4 shape.length
      ++ shape.flatMap (fun dim => beBytes 8 dim.toNat) ++ data)
      = .ok (.tensorData tensorId shape data) := by
  set id := utf8 tensorId with hidDef
  set dims := shape.flatMap (fun dim => beBytes 8 dim.toNat) with hdims
  have hlen : dims.length = shape.length * 8 := length_flatMap_dims shape
  have hidLen : beNat ((beBytes 4 id.length ++ id ++ beBytes 4 shape.length ++ dims ++ data).take 4)
      = id.length := by
    simp only [append_assoc]
    rw [take_left' (length_beBytes 4 _), beNat_beBytes_of_lt (by omega)]
  have hidBytes : ((beBytes 4 id.length ++ id ++ beBytes 4 shape.length ++ dims ++ data).drop
      4).take id.length = id := by
    simp only [append_assoc]
    rw [drop_left' (length_beBytes 4 _), take_left' rfl]
  have hndims : beNat (((beBytes 4 id.length ++ id ++ beBytes 4 shape.length ++ dims ++ data).drop
      (4 + id.length)).take 4) = shape.length := by
    rw [show beBytes 4 id.length ++ id ++ beBytes 4 shape.length ++ dims ++ data
        = (beBytes 4 id.length ++ id) ++ (beBytes 4 shape.length ++ (dims ++ data)) by
      simp, drop_left' (by simp), take_left' (length_beBytes 4 _),
      beNat_beBytes_of_lt (by omega)]
  have hrest : (beBytes 4 id.length ++ id ++ beBytes 4 shape.length ++ dims ++ data).drop
      (4 + id.length + 4) = dims ++ data := by
    rw [show beBytes 4 id.length ++ id ++ beBytes 4 shape.length ++ dims ++ data
        = (beBytes 4 id.length ++ id ++ beBytes 4 shape.length) ++ (dims ++ data) by
      simp, drop_left' (by simp; omega)]
  have htotal : (beBytes 4 id.length ++ id ++ beBytes 4 shape.length ++ dims ++ data).length
      = 4 + id.length + 4 + shape.length * 8 + data.length := by
    simp only [length_append, length_beBytes, hlen]
  unfold deserializeTensor
  simp only [hidLen, hidBytes, hndims, hrest, htotal]
  rw [if_neg (by omega), if_neg (by omega), ofUtf8?_utf8]
  dsimp only
  rw [if_neg (by omega), readDim_flatMap, ← hlen, drop_left' rfl]

lemma deserializeControl_serialize {operation : String} {payload : List UInt8}
    (hop : (utf8 operation).length < 2 ^ 32) :
    deserializeControl (beBytes 4 (utf8 operation).length ++ utf8 operation ++ payload)
      = .ok (.control operation payload) := by
  set op := utf8 operation with hopDef
  have hopLen : beNat ((beBytes 4 op.length ++ op ++ payload).take 4) = op.length := by
    simp only [append_assoc]
    rw [take_left' (length_beBytes 4 _), beNat_beBytes_of_lt (by omega)]
  have hopBytes : ((beBytes 4 op.length ++ op ++ payload).drop 4).take op.length = op := by
    simp only [append_assoc]
    rw [drop_left' (length_beBytes 4 _), take_left' rfl]
  have hrest : (beBytes 4 op.length ++ op ++ payload).drop (4 + op.length) = payload :=
    drop_left' (by simp)
  have htotal : (beBytes 4 op.length ++ op ++ payload).length
      = 4 + op.length + payload.length := by
    simp only [length_append, length_beBytes]
  unfold deserializeControl
  simp only [hopLen, hopBytes, hrest]
  rw [if_neg (by omega), if_neg (by omega), ofUtf8?_utf8]

lemma deserializeMessage_serializeMessage {message : TransportMessage} (h : message.SizesFit) :
    deserializeMessage (serializeMessage message).1 (serializeMessage message).2 = .ok message := by
  cases message with
  | tensorData tensorId shape data => exact deserializeTensor_serialize h.1 h.2
  | control operation payload => exact deserializeControl_serialize h

/-- A frame within the limit is read whole, whatever follows it. -/
lemma readFrame_frame {limit : UInt64} {kind : MessageKind} {payload : List UInt8}
    (h : payload.length ≤ limit.toNat) (rest : List UInt8) :
    readFrame limit.toNat (frame kind payload ++ rest) = .frame kind payload rest := by
  have hlt := limit.toNat_lt
  have hlen : beNat ((beBytes 8 payload.length ++ payload ++ rest).take 8) = payload.length := by
    rw [append_assoc, take_left' (length_beBytes 8 _),
      beNat_beBytes_of_lt (by omega)]
  have hpayload : ((beBytes 8 payload.length ++ payload ++ rest).drop 8).take payload.length
      = payload := by
    rw [append_assoc, drop_left' (length_beBytes 8 _), take_left' rfl]
  have hrest : (beBytes 8 payload.length ++ payload ++ rest).drop (8 + payload.length) = rest :=
    drop_left' (by simp)
  have htotal : (beBytes 8 payload.length ++ payload ++ rest).length
      = 8 + payload.length + rest.length := by
    simp only [length_append, length_beBytes]
  rw [frame, cons_append]
  simp only [readFrame, MessageKind.tryFrom_toU8, hlen, hpayload, hrest]
  rw [if_neg (by omega), if_neg (by omega), if_neg (by omega)]

end Mlxcel.Transport
