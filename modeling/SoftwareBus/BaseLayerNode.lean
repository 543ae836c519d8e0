import SoftwareBus.Connection

/-! A base layer node with any callbacks. Its relay loops, its send loops and the
calls made on it are tasks that take turns where they wait; a step is what one of
them does from one wait to the next. -/
namespace SoftwareBus

inductive Sender (D : Type)
  /-- There is no such task, or it has ended. -/
  | idle
  | starting
  /-- For the data to be taken. -/
  | sending (data : D)
  /-- In the connection error callback. -/
  | reporting
  /-- For the socket to close, after an error. -/
  | closing
  deriving DecidableEq

structure QueuedConnection (D : Type) extends Connection D where
  sendQueue : List D
  queuedBytes : ℕ
  sender : Sender D
  senderCancelled : Bool
  /-- How many send loops have been started and have not ended. -/
  sendLoops : ℕ
  /-- All data ever put into the queue. -/
  accepted : List D
  /-- The data written to the socket while the connection was open. -/
  written : List D

inductive NodeTask (C : Type)
  | loop (c : C)
  | sender (c : C)
  deriving DecidableEq

inductive NodeCall (C D : Type)
  /-- `_relay_to`: in the connection error callback of a target. -/
  | reporting (c : C) (rest : List C) (data : D)
  /-- `_relay_to`: for a target to close that its queue was too full of. -/
  | closingFailed (c : C) (rest : List C) (data : D)
  /-- `close_connection` -/
  | closing (c : C)
  /-- `close`: for one of the connections to close. -/
  | closingAll (c : C) (rest : List C)
  /-- `close`: for the servers to close. -/
  | waiting

structure NodeLimits (D : Type) where
  length : D → ℕ
  maxPayloadLength : ℕ
  sendQueueLimit : ℕ

structure NodeRecord (C : Type) where
  upstreamConnections : List C
  downstreamConnections : List C
  /-- The connections that `close` or `close_connection` has called `Connection.close` on. -/
  closed : C → Bool
  /-- The calls of the connection error callbacks: whether the connection was listed then, and
  whether it had been closed. -/
  reports : List (C × Bool × Bool)

def NodeRecord.allConnections {C : Type} (r : NodeRecord C) : List C :=
  r.downstreamConnections++r.upstreamConnections

structure BaseLayerNode (C K D : Type) extends NodeRecord C where
  /-- `_closed` -/
  isClosed : Bool
  conn : C → QueuedConnection D
  /-- The calls that wait, each with the task that made it, if it is one of the node's. -/
  calls : K → Option (NodeCall C D × Option (NodeTask C))
  /-- The connections that a closing call or the handling of an error is over for. -/
  finished : C → Bool

inductive BaseAction (C K D : Type)
  /-- A connection is established, or accepted. -/
  | start (c : C) (fromUpstream : Bool)
  | relay (k : K) (task : Option (NodeTask C)) (targets : List C) (data : D)
  /-- The connection error callback ends. -/
  | reported (k : K)
  | closeConnection (k : K) (task : Option (NodeTask C)) (c : C)
  | close (k : K) (task : Option (NodeTask C))
  /-- What a call waits for has closed. -/
  | closed (k : K)
  /-- What a call waits for is cancelled or fails. -/
  | interrupt (k : K)
  | loop (c : C) (ev : LoopEvent D)
  | loopFailed (c : C)
  | loopReported (c : C)
  | loopClosed (c : C)
  | send (c : C)
  | sent (c : C)
  | sendFailed (c : C)
  | sendCancelled (c : C)
  | sendReported (c : C)
  | sendClosed (c : C)
  deriving DecidableEq

namespace QueuedConnection

variable {D : Type}

def unmade : QueuedConnection D := ⟨.unmade,[],0,.idle,false,0,[],[]⟩

def new : QueuedConnection D := ⟨.new .reading,[],0,.idle,false,0,[],[]⟩

/-- `Connection.close` up to where it waits for the socket. -/
def close (c : QueuedConnection D) (ownLoop ownSender : Bool) : QueuedConnection D :=
  {c with
    toConnection := c.toConnection.close ownLoop
    sendQueue := []
    queuedBytes := 0
    senderCancelled := match c.sender with
      | .idle => c.senderCancelled
      | _ => c.senderCancelled || !ownSender}

/-- What `_relay_to` does with a target whose queue has room. -/
def enqueue (c : QueuedConnection D) (data : D) (length : ℕ) : QueuedConnection D :=
  let c' := {c with
    sendQueue := c.sendQueue++[data]
    queuedBytes := c.queuedBytes+length
    accepted := c.accepted++[data]}
  match c.sender with
  | .idle => {c' with sender := .starting, senderCancelled := false, sendLoops := c.sendLoops+1}
  | _ => c'

def endSender (c : QueuedConnection D) : QueuedConnection D :=
  {c with sender := .idle, senderCancelled := false, sendLoops := c.sendLoops-1}

/-- The head of the loop of `_send_loop`. -/
def sendNext (c : QueuedConnection D) : QueuedConnection D :=
  match c.sendQueue with
  | [] => c.endSender
  | data::_ =>
    {c with
      sender := .sending data
      written := if c.closing then c.written else c.written++[data]}

/-- `_send_loop` once some data have been taken. -/
def taken (c : QueuedConnection D) (length : ℕ) : QueuedConnection D :=
  if c.closing then c.endSender
  else sendNext {c with sendQueue := c.sendQueue.tail, queuedBytes := c.queuedBytes-length}

@[simp] theorem close_toConnection (c : QueuedConnection D) (ownLoop ownSender : Bool) :
    (c.close ownLoop ownSender).toConnection = c.toConnection.close ownLoop := rfl

@[simp] theorem enqueue_toConnection (c : QueuedConnection D) (data : D) (length : ℕ) :
    (c.enqueue data length).toConnection = c.toConnection := by
  unfold enqueue
  split <;> rfl

@[simp] theorem endSender_toConnection (c : QueuedConnection D) :
    c.endSender.toConnection = c.toConnection := rfl

@[simp] theorem sendNext_toConnection (c : QueuedConnection D) :
    c.sendNext.toConnection = c.toConnection := by
  unfold sendNext
  split <;> rfl

@[simp] theorem taken_toConnection (c : QueuedConnection D) (length : ℕ) :
    (c.taken length).toConnection = c.toConnection := by
  unfold taken
  split
  · rfl
  · exact sendNext_toConnection _

end QueuedConnection

namespace BaseLayerNode

variable {C K D : Type}

def init : BaseLayerNode C K D where
  upstreamConnections := []
  downstreamConnections := []
  isClosed := false
  conn _ := .unmade
  calls _ := none
  closed _ := false
  reports := []
  finished _ := false

def canCall (s : BaseLayerNode C K D) : Option (NodeTask C) → Bool
  | none => true
  | some (.loop c) => (s.conn c).inCallback
  | some (.sender c) => match (s.conn c).sender with
    | .reporting => true
    | _ => false

variable [DecidableEq C] [DecidableEq K]

def setCall (s : BaseLayerNode C K D) (k : K) (call : NodeCall C D) (task : Option (NodeTask C)) :
    BaseLayerNode C K D := {s with calls := Function.update s.calls k (some (call,task))}

def endCall (s : BaseLayerNode C K D) (k : K) : BaseLayerNode C K D :=
  {s with calls := Function.update s.calls k none}

def setConn (s : BaseLayerNode C K D) (c : C) (x : QueuedConnection D) : BaseLayerNode C K D :=
  {s with conn := Function.update s.conn c x}

def finish (s : BaseLayerNode C K D) (c : C) : BaseLayerNode C K D :=
  {s with finished := fun d => s.finished d || (decide (d = c) && (s.conn d).made)}

/-- `source_list.remove(connection)`; a connection is in one list, and once. -/
def unlist (s : BaseLayerNode C K D) (c : C) : BaseLayerNode C K D :=
  {s with
    upstreamConnections := s.upstreamConnections.erase c
    downstreamConnections := s.downstreamConnections.erase c}

/-- `_handle_connection_error` for a listed connection, up to the connection error callback. -/
def lose (s : BaseLayerNode C K D) (c : C) : BaseLayerNode C K D :=
  {s.unlist c with reports := s.reports++[(c,decide (c ∈ s.allConnections),s.closed c)]}

/-- `Connection.close`, called by a task. -/
def shut (s : BaseLayerNode C K D) (c : C) (task : Option (NodeTask C)) : BaseLayerNode C K D :=
  s.setConn c ((s.conn c).close (task = some (.loop c)) (task = some (.sender c)))

/-- The loop of `_relay_to`, up to a target it has to drop; with that target and the rest. -/
def relayTo (lim : NodeLimits D) (s : BaseLayerNode C K D) (data : D) :
    List C → BaseLayerNode C K D × Option (C × List C)
  | [] => (s,none)
  | c::rest =>
    if lim.sendQueueLimit < (s.conn c).queuedBytes+lim.length data then
      if c ∈ s.allConnections then (s.lose c,some (c,rest))
      else (s.finish c).relayTo lim data rest
    else (s.setConn c ((s.conn c).enqueue data (lim.length data))).relayTo lim data rest

/-- `_relay_to` from its loop on. -/
def relay (lim : NodeLimits D) (s : BaseLayerNode C K D) (k : K) (task : Option (NodeTask C))
    (targets : List C) (data : D) : BaseLayerNode C K D :=
  match s.relayTo lim data targets with
  | (t,none) => t.endCall k
  | (t,some (c,rest)) => t.setCall k (.reporting c rest data) task

/-- The loop of `close`, up to a connection it has to wait for; with that one and the rest. -/
def closeAll (s : BaseLayerNode C K D) (task : Option (NodeTask C)) :
    List C → BaseLayerNode C K D × Option (C × List C)
  | [] => ({s with upstreamConnections := [], downstreamConnections := []},none)
  | c::rest =>
    let t := {s.shut c task with closed := Function.update s.closed c true}
    if (s.conn c).closing then t.closeAll task rest else (t,some (c,rest))

/-- `close` from its loop on. -/
def closeRest (s : BaseLayerNode C K D) (k : K) (task : Option (NodeTask C)) (cs : List C) :
    BaseLayerNode C K D :=
  match s.closeAll task cs with
  | (t,none) => t.setCall k .waiting task
  | (t,some (c,rest)) => t.setCall k (.closingAll c rest) task

/-- `_relay_to` once the connection error callback of a target has ended. -/
def closeLost (lim : NodeLimits D) (s : BaseLayerNode C K D) (k : K) (task : Option (NodeTask C))
    (c : C) (rest : List C) (data : D) : BaseLayerNode C K D :=
  if (s.conn c).closing then ((s.shut c task).finish c).relay lim k task rest data
  else (s.shut c task).setCall k (.closingFailed c rest data) task

def step (lim : NodeLimits D) (s : BaseLayerNode C K D) :
    BaseAction C K D → Option (BaseLayerNode C K D)
  | .start c fromUpstream =>
    if (s.conn c).made then none
    else if s.isClosed then some s
    else
      let t := s.setConn c .new
      some (if fromUpstream then {t with upstreamConnections := s.upstreamConnections++[c]}
        else {t with downstreamConnections := s.downstreamConnections++[c]})
  | .relay k task targets data =>
    if (s.calls k).isNone ∧ s.canCall task then
      some (if lim.maxPayloadLength < lim.length data then s else s.relay lim k task targets data)
    else none
  | .reported k =>
    match s.calls k with
    | some (.reporting c rest data,task) => some (s.closeLost lim k task c rest data)
    | _ => none
  | .closeConnection k task c =>
    if (s.calls k).isNone ∧ s.canCall task then
      if c ∈ s.allConnections then
        let t := {(s.unlist c).shut c task with closed := Function.update s.closed c true}
        some (if (s.conn c).closing then t.finish c else t.setCall k (.closing c) task)
      else some (s.finish c)
    else none
  | .close k task =>
    if (s.calls k).isNone ∧ s.canCall task then
      some ({s with isClosed := true}.closeRest k task s.allConnections)
    else none
  | .closed k =>
    match s.calls k with
    | some (.closingFailed c rest data,task) => some ((s.finish c).relay lim k task rest data)
    | some (.closing c,_) => some ((s.endCall k).finish c)
    | some (.closingAll _ rest,task) => some (s.closeRest k task rest)
    | some (.waiting,_) => some {s.endCall k with finished := fun c => s.finished c || (s.conn c).made}
    | _ => none
  | .interrupt k =>
    match s.calls k with
    -- the `finally` of `_handle_connection_error`, and the rest of the targets is given up
    | some (.reporting c _ data,task) => some (s.closeLost lim k task c [] data)
    | some _ => some (s.endCall k)
    | none => none
  | .loop c ev => ((s.conn c).loopStep ev).map fun x => s.setConn c {s.conn c with toConnection := x}
  | .loopFailed c =>
    if (s.conn c).loop = .reading ∧ (s.conn c).cancelled = false then
      some (if c ∈ s.allConnections then (s.lose c).setConn c {s.conn c with loop := .reporting}
        else (s.setConn c {s.conn c with loop := .ended}).finish c)
    else none
  | .loopReported c =>
    if (s.conn c).loop = .reporting then
      some (if (s.conn c).closing then
          (s.setConn c {(s.conn c).close true false with loop := .ended}).finish c
        else s.setConn c {(s.conn c).close true false with loop := .closing})
    else none
  | .loopClosed c =>
    if (s.conn c).loop = .closing then
      some ((s.setConn c {s.conn c with loop := .ended}).finish c)
    else none
  | .send c =>
    match (s.conn c).sender with
    | .starting =>
      some (s.setConn c (if (s.conn c).senderCancelled then (s.conn c).endSender
        else (s.conn c).sendNext))
    | _ => none
  | .sent c =>
    match (s.conn c).sender with
    | .sending data => some (s.setConn c ((s.conn c).taken (lim.length data)))
    | _ => none
  | .sendFailed c =>
    match (s.conn c).sender with
    | .sending _ =>
      some (if c ∈ s.allConnections then (s.lose c).setConn c {s.conn c with sender := .reporting}
        else (s.setConn c (s.conn c).endSender).finish c)
    | _ => none
  | .sendCancelled c =>
    match (s.conn c).sender with
    | .sending _ => if (s.conn c).senderCancelled then some (s.setConn c (s.conn c).endSender) else none
    | _ => none
  | .sendReported c =>
    match (s.conn c).sender with
    | .reporting =>
      some (if (s.conn c).closing then
          (s.setConn c ((s.conn c).close false true).endSender).finish c
        else s.setConn c {(s.conn c).close false true with sender := .closing})
    | _ => none
  | .sendClosed c =>
    match (s.conn c).sender with
    | .closing => some ((s.setConn c (s.conn c).endSender).finish c)
    | _ => none

/-- The connection whose error a step starts to handle, if it is listed. -/
def dropped (lim : NodeLimits D) (s : BaseLayerNode C K D) : BaseAction C K D → Option C
  | .relay _ _ targets data =>
    if lim.maxPayloadLength < lim.length data then none
    else (s.relayTo lim data targets).2.map Prod.fst
  | .reported k =>
    match s.calls k with
    | some (.reporting c rest data,task) =>
      if (s.conn c).closing then
        (((s.shut c task).finish c).relayTo lim data rest).2.map Prod.fst
      else none
    | _ => none
  | .closed k =>
    match s.calls k with
    | some (.closingFailed c rest data,_) => ((s.finish c).relayTo lim data rest).2.map Prod.fst
    | _ => none
  | .loopFailed c | .sendFailed c => if c ∈ s.allConnections then some c else none
  | _ => none

def firstOpen (s : BaseLayerNode C K D) (cs : List C) : Option C :=
  cs.find? fun c => !(s.conn c).closing

/-- The open connection that a step calls `Connection.close` on, and the task that does it. -/
def closes (s : BaseLayerNode C K D) (a : BaseAction C K D) : Option (C × Option (NodeTask C)) :=
  match a with
  | .reported k | .interrupt k =>
    match s.calls k with
    | some (.reporting c _ _,task) => (s.firstOpen [c]).map fun c => (c,task)
    | _ => none
  | .closeConnection _ task c =>
    if c ∈ s.allConnections then (s.firstOpen [c]).map fun c => (c,task) else none
  | .close _ task => (s.firstOpen s.allConnections).map fun c => (c,task)
  | .closed k =>
    match s.calls k with
    | some (.closingAll _ rest,task) => (s.firstOpen rest).map fun c => (c,task)
    | _ => none
  | .loopReported c => (s.firstOpen [c]).map fun c => (c,some (.loop c))
  | .sendReported c => (s.firstOpen [c]).map fun c => (c,some (.sender c))
  | _ => none

end BaseLayerNode
end SoftwareBus
