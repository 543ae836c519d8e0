import SoftwareBus.NodeStep
import SoftwareBus.Routing

/-! A publish/subscribe node whose handlers take turns. A handler waits in one place
only, `Connection.close`, for the socket to close: one that drops a connection on the
way is interrupted there and goes on later, or never. What is left of the handlers a
task is in is a stack of frames. The cycle check is any task that ends it. -/
namespace SoftwareBus

inductive HandlerTask (C K : Type)
  /-- `_relay_loop` -/
  | loop (c : C)
  /-- `_send_loop` -/
  | sender (c : C)
  /-- What makes a connection, and checks it. -/
  | setup (c : C)
  /-- Any other task. -/
  | call (k : K)
  deriving DecidableEq

/-- What is left of a handler. -/
inductive Frame (C I Q P : Type)
  /-- The loop of `_relay_to`. -/
  | send (targets : List C) (m : Message I Q P)
  /-- The loop of `_drop_connection`. -/
  | drop (c : C) (fromUpstream : Bool) (subjects : List Str)
  /-- `Connection.close` in the `finally` of `_handle_connection_error`, or in
  `close_connection`; what it interrupts is raised again after it if `raises`. -/
  | shut (c : C) (raises : Bool)
  /-- `Connection.close`, waiting for the socket. -/
  | wait (c : C) (raises : Bool)
  /-- The loop of `_activate`, and its `finally`. -/
  | drain (c : C)
  /-- What is done when `_activate` raises, up to `_check_new_connection`. -/
  | undrain (c : C)
  /-- The rest of `close_connection`. -/
  | forget (c : C) (fromUpstream : Bool)
  deriving DecidableEq

/-- A node with the queues of its connections, and a record of its messages. -/
structure WiredNode (C I Q P : Type) extends PubSubNode C I Q P where
  made : C → Bool
  sendQueue : C → List (Message I Q P)
  /-- `writer.is_closing()` -/
  shut : C → Bool
  /-- All that has been queued on a connection since it was last made active. -/
  queued : C → List (Message I Q P)
  /-- The subscription and publish messages read from a connection. -/
  received : C → List (Message I Q P)
  /-- Those of them that `_handle_message` has been called with. -/
  processed : C → List (Message I Q P)
  /-- Whether the cycle check has accepted the connection, once it has come to an end. -/
  verdict : C → Option Bool

structure NodeTasks (C K I Q P : Type) where
  node : WiredNode C I Q P
  stack : HandlerTask C K → List (Frame C I Q P)
  cancelled : HandlerTask C K → Bool
  /-- The task that is not waiting. -/
  running : Option (HandlerTask C K)

structure TaskSettings (C I Q P : Type) extends Settings C I Q P where
  sendQueueLimit : ℕ

inductive TaskAction (C K I Q P : Type)
  | establish (c : C)
  | accept (c : C)
  | receive (c : C) (m : Message I Q P)
  | loopFailed (c : C)
  /-- The peer takes the first message of the send queue. -/
  | taken (c : C)
  | sendFailed (c : C)
  /-- The cycle check accepts the connection. -/
  | activate (c : C)
  /-- The cycle check refuses the connection, finds it lost, or is cancelled. -/
  | abandon (c : C)
  | closeConnection (k : K) (c : C)
  /-- The cycle check or a query task sends a message. -/
  | send (k : K) (targets : List C) (m : Message I Q P)
  /-- The cycle check or a query task changes what `_answer_now` reads, in any way. -/
  | check (checking : Bool) (queries : Q → Option (OpenQuery C I))
  /-- The running task goes on by one frame. -/
  | run
  /-- The socket a task waits for has closed. -/
  | wake (k : HandlerTask C K)
  /-- The wait is cancelled. -/
  | cancel (k : HandlerTask C K)
  /-- The socket has closed with an error that is not a `ConnectionError`. -/
  | fail (k : HandlerTask C K)

namespace Frame

variable {C I Q P : Type}

def catches : Frame C I Q P → Bool
  | .shut _ _ | .drain _ => true
  | _ => false

def lost (fs : List (Frame C I Q P)) : List (Frame C I Q P) := fs.takeWhile fun f => !f.catches

/-- The stack once an exception has got to the frame that catches it. A cancellation is
raised again after `Connection.close`; `_call_logging_failure` takes any other. -/
def caught (cancelled : Bool) (fs : List (Frame C I Q P)) : List (Frame C I Q P) :=
  match fs.dropWhile fun f => !f.catches with
  | .shut c _::gs => .shut c cancelled::gs
  | .drain c::gs => .undrain c::gs
  | _ => []

end Frame

namespace WiredNode

variable {C I Q P : Type} [DecidableEq C] [DecidableEq I] [DecidableEq Q]

def queuedBytes (cfg : TaskSettings C I Q P) (n : WiredNode C I Q P) (c : C) : ℕ :=
  ((n.sendQueue c).map cfg.length).sum

def new (nodeId : I) : WiredNode C I Q P where
  toPubSubNode := .new nodeId
  made _ := false
  sendQueue _ := []
  shut _ := false
  queued _ := []
  received _ := []
  processed _ := []
  verdict _ := none

def setNode (n : WiredNode C I Q P) (p : PubSubNode C I Q P) : WiredNode C I Q P :=
  {n with toPubSubNode := p}

def sends (ds : List (PubSubNode.Send C I Q P)) : List (Frame C I Q P) :=
  ds.map fun d => .send d.1 d.2

/-- A connection to an upstream node, up to its first frame. -/
def establish (n : WiredNode C I Q P) (c : C) : WiredNode C I Q P × List (Frame C I Q P) :=
  let r := n.toPubSubNode.establish c
  ({n.setNode r.1 with made := Function.update n.made c true},sends r.2)

/-- A connection from a downstream node, up to its first frame. The subjects to tell it are
read here; the first frame can only wait once it has dropped the connection again. -/
def accept (n : WiredNode C I Q P) (c : C) : WiredNode C I Q P × List (Frame C I Q P) :=
  let r := n.toPubSubNode.accept c
  ({n.setNode r.1 with
    made := Function.update n.made c true
    queued := Function.update n.queued c []},sends r.2)

/-- `close_connection` up to `Connection.close`. -/
def unlisted (n : WiredNode C I Q P) (c : C) (fromUpstream : Bool) :
    WiredNode C I Q P × List (Frame C I Q P) :=
  (n.setNode {n.toPubSubNode with toCheckState := n.unlist c fromUpstream},
    [.shut c false,.forget c fromUpstream])

def enqueue (n : WiredNode C I Q P) (c : C) (m : Message I Q P) : WiredNode C I Q P :=
  {n with
    sendQueue := Function.update n.sendQueue c (n.sendQueue c++[m])
    queued := Function.update n.queued c (n.queued c++[m])}

/-- `_handle_connection_error` up to the loop of `_drop_connection`. -/
def connectionError (n : WiredNode C I Q P) (c : C) (fromUpstream : Bool) :
    WiredNode C I Q P × List (Frame C I Q P) :=
  if c ∈ n.connections fromUpstream then
    (n.setNode {n.toPubSubNode with toCheckState := (n.unlist c fromUpstream).forgetConnection c},
      [.drop c fromUpstream (n.taggedSubjects c fromUpstream),.shut c false])
  else (n,[])

/-- `_handle_message` for a message that is not held. -/
def handleMessage (n : WiredNode C I Q P) (c : C) (m : Message I Q P) (fromUpstream : Bool) :
    WiredNode C I Q P × List (Frame C I Q P) :=
  let r := n.toPubSubNode.handleMessage c m fromUpstream
  (n.setNode r.1,sends r.2)

/-- `_handle_message` for a routed message. -/
def process (n : WiredNode C I Q P) (c : C) (m : Message I Q P) (fromUpstream : Bool) :
    WiredNode C I Q P × List (Frame C I Q P) :=
  WiredNode.handleMessage
    {n with processed := Function.update n.processed c (n.processed c++[m])} c m fromUpstream

def onReceive (cfg : TaskSettings C I Q P) (n : WiredNode C I Q P) (c : C) (m : Message I Q P) :
    WiredNode C I Q P × List (Frame C I Q P) :=
  if hm : isRouted m = true then
    let n' := {n with received := Function.update n.received c (n.received c++[m])}
    match n.heldMessages c with
    | none => n'.process c m (cfg.fromUpstream c)
    | some held =>
      if cfg.heldMessagesLimit < held.size+cfg.length m then
        n'.connectionError c (cfg.fromUpstream c)
      else (n'.setNode {n.toPubSubNode with toCheckState := n.hold c ⟨m,hm⟩ (cfg.length m)},[])
  else n.handleMessage c m (cfg.fromUpstream c)

/-- `_activate` up to its loop. -/
def activate (n : WiredNode C I Q P) (c : C) (held : HeldMessages I Q P) :
    WiredNode C I Q P × List (Frame C I Q P) :=
  let n' := {n with
    pending := Function.update n.pending c none
    draining := Function.update n.draining c (some held)
    queued := Function.update n.queued c []
    verdict := Function.update n.verdict c (some true)}
  (n',sends (n.sendSubscriptions c)++[.drain c])

/-- The end of `_check_new_connection` for a connection it does not accept. -/
def refuse (n : WiredNode C I Q P) (c : C) : WiredNode C I Q P × List (Frame C I Q P) :=
  WiredNode.connectionError {n with verdict := Function.update n.verdict c (some false)} c true

/-- `_relay_to` for its first target. -/
def sendNext (cfg : TaskSettings C I Q P) (n : WiredNode C I Q P) (c : C) (cs : List C)
    (m : Message I Q P) : WiredNode C I Q P × List (Frame C I Q P) :=
  if cfg.sendQueueLimit < n.queuedBytes cfg c+cfg.length m then
    let r := n.connectionError c (c ∈ n.upstreamConnections)
    (r.1,r.2++[.send cs m])
  else (n.enqueue c m,[.send cs m])

def endDrain (n : WiredNode C I Q P) (c : C) : WiredNode C I Q P :=
  {n with draining := Function.update n.draining c none}

/-- The head of the loop of `_activate`. -/
def drainNext (n : WiredNode C I Q P) (c : C) : WiredNode C I Q P × List (Frame C I Q P) :=
  match n.draining c with
  | some ⟨(m,length)::ms,size⟩ =>
    let n' := {n with draining := Function.update n.draining c (some ⟨ms,size-length⟩)}
    let r := n'.process c m.1 true
    (r.1,r.2++[.drain c])
  | _ => (n.endDrain c,[])

/-- A frame, up to the next one; `Connection.close` is not among them. -/
def exec (cfg : TaskSettings C I Q P) (n : WiredNode C I Q P) :
    Frame C I Q P → WiredNode C I Q P × List (Frame C I Q P)
  | .send (c::cs) m => n.sendNext cfg c cs m
  | .drop c up (s::ss) =>
    let r := n.unsubscribe up s c
    (n.setNode r.1,sends r.2++[.drop c up ss])
  | .drain c => n.drainNext c
  | .undrain c => (n.endDrain c).connectionError c true
  | .forget c up =>
    (n.setNode {n.toPubSubNode with toCheckState := n.forgetConnection c},
      [.drop c up (n.taggedSubjects c up)])
  | .send [] _ | .drop _ _ [] | .shut _ _ | .wait _ _ => (n,[])

end WiredNode

namespace NodeTasks

variable {C K I Q P : Type} [DecidableEq C] [DecidableEq K] [DecidableEq I] [DecidableEq Q]

def init (nodeId : I) : NodeTasks C K I Q P := ⟨.new nodeId,fun _ => [],fun _ => false,none⟩

def start (s : NodeTasks C K I Q P) (k : HandlerTask C K)
    (r : WiredNode C I Q P × List (Frame C I Q P)) : Option (NodeTasks C K I Q P) :=
  if s.stack k = [] then
    some {s with
      node := r.1
      stack := Function.update s.stack k r.2
      running := some k}
  else none

def raise (s : NodeTasks C K I Q P) (k : HandlerTask C K) (cancelled : Bool)
    (fs : List (Frame C I Q P)) : NodeTasks C K I Q P :=
  let gs := Frame.caught cancelled fs
  {s with
    node := match k with
      | .loop c =>
        if cancelled = true ∧ gs = [] then s.node.setNode (s.node.endLoop c) else s.node
      | _ => s.node
    stack := Function.update s.stack k gs
    running := some k}

def closed (s : NodeTasks C K I Q P) (k : HandlerTask C K) (raises : Bool)
    (fs : List (Frame C I Q P)) : NodeTasks C K I Q P :=
  if raises then s.raise k true fs
  else {s with stack := Function.update s.stack k fs, running := some k}

/-- A cancellation reaches the tasks that `Connection.close` cancels, the calling one apart. -/
def cancelTasks (s : NodeTasks C K I Q P) (k : HandlerTask C K) (c : C) : NodeTasks C K I Q P :=
  {s with
    node :=
      if k ≠ .loop c ∧ s.stack (.loop c) = [] then s.node.setNode (s.node.endLoop c) else s.node
    cancelled := fun j => s.cancelled j ||
      (decide (j ≠ k) && decide (j = .loop c ∨ j = .sender c) && decide (s.stack j ≠ []))}

/-- What `Connection.close` does to the connection. -/
def discard (s : NodeTasks C K I Q P) (c : C) : NodeTasks C K I Q P :=
  {s with node := {s.node with
    sendQueue := Function.update s.node.sendQueue c []
    shut := Function.update s.node.shut c true}}

/-- `Connection.close` up to where it waits for the socket. -/
def close (s : NodeTasks C K I Q P) (k : HandlerTask C K) (c : C) (raises : Bool)
    (fs : List (Frame C I Q P)) : NodeTasks C K I Q P :=
  let t := (s.cancelTasks k c).discard c
  if s.node.shut c then t.closed k raises fs
  else {t with stack := Function.update t.stack k (.wait c raises::fs), running := none}

def resume (cfg : TaskSettings C I Q P) (s : NodeTasks C K I Q P) (k : HandlerTask C K) :
    NodeTasks C K I Q P :=
  match s.stack k with
  | [] => {s with running := none}
  | .shut c raises::fs => s.close k c raises fs
  | f::fs =>
    let r := s.node.exec cfg f
    {s with node := r.1, stack := Function.update s.stack k (r.2++fs)}

/-- The connection a task reads or sends to can be closed under it; other tasks can be
cancelled at any time. -/
def canCancel (s : NodeTasks C K I Q P) : HandlerTask C K → Bool
  | .loop c => s.cancelled (.loop c)
  | .sender c => s.cancelled (.sender c)
  | _ => true

def event (cfg : TaskSettings C I Q P) (s : NodeTasks C K I Q P) :
    TaskAction C K I Q P → Option (NodeTasks C K I Q P)
  | .establish c =>
    if s.node.made c = false ∧ cfg.fromUpstream c = true then
      s.start (.setup c) (s.node.establish c)
    else none
  | .accept c =>
    if s.node.made c = false ∧ cfg.fromUpstream c = false then
      s.start (.setup c) (s.node.accept c)
    else none
  | .receive c m =>
    if s.node.reading c = true then s.start (.loop c) (s.node.onReceive cfg c m) else none
  | .loopFailed c =>
    if s.node.reading c = true then
      s.start (.loop c)
        ((s.node.setNode (s.node.endLoop c)).connectionError c (cfg.fromUpstream c))
    else none
  | .taken c =>
    match s.node.sendQueue c with
    | [] => none
    | _::ms =>
      some {s with node := {s.node with sendQueue := Function.update s.node.sendQueue c ms}}
  | .sendFailed c =>
    if s.node.sendQueue c ≠ [] then
      s.start (.sender c) (s.node.connectionError c (c ∈ s.node.upstreamConnections))
    else none
  | .activate c =>
    match s.node.pending c with
    | some p =>
      if s.node.verdict c = none then s.start (.setup c) (s.node.activate c p.held) else none
    | none => none
  | .abandon c =>
    if s.node.made c = true ∧ cfg.fromUpstream c = true ∧ s.node.verdict c = none then
      s.start (.setup c) (s.node.refuse c)
    else none
  | .closeConnection k c =>
    if c ∈ s.node.allConnections then
      s.start (.call k) (s.node.unlisted c (c ∈ s.node.upstreamConnections))
    else none
  | .send k targets m =>
    if isRouted m = false then s.start (.call k) (s.node,[.send targets m]) else none
  | .check checking queries =>
    some {s with node := {s.node with checking := checking, queries := queries}}
  | .wake k =>
    match s.stack k with
    | .wait _ raises::fs => if s.cancelled k = false then some (s.closed k raises fs) else none
    | _ => none
  | .cancel k =>
    match s.stack k with
    | .wait _ _::fs =>
      if s.canCancel k = true then
        some ({s with cancelled := Function.update s.cancelled k false}.raise k true fs)
      else none
    | _ => none
  | .fail k =>
    match s.stack k with
    | .wait _ _::fs => if s.cancelled k = false then some (s.raise k false fs) else none
    | _ => none
  | .run => none

def step (cfg : TaskSettings C I Q P) (s : NodeTasks C K I Q P) (a : TaskAction C K I Q P) :
    Option (NodeTasks C K I Q P) :=
  match s.running,a with
  | some k,.run => some (s.resume cfg k)
  | some _,_ => none
  | none,a => s.event cfg a

end NodeTasks
end SoftwareBus
