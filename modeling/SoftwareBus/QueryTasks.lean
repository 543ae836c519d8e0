import SoftwareBus.NodeTasks

/-! A node's tasks together with its reachability queries and its `close`. A query that is
forwarded has a task of its own, which starts later than the handler that opened the query. -/
namespace SoftwareBus

structure Forwarding (C I Q : Type) where
  source : C
  queryId : Q
  targetNodeId : I
  targets : List C

/-- What `_collect` was called for: a query to answer `source`, or the node's own. -/
structure Collecting (C Q : Type) where
  queryId : Q
  source : Option C

inductive Closing (C : Type)
  /-- The loop that closes the connections, of which `rest` are left. -/
  | sockets (rest all : List C)
  /-- The servers; the lists are empty. -/
  | servers (all : List C)

structure QueryTasks (C K I Q P : Type) where
  tasks : NodeTasks C K I Q P
  forwarding : List (Forwarding C I Q)
  collecting : K → Option (Collecting C Q)
  closing : K → Option (Closing C)

inductive QueryAction (C K I Q P : Type)
  /-- What the tasks do that are no query tasks, and what query tasks do while they send. -/
  | task (a : TaskAction C K I Q P)
  /-- `_ask_own_query` -/
  | ask (k : K) (queryId : Q) (targetNodeId : I)
  /-- A `_forward_query` task starts. -/
  | forward (k : K) (i : ℕ)
  /-- A `_forward_query` task is cancelled before it starts. -/
  | unscheduled (i : ℕ)
  /-- The query is answered, or its time is over. An entry of `_queries` that is another query's
  by now (`same` is false) stays. -/
  | collected (k : K) (r : ReachabilityResult) (same : Bool)
  /-- The query task is cancelled, or `_send_to` has raised. -/
  | uncollected (k : K) (same : Bool)
  | close (k : K)
  | closeSocket (k : K)
  | closeLists (k : K)
  | closeRest (k : K)
  /-- `close` is cancelled, or a socket or server closes with an error. -/
  | closeFailed (k : K)

/-- Sending and what `_answer_now` reads are the query tasks' own. -/
def TaskAction.ofQueries {C K I Q P : Type} : TaskAction C K I Q P → Bool
  | .send _ _ _ | .check _ _ => true
  | _ => false

namespace WiredNode

variable {C I Q P : Type} [DecidableEq C] [DecidableEq I] [DecidableEq Q]

/-- The rest of the node's `close`. -/
def closeRest (n : WiredNode C I Q P) (all : List C) : WiredNode C I Q P :=
  let n' := all.foldl (fun n c =>
    n.setNode {n.toPubSubNode with toCheckState := n.forgetConnection c}) n
  {n' with
    downstreamSubscriptions := .empty
    upstreamSubscriptions := .empty
    peerNodeIds := fun _ => none
    draining := fun _ => none
    queries := fun _ => none}

/-- The `finally` of `_collect`, and that of `_ask_own_query`. -/
def endQuery (n : WiredNode C I Q P) (w : Collecting C Q) (same : Bool) : WiredNode C I Q P :=
  let n' := if same then
      n.setNode {n.toPubSubNode with toCheckState := n.closeQuery w.queryId}
    else n
  if w.source.isNone then {n' with checking := false} else n'

end WiredNode

namespace QueryTasks

variable {C K I Q P : Type} [DecidableEq C] [DecidableEq K] [DecidableEq I] [DecidableEq Q]

def init (nodeId : I) : QueryTasks C K I Q P :=
  ⟨.init nodeId,[],fun _ => none,fun _ => none⟩

def opened (s t : NodeTasks C K I Q P) : TaskAction C K I Q P → List (Forwarding C I Q)
  | .receive c (.query queryId targetNodeId) =>
    match s.node.queries queryId,t.node.queries queryId with
    | none,some o => [⟨c,queryId,targetNodeId,o.query.targets⟩]
    | _,_ => []
  | _ => []

def send (s : QueryTasks C K I Q P) (k : K) (n : WiredNode C I Q P) (targets : List C)
    (m : Message I Q P) : Option (QueryTasks C K I Q P) :=
  if s.tasks.running = none then
    (s.tasks.start (.call k) (n,[.send targets m])).map fun t => {s with tasks := t}
  else none

def start (s : QueryTasks C K I Q P) (k : K) (w : Collecting C Q) (n : WiredNode C I Q P)
    (targets : List C) (targetNodeId : I) : Option (QueryTasks C K I Q P) :=
  if (s.collecting k).isNone then
    ({s with collecting := Function.update s.collecting k (some w)}).send k n targets
      (.query w.queryId targetNodeId)
  else none

def setNode (s : QueryTasks C K I Q P) (n : WiredNode C I Q P) : QueryTasks C K I Q P :=
  {s with tasks := {s.tasks with node := n}}

def ready (s : QueryTasks C K I Q P) (k : K) : Option (Collecting C Q) :=
  if s.tasks.running = none ∧ s.tasks.stack (.call k) = [] then s.collecting k else none

def step (cfg : TaskSettings C I Q P) (s : QueryTasks C K I Q P) :
    QueryAction C K I Q P → Option (QueryTasks C K I Q P)
  | .task a =>
    if a.ofQueries = false then
      (s.tasks.step cfg a).map fun t =>
        {s with tasks := t, forwarding := s.forwarding++opened s.tasks t a}
    else none
  | .ask k queryId targetNodeId =>
    let n := s.tasks.node
    match n.activeNodeConnections with
    | [] => none
    | c::cs =>
      -- a Query ID is never used twice
      if n.queries queryId = none then
        let o : OpenQuery C I := ⟨.new (c::cs),targetNodeId,none,true⟩
        s.start k ⟨queryId,none⟩
          {n.setNode {n.toPubSubNode with toCheckState := n.openQuery queryId o} with
            checking := true}
          (c::cs) targetNodeId
      else none
  | .forward k i =>
    match s.forwarding[i]? with
    | some w =>
      ({s with forwarding := s.forwarding.eraseIdx i}).start k ⟨w.queryId,some w.source⟩
        s.tasks.node w.targets w.targetNodeId
    | none => none
  | .unscheduled i => some {s with forwarding := s.forwarding.eraseIdx i}
  | .collected k r same =>
    match s.ready k with
    | some w =>
      if r = .unknown ∨ (s.tasks.node.queries w.queryId).bind (fun o => o.query.result) = some r then
        let t := {s with collecting := Function.update s.collecting k none}
        let n := s.tasks.node.endQuery w same
        match w.source with
        | some c => if c ∈ n.allConnections then t.send k n [c] (.reply w.queryId r) else t.setNode n
        | none => t.setNode n
      else none
    | none => none
  | .uncollected k same =>
    match s.ready k with
    | some w => ({s with collecting := Function.update s.collecting k none}).setNode
        (s.tasks.node.endQuery w same)
    | none => none
  | .close k =>
    if s.tasks.running = none ∧ (s.closing k).isNone then
      let all := s.tasks.node.allConnections
      some {s with closing := Function.update s.closing k (some (.sockets all all))}
    else none
  | .closeSocket k =>
    match s.closing k with
    | some (.sockets (c::cs) all) =>
      if s.tasks.running = none then
        some {s with
          tasks := (s.tasks.cancelTasks (.call k) c).discard c
          closing := Function.update s.closing k (some (.sockets cs all))}
      else none
    | _ => none
  | .closeLists k =>
    match s.closing k with
    | some (.sockets [] all) =>
      if s.tasks.running = none then
        some {s.setNode {s.tasks.node with upstreamConnections := [], downstreamConnections := []}
          with closing := Function.update s.closing k (some (.servers all))}
      else none
    | _ => none
  | .closeRest k =>
    match s.closing k with
    | some (.servers all) =>
      if s.tasks.running = none then
        some {s.setNode (s.tasks.node.closeRest all) with
          closing := Function.update s.closing k none}
      else none
    | _ => none
  | .closeFailed k => some {s with closing := Function.update s.closing k none}

end QueryTasks
end SoftwareBus
