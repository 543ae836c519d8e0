import SoftwareBus.NodeTasks

/-! The cycle checks of a node, taking turns: one for each `establish_connection` call. A check
has every step it can lose its connection in, `Lock.acquire` among them, run by a task of its
own. Whatever else a node does is a step of `PubSubNode`. -/
namespace SoftwareBus

inductive StepTask (Q : Type)
  | running
  /-- `_ask_own_query`, once it has set `_checking` -/
  | asking (queryId : Q)
  /-- The task has ended; `_ask_own_query` with its result. -/
  | returned (r : Option ReachabilityResult)
  | raised
  | cancelled

inductive CheckCall (I : Type)
  /-- The new connection callback, for the socket of a connection whose queue took no hello. -/
  | greeting
  | acquiring
  | awaitHello
  | sleeping (peerId : I) (attempt : ℕ)
  | asking (peerId : I) (attempt : ℕ)
  /-- The `finally` of `_unless_lost`, for the task it has cancelled. -/
  | cleaning (locked : Bool)
  | activating
  /-- `_handle_connection_error` at the end of `_check_new_connection` -/
  | leaving

inductive CheckTurn (I Q P : Type)
  | wait (call : CheckCall I)
  /-- `_unless_lost` starts a task. -/
  | start (call : CheckCall I)
  | accept (held : HeldMessages I Q P)
  /-- The head of the loop of `_activate`. -/
  | drain
  /-- The check ends with an exception, which is `CycleCheckRefused` if there is a reason. -/
  | fail (refused : Option Refusal) (release : Bool)
  | leave

structure CheckTasks (C I Q P : Type) where
  node : PubSubNode C I Q P
  made : C → Bool
  /-- `_check_lock.locked()` -/
  locked : Bool
  call : C → Option (CheckCall I)
  task : C → Option (StepTask Q)

inductive CheckAction (C I Q P : Type)
  /-- What a relay loop, a query task or a `close_connection` call does. -/
  | node (ev : NodeEvent C I Q P)
  | accept (c : C)
  /-- A `close_connection` call is cancelled, or the socket closes with an error. -/
  | closeFailed (c : C)
  | establish (c : C)
  | acquire (c : C)
  | slept (c : C)
  | ask (c : C) (queryId : Q)
  | queryDone (c : C)
  | queryTimeout (c : C)
  /-- A target of the query is dropped, and its socket closes with an error. -/
  | queryFailed (c : C)
  /-- A task that has been cancelled comes to its end. -/
  | taskCancelled (c : C)
  | helloTimeout (c : C)
  | resume (c : C)
  /-- The calling task is cancelled, or `_activate` raises. -/
  | cancel (c : C)

def StepTask.done {Q : Type} : StepTask Q → Bool
  | .running | .asking _ => false
  | .returned _ | .raised | .cancelled => true

namespace CheckCall

variable {I : Type}

/-- The call is in the `try` that releases the lock. -/
def holds : CheckCall I → Bool
  | .awaitHello | .sleeping _ _ | .asking _ _ | .activating => true
  | .cleaning locked => locked
  | .greeting | .acquiring | .leaving => false

/-- The call is in `_unless_lost`, and has not cancelled the task. -/
def stepping : CheckCall I → Bool
  | .acquiring | .sleeping _ _ | .asking _ _ => true
  | _ => false

end CheckCall

def NodeEvent.other {C I Q P : Type} : NodeEvent C I Q P → Bool
  | .receive _ _ | .connectionError _ _ | .closeConnection _ | .closed _ => true
  | .forward _ | .forwardDone _ | .forwardTimeout _ => true
  | _ => false

namespace PubSubNode

variable {C I Q P : Type} [DecidableEq C]

/-- The end of `_check_new_connection` for a connection it does not accept. -/
def giveUp (n : PubSubNode C I Q P) (c : C) (refused : Option Refusal) : PubSubNode C I Q P :=
  let n' := {n with refused := Function.update n.refused c refused}
  if c ∈ n.upstreamConnections then (n'.connectionError c true).1.endLoop c else n'

def endDrain (n : PubSubNode C I Q P) (c : C) : PubSubNode C I Q P :=
  {n with draining := Function.update n.draining c none}

/-- The `finally` of `_collect`, and of `_ask_own_query`. -/
def endQuery [DecidableEq Q] (n : PubSubNode C I Q P) (queryId : Q) : PubSubNode C I Q P :=
  {n with toCheckState := {n.closeQuery queryId with checking := false}}

end PubSubNode

namespace CheckTasks

variable {C I Q P : Type} [DecidableEq C] [DecidableEq I] [DecidableEq Q]

def init (nodeId : I) : CheckTasks C I Q P :=
  ⟨.new nodeId,fun _ => false,false,fun _ => none,fun _ => none⟩

/-- `_unless_lost`, up to where it waits. -/
def unlessLost (s : CheckTasks C I Q P) (c : C) (call : CheckCall I) : CheckTurn I Q P :=
  if (s.node.pending c).isSome then .start call else .fail none true

/-- The head of the loop of `_run_check`. -/
def attempt (cfg : Settings C I Q P) (s : CheckTasks C I Q P) (c : C) (peerId : I) (k : ℕ) :
    CheckTurn I Q P :=
  if k < cfg.maxCheckAttempts then
    s.unlessLost c (if k = 0 then .asking peerId k else .sleeping peerId k)
  else .fail (some .undetermined) true

/-- How a call goes on. The task that `_unless_lost` has cancelled ends without a result, or with
one that `_run_check` does not look at. -/
def turn (cfg : Settings C I Q P) (s : CheckTasks C I Q P) (c : C) : Option (CheckTurn I Q P) :=
  match s.call c,s.task c with
  | some .greeting,_ => some (.fail none false)
  | some .acquiring,some (.returned _) =>
    some (if (s.node.pending c).isSome then .wait .awaitHello else .fail none true)
  | some .awaitHello,_ =>
    match s.node.pending c with
    | none => some (.fail none true)
    | some ⟨none,_⟩ => none
    | some ⟨some peerId,_⟩ =>
      match s.node.refusalOf peerId with
      | some reason => some (.fail (some reason) true)
      | none => some (s.attempt cfg c peerId 0)
  | some (.sleeping peerId k),some (.returned _) => some (s.unlessLost c (.asking peerId k))
  | some (.asking peerId k),some (.returned (some r)) =>
    match s.node.pending c with
    | none => some (.fail none true)
    | some p =>
      match r with
      | .found => some (.fail (some .wouldCreateCycle) true)
      | .notFound => some (.accept p.held)
      | .unknown => some (s.attempt cfg c peerId (k+1))
  | some (.asking _ _),some .raised => some (.fail none true)
  | some (.cleaning locked),some t => if t.done = true then some (.fail none locked) else none
  | some .activating,_ => some .drain
  | some .leaving,_ => some .leave
  | some call,some t =>
    -- `pending.lost` ends the wait before the task does
    if call.stepping = true ∧ t.done = false ∧ s.node.pending c = none then
      some (.wait (.cleaning call.holds))
    else none
  | _,_ => none

/-- What a call does when its task is cancelled. `Lock.acquire` is awaited outside the `try`
that releases the lock. -/
def interrupt (s : CheckTasks C I Q P) (c : C) : Option (CheckTurn I Q P) :=
  match s.call c,s.task c with
  | some .greeting,_ | some .leaving,_ => some .leave
  | some .awaitHello,_ | some .activating,_ => some (.fail none true)
  | some (.cleaning locked),_ => some (.fail none locked)
  | some call,some t =>
    some (if t.done = true then .fail none call.holds else .wait (.cleaning call.holds))
  | _,_ => none

/-- The `finally` of `_activate`, if the call is in it. -/
def leaveDrain (s : CheckTasks C I Q P) (c : C) : PubSubNode C I Q P :=
  match s.call c with
  | some .activating => s.node.endDrain c
  | _ => s.node

def take (s : CheckTasks C I Q P) (c : C) : CheckTurn I Q P → CheckTasks C I Q P
  | .wait call => {s with call := Function.update s.call c (some call)}
  | .start call => {s with
      call := Function.update s.call c (some call)
      task := Function.update s.task c (some .running)}
  | .accept held => {s with
      node := {s.node with
        pending := Function.update s.node.pending c none
        draining := Function.update s.node.draining c (some held)}
      call := Function.update s.call c (some .activating)}
  | .drain =>
    match s.node.draining c with
    | some ⟨(m,length)::ms,size⟩ => {s with
        node := (PubSubNode.handleMessage
          {s.node with draining := Function.update s.node.draining c (some ⟨ms,size-length⟩)}
          c m.1 true).1}
    | _ => {s with
        node := s.node.endDrain c
        locked := false
        call := Function.update s.call c none}
  | .fail refused release => {s with
      node := (s.leaveDrain c).giveUp c refused
      locked := if release then false else s.locked
      call := Function.update s.call c (some .leaving)}
  | .leave => {s with call := Function.update s.call c none}

def next (cfg : Settings C I Q P) (s : CheckTasks C I Q P) :
    CheckAction C I Q P → Option (C × CheckTurn I Q P)
  | .resume c => (s.turn cfg c).map (c,·)
  | .cancel c => (s.interrupt c).map (c,·)
  | .helloTimeout c =>
    match s.call c,s.node.pending c with
    | some .awaitHello,some ⟨none,_⟩ => some (c,.fail (some .notIdentified) true)
    | _,_ => none
  | _ => none

def endQuery (s : CheckTasks C I Q P) (c : C) (queryId : Q) (t : StepTask Q) :
    CheckTasks C I Q P :=
  {s with
    node := s.node.endQuery queryId
    task := Function.update s.task c (some t)}

def establish (cfg : TaskSettings C I Q P) (s : CheckTasks C I Q P) (c : C) : CheckTasks C I Q P :=
  let n := (s.node.establish c).1
  if cfg.sendQueueLimit < cfg.length (.hello n.nodeId) then
    {s with
      node := (n.connectionError c true).1.endLoop c
      made := Function.update s.made c true
      call := Function.update s.call c (some .greeting)}
  else
    {s with
      node := n
      made := Function.update s.made c true
      call := Function.update s.call c (some .acquiring)
      task := Function.update s.task c (some .running)}

/-- What the tasks of the checks, and everything but the checks, do. -/
def event (cfg : TaskSettings C I Q P) (s : CheckTasks C I Q P) :
    CheckAction C I Q P → Option (CheckTasks C I Q P)
  | .node ev =>
    if ev.other = true then (s.node.step cfg.toSettings ev).map fun r => {s with node := r.1}
    else none
  | .accept c =>
    if s.made c = false ∧ cfg.fromUpstream c = false then
      some {s with node := (s.node.accept c).1, made := Function.update s.made c true}
    else none
  | .closeFailed c =>
    if s.node.closing c = true then
      some {s with node := {s.node with closing := Function.update s.node.closing c false}}
    else none
  | .establish c =>
    if s.made c = false ∧ cfg.fromUpstream c = true then some (s.establish cfg c) else none
  | .acquire c =>
    match s.call c,s.task c with
    | some .acquiring,some .running =>
      if s.locked = false then
        some {s with locked := true, task := Function.update s.task c (some (.returned none))}
      else none
    | _,_ => none
  | .slept c =>
    match s.call c,s.task c with
    | some (.sleeping _ _),some .running =>
      some {s with task := Function.update s.task c (some (.returned none))}
    | _,_ => none
  | .ask c queryId =>
    match s.call c,s.task c with
    | some (.asking peerId _),some .running =>
      match s.node.activeNodeConnections with
      | [] => some {s with task := Function.update s.task c (some (.returned (some .notFound)))}
      | d::ds =>
        -- a Query ID is never used twice
        if s.node.queries queryId = none then
          some {s with
            node := {s.node with
              toCheckState := {s.node.openQuery queryId ⟨.new (d::ds),peerId,none,true⟩ with
                checking := true}}
            task := Function.update s.task c (some (.asking queryId))}
        else none
    | _,_ => none
  | .queryDone c =>
    match s.task c with
    | some (.asking queryId) =>
      match (s.node.queries queryId).bind fun o => o.query.result with
      | some r => some (s.endQuery c queryId (.returned (some r)))
      | none => none
    | _ => none
  | .queryTimeout c =>
    match s.task c with
    | some (.asking queryId) => some (s.endQuery c queryId (.returned (some .unknown)))
    | _ => none
  | .queryFailed c =>
    match s.task c with
    | some (.asking queryId) => some (s.endQuery c queryId .raised)
    | _ => none
  | .taskCancelled c =>
    if (s.call c).any CheckCall.stepping = true then none
    else
      match s.task c with
      | some .running => some {s with task := Function.update s.task c (some .cancelled)}
      | some (.asking queryId) => some (s.endQuery c queryId .cancelled)
      | _ => none
  | _ => none

def step (cfg : TaskSettings C I Q P) (s : CheckTasks C I Q P) (a : CheckAction C I Q P) :
    Option (CheckTasks C I Q P) :=
  match s.next cfg.toSettings a with
  | some (c,turn) => some (s.take c turn)
  | none => s.event cfg a

end CheckTasks
end SoftwareBus
