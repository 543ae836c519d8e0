import SoftwareBus.Subscriptions
import Mathlib.Logic.Function.Basic
import Mathlib.Data.List.Basic

/-! State and message handlers of a publish/subscribe node. A handler is given
as the state it leaves and the `_send_to` calls it makes, in order; here a
handler runs to its end at once. `NodeTasks` breaks handlers where they can wait. -/
namespace SoftwareBus

variable {C I Q P : Type}

structure Query (C : Type) where
  targets : List C
  waiting : List C
  sawUnknown : Bool
  result : Option ReachabilityResult

def Query.new (targets : List C) : Query C := ⟨targets,targets,false,none⟩

def Query.reply [DecidableEq C] (q : Query C) (c : C) (r : ReachabilityResult) : Query C :=
  if q.result.isSome ∨ c ∉ q.waiting then q
  else
    let waiting := q.waiting.filter (· ≠ c)
    match r with
    | .found => {q with waiting := waiting, result := some .found}
    | _ =>
      let sawUnknown := q.sawUnknown || decide (r = .unknown)
      {q with
        waiting := waiting
        sawUnknown := sawUnknown
        result := if waiting = [] then some (if sawUnknown then .unknown else .notFound) else none}

/-- An entry of `_queries` together with the task that runs `_collect` for it. -/
structure OpenQuery (C I : Type) where
  query : Query C
  targetNodeId : I
  /-- Where `_forward_query` sends the result; none for the node's own query. -/
  source : Option C
  /-- The task has sent the query to its targets; its timer runs from then on. -/
  sent : Bool

/-- The messages that are held while their connection is pending. -/
def isRouted : Message I Q P → Bool
  | .subscription _ _ | .publish _ _ => true
  | _ => false

/-- `_HeldMessages`: each message with its length as received. Only routed messages are held. -/
structure HeldMessages (I Q P : Type) where
  messages : List ({m : Message I Q P // isRouted m = true} × ℕ)
  size : ℕ

def HeldMessages.empty : HeldMessages I Q P := ⟨[],0⟩

def HeldMessages.append (h : HeldMessages I Q P) (m : {m : Message I Q P // isRouted m = true})
    (length : ℕ) : HeldMessages I Q P := ⟨h.messages++[(m,length)],h.size+length⟩

/-- `_PendingConnection`; its `lost` future is set exactly when its entry is removed by
`_forget_connection`, so it is not kept apart. -/
structure PendingConnection (I Q P : Type) where
  hello : Option I
  held : HeldMessages I Q P

/-- Where the `establish_connection` call that holds `_check_lock` is. -/
inductive Check (C I Q : Type)
  | idle
  | awaitHello (c : C)
  | attempt (c : C) (peerId : I) (attempt : ℕ)
  | asking (c : C) (peerId : I) (attempt : ℕ) (queryId : Q)
  | answered (c : C) (peerId : I) (attempt : ℕ) (result : ReachabilityResult)
  deriving DecidableEq

def Check.connection : Check C I Q → Option C
  | .idle => none
  | .awaitHello c | .attempt c _ _ | .asking c _ _ _ | .answered c _ _ _ => some c

inductive Refusal
  | notIdentified | toItself | alreadyConnected | wouldCreateCycle | undetermined
  deriving DecidableEq

/-- The part of a node that the cycle check reads: the base layer's connection
lists, and what the node keeps for itself to prevent cycles. -/
structure CheckState (C I Q P : Type) where
  nodeId : I
  upstreamConnections : List C
  downstreamConnections : List C
  peerNodeIds : C → Option I
  pending : C → Option (PendingConnection I Q P)
  draining : C → Option (HeldMessages I Q P)
  queries : Q → Option (OpenQuery C I)
  checking : Bool
  check : Check C I Q
  /-- The connections a `close_connection` call is waiting for. -/
  closing : C → Bool

structure PubSubNode (C I Q P : Type) extends CheckState C I Q P where
  upstreamSubscriptions : Subscriptions C
  downstreamSubscriptions : Subscriptions C
  /-- The connections whose relay loop is running. -/
  reading : C → Bool
  /-- What `establish_connection` raised `CycleCheckRefused` for. -/
  refused : C → Option Refusal

namespace CheckState

variable [DecidableEq C] [DecidableEq I] [DecidableEq Q]

def connections (n : CheckState C I Q P) (fromUpstream : Bool) : List C :=
  if fromUpstream then n.upstreamConnections else n.downstreamConnections

def allConnections (n : CheckState C I Q P) : List C :=
  n.downstreamConnections ++ n.upstreamConnections

def peersExcept (n : CheckState C I Q P) (source : C) : List C :=
  n.allConnections.filter (· ≠ source)

def active (n : CheckState C I Q P) (cs : List C) : List C :=
  cs.filter fun c => (n.pending c).isNone

def activeNodeConnections (n : CheckState C I Q P) : List C :=
  (n.active n.allConnections).filter fun c => (n.peerNodeIds c).isSome

def handleHello (n : CheckState C I Q P) (source : C) (nodeId : I) : CheckState C I Q P :=
  {n with
    peerNodeIds := Function.update n.peerNodeIds source (some nodeId)
    pending := match n.pending source with
      | some ⟨none,held⟩ => Function.update n.pending source (some ⟨some nodeId,held⟩)
      | _ => n.pending}

def answerNow (n : CheckState C I Q P) (source : C) (queryId : Q) (targetNodeId : I) :
    Option ReachabilityResult :=
  if (n.pending source).isSome then some (if n.checking then .unknown else .notFound)
  else if targetNodeId = n.nodeId then some .found
  else if n.checking then some .unknown
  else if (n.queries queryId).isSome then some .unknown
  else none

def openQuery (n : CheckState C I Q P) (queryId : Q) (o : OpenQuery C I) : CheckState C I Q P :=
  {n with queries := Function.update n.queries queryId (some o)}

def closeQuery (n : CheckState C I Q P) (queryId : Q) : CheckState C I Q P :=
  {n with queries := Function.update n.queries queryId none}

def handleReply (n : CheckState C I Q P) (source : C) (queryId : Q) (r : ReachabilityResult) :
    CheckState C I Q P :=
  match n.queries queryId with
  | none => n
  | some o => n.openQuery queryId {o with query := o.query.reply source r}

def forgetConnection (n : CheckState C I Q P) (c : C) : CheckState C I Q P :=
  {n with
    peerNodeIds := Function.update n.peerNodeIds c none
    draining := Function.update n.draining c none
    pending := Function.update n.pending c none
    queries := fun q => (n.queries q).map fun o => {o with query := o.query.reply c .notFound}}

/-- `source_list.remove(connection)`; a connection is listed at most once. -/
def unlist (n : CheckState C I Q P) (c : C) (fromUpstream : Bool) : CheckState C I Q P :=
  if fromUpstream then {n with upstreamConnections := n.upstreamConnections.filter (· ≠ c)}
  else {n with downstreamConnections := n.downstreamConnections.filter (· ≠ c)}

def heldMessages (n : CheckState C I Q P) (source : C) : Option (HeldMessages I Q P) :=
  match n.pending source with
  | some p => some p.held
  | none => n.draining source

def hold (n : CheckState C I Q P) (source : C) (m : {m : Message I Q P // isRouted m = true})
    (length : ℕ) : CheckState C I Q P :=
  match n.pending source with
  | some p =>
    {n with pending := Function.update n.pending source (some ⟨p.hello,p.held.append m length⟩)}
  | none =>
    let held := (n.draining source).map fun h => h.append m length
    {n with draining := Function.update n.draining source held}

end CheckState

namespace PubSubNode

def new (nodeId : I) : PubSubNode C I Q P where
  nodeId := nodeId
  upstreamConnections := []
  downstreamConnections := []
  upstreamSubscriptions := .empty
  downstreamSubscriptions := .empty
  peerNodeIds _ := none
  pending _ := none
  draining _ := none
  queries _ := none
  checking := false
  check := .idle
  reading _ := false
  closing _ := false
  refused _ := none

/-- One `_send_to` call: its targets and the message. -/
abbrev Send (C I Q P : Type) := List C × Message I Q P

def frames (sends : List (Send C I Q P)) : List (C × Message I Q P) :=
  sends.flatMap fun d => d.1.map (·,d.2)

variable [DecidableEq C] [DecidableEq I] [DecidableEq Q]

def queuedOn (c : C) (sends : List (Send C I Q P)) : List (Message I Q P) :=
  (frames sends).filterMap fun f => if f.1 = c then some f.2 else none

omit [DecidableEq I] [DecidableEq Q] in
theorem mem_queuedOn {c : C} {sends : List (Send C I Q P)} {m : Message I Q P} :
    m ∈ queuedOn c sends ↔ (c,m) ∈ frames sends := by
  simp only [queuedOn,List.mem_filterMap,Option.ite_none_right_eq_some,Option.some.injEq]
  constructor
  · rintro ⟨f,hf,rfl,rfl⟩
    exact hf
  · exact fun hf => ⟨(c,m),hf,rfl,rfl⟩

/-- The table a connection is tagged in: the one of its own direction. -/
def subscriptions (n : PubSubNode C I Q P) (fromUpstream : Bool) : Subscriptions C :=
  if fromUpstream then n.upstreamSubscriptions else n.downstreamSubscriptions

def setSubscriptions (n : PubSubNode C I Q P) (fromUpstream : Bool) (t : Subscriptions C) :
    PubSubNode C I Q P :=
  if fromUpstream then {n with upstreamSubscriptions := t}
  else {n with downstreamSubscriptions := t}

def subscribers (n : PubSubNode C I Q P) (s : Str) : List C :=
  n.downstreamSubscriptions.get s ++ n.upstreamSubscriptions.get s

/-! Routing -/

def unsubscribe (n : PubSubNode C I Q P) (fromUpstream : Bool) (s : Str) (c : C) :
    PubSubNode C I Q P × List (Send C I Q P) :=
  if c ∈ (n.subscriptions fromUpstream).get s then
    let n' := n.setSubscriptions fromUpstream ((n.subscriptions fromUpstream).discard s c)
    (n',match n'.subscribers s with
      | [] => [(n'.active (n'.peersExcept c),.subscription s false)]
      | [r] => [([r],.subscription s false)]
      | _ => [])
  else (n,[])

def handleSubscription (n : PubSubNode C I Q P) (source : C) (s : Str) (subscribe : Bool)
    (fromUpstream : Bool) : PubSubNode C I Q P × List (Send C I Q P) :=
  if subscribe then
    let n' := n.setSubscriptions fromUpstream ((n.subscriptions fromUpstream).add s source)
    (n',[(n'.active (n'.peersExcept source),.subscription s true)])
  else n.unsubscribe fromUpstream s source

def handlePublish (n : PubSubNode C I Q P) (source : C) (s : Str) (payload : P) :
    List (Send C I Q P) :=
  [((n.downstreamSubscriptions.matchingConnections s ++
      n.upstreamSubscriptions.matchingConnections s).filter (· ≠ source),.publish s payload)]

/-- `_send_subscriptions`; the subjects are a set in the source, so their order is immaterial. -/
def sendSubscriptions (n : PubSubNode C I Q P) (c : C) : List (Send C I Q P) :=
  ((n.downstreamSubscriptions.subjects ++ n.upstreamSubscriptions.subjects).dedup).map
    fun s => ([c],.subscription s true)

/-- The loop of `_drop_connection`. -/
def dropSubjects (n : PubSubNode C I Q P) (c : C) (fromUpstream : Bool) :
    List Str → PubSubNode C I Q P × List (Send C I Q P)
  | [] => (n,[])
  | s::ss =>
    let r := n.unsubscribe fromUpstream s c
    let r' := r.1.dropSubjects c fromUpstream ss
    (r'.1,r.2++r'.2)

/-- The subjects a connection is tagged under, as `_drop_connection` collects them. -/
def taggedSubjects (n : PubSubNode C I Q P) (c : C) (fromUpstream : Bool) : List Str :=
  (n.subscriptions fromUpstream).subjects.filter
    fun s => decide (c ∈ (n.subscriptions fromUpstream).get s)

def dropConnection (n : PubSubNode C I Q P) (c : C) (fromUpstream : Bool) :
    PubSubNode C I Q P × List (Send C I Q P) :=
  n.dropSubjects c fromUpstream (n.taggedSubjects c fromUpstream)

/-! Cycle prevention -/

/-- `_handle_query`; the task that forwards the query has not started yet. -/
def handleQuery (n : PubSubNode C I Q P) (source : C) (queryId : Q) (targetNodeId : I) :
    PubSubNode C I Q P × List (Send C I Q P) :=
  match n.answerNow source queryId targetNodeId with
  | some r => (n,[([source],.reply queryId r)])
  | none =>
    match n.activeNodeConnections.filter (· ≠ source) with
    | [] => (n,[([source],.reply queryId .notFound)])
    | c::cs =>
      ({n with
        toCheckState := n.openQuery queryId ⟨.new (c::cs),targetNodeId,some source,false⟩},[])

def handleMessage (n : PubSubNode C I Q P) (source : C) (m : Message I Q P)
    (fromUpstream : Bool) : PubSubNode C I Q P × List (Send C I Q P) :=
  match m with
  | .subscription s b => n.handleSubscription source s b fromUpstream
  | .publish s p => (n,n.handlePublish source s p)
  | .hello i => ({n with toCheckState := n.handleHello source i},[])
  | .query q i => n.handleQuery source q i
  | .reply q r => ({n with toCheckState := n.handleReply source q r},[])

/-- `_handle_connection_error` with the node's own error callback. -/
def connectionError (n : PubSubNode C I Q P) (c : C) (fromUpstream : Bool) :
    PubSubNode C I Q P × List (Send C I Q P) :=
  if c ∈ n.connections fromUpstream then
    dropConnection {n with toCheckState := (n.unlist c fromUpstream).forgetConnection c}
      c fromUpstream
  else (n,[])

def onReceive (n : PubSubNode C I Q P) (source : C) (m : Message I Q P) (length limit : ℕ)
    (fromUpstream : Bool) : PubSubNode C I Q P × List (Send C I Q P) :=
  if hm : isRouted m = true then
    match n.heldMessages source with
    | none => n.handleMessage source m fromUpstream
    | some held =>
      if limit < held.size+length then n.connectionError source fromUpstream
      else ({n with toCheckState := n.hold source ⟨m,hm⟩ length},[])
  else n.handleMessage source m fromUpstream

/-- The loop of `_activate`. -/
def drain (n : PubSubNode C I Q P) (c : C) :
    List ({m : Message I Q P // isRouted m = true} × ℕ) → PubSubNode C I Q P × List (Send C I Q P)
  | [] => (n,[])
  | m::ms =>
    let r := n.handleMessage c m.1.1 true
    let r' := r.1.drain c ms
    (r'.1,r.2++r'.2)

def activate (n : PubSubNode C I Q P) (c : C) (held : HeldMessages I Q P) :
    PubSubNode C I Q P × List (Send C I Q P) :=
  let n' := {n with
    pending := Function.update n.pending c none
    draining := Function.update n.draining c (some held)}
  let r := n'.drain c held.messages
  ({r.1 with draining := Function.update r.1.draining c none},n'.sendSubscriptions c++r.2)

end PubSubNode
end SoftwareBus
