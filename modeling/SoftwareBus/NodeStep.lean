import SoftwareBus.PubSubNode
import SoftwareBus.Transition

/-! The steps of one node: what its relay loops, its cycle check and its query
tasks do between two points where they wait. -/
namespace SoftwareBus

structure Limits (I Q P : Type) where
  maxCheckAttempts : ℕ
  heldMessagesLimit : ℕ
  length : Message I Q P → ℕ

/-- The parameters of a node: its limits, and which list each connection was put in
when it was made. -/
structure Settings (C I Q P : Type) extends Limits I Q P where
  fromUpstream : C → Bool

inductive NodeEvent (C I Q P : Type)
  | establish (c : C)
  | accept (c : C)
  | receive (c : C) (m : Message I Q P)
  /-- The relay loop of the connection may go on reading if the error arose inside it. -/
  | connectionError (c : C) (goesOn : Bool)
  | closeConnection (c : C)
  | closed (c : C)
  | beginCheck (c : C)
  | helloTimeout
  | helloDone
  | ask (queryId : Q)
  | queryDone
  | queryTimeout
  | resume
  | abandon
  | forward (queryId : Q)
  | forwardDone (queryId : Q)
  | forwardTimeout (queryId : Q)
  deriving DecidableEq

namespace PubSubNode

variable {C I Q P : Type} [DecidableEq C] [DecidableEq I] [DecidableEq Q]

/-- `_on_upstream_new_connection`, once the connection is listed. -/
def establish (n : PubSubNode C I Q P) (c : C) : PubSubNode C I Q P × List (Send C I Q P) :=
  ({n with
    upstreamConnections := n.upstreamConnections++[c]
    pending := Function.update n.pending c (some ⟨none,.empty⟩)
    reading := Function.update n.reading c true},[([c],.hello n.nodeId)])

/-- `_on_downstream_new_connection`, once the connection is listed. -/
def accept (n : PubSubNode C I Q P) (c : C) : PubSubNode C I Q P × List (Send C I Q P) :=
  let n' := {n with
    downstreamConnections := n.downstreamConnections++[c]
    reading := Function.update n.reading c true}
  (n',([c],.hello n.nodeId)::n'.sendSubscriptions c)

/-- The end of a relay loop that is cancelled or has met the end of its stream. -/
def endLoop (n : PubSubNode C I Q P) (c : C) : PubSubNode C I Q P :=
  {n with reading := Function.update n.reading c false}

/-- The first part of `close_connection`, up to where it waits for the socket. -/
def closeConnection (n : PubSubNode C I Q P) (c : C) (fromUpstream : Bool) :
    PubSubNode C I Q P :=
  endLoop {n with
    toCheckState := {n.unlist c fromUpstream with closing := Function.update n.closing c true}} c

def closed (n : PubSubNode C I Q P) (c : C) (fromUpstream : Bool) :
    PubSubNode C I Q P × List (Send C I Q P) :=
  let r := dropConnection {n with toCheckState := n.forgetConnection c} c fromUpstream
  ({r.1 with closing := Function.update r.1.closing c false},r.2)

/-- The end of `_check_new_connection` for a refused connection. -/
def refuse (n : PubSubNode C I Q P) (c : C) (reason : Refusal) :
    PubSubNode C I Q P × List (Send C I Q P) :=
  let n' := {n with
    check := .idle
    refused := Function.update n.refused c (some reason)}
  let r := n'.connectionError c true
  (r.1.endLoop c,r.2)

/-- What `_run_check` finds once it has the peer's Node ID; none to go on. -/
def refusalOf (n : PubSubNode C I Q P) (peerId : I) : Option Refusal :=
  if peerId = n.nodeId then some .toItself
  else if n.activeNodeConnections.any fun c => decide (n.peerNodeIds c = some peerId) then
    some .alreadyConnected
  else none

/-- `_ask_own_query` up to where it waits for the replies. -/
def ask (n : PubSubNode C I Q P) (c : C) (peerId : I) (attempt : ℕ) (queryId : Q) :
    PubSubNode C I Q P × List (Send C I Q P) :=
  match n.activeNodeConnections with
  | [] => ({n with check := .answered c peerId attempt .notFound},[])
  | d::ds =>
    ({n with
      toCheckState := {n.openQuery queryId ⟨.new (d::ds),peerId,none,true⟩ with
        checking := true
        check := .asking c peerId attempt queryId}},[(d::ds,.query queryId peerId)])

/-- The end of the query task of `_ask_own_query`. -/
def answer (n : PubSubNode C I Q P) (c : C) (peerId : I) (attempt : ℕ) (queryId : Q)
    (r : ReachabilityResult) : PubSubNode C I Q P :=
  {n with
    toCheckState := {n.closeQuery queryId with
      checking := false
      check := .answered c peerId attempt r}}

/-- The end of `_forward_query`. -/
def sendReply (n : PubSubNode C I Q P) (source : C) (queryId : Q) (r : ReachabilityResult) :
    PubSubNode C I Q P × List (Send C I Q P) :=
  ({n with toCheckState := n.closeQuery queryId},
    if source ∈ n.allConnections then [([source],.reply queryId r)] else [])

/-- One step of a node, with the `_send_to` calls it makes. -/
def step (cfg : Settings C I Q P) (n : PubSubNode C I Q P) :
    NodeEvent C I Q P → Option (PubSubNode C I Q P × List (Send C I Q P))
  | .establish c => some (n.establish c)
  | .accept c => some (n.accept c)
  | .receive c m =>
    if n.reading c then
      some (n.onReceive c m (cfg.length m) cfg.heldMessagesLimit (cfg.fromUpstream c))
    else none
  | .connectionError c goesOn =>
    let r := n.connectionError c (cfg.fromUpstream c)
    some (if goesOn then r else (r.1.endLoop c,r.2))
  | .closeConnection c =>
    if c ∈ n.allConnections then some (n.closeConnection c (cfg.fromUpstream c),[]) else none
  | .closed c => if n.closing c then some (n.closed c (cfg.fromUpstream c)) else none
  | .beginCheck c =>
    if n.check.connection = none ∧ (n.pending c).isSome then
      some ({n with check := .awaitHello c},[])
    else none
  | .helloTimeout =>
    match n.check with
    | .awaitHello c =>
      match n.pending c with
      | some ⟨none,_⟩ => some (n.refuse c .notIdentified)
      | _ => none
    | _ => none
  | .helloDone =>
    match n.check with
    | .awaitHello c =>
      match n.pending c with
      | some ⟨some peerId,_⟩ =>
        match n.refusalOf peerId with
        | some reason => some (n.refuse c reason)
        | none => some ({n with check := .attempt c peerId 0},[])
      | _ => none
    | _ => none
  | .ask queryId =>
    match n.check with
    | .attempt c peerId k => some (n.ask c peerId k queryId)
    | _ => none
  | .queryDone =>
    match n.check with
    | .asking c peerId k queryId =>
      match (n.queries queryId).bind fun o => o.query.result with
      | some r => some (n.answer c peerId k queryId r,[])
      | none => none
    | _ => none
  | .queryTimeout =>
    match n.check with
    | .asking c peerId k queryId => some (n.answer c peerId k queryId .unknown,[])
    | _ => none
  | .resume =>
    match n.check with
    | .answered c peerId k r =>
      match n.pending c with
      | none => none
      | some p =>
        match r with
        | .found => some (n.refuse c .wouldCreateCycle)
        | .notFound => some (activate {n with check := .idle} c p.held)
        | .unknown =>
          if k+1 < cfg.maxCheckAttempts then
            some ({n with check := .attempt c peerId (k+1)},[])
          else some (n.refuse c .undetermined)
    | _ => none
  | .abandon =>
    -- the connection was lost: `_unless_lost` cancels the query task, which cleans up
    match n.check.connection with
    | none => none
    | some c =>
      if (n.pending c).isSome then none
      else
        match n.check with
        | .asking _ _ _ queryId =>
          some ({n with
            toCheckState := {n.closeQuery queryId with checking := false, check := .idle}},[])
        | _ => some ({n with check := .idle},[])
  | .forward queryId =>
    match n.queries queryId with
    | some ⟨query,target,some source,false⟩ =>
      some ({n with toCheckState := n.openQuery queryId ⟨query,target,some source,true⟩},
        [(query.targets,.query queryId target)])
    | _ => none
  | .forwardDone queryId =>
    match n.queries queryId with
    | some ⟨query,_,some source,true⟩ =>
      match query.result with
      | some r => some (n.sendReply source queryId r)
      | none => none
    | _ => none
  | .forwardTimeout queryId =>
    match n.queries queryId with
    | some ⟨_,_,some source,true⟩ => some (n.sendReply source queryId .unknown)
    | _ => none

end PubSubNode
end SoftwareBus
