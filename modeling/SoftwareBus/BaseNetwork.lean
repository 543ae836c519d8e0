import SoftwareBus.Network
import SoftwareBus.SendQueue
import SoftwareBus.Flood

/-! A tree of base layer nodes with the default receive callbacks, and clients at its
leaves. No connection is lost and no send queue gets too full. -/
namespace SoftwareBus

open LinkGraph Transition

variable {V X L D : Type}

/-- A tree of nodes and clients, with the links each node has made and taken. -/
structure BusTree (V X L : Type) extends Bus V X L where
  madeBy : V → List L
  takenBy : V → List L
  mem_madeBy : ∀ v l, l ∈ madeBy v ↔ source l = .inl v
  mem_takenBy : ∀ v l, l ∈ takenBy v ↔ target l = v
  nodup_madeBy : ∀ v, (madeBy v).Nodup
  nodup_takenBy : ∀ v, (takenBy v).Nodup
  leaf : ∀ x, ∃! l, source l = .inr x
  acyclic : toBus.topology.Acyclic fun _ => True
  connected : ∀ a b, ∃ es, toBus.topology.IsWalkBetween (fun _ => True) a b es

def NodeRecord.peersExcept {C : Type} [DecidableEq C] (r : NodeRecord C) (source : C) : List C :=
  r.allConnections.filter fun c => c ≠ source

structure BaseNetwork (V L D : Type) where
  node : V → BaseLayerNode (End L) (End L) D
  /-- The connections of clients. -/
  client : End L → Connection D
  /-- What a client has sent on its connection. -/
  said : End L → List D
  /-- How much of what was written to a socket has reached the reader at the other end. -/
  arrived : End L → ℕ

inductive BaseMove (L D : Type)
  /-- A client sends data. -/
  | send (e : End L) (data : D)
  | arrive (e : End L)
  /-- The loop that reads a connection calls the receive callback. -/
  | receive (e : End L)
  /-- The send loop of a connection starts. -/
  | startSending (e : End L)
  /-- The data that are being sent have been taken. -/
  | taken (e : End L)

def BaseMove.isSend : BaseMove L D → Bool
  | .send _ _ => true
  | _ => false

namespace BaseNetwork

variable [DecidableEq V] [DecidableEq X] [DecidableEq L]

def init (t : BusTree V X L) : BaseNetwork V L D where
  node v := {BaseLayerNode.init with
    upstreamConnections := (t.madeBy v).map fun l => ⟨l,.source⟩
    downstreamConnections := (t.takenBy v).map fun l => ⟨l,.target⟩
    conn := fun e => if t.owner e = .inl v then .new else .unmade}
  client _ := .new .reading
  said _ := []
  arrived _ := 0

/-- The connection at an end. What a client sends is written at once. -/
def conn (t : BusTree V X L) (s : BaseNetwork V L D) (e : End L) : QueuedConnection D :=
  match t.owner e with
  | .inl v => (s.node v).conn e
  | .inr _ => {QueuedConnection.new with
      toConnection := s.client e
      accepted := s.said e
      written := s.said e}

def nodeRun (lim : NodeLimits D) (s : BaseNetwork V L D) (v : V)
    (as : List (BaseAction (End L) (End L) D)) : Option (BaseNetwork V L D) :=
  (run (BaseLayerNode.step lim) (s.node v) as).map fun n => {s with node := Function.update s.node v n}

def clientRun (s : BaseNetwork V L D) (e : End L) (evs : List (LoopEvent D)) :
    Option (BaseNetwork V L D) :=
  (run Connection.loopStep (s.client e) evs).map fun c => {s with client := Function.update s.client e c}

def room (lim : NodeLimits D) (n : BaseLayerNode (End L) (End L) D) (targets : List (End L))
    (data : D) : Bool :=
  targets.all fun c => (n.conn c).queuedBytes+lim.length data ≤ lim.sendQueueLimit

def step (t : BusTree V X L) (lim : NodeLimits D) (s : BaseNetwork V L D) :
    BaseMove L D → Option (BaseNetwork V L D)
  | .send e data =>
    match t.owner e with
    | .inl _ => none
    | .inr _ =>
      if lim.length data ≤ lim.maxPayloadLength then
        some {s with said := Function.update s.said e (s.said e++[data])}
      else none
  | .arrive e =>
    (s.conn t e).written[s.arrived e]?.bind fun data =>
      (match t.owner e.flip with
        | .inl v => s.nodeRun lim v [.loop e.flip (.feed data)]
        | .inr _ => s.clientRun e.flip [.feed data]).map fun (u : BaseNetwork V L D) =>
          {u with arrived := Function.update s.arrived e (s.arrived e+1)}
  | .receive e =>
    match t.owner e with
    | .inl v => (s.conn t e).buffer.head?.bind fun data =>
      -- `_default_upstream_receive_callback` and `_default_downstream_receive_callback`
      let targets := (s.node v).peersExcept e
      if room lim (s.node v) targets data then
        s.nodeRun lim v [.loop e .read,.relay e (some (.loop e)) targets data,.loop e .returned]
      else none
    | .inr _ => s.clientRun e [.read,.returned]
  | .startSending e =>
    match t.owner e with
    | .inl v => s.nodeRun lim v [.send e]
    | .inr _ => none
  | .taken e =>
    match t.owner e with
    | .inl v => s.nodeRun lim v [.sent e]
    | .inr _ => none

end BaseNetwork
end SoftwareBus
