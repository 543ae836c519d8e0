import SoftwareBus.NodeStep
import SoftwareBus.LinkGraph

/-! A network of publish/subscribe nodes with leaf clients. Links are made by a
node or a client and taken by a node; each direction of a link is a queue of its
own, and nothing orders different queues. -/
namespace SoftwareBus

open LinkGraph

structure Bus (V X L : Type) where
  source : L → V ⊕ X
  target : L → V

namespace Bus

variable {V X L : Type}

def topology (b : Bus V X L) : Topology (V ⊕ X) L := ⟨b.source,fun l => .inl (b.target l)⟩

def owner (b : Bus V X L) (e : End L) : V ⊕ X := b.topology.owner e

theorem owner_source (b : Bus V X L) {e : End L} (h : e.side = .source) :
    b.owner e = b.source e.link := by simp [owner,topology,Topology.owner,h]

theorem owner_target (b : Bus V X L) {e : End L} (h : e.side = .target) :
    b.owner e = .inl (b.target e.link) := by simp [owner,topology,Topology.owner,h]

end Bus

/-- At a node, the end it made is an upstream connection and the end it took a
downstream one. -/
def Limits.onLinks {I Q P : Type} (L : Type) (lim : Limits I Q P) : Settings (End L) I Q P :=
  ⟨lim,fun e => decide (e.side = .source)⟩

structure Network (V X L I Q P : Type) where
  node : V → PubSubNode (End L) I Q P
  /-- Every message ever queued for an end, in order. -/
  sent : End L → List (Message I Q P)
  /-- How many of them have been delivered to it. -/
  read : End L → ℕ
  established : L → Bool
  /-- The taking node has seen the link. -/
  joined : L → Bool
  lost : L → Bool
  /-- A client's current connection. -/
  current : X → Option L
  /-- What a client last said about a subject on its current connection. -/
  said : X → Str → Bool
  /-- The query IDs used so far. -/
  asked : Q → Bool

inductive Action (V X L I Q P : Type)
  | node (v : V) (ev : NodeEvent (End L) I Q P)
  | deliver (e : End L)
  | breakLink (l : L)
  | connect (x : X) (l : L)
  | disconnect (x : X)
  | subscription (x : X) (s : Str) (subscribe : Bool)
  | publish (x : X) (s : Str) (payload : P)

namespace Network

variable {V X L I Q P : Type}

def init (ids : V → I) : Network V X L I Q P where
  node v := .new (ids v)
  sent _ := []
  read _ := 0
  established _ := false
  joined _ := false
  lost _ := false
  current _ := none
  said _ _ := false
  asked _ := false

def delivered (s : Network V X L I Q P) (e : End L) : List (Message I Q P) :=
  (s.sent e).take (s.read e)

def inFlight (s : Network V X L I Q P) (e : End L) : List (Message I Q P) :=
  (s.sent e).drop (s.read e)

variable [DecidableEq V] [DecidableEq X] [DecidableEq L] [DecidableEq I] [DecidableEq Q]

/-- The events a node can take at any time, other than reading a message: a
connection is made and taken once, and every own query has a new ID. -/
def possible (b : Bus V X L) (s : Network V X L I Q P) (v : V) : NodeEvent (End L) I Q P → Bool
  | .establish e =>
    decide (e.side = .source ∧ b.source e.link = .inl v ∧ s.established e.link = false)
  | .accept e => decide (e.side = .target ∧ b.target e.link = v ∧
      s.established e.link = true ∧ s.joined e.link = false)
  | .receive _ _ => false
  | .ask q => !s.asked q
  | _ => true

/-- What an event records outside the node that takes it. -/
def note (s : Network V X L I Q P) : NodeEvent (End L) I Q P → Network V X L I Q P
  | .establish e => {s with established := Function.update s.established e.link true}
  | .accept e => {s with joined := Function.update s.joined e.link true}
  | .receive e _ => {s with read := Function.update s.read e (s.read e+1)}
  | .ask q => {s with asked := Function.update s.asked q true}
  | _ => s

/-- A node takes a step: what it sends is queued for the other ends of its
connections, and a connection it no longer lists is lost. -/
def nodeStep (lim : Limits I Q P) (s : Network V X L I Q P) (v : V)
    (ev : NodeEvent (End L) I Q P) : Option (Network V X L I Q P) :=
  ((s.node v).step (lim.onLinks L) ev).map fun r =>
    {s.note ev with
      node := Function.update s.node v r.1
      sent := fun e => s.sent e++PubSubNode.queuedOn e.flip r.2
      lost := fun l => s.lost l || (s.node v).allConnections.any fun c =>
        decide (c.link = l ∧ c ∉ r.1.allConnections)}

def clientSend (s : Network V X L I Q P) (x : X) (m : Message I Q P) :
    Option (Network V X L I Q P) :=
  (s.current x).map fun l =>
    {s with sent := Function.update s.sent ⟨l,.target⟩ (s.sent ⟨l,.target⟩++[m])}

def step (b : Bus V X L) (lim : Limits I Q P) (s : Network V X L I Q P) :
    Action V X L I Q P → Option (Network V X L I Q P)
  | .node v ev => if s.possible b v ev then s.nodeStep lim v ev else none
  | .deliver e =>
    match s.inFlight e,b.owner e with
    | [],_ => none
    | m::_,.inl v => s.nodeStep lim v (.receive e m)
    | _::_,.inr x =>
      if s.current x = some e.link then
        some {s with read := Function.update s.read e (s.read e+1)}
      else none
  | .breakLink l => some {s with lost := Function.update s.lost l true}
  | .connect x l =>
    if b.source l = .inr x ∧ s.established l = false ∧ s.current x = none then
      some {s with
        established := Function.update s.established l true
        current := Function.update s.current x (some l)
        said := Function.update s.said x fun _ => false}
    else none
  | .disconnect x =>
    (s.current x).map fun l =>
      {s with
        lost := Function.update s.lost l true
        current := Function.update s.current x none
        said := Function.update s.said x fun _ => false}
  | .subscription x subject subscribe =>
    (s.clientSend x (.subscription subject subscribe)).map fun s =>
      {s with said := Function.update s.said x (Function.update (s.said x) subject subscribe)}
  | .publish x subject payload => s.clientSend x (.publish subject payload)

def Occurs (b : Bus V X L) (s : Network V X L I Q P) (v : V) : NodeEvent (End L) I Q P → Prop
  | .receive e m => b.owner e = .inl v ∧ (s.inFlight e).head? = some m
  | ev => s.possible b v ev = true

omit [DecidableEq L] [DecidableEq I] [DecidableEq Q] in
theorem occurs_establish {b : Bus V X L} {s : Network V X L I Q P} {v : V} {e : End L} :
    s.Occurs b v (.establish e) ↔
      e.side = .source ∧ b.source e.link = .inl v ∧ s.established e.link = false := by
  simp [Occurs,possible]

omit [DecidableEq L] [DecidableEq I] [DecidableEq Q] in
theorem occurs_accept {b : Bus V X L} {s : Network V X L I Q P} {v : V} {e : End L} :
    s.Occurs b v (.accept e) ↔ e.side = .target ∧ b.target e.link = v ∧
      s.established e.link = true ∧ s.joined e.link = false := by
  simp [Occurs,possible]

structure NodeTakes (b : Bus V X L) (lim : Limits I Q P) (s : Network V X L I Q P) (v : V)
    (ev : NodeEvent (End L) I Q P) (sends : List (PubSubNode.Send (End L) I Q P))
    (t : Network V X L I Q P) : Prop where
  occurs : s.Occurs b v ev
  step : (s.node v).step (lim.onLinks L) ev = some (t.node v,sends)
  others : ∀ w, w ≠ v → t.node w = s.node w
  sent : ∀ e, t.sent e = s.sent e++PubSubNode.queuedOn e.flip sends
  lost : ∀ l, t.lost l = true ↔ s.lost l = true ∨
    ∃ c ∈ (s.node v).allConnections, c.link = l ∧ c ∉ (t.node v).allConnections
  read : t.read = (s.note ev).read
  established : t.established = (s.note ev).established
  joined : t.joined = (s.note ev).joined
  asked : t.asked = (s.note ev).asked
  current : t.current = s.current
  said : t.said = s.said

/-- A step outside the nodes: of a client, or a link breaks. -/
structure Outside (s t : Network V X L I Q P) : Prop where
  node : t.node = s.node
  sent : ∀ e, ∃ ms, t.sent e = s.sent e++ms ∧ ∀ m ∈ ms, isRouted m = true
  read : ∀ e, s.read e ≤ t.read e
  lost : ∀ l, s.lost l = true → t.lost l = true
  established : ∀ l, s.established l = true → t.established l = true
  joined : t.joined = s.joined
  asked : t.asked = s.asked

theorem nodeStep_takes {b : Bus V X L} {lim : Limits I Q P} {s t : Network V X L I Q P} {v : V}
    {ev : NodeEvent (End L) I Q P} (ho : s.Occurs b v ev) (h : s.nodeStep lim v ev = some t) :
    ∃ sends, s.NodeTakes b lim v ev sends t := by
  obtain ⟨r,hr,rfl⟩ := Option.map_eq_some_iff.mp h
  refine ⟨r.2,ho,by simp [hr],fun w hw => by simp [hw],fun _ => rfl,fun l => ?_,rfl,rfl,rfl,rfl,?_,?_⟩
  · simp
  · cases ev <;> rfl
  · cases ev <;> rfl

theorem step_node {b : Bus V X L} {lim : Limits I Q P} {s t : Network V X L I Q P} {v : V}
    {ev : NodeEvent (End L) I Q P} (h : s.step b lim (.node v ev) = some t) :
    ∃ sends, s.NodeTakes b lim v ev sends t := by
  simp only [step,Option.ite_none_right_eq_some] at h
  obtain ⟨hp,ht⟩ := h
  exact nodeStep_takes (by cases ev <;> first | exact hp | simp [possible] at hp) ht

theorem step_deliver {b : Bus V X L} {lim : Limits I Q P} {s t : Network V X L I Q P} {e : End L}
    (h : s.step b lim (.deliver e) = some t) : ∃ m, (s.inFlight e).head? = some m ∧
      ((∃ v sends, s.NodeTakes b lim v (.receive e m) sends t) ∨
        ∃ x, b.owner e = .inr x ∧ s.current x = some e.link ∧
          t = {s with read := Function.update s.read e (s.read e+1)}) := by
  simp only [step] at h
  split at h
  · contradiction
  · rename_i m ms v hm hv
    obtain ⟨sends,hs⟩ := nodeStep_takes (b := b) (by exact ⟨hv,by simp [hm]⟩) h
    exact ⟨m,by simp [hm],.inl ⟨v,sends,hs⟩⟩
  · rename_i m ms x hm hx
    split at h
    · rename_i hcur
      exact ⟨m,by simp [hm],.inr ⟨x,hx,hcur,(Option.some.inj h).symm⟩⟩
    · contradiction

/-- Every step is taken by a node or happens outside the nodes. -/
theorem step_cases {b : Bus V X L} {lim : Limits I Q P} {s t : Network V X L I Q P}
    {a : Action V X L I Q P} (h : s.step b lim a = some t) :
    (∃ v ev sends, (a = .node v ev ∨ ∃ e m, a = .deliver e ∧ ev = .receive e m) ∧
      s.NodeTakes b lim v ev sends t) ∨ s.Outside t := by
  have clientSend {x : X} {m : Message I Q P} {u : Network V X L I Q P} (hm : isRouted m = true)
      (h : s.clientSend x m = some u) : s.Outside u := by
    obtain ⟨l,-,rfl⟩ := Option.map_eq_some_iff.mp h
    refine ⟨rfl,fun e => ?_,fun _ => le_rfl,fun _ => id,fun _ => id,rfl,rfl⟩
    by_cases he : e = ⟨l,.target⟩
    · exact ⟨[m],by simp [he],by simpa using hm⟩
    · exact ⟨[],by simp [he],by simp⟩
  have same (e : End L) : ∃ ms, s.sent e = s.sent e++ms ∧ ∀ m ∈ ms, isRouted m = true :=
    ⟨[],by simp⟩
  cases a with
  | node v ev =>
    obtain ⟨sends,hs⟩ := step_node h
    exact .inl ⟨v,ev,sends,.inl rfl,hs⟩
  | deliver e =>
    obtain ⟨m,-,⟨v,sends,hs⟩ | ⟨x,-,-,rfl⟩⟩ := step_deliver h
    · exact .inl ⟨v,_,sends,.inr ⟨e,m,rfl,rfl⟩,hs⟩
    · refine .inr ⟨rfl,same,fun f => ?_,fun _ => id,fun _ => id,rfl,rfl⟩
      by_cases hf : f = e <;> simp [hf]
  | breakLink l =>
    obtain rfl := Option.some.inj h
    refine .inr ⟨rfl,same,fun _ => le_rfl,fun m hm => ?_,fun _ => id,rfl,rfl⟩
    by_cases hl : m = l <;> simp [hl,hm]
  | connect x l =>
    simp only [step,Option.ite_none_right_eq_some] at h
    obtain rfl := Option.some.inj h.2
    refine .inr ⟨rfl,same,fun _ => le_rfl,fun _ => id,fun m hm => ?_,rfl,rfl⟩
    by_cases hl : m = l <;> simp [hl,hm]
  | disconnect x =>
    obtain ⟨l,-,rfl⟩ := Option.map_eq_some_iff.mp h
    refine .inr ⟨rfl,same,fun _ => le_rfl,fun m hm => ?_,fun _ => id,rfl,rfl⟩
    by_cases hl : m = l <;> simp [hl,hm]
  | subscription x subject subscribe =>
    obtain ⟨u,hu,rfl⟩ := Option.map_eq_some_iff.mp h
    obtain ⟨hn,hs,hr,hl,he,hj,ha⟩ := clientSend rfl hu
    exact .inr ⟨hn,hs,hr,hl,he,hj,ha⟩
  | publish x subject payload => exact .inr (clientSend rfl h)

/-- The links between nodes that the node that made them has accepted, and that
have not been lost since. -/
def Accepted (b : Bus V X L) (s : Network V X L I Q P) (l : L) : Prop :=
  ∃ v, b.source l = .inl v ∧ ⟨l,.source⟩ ∈ (s.node v).upstreamConnections ∧
    (s.node v).pending ⟨l,.source⟩ = none ∧ s.lost l = false

end Network
end SoftwareBus
