import SoftwareBus.Traffic

/-! Payloads are opaque: a network whose payloads are replaced by others takes the
same steps. So the publishes of a run can be told apart by numbers in their payloads. -/
namespace SoftwareBus

open LinkGraph Transition

variable {V X L C I Q P R : Type}

def Message.mapPayload (f : P → R) : Message I Q P → Message I Q R
  | .subscription s b => .subscription s b
  | .publish s p => .publish s (f p)
  | .hello i => .hello i
  | .query q i => .query q i
  | .reply q r => .reply q r

theorem isRouted_mapPayload (f : P → R) (m : Message I Q P) :
    isRouted (m.mapPayload f) = isRouted m := by cases m <;> rfl

def HeldMessages.mapPayload (f : P → R) (h : HeldMessages I Q P) : HeldMessages I Q R where
  messages := h.messages.map fun m =>
    (⟨m.1.1.mapPayload f,(isRouted_mapPayload f m.1.1).trans m.1.2⟩,m.2)
  size := h.size

def PendingConnection.mapPayload (f : P → R) (p : PendingConnection I Q P) :
    PendingConnection I Q R := ⟨p.hello,p.held.mapPayload f⟩

def CheckState.mapPayload (f : P → R) (n : CheckState C I Q P) : CheckState C I Q R where
  nodeId := n.nodeId
  upstreamConnections := n.upstreamConnections
  downstreamConnections := n.downstreamConnections
  peerNodeIds := n.peerNodeIds
  pending c := (n.pending c).map fun p => p.mapPayload f
  draining c := (n.draining c).map fun h => h.mapPayload f
  queries := n.queries
  checking := n.checking
  check := n.check
  closing := n.closing

def PubSubNode.mapPayload (f : P → R) (n : PubSubNode C I Q P) : PubSubNode C I Q R where
  toCheckState := n.toCheckState.mapPayload f
  upstreamSubscriptions := n.upstreamSubscriptions
  downstreamSubscriptions := n.downstreamSubscriptions
  reading := n.reading
  refused := n.refused

def NodeEvent.mapPayload (f : P → R) : NodeEvent C I Q P → NodeEvent C I Q R
  | .establish c => .establish c
  | .accept c => .accept c
  | .receive c m => .receive c (m.mapPayload f)
  | .connectionError c g => .connectionError c g
  | .closeConnection c => .closeConnection c
  | .closed c => .closed c
  | .beginCheck c => .beginCheck c
  | .helloTimeout => .helloTimeout
  | .helloDone => .helloDone
  | .ask q => .ask q
  | .queryDone => .queryDone
  | .queryTimeout => .queryTimeout
  | .resume => .resume
  | .abandon => .abandon
  | .forward q => .forward q
  | .forwardDone q => .forwardDone q
  | .forwardTimeout q => .forwardTimeout q

def Action.mapPayload (f : P → R) : Action V X L I Q P → Action V X L I Q R
  | .node v ev => .node v (ev.mapPayload f)
  | .deliver e => .deliver e
  | .breakLink l => .breakLink l
  | .connect x l => .connect x l
  | .disconnect x => .disconnect x
  | .subscription x s b => .subscription x s b
  | .publish x s p => .publish x s (f p)

def Network.mapPayload (f : P → R) (s : Network V X L I Q P) : Network V X L I Q R where
  node v := (s.node v).mapPayload f
  sent e := (s.sent e).map (·.mapPayload f)
  read := s.read
  established := s.established
  joined := s.joined
  lost := s.lost
  current := s.current
  said := s.said
  asked := s.asked

namespace PubSubNode

def mapResult (f : P → R) (r : PubSubNode C I Q P × List (Send C I Q P)) :
    PubSubNode C I Q R × List (Send C I Q R) :=
  (r.1.mapPayload f,r.2.map fun d => (d.1,d.2.mapPayload f))

variable {f : P → R} {n : PubSubNode C I Q P}

@[simp] theorem mapPayload_active (cs : List C) : (n.mapPayload f).active cs = n.active cs := by
  simp [CheckState.active,mapPayload,CheckState.mapPayload]

@[simp] theorem mapPayload_activeNodeConnections :
    (n.mapPayload f).activeNodeConnections = n.activeNodeConnections := by
  simp only [CheckState.activeNodeConnections,mapPayload_active]
  rfl

theorem mapPayload_setSubscriptions (up : Bool) (t : Subscriptions C) :
    (n.mapPayload f).setSubscriptions up t = (n.setSubscriptions up t).mapPayload f := by
  cases up <;> rfl

variable [DecidableEq C]

theorem unsubscribe_mapPayload (up : Bool) (s : Str) (c : C) :
    (n.mapPayload f).unsubscribe up s c = mapResult f (n.unsubscribe up s c) := by
  have hsub : (n.mapPayload f).subscriptions up = n.subscriptions up := by cases up <;> rfl
  unfold unsubscribe
  rw [hsub]
  split
  · rw [mapPayload_setSubscriptions]
    generalize n.setSubscriptions up ((n.subscriptions up).discard s c) = m
    have hs : (m.mapPayload f).subscribers s = m.subscribers s := rfl
    have hpeers : (m.mapPayload f).peersExcept c = m.peersExcept c := rfl
    dsimp only
    rcases hm : m.subscribers s with _ | ⟨r,_ | ⟨r',rs⟩⟩ <;>
      simp [mapResult,hs,hm,hpeers,Message.mapPayload]
  · rfl

theorem queuedOn_mapPayload (c : C) (sends : List (Send C I Q P)) :
    queuedOn c (sends.map fun d => (d.1,d.2.mapPayload f)) =
      (queuedOn c sends).map (·.mapPayload f) := by
  induction sends with
  | nil => rfl
  | cons d ds ih =>
    have hold := queuedOn_append c [d] ds
    have hnew := queuedOn_append c [(d.1,d.2.mapPayload f)]
      (ds.map fun d => (d.1,d.2.mapPayload f))
    rw [List.singleton_append] at hold hnew
    rw [List.map_cons,hnew,hold,ih,List.map_append]
    congr 1
    simp only [queuedOn,frames,List.flatMap_cons,List.flatMap_nil,List.append_nil,List.filterMap_map,
      List.map_filterMap]
    refine List.filterMap_congr fun t _ => ?_
    by_cases ht : t = c <;> simp [ht]

variable [DecidableEq I] [DecidableEq Q]

theorem handleMessage_mapPayload (hp : ∀ c, n.pending c = none) (c : C) (m : Message I Q P)
    (up : Bool) : (n.mapPayload f).handleMessage c (m.mapPayload f) up =
      mapResult f (n.handleMessage c m up) := by
  cases m with
  | subscription s b =>
    cases b with
    | false => exact unsubscribe_mapPayload up s c
    | true =>
      have hsub : (n.mapPayload f).subscriptions up = n.subscriptions up := by cases up <;> rfl
      simp only [handleMessage,Message.mapPayload,handleSubscription,if_true,hsub,
        mapPayload_setSubscriptions,mapPayload_active]
      rfl
  | publish s p => rfl
  | hello i =>
    have hp' : (n.mapPayload f).pending c = none := by
      simp [mapPayload,CheckState.mapPayload,hp]
    simp only [handleMessage,Message.mapPayload,CheckState.handleHello,hp,hp']
    rfl
  | query q i =>
    have hpend : ((n.mapPayload f).pending c).isSome = (n.pending c).isSome := by
      simp [mapPayload,CheckState.mapPayload]
    have ha : (n.mapPayload f).answerNow c q i = n.answerNow c q i := by
      simp only [CheckState.answerNow,hpend]
      rfl
    simp only [handleMessage,Message.mapPayload,handleQuery,ha,mapPayload_activeNodeConnections]
    split
    · rfl
    · split <;> rfl
  | reply q r =>
    have hq : (n.mapPayload f).queries q = n.queries q := rfl
    simp only [handleMessage,Message.mapPayload,CheckState.handleReply,hq]
    cases n.queries q <;> rfl

omit [DecidableEq I] in
theorem sendReply_mapPayload (source : C) (q : Q) (r : ReachabilityResult) :
    (n.mapPayload f).sendReply source q r = mapResult f (n.sendReply source q r) := by
  have hl : (n.mapPayload f).allConnections = n.allConnections := rfl
  simp only [sendReply,hl,mapResult]
  split <;> rfl

theorem step_mapPayload {cfg : Settings C I Q P} {cfg' : Settings C I Q R}
    (hup : cfg'.fromUpstream = cfg.fromUpstream) {ev : NodeEvent C I Q P}
    (hev : ev.isTraffic = true) (hp : ∀ c, n.pending c = none ∧ n.draining c = none) :
    (n.mapPayload f).step cfg' (ev.mapPayload f) = (n.step cfg ev).map (mapResult f) := by
  cases ev with
  | receive c m =>
    have hheld : n.heldMessages c = none := by simp [CheckState.heldMessages,(hp c).1,(hp c).2]
    have hheld' : (n.mapPayload f).heldMessages c = none := by
      simp [CheckState.heldMessages,mapPayload,CheckState.mapPayload,(hp c).1,(hp c).2]
    have hread : (n.mapPayload f).reading c = n.reading c := rfl
    have hm := handleMessage_mapPayload (f := f) (fun c => (hp c).1) c m (cfg.fromUpstream c)
    simp only [NodeEvent.mapPayload,step,onReceive,hheld,hheld',hread,hup,hm]
    split <;> simp
  | forward q =>
    have hq : (n.mapPayload f).queries q = n.queries q := rfl
    simp only [NodeEvent.mapPayload,step,hq]
    split <;> rfl
  | forwardDone q =>
    have hq : (n.mapPayload f).queries q = n.queries q := rfl
    simp only [NodeEvent.mapPayload,step,hq,sendReply_mapPayload]
    split
    · split <;> rfl
    · rfl
  | forwardTimeout q =>
    have hq : (n.mapPayload f).queries q = n.queries q := rfl
    simp only [NodeEvent.mapPayload,step,hq,sendReply_mapPayload]
    split <;> rfl
  | _ => simp [NodeEvent.isTraffic] at hev

end PubSubNode
namespace Network

variable {f : P → R} {b : Bus V X L} {s t : Network V X L I Q P}

theorem inFlight_mapPayload (e : End L) :
    (s.mapPayload f).inFlight e = (s.inFlight e).map (·.mapPayload f) := by
  simp [inFlight,mapPayload,List.map_drop]

theorem mapPayload_stable : (s.mapPayload f).Stable ↔ s.Stable := by
  have hsettled (v : V) (c : End L) :
      ((s.mapPayload f).node v).pending c = none ∧ ((s.mapPayload f).node v).draining c = none ↔
        (s.node v).pending c = none ∧ (s.node v).draining c = none := by
    simp [mapPayload,PubSubNode.mapPayload,CheckState.mapPayload]
  exact ⟨fun h => ⟨fun v c => (hsettled v c).mp (h.settled v c),h.noticed⟩,
    fun h => ⟨fun v c => (hsettled v c).mpr (h.settled v c),h.noticed⟩⟩

variable [DecidableEq V] [DecidableEq X] [DecidableEq L] [DecidableEq I] [DecidableEq Q]

omit [DecidableEq X] in
theorem nodeStep_mapPayload {lim : Limits I Q P} {lim' : Limits I Q R} (hs : s.Stable) (v : V)
    {ev : NodeEvent (End L) I Q P} (hev : ev.isTraffic = true) :
    (s.mapPayload f).nodeStep lim' v (ev.mapPayload f) =
      (s.nodeStep lim v ev).map (·.mapPayload f) := by
  have hstep : ((s.node v).mapPayload f).step (lim'.onLinks L) (ev.mapPayload f) =
      ((s.node v).step (lim.onLinks L) ev).map (PubSubNode.mapResult f) :=
    PubSubNode.step_mapPayload (by rfl) hev (hs.settled v)
  have hnode : (s.mapPayload f).node v = (s.node v).mapPayload f := rfl
  rw [nodeStep,nodeStep,hnode,hstep,Option.map_map,Option.map_map]
  congr 1
  funext r
  have hsent (e : End L) : ((s.sent e).map (·.mapPayload f))++
      PubSubNode.queuedOn e.flip (PubSubNode.mapResult f r).2 =
        (s.sent e++PubSubNode.queuedOn e.flip r.2).map (·.mapPayload f) := by
    rw [List.map_append,PubSubNode.mapResult,PubSubNode.queuedOn_mapPayload]
  have hupdate : Function.update (fun w => (s.node w).mapPayload f) v (r.1.mapPayload f) =
      fun w => (Function.update s.node v r.1 w).mapPayload f := by
    funext w
    by_cases hw : w = v <;> simp [hw]
  have hnote : (s.mapPayload f).note (ev.mapPayload f) = (s.note ev).mapPayload f := by
    cases ev <;> rfl
  simp only [Function.comp_apply,hnote]
  rw [show (s.mapPayload f).sent = fun e => (s.sent e).map (·.mapPayload f) from rfl]
  simp only [hsent]
  rw [show (s.mapPayload f).node = fun w => (s.node w).mapPayload f from rfl]
  simp only [mapPayload,← hupdate]
  rfl

omit [DecidableEq V] [DecidableEq X] [DecidableEq I] [DecidableEq Q] in
theorem clientSend_mapPayload (x : X) (m : Message I Q P) :
    (s.mapPayload f).clientSend x (m.mapPayload f) =
      (s.clientSend x m).map (·.mapPayload f) := by
  have hcur : (s.mapPayload f).current = s.current := rfl
  rw [clientSend,clientSend,hcur,Option.map_map]
  congr 1
  funext l
  have hsent : Function.update (s.mapPayload f).sent ⟨l,.target⟩
      ((s.mapPayload f).sent ⟨l,.target⟩++[m.mapPayload f]) = fun e =>
        (Function.update s.sent ⟨l,.target⟩ (s.sent ⟨l,.target⟩++[m]) e).map (·.mapPayload f) := by
    funext e
    by_cases he : e = ⟨l,.target⟩
    · subst e
      simp [mapPayload]
    · simp [mapPayload,he]
  rw [hsent]
  rfl

theorem step_mapPayload {lim : Limits I Q P} {lim' : Limits I Q R} (hs : s.Stable)
    {a : Action V X L I Q P} (ha : a.isTraffic = true) :
    (s.mapPayload f).step b lim' (a.mapPayload f) = (s.step b lim a).map (·.mapPayload f) := by
  cases a with
  | node v ev =>
    have hposs : (s.mapPayload f).possible b v (ev.mapPayload f) = s.possible b v ev := by
      cases ev <;> rfl
    simp only [Action.mapPayload,step,hposs]
    split
    · exact nodeStep_mapPayload hs v ha
    · rfl
  | deliver e =>
    simp only [Action.mapPayload,step,inFlight_mapPayload]
    cases hm : s.inFlight e with
    | nil => rfl
    | cons m ms =>
      cases ho : b.owner e with
      | inl v =>
        have hev : (NodeEvent.receive e m : NodeEvent (End L) I Q P).isTraffic = true := rfl
        exact nodeStep_mapPayload hs v hev
      | inr x =>
        have hcur : (s.mapPayload f).current = s.current := rfl
        simp only [List.map_cons,hcur]
        split <;> rfl
  | subscription x u g =>
    have hsend := clientSend_mapPayload (f := f) (s := s) x (.subscription u g)
    simp only [Message.mapPayload] at hsend
    simp only [Action.mapPayload,step,hsend,Option.map_map]
    rfl
  | publish x u p => exact clientSend_mapPayload x (.publish u p)
  | _ => simp [Action.isTraffic] at ha

end Network
end SoftwareBus
