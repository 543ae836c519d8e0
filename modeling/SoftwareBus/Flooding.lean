import SoftwareBus.BaseNetwork
import Mathlib.Algebra.Order.BigOperators.Group.Finset

/-! What the clients of a tree of base layer nodes receive. -/
namespace SoftwareBus

open LinkGraph Transition

variable {V X L D : Type}

namespace QueuedConnection

variable {lim : NodeLimits D} {x : QueuedConnection D}

/-- An open connection whose loop waits for a message, and whose queue is being sent. -/
structure Flowing (lim : NodeLimits D) (x : QueuedConnection D) : Prop extends x.Queued lim where
  made : x.made = true
  loop : x.loop = .reading
  alive : x.cancelled = false
  isOpen : x.closing = false
  waiting : x.sender = .starting → x.sendQueue ≠ []

theorem Flowing.sending (h : x.Flowing lim) : x.senderCancelled = false := by
  by_contra hn
  simpa [h.isOpen] using h.cancelled (by simpa using hn)

def say (x : QueuedConnection D) (data : D) : QueuedConnection D :=
  {x with accepted := x.accepted++[data], written := x.written++[data]}

def feed (x : QueuedConnection D) (data : D) : QueuedConnection D :=
  {x with buffer := x.buffer++[data]}

def receive (x : QueuedConnection D) (data : D) : QueuedConnection D :=
  {x with buffer := x.buffer.tail, received := x.received++[data]}

/-- More may have been accepted and written, and what has come to the reader is the same. -/
structure Advances (x y : QueuedConnection D) : Prop where
  accepted : x.accepted <+: y.accepted
  written : x.written <+: y.written
  items : y.received++y.buffer = x.received++x.buffer

theorem Advances.refl (x : QueuedConnection D) : x.Advances x :=
  ⟨List.prefix_rfl,List.prefix_rfl,rfl⟩

theorem advances_say (x : QueuedConnection D) (data : D) : x.Advances (x.say data) :=
  ⟨List.prefix_append _ _,List.prefix_append _ _,rfl⟩

theorem advances_receive {data : D} {ds : List D} (hb : x.buffer = data::ds) :
    x.Advances (x.receive data) :=
  ⟨List.prefix_rfl,List.prefix_rfl,by simp [receive,hb]⟩

theorem enqueue_kept (x : QueuedConnection D) (data : D) (length : ℕ) :
    (x.enqueue data length).accepted = x.accepted++[data] ∧
      (x.enqueue data length).sendQueue = x.sendQueue++[data] ∧
      (x.enqueue data length).written = x.written := by
  unfold enqueue
  split <;> exact ⟨rfl,rfl,rfl⟩

theorem advances_enqueue (x : QueuedConnection D) (data : D) (length : ℕ) :
    x.Advances (x.enqueue data length) := by
  obtain ⟨hacc,-,hw⟩ := x.enqueue_kept data length
  exact ⟨hacc ▸ List.prefix_append _ _,hw ▸ List.prefix_rfl,by simp⟩

theorem sendNext_kept (x : QueuedConnection D) : x.sendNext.accepted = x.accepted ∧
    x.sendNext.sendQueue = x.sendQueue ∧ x.written <+: x.sendNext.written := by
  unfold sendNext
  split
  · exact ⟨rfl,rfl,List.prefix_rfl⟩
  · refine ⟨rfl,rfl,?_⟩
    dsimp only
    split
    · exact List.prefix_rfl
    · exact List.prefix_append _ _

theorem advances_sendNext (x : QueuedConnection D) : x.Advances x.sendNext := by
  obtain ⟨hacc,-,hw⟩ := x.sendNext_kept
  exact ⟨hacc ▸ List.prefix_rfl,hw,by simp⟩

theorem taken_kept (h : x.Flowing lim) (length : ℕ) :
    (x.taken length).accepted = x.accepted ∧ (x.taken length).sendQueue = x.sendQueue.tail ∧
      x.written <+: (x.taken length).written := by
  unfold taken
  rw [if_neg (by simp [h.isOpen])]
  exact sendNext_kept _

def moved (x : QueuedConnection D) : ℕ :=
  x.written.length+(x.accepted.length-x.sendQueue.length)+x.received.length

theorem moved_say (x : QueuedConnection D) (data : D) : x.moved ≤ (x.say data).moved := by
  simp only [moved,say,List.length_append]
  omega

theorem moved_receive (x : QueuedConnection D) (data : D) : x.moved < (x.receive data).moved := by
  simp only [moved,receive,List.length_append,List.length_singleton]
  omega

theorem moved_enqueue (x : QueuedConnection D) (data : D) (length : ℕ) :
    x.moved = (x.enqueue data length).moved := by
  obtain ⟨hacc,hq,hw⟩ := x.enqueue_kept data length
  simp [moved,hacc,hq,hw]

theorem moved_sendNext (h : x.Flowing lim) (hs : x.sender = .starting) : x.moved < x.sendNext.moved := by
  unfold sendNext
  split
  · exact absurd ‹_› (h.waiting hs)
  · simp only [moved,h.isOpen,Bool.false_eq_true,if_false,List.length_append,List.length_singleton]
    omega

theorem moved_taken (h : x.Flowing lim) {data : D} (hs : x.sender = .sending data) (length : ℕ) :
    x.moved < (x.taken length).moved := by
  obtain ⟨hacc,hq,hw⟩ := taken_kept h length
  obtain ⟨ds,hds,hs'⟩ := h.order h.isOpen
  rw [hs] at hs'
  obtain ⟨rest,hrest⟩ := List.head?_eq_some_iff.mp hs'.1
  have hle := hw.length_le
  have hlen : x.accepted.length = ds.length+(rest.length+1) := by simp [hds,hrest]
  simp only [moved,hacc,hq,hrest,List.tail_cons,List.length_cons,taken_toConnection]
  omega

theorem Flowing.say (h : x.Flowing lim) (hs : x.sender = .idle) (data : D) :
    (x.say data).Flowing lim := by
  refine ⟨⟨h.bytes,h.bound,h.loops,h.cancelled,fun hc => ?_⟩,h.made,h.loop,h.alive,h.isOpen,h.waiting⟩
  obtain ⟨ds,hacc,hs'⟩ := h.order hc
  rw [hs] at hs'
  refine ⟨ds++[data],by simp [QueuedConnection.say,hacc,hs'.1],?_⟩
  simp [QueuedConnection.say,hs,hs']

theorem Flowing.feed (h : x.Flowing lim) (data : D) : (x.feed data).Flowing lim :=
  ⟨h.toQueued.withLoop rfl,h.made,h.loop,h.alive,h.isOpen,h.waiting⟩

theorem Flowing.receive (h : x.Flowing lim) (data : D) : (x.receive data).Flowing lim :=
  ⟨h.toQueued.withLoop rfl,h.made,h.loop,h.alive,h.isOpen,h.waiting⟩

theorem Flowing.enqueue (h : x.Flowing lim) {data : D}
    (hroom : x.queuedBytes+lim.length data ≤ lim.sendQueueLimit) :
    (x.enqueue data (lim.length data)).Flowing lim := by
  have hloop := x.enqueue_toConnection data (lim.length data)
  refine ⟨h.toQueued.enqueue data hroom,?_,?_,?_,?_,fun _ => ?_⟩
  · rw [hloop,h.made]
  · rw [hloop,h.loop]
  · rw [hloop,h.alive]
  · rw [hloop,h.isOpen]
  · simp [(x.enqueue_kept data (lim.length data)).2.1]

theorem sendNext_waiting (x : QueuedConnection D) : x.sendNext.sender ≠ .starting := by
  unfold sendNext
  split <;> simp [endSender]

theorem Flowing.sendNext (h : x.Flowing lim) (hs : x.sender = .starting) :
    x.sendNext.Flowing lim := by
  have hloop := x.sendNext_toConnection
  refine ⟨sendNext_queued h.bytes h.bound ?_ h.cancelled fun hc => ?_,?_,?_,?_,?_,
    fun hw => absurd hw x.sendNext_waiting⟩
  · simpa [hs,Sender.running] using h.loops
  · obtain ⟨ds,hacc,hs'⟩ := h.order hc
    rw [hs] at hs'
    exact ⟨ds,hacc,hs'⟩
  · rw [hloop,h.made]
  · rw [hloop,h.loop]
  · rw [hloop,h.alive]
  · rw [hloop,h.isOpen]

theorem Flowing.taken (h : x.Flowing lim) {data : D} (hs : x.sender = .sending data) :
    (x.taken (lim.length data)).Flowing lim := by
  have hloop := x.taken_toConnection (lim.length data)
  refine ⟨h.toQueued.taken hs,?_,?_,?_,?_,fun hw => ?_⟩
  · rw [hloop,h.made]
  · rw [hloop,h.loop]
  · rw [hloop,h.alive]
  · rw [hloop,h.isOpen]
  · unfold QueuedConnection.taken at hw
    rw [if_neg (by simp [h.isOpen])] at hw
    exact absurd hw (sendNext_waiting _)

end QueuedConnection

namespace BaseLayerNode

variable {C K : Type} [DecidableEq C] [DecidableEq K] {lim : NodeLimits D} {n : BaseLayerNode C K D}

def enqueueAll (lim : NodeLimits D) (n : BaseLayerNode C K D) (cs : List C) (data : D) (c : C) :
    QueuedConnection D := if c ∈ cs then (n.conn c).enqueue data (lim.length data) else n.conn c

omit [DecidableEq K] in
theorem relayTo_room {data : D} {cs : List C} (hcs : cs.Nodup)
    (hroom : ∀ c ∈ cs, (n.conn c).queuedBytes+lim.length data ≤ lim.sendQueueLimit) :
    n.relayTo lim data cs = ({n with conn := n.enqueueAll lim cs data},none) := by
  induction cs generalizing n with
  | nil =>
    have hnone : n.enqueueAll lim [] data = n.conn := by
      funext c
      simp [enqueueAll]
    rw [relayTo,hnone]
  | cons c cs ih =>
    obtain ⟨hc,hcs⟩ := List.nodup_cons.mp hcs
    have hother {d : C} (hd : d ∈ cs) : d ≠ c := fun h => hc (h ▸ hd)
    rw [relayTo,if_neg (by simpa using hroom c (by simp)),ih hcs]
    · simp only [setConn,Prod.mk.injEq,and_true,BaseLayerNode.mk.injEq,true_and]
      funext d
      by_cases hd : d = c
      · subst d
        simp [enqueueAll,hc]
      · simp [enqueueAll,hd]
    · intro d hd
      simpa [setConn,hother hd] using hroom d (by simp [hd])

theorem step_feed {c : C} (hm : (n.conn c).made = true) (ho : (n.conn c).closing = false) (data : D) :
    n.step lim (.loop c (.feed data)) = some (n.setConn c ((n.conn c).feed data)) := by
  simp only [step,Connection.loopStep]
  rw [if_pos ⟨hm,ho⟩]
  rfl

/-- A loop that waits reads a message and relays it. -/
theorem run_receive {c : C} {k : K} {data : D} {ds : List D} {cs : List C}
    (hloop : (n.conn c).loop = .reading) (halive : (n.conn c).cancelled = false)
    (hb : (n.conn c).buffer = data::ds) (hk : n.calls k = none) (hc : c ∉ cs) (hcs : cs.Nodup)
    (hlen : lim.length data ≤ lim.maxPayloadLength)
    (hroom : ∀ d ∈ cs, (n.conn d).queuedBytes+lim.length data ≤ lim.sendQueueLimit) :
    run (step lim) n [.loop c .read,.relay k (some (.loop c)) cs data,.loop c .returned] =
      some {n with conn :=
        Function.update (n.enqueueAll lim cs data) c ((n.conn c).receive data)} := by
  let x : QueuedConnection D := {(n.conn c).receive data with loop := .callback}
  have hread : n.step lim (.loop c .read) = some (n.setConn c x) := by
    simp [step,Connection.loopStep,hb,hloop,halive,QueuedConnection.receive,x]
  have hother {d : C} (hd : d ∈ cs) : d ≠ c := fun h => hc (h ▸ hd)
  have hrelay : (n.setConn c x).step lim (.relay k (some (.loop c)) cs data) =
      some {n with conn := Function.update (n.enqueueAll lim cs data) c x} := by
    have hcan : (n.setConn c x).canCall (some (.loop c)) = true := by
      simp [canCall,setConn,Connection.inCallback,x]
    have hroom' : ∀ d ∈ cs, ((n.setConn c x).conn d).queuedBytes+lim.length data ≤
        lim.sendQueueLimit := fun d hd => by simpa [setConn,hother hd] using hroom d hd
    simp only [step]
    rw [if_pos ⟨by simp [setConn,hk],hcan⟩,if_neg (by simpa using hlen),relay,relayTo_room hcs hroom']
    simp only [endCall,setConn,Option.some.injEq,BaseLayerNode.mk.injEq,true_and,and_true]
    refine ⟨?_,by rw [← hk,Function.update_eq_self]⟩
    funext d
    by_cases hd : d = c
    · subst d
      simp [enqueueAll,hc]
    · simp [enqueueAll,hd]
  rw [run,hread,Option.bind_some,run,hrelay,Option.bind_some,run]
  simp [step,Connection.loopStep,run,setConn,x,hloop,halive,QueuedConnection.receive]

end BaseLayerNode

namespace BaseNetwork

variable [DecidableEq V] [DecidableEq X] [DecidableEq L] {t : BusTree V X L} {lim : NodeLimits D}
  {s s' : BaseNetwork V L D} {a : BaseMove L D}

structure Listed (t : BusTree V X L) (s : BaseNetwork V L D) : Prop where
  mem : ∀ v e, e ∈ (s.node v).allConnections ↔ t.owner e = .inl v
  nodup : ∀ v, (s.node v).allConnections.Nodup
  calls : ∀ v k, (s.node v).calls k = none

/-- What a move does to the connections, seen from outside. -/
inductive Effect (t : BusTree V X L) (lim : NodeLimits D) (s : BaseNetwork V L D) :
    BaseMove L D → (End L → QueuedConnection D) → (End L → ℕ) → Prop
  | send (e : End L) (data : D) (x : X) (ho : t.owner e = .inr x)
    (hlen : lim.length data ≤ lim.maxPayloadLength) :
    s.Effect t lim (.send e data) (Function.update (s.conn t) e ((s.conn t e).say data)) s.arrived
  | arrive (e : End L) (data : D) (hdata : (s.conn t e).written[s.arrived e]? = some data) :
    s.Effect t lim (.arrive e) (Function.update (s.conn t) e.flip ((s.conn t e.flip).feed data))
      (Function.update s.arrived e (s.arrived e+1))
  | receive (e : End L) (data : D) (ds : List D) (hb : (s.conn t e).buffer = data::ds)
    (hroom : ∀ f, t.owner f = t.owner e → f ≠ e →
      (s.conn t f).queuedBytes+lim.length data ≤ lim.sendQueueLimit) :
    s.Effect t lim (.receive e) (Function.update (fun f =>
      if t.owner f = t.owner e then (s.conn t f).enqueue data (lim.length data) else s.conn t f) e
        ((s.conn t e).receive data)) s.arrived
  | startSending (e : End L) (hs : (s.conn t e).sender = .starting) :
    s.Effect t lim (.startSending e) (Function.update (s.conn t) e (s.conn t e).sendNext) s.arrived
  | taken (e : End L) (data : D) (hs : (s.conn t e).sender = .sending data) :
    s.Effect t lim (.taken e) (Function.update (s.conn t) e
      ((s.conn t e).taken (lim.length data))) s.arrived

omit [DecidableEq V] [DecidableEq X] [DecidableEq L] in
theorem conn_node (s : BaseNetwork V L D) {e : End L} {v : V} (ho : t.owner e = .inl v) :
    s.conn t e = (s.node v).conn e := by
  simp [conn,ho]

omit [DecidableEq V] [DecidableEq X] [DecidableEq L] in
theorem conn_client (s : BaseNetwork V L D) {e : End L} {x : X} (ho : t.owner e = .inr x) :
    s.conn t e = {QueuedConnection.new with
      toConnection := s.client e
      accepted := s.said e
      written := s.said e} := by
  simp [conn,ho]

omit [DecidableEq V] [DecidableEq X] [DecidableEq L] in
theorem client_end {e f : End L} {x : X} (he : t.owner e = .inr x) (hf : t.owner f = .inr x) :
    f = e := by
  have hside {g : End L} (hg : t.owner g = .inr x) : g.side = .source ∧ t.source g.link = .inr x := by
    obtain ⟨l,d⟩ := g
    cases d with
    | source => exact ⟨rfl,by rwa [t.owner_source rfl] at hg⟩
    | target => simp [t.owner_target] at hg
  obtain ⟨l,-,hl⟩ := t.leaf x
  obtain ⟨hfs,hfl⟩ := hside hf
  obtain ⟨hes,hel⟩ := hside he
  exact End.mk.injEq .. ▸ ⟨(hl _ hfl).trans (hl _ hel).symm,hfs.trans hes.symm⟩

omit [DecidableEq L] in
theorem conn_setNode (s : BaseNetwork V L D) (v : V) (n : BaseLayerNode (End L) (End L) D)
    (e : End L) : ({s with node := Function.update s.node v n} : BaseNetwork V L D).conn t e =
      if t.owner e = .inl v then n.conn e else s.conn t e := by
  cases ho : t.owner e with
  | inl w =>
    rw [conn_node _ ho,conn_node _ ho]
    by_cases hw : w = v
    · subst w
      simp
    · simp [hw]
  | inr x => simp [conn_client _ ho]

theorem conn_setConn (s : BaseNetwork V L D) {v : V} {e : End L} (ho : t.owner e = .inl v)
    (x : QueuedConnection D) :
    ({s with node := Function.update s.node v ((s.node v).setConn e x)} : BaseNetwork V L D).conn t =
      Function.update (s.conn t) e x := by
  funext f
  rw [conn_setNode]
  by_cases hf : f = e
  · subst f
    simp [ho,BaseLayerNode.setConn]
  · split
    · simp [BaseLayerNode.setConn,hf,conn_node s ‹_›]
    · simp [hf]

omit [DecidableEq V] [DecidableEq X] in
theorem conn_setClient (s : BaseNetwork V L D) {x : X} {e : End L} (ho : t.owner e = .inr x)
    (c : Connection D) :
    ({s with client := Function.update s.client e c} : BaseNetwork V L D).conn t =
      Function.update (s.conn t) e {s.conn t e with toConnection := c} := by
  funext f
  by_cases hf : f = e
  · subst f
    simp [conn_client _ ho]
  · cases hof : t.owner f with
    | inl w => simp [hf,conn_node _ hof]
    | inr y => simp [hf,conn_client _ hof]

omit [DecidableEq X] [DecidableEq L] in
theorem listed_setNode (hl : s.Listed t) {v : V} {n : BaseLayerNode (End L) (End L) D}
    (hrec : n.toNodeRecord = (s.node v).toNodeRecord) (hcalls : n.calls = (s.node v).calls) :
    ({s with node := Function.update s.node v n} : BaseNetwork V L D).Listed t := by
  have same (w : V) : (Function.update s.node v n w).toNodeRecord = (s.node w).toNodeRecord ∧
      (Function.update s.node v n w).calls = (s.node w).calls := by
    by_cases hw : w = v
    · subst w
      simp [hrec,hcalls]
    · simp [hw]
  refine ⟨fun w e => ?_,fun w => ?_,fun w k => ?_⟩
  · rw [← hl.mem w e,(same w).1]
  · rw [(same w).1]
    exact hl.nodup w
  · rw [(same w).2]
    exact hl.calls w k

section Moves

variable {e : End L} {v : V} {x : X}

omit [DecidableEq V] [DecidableEq X] in
theorem conn_said (s : BaseNetwork V L D) (ho : t.owner e = .inr x) (data : D) :
    ({s with said := Function.update s.said e (s.said e++[data])} : BaseNetwork V L D).conn t =
      Function.update (s.conn t) e ((s.conn t e).say data) := by
  funext f
  by_cases hf : f = e
  · subst f
    simp [conn_client _ ho,QueuedConnection.say]
  · cases hof : t.owner f with
    | inl w => simp [hf,conn_node _ hof]
    | inr y => simp [hf,conn_client _ hof]

theorem send_effect (hl : s.Listed t) {data : D} (h : s.step t lim (.send e data) = some s') :
    s.Effect t lim (.send e data) (s'.conn t) s'.arrived ∧ s'.Listed t := by
  simp only [step] at h
  split at h <;> try contradiction
  rename_i x ho
  simp only [Option.ite_none_right_eq_some,Option.some.injEq] at h
  obtain ⟨hlen,rfl⟩ := h
  refine ⟨?_,hl.mem,hl.nodup,hl.calls⟩
  rw [conn_said s ho]
  exact .send e data x ho hlen

theorem node_feed (hl : s.Listed t) (ho : t.owner e = .inl v) (hflow : (s.conn t e).Flowing lim)
    {data : D} (h : s.nodeRun lim v [.loop e (.feed data)] = some s') :
    s'.conn t = Function.update (s.conn t) e ((s.conn t e).feed data) ∧ s'.Listed t := by
  rw [conn_node s ho] at hflow ⊢
  obtain ⟨n,hn,rfl⟩ := Option.map_eq_some_iff.mp h
  rw [run_singleton,BaseLayerNode.step_feed hflow.made hflow.isOpen] at hn
  obtain rfl := Option.some.inj hn
  exact ⟨conn_setConn s ho _,listed_setNode hl rfl rfl⟩

omit [DecidableEq V] [DecidableEq X] in
theorem client_feed (hl : s.Listed t) (ho : t.owner e = .inr x) (hflow : (s.conn t e).Flowing lim)
    {data : D} (h : s.clientRun e [.feed data] = some s') :
    s'.conn t = Function.update (s.conn t) e ((s.conn t e).feed data) ∧ s'.Listed t := by
  obtain ⟨c,hc,rfl⟩ := Option.map_eq_some_iff.mp h
  rw [conn_client s ho] at hflow
  rw [run_singleton,Connection.loopStep,if_pos ⟨hflow.made,hflow.isOpen⟩] at hc
  obtain rfl := Option.some.inj hc
  refine ⟨?_,hl.mem,hl.nodup,hl.calls⟩
  rw [conn_setClient s ho]
  simp [QueuedConnection.feed,conn_client s ho]

theorem arrive_effect (hl : s.Listed t) (hflow : (s.conn t e.flip).Flowing lim)
    (h : s.step t lim (.arrive e) = some s') :
    s.Effect t lim (.arrive e) (s'.conn t) s'.arrived ∧ s'.Listed t := by
  obtain ⟨data,hdata,h⟩ := Option.bind_eq_some_iff.mp h
  obtain ⟨u,hu,rfl⟩ := Option.map_eq_some_iff.mp h
  have hfed : u.conn t = Function.update (s.conn t) e.flip ((s.conn t e.flip).feed data) ∧
      u.Listed t := by
    split at hu
    · exact node_feed hl ‹_› hflow hu
    · exact client_feed hl ‹_› hflow hu
  obtain ⟨hconn,hlu⟩ := hfed
  have harrived : u.arrived = s.arrived := by
    split at hu <;> obtain ⟨_,-,rfl⟩ := Option.map_eq_some_iff.mp hu <;> rfl
  refine ⟨?_,hlu.mem,hlu.nodup,hlu.calls⟩
  show s.Effect t lim _ (u.conn t) _
  rw [hconn]
  exact .arrive e data hdata

theorem conn_relayed (s : BaseNetwork V L D) (ho : t.owner e = .inl v) {cs : List (End L)}
    (hcs : ∀ f, f ∈ cs ↔ t.owner f = .inl v ∧ f ≠ e) (data : D) :
    ({s with node := Function.update s.node v {s.node v with
        conn := Function.update ((s.node v).enqueueAll lim cs data) e
          (((s.node v).conn e).receive data)}} : BaseNetwork V L D).conn t =
      Function.update (fun f => if t.owner f = t.owner e then
        (s.conn t f).enqueue data (lim.length data) else s.conn t f) e
          ((s.conn t e).receive data) := by
  funext f
  rw [conn_setNode]
  by_cases hf : f = e
  · subst f
    simp [ho,conn_node s ho]
  · by_cases hof : t.owner f = .inl v
    · simp [ho,hof,hf,BaseLayerNode.enqueueAll,hcs,conn_node s hof]
    · simp [ho,hof,hf]

theorem node_receive_effect (hl : s.Listed t) (ho : t.owner e = .inl v)
    (hflow : (s.conn t e).Flowing lim)
    (hshort : ∀ d ∈ (s.conn t e).buffer, lim.length d ≤ lim.maxPayloadLength)
    (h : s.step t lim (.receive e) = some s') :
    s.Effect t lim (.receive e) (s'.conn t) s'.arrived ∧ s'.Listed t := by
  simp only [step,ho] at h
  obtain ⟨data,hdata,h⟩ := Option.bind_eq_some_iff.mp h
  simp only [Option.ite_none_right_eq_some] at h
  obtain ⟨hroom,h⟩ := h
  obtain ⟨n,hn,rfl⟩ := Option.map_eq_some_iff.mp h
  obtain ⟨ds,hb⟩ := List.head?_eq_some_iff.mp hdata
  have hlen := hshort data (by simp [hb])
  have hpeers (f : End L) : f ∈ (s.node v).peersExcept e ↔ t.owner f = .inl v ∧ f ≠ e := by
    simp [NodeRecord.peersExcept,hl.mem v f]
  have hroom' (f : End L) (hf : f ∈ (s.node v).peersExcept e) :
      ((s.node v).conn f).queuedBytes+lim.length data ≤ lim.sendQueueLimit := by
    simpa using List.all_eq_true.mp hroom f hf
  have hconn := conn_node s ho
  have hnodup : ((s.node v).peersExcept e).Nodup := (hl.nodup v).filter _
  rw [hconn] at hflow
  rw [BaseLayerNode.run_receive hflow.loop hflow.alive (hconn ▸ hb) (hl.calls v e)
    (by simp [hpeers]) hnodup hlen hroom'] at hn
  obtain rfl := Option.some.inj hn
  refine ⟨?_,listed_setNode hl rfl rfl⟩
  rw [conn_relayed s ho hpeers]
  refine .receive e data ds hb fun f hof hf => ?_
  rw [conn_node s (hof.trans ho)]
  exact hroom' f ((hpeers f).mpr ⟨hof.trans ho,hf⟩)

theorem client_receive_effect (hl : s.Listed t) (ho : t.owner e = .inr x)
    (hflow : (s.conn t e).Flowing lim) (h : s.step t lim (.receive e) = some s') :
    s.Effect t lim (.receive e) (s'.conn t) s'.arrived ∧ s'.Listed t := by
  simp only [step,ho] at h
  obtain ⟨c,hc,rfl⟩ := Option.map_eq_some_iff.mp h
  obtain ⟨c',hread,hc⟩ := run_cons hc
  rw [run_singleton] at hc
  have hconn := conn_client s ho
  rw [hconn] at hflow
  simp only [Connection.loopStep] at hread
  split at hread <;> try contradiction
  rename_i data ds hb
  obtain ⟨-,rfl⟩ := by simpa using hread
  obtain ⟨-,rfl⟩ := by simpa [Connection.loopStep] using hc
  refine ⟨?_,hl.mem,hl.nodup,hl.calls⟩
  -- a client has nobody to relay to
  have hafter : Function.update (fun f => if t.owner f = t.owner e then
        (s.conn t f).enqueue data (lim.length data) else s.conn t f) e
          ((s.conn t e).receive data) = Function.update (s.conn t) e ((s.conn t e).receive data) := by
    funext f
    by_cases hf : f = e
    · simp [hf]
    · have hof : t.owner f ≠ t.owner e := fun h => hf (client_end ho (h.trans ho))
      simp [hf,hof]
  rw [conn_setClient s ho]
  have heffect := @Effect.receive V X L D _ _ _ t lim s e data ds (by rw [hconn]; exact hb)
    fun f hof hf => absurd (client_end ho (hof.trans ho)) hf
  rw [hafter] at heffect
  have hloop : (s.client e).loop = .reading := hflow.loop
  simpa [hconn,QueuedConnection.receive,hb,hloop] using heffect

theorem startSending_effect (hl : s.Listed t) (hflow : (s.conn t e).Flowing lim)
    (h : s.step t lim (.startSending e) = some s') :
    s.Effect t lim (.startSending e) (s'.conn t) s'.arrived ∧ s'.Listed t := by
  simp only [step] at h
  split at h <;> try contradiction
  rename_i v ho
  obtain ⟨n,hn,rfl⟩ := Option.map_eq_some_iff.mp h
  rw [run_singleton] at hn
  simp only [BaseLayerNode.step] at hn
  split at hn <;> try contradiction
  rename_i hsend
  have hconn := conn_node s ho
  rw [hconn] at hflow
  rw [hflow.sending] at hn
  obtain rfl := Option.some.inj hn
  refine ⟨?_,listed_setNode hl rfl rfl⟩
  rw [conn_setConn s ho]
  have heffect := @Effect.startSending V X L D _ _ _ t lim s e (hconn ▸ hsend)
  rwa [hconn] at heffect

theorem taken_effect (hl : s.Listed t) (h : s.step t lim (.taken e) = some s') :
    s.Effect t lim (.taken e) (s'.conn t) s'.arrived ∧ s'.Listed t := by
  simp only [step] at h
  split at h <;> try contradiction
  rename_i v ho
  obtain ⟨n,hn,rfl⟩ := Option.map_eq_some_iff.mp h
  rw [run_singleton] at hn
  simp only [BaseLayerNode.step] at hn
  split at hn <;> try contradiction
  rename_i data hsend
  have hconn := conn_node s ho
  obtain rfl := Option.some.inj hn
  refine ⟨?_,listed_setNode hl rfl rfl⟩
  rw [conn_setConn s ho]
  have heffect := @Effect.taken V X L D _ _ _ t lim s e data (hconn ▸ hsend)
  rwa [hconn] at heffect

end Moves

theorem step_effect (hl : s.Listed t) (hs : ∀ e, (s.conn t e).Flowing lim)
    (hshort : ∀ e, ∀ d ∈ (s.conn t e).buffer, lim.length d ≤ lim.maxPayloadLength)
    (h : s.step t lim a = some s') : s.Effect t lim a (s'.conn t) s'.arrived ∧ s'.Listed t := by
  cases a with
  | send e data => exact send_effect hl h
  | arrive e => exact arrive_effect hl (hs e.flip) h
  | receive e =>
    cases ho : t.owner e with
    | inl v => exact node_receive_effect hl ho (hs e) (hshort e) h
    | inr x => exact client_receive_effect hl ho (hs e) h
  | startSending e => exact startSending_effect hl (hs e) h
  | taken e => exact taken_effect hl h

/-- What reached the readers is what was written, up to what is still on the way. -/
def Reads (w : End L → QueuedConnection D) (n : End L → ℕ) : Prop :=
  ∀ e, n e ≤ (w e).written.length ∧
    (w e.flip).received++(w e.flip).buffer = (w e).written.take (n e)

structure AtEnd (lim : NodeLimits D) (f : Flood (V ⊕ X) L D) (e : End L) (x : QueuedConnection D) :
    Prop where
  flowing : x.Flowing lim
  short : ∀ d ∈ x.accepted, lim.length d ≤ lim.maxPayloadLength
  sent : (f.sent e).map Prod.snd = x.accepted
  read : f.read e = x.received.length

/-- The flood that connections in such a state carry; its items are known by who sent them. -/
structure Carries (t : BusTree V X L) (lim : NodeLimits D) (w : End L → QueuedConnection D)
    (n : End L → ℕ) (f : Flood (V ⊕ X) L D) : Prop where
  ends : ∀ e, AtEnd lim f e (w e)
  reads : Reads w n
  spread : f.Spread t.topology
  clients : ∀ p ∈ f.said, ∃ x, p.1 = .inr x

omit [DecidableEq L] in
theorem init_carries (t : BusTree V X L) (lim : NodeLimits D) :
    (init t : BaseNetwork V L D).Listed t ∧ Carries t lim ((init t : BaseNetwork V L D).conn t)
      (init t : BaseNetwork V L D).arrived .init := by
  have hconn (e : End L) : (init t : BaseNetwork V L D).conn t e = .new := by
    cases ho : t.owner e with
    | inl v => simp [conn_node _ ho,init,ho]
    | inr x => simp [conn_client _ ho,init,QueuedConnection.new]
  refine ⟨⟨fun v e => ?_,fun v => ?_,fun v k => rfl⟩,fun e => ?_,fun e => ?_,
    Flood.init_spread _,by simp [Flood.init]⟩
  · constructor
    · intro he
      rcases List.mem_append.mp he with he | he
      · obtain ⟨l,hl,rfl⟩ := List.mem_map.mp he
        exact (t.owner_target rfl).trans (congrArg Sum.inl ((t.mem_takenBy v l).mp hl))
      · obtain ⟨l,hl,rfl⟩ := List.mem_map.mp he
        exact (t.owner_source rfl).trans ((t.mem_madeBy v l).mp hl)
    · obtain ⟨l,d⟩ := e
      intro he
      cases d with
      | source =>
        rw [t.owner_source rfl] at he
        exact List.mem_append_right _ (List.mem_map_of_mem ((t.mem_madeBy v l).mpr he))
      | target =>
        rw [t.owner_target rfl] at he
        exact List.mem_append_left _ (List.mem_map_of_mem ((t.mem_takenBy v l).mpr (Sum.inl.inj he)))
  · refine List.nodup_append.mpr ⟨?_,?_,?_⟩
    · exact (t.nodup_takenBy v).map fun l m h => congrArg End.link h
    · exact (t.nodup_madeBy v).map fun l m h => congrArg End.link h
    · intro e he f hf hef
      obtain ⟨l,-,rfl⟩ := List.mem_map.mp he
      obtain ⟨m,-,rfl⟩ := List.mem_map.mp hf
      simp at hef
  · rw [hconn]
    exact ⟨⟨QueuedConnection.new_queued,rfl,rfl,rfl,rfl,by simp [QueuedConnection.new]⟩,
      by simp [QueuedConnection.new],rfl,rfl⟩
  · rw [hconn,hconn]
    simp [QueuedConnection.new,init,Connection.new]

section carries

variable {w w' : End L → QueuedConnection D} {n n' : End L → ℕ} {f : Flood (V ⊕ X) L D}

omit [DecidableEq V] [DecidableEq X] [DecidableEq L]

theorem Reads.advance (h : Reads w n) (hw : ∀ e, (w e).Advances (w' e)) : Reads w' n := by
  intro e
  obtain ⟨hn,hitems⟩ := h e
  obtain ⟨ds,hds⟩ := (hw e).written
  refine ⟨hn.trans (hw e).written.length_le,?_⟩
  rw [(hw e.flip).items,hitems,← hds,List.take_append_of_le_length hn]

theorem Reads.arrive [DecidableEq L] (h : Reads w n) {e : End L} {data : D}
    (hdata : (w e).written[n e]? = some data) :
    Reads (Function.update w e.flip ((w e.flip).feed data)) (Function.update n e (n e+1)) := by
  obtain ⟨hlt,-⟩ := List.getElem?_eq_some_iff.mp hdata
  intro d
  obtain ⟨hn,hitems⟩ := h d
  have hwritten : (Function.update w e.flip ((w e.flip).feed data) d).written = (w d).written := by
    by_cases hd : d = e.flip
    · subst d
      simp [QueuedConnection.feed]
    · simp [hd]
  rw [hwritten]
  by_cases hd : d = e
  · subst d
    rw [Function.update_self,Function.update_self]
    refine ⟨hlt,?_⟩
    rw [List.take_add_one,hdata,← hitems]
    simp [QueuedConnection.feed]
  · have hflip : d.flip ≠ e.flip := fun h => hd (End.flip_inj.mp h)
    rw [Function.update_of_ne hd,Function.update_of_ne hflip]
    exact ⟨hn,hitems⟩

variable [DecidableEq V] [DecidableEq X]

/-- What is in a reader, and was received, has been accepted at the other end. -/
theorem Carries.items (hc : Carries t lim w n f) (e : End L) :
    (w e).received++(w e).buffer <+: (w e.flip).accepted := by
  have hitems := (hc.reads e.flip).2
  have hflow := (hc.ends e.flip).flowing
  rw [End.flip_flip] at hitems
  rw [hitems]
  exact (List.take_prefix _ _).trans (hflow.sent hflow.isOpen).1

theorem Carries.buffer_short (hc : Carries t lim w n f) (e : End L) {d : D}
    (hd : d ∈ (w e).buffer) : lim.length d ≤ lim.maxPayloadLength :=
  (hc.ends e.flip).short d ((hc.items e).subset (List.mem_append_right _ hd))

end carries

section Carried

variable {f : Flood (V ⊕ X) L D} {e : End L} {data : D}

theorem Carries.readsUpdate (hc : Carries t lim (s.conn t) s.arrived f) {x : QueuedConnection D}
    (hadv : (s.conn t e).Advances x) : Reads (Function.update (s.conn t) e x) s.arrived :=
  hc.reads.advance ((Function.forall_update_iff _ fun d y => (s.conn t d).Advances y).mpr
    ⟨hadv,fun _ _ => .refl _⟩)

/-- The flood is the same when what one connection has of it is. -/
theorem Carries.update (hc : Carries t lim (s.conn t) s.arrived f) {x : QueuedConnection D}
    {n : End L → ℕ} (hx : AtEnd lim f e x) (hr : Reads (Function.update (s.conn t) e x) n) :
    Carries t lim (Function.update (s.conn t) e x) n f :=
  ⟨(Function.forall_update_iff _ fun d y => AtEnd lim f d y).mpr ⟨hx,fun d _ => hc.ends d⟩,hr,
    hc.spread,hc.clients⟩

/-- What a client sends is a new item of the flood. -/
theorem Carries.say (hc : Carries t lim (s.conn t) s.arrived f) {x : X} (ho : t.owner e = .inr x)
    (hlen : lim.length data ≤ lim.maxPayloadLength) :
    ∃ f', Carries t lim (Function.update (s.conn t) e ((s.conn t e).say data)) s.arrived f' ∧
      f'.said.length = f.said.length+1 := by
  have hend := hc.ends e
  have hidle : (s.conn t e).sender = .idle := by simp [conn_client s ho,QueuedConnection.new]
  obtain ⟨f',hf⟩ : ∃ f', f.step t.topology (.say (.inr x) data) = some f' := ⟨_,rfl⟩
  obtain ⟨hsaid,hread,hsent⟩ := Flood.step_say hf
  refine ⟨f',⟨?_,hc.readsUpdate (QueuedConnection.advances_say _ data),
    Flood.say_spread t.acyclic hc.spread hf,?_⟩,by simp [hsaid]⟩
  · refine (Function.forall_update_iff _ fun d y => AtEnd lim f' d y).mpr ⟨?_,fun d hd => ?_⟩
    · refine ⟨hend.flowing.say hidle data,fun d hd => ?_,?_,by rw [hread]; exact hend.read⟩
      · rcases List.mem_append.mp hd with hd | hd
        · exact hend.short d hd
        · exact List.mem_singleton.mp hd ▸ hlen
      · rw [hsent,if_pos (show t.topology.owner e = .inr x from ho),List.map_append,hend.sent]
        rfl
    · have hother : t.topology.owner d ≠ .inr x := fun h => hd (client_end ho h)
      have hend' := hc.ends d
      exact ⟨hend'.flowing,hend'.short,by rw [hsent,if_neg hother]; exact hend'.sent,
        by rw [hread]; exact hend'.read⟩
  · intro p hp
    rcases List.mem_append.mp (hsaid ▸ hp) with hp | hp
    · exact hc.clients p hp
    · exact ⟨x,by rw [List.mem_singleton.mp hp]⟩

omit [DecidableEq L] in
theorem Carries.item (hc : Carries t lim (s.conn t) s.arrived f) {ds : List D}
    (hb : (s.conn t e).buffer = data::ds) :
    ∃ p, (f.sent e.flip)[f.read e]? = some p ∧ p.2 = data := by
  obtain ⟨es,hes⟩ := hc.items e
  have hdata : ((s.conn t e.flip).accepted)[(s.conn t e).received.length]? = some data := by
    simp [← hes,hb]
  rw [← (hc.ends e.flip).sent,← (hc.ends e).read,List.getElem?_map] at hdata
  exact Option.map_eq_some_iff.mp hdata

/-- What is received is passed on through the other ends of the same owner. -/
theorem Carries.receive (hc : Carries t lim (s.conn t) s.arrived f) {ds : List D}
    (hb : (s.conn t e).buffer = data::ds)
    (hroom : ∀ f, t.owner f = t.owner e → f ≠ e →
      (s.conn t f).queuedBytes+lim.length data ≤ lim.sendQueueLimit) :
    ∃ f', Carries t lim (Function.update (fun f => if t.owner f = t.owner e then
      (s.conn t f).enqueue data (lim.length data) else s.conn t f) e ((s.conn t e).receive data))
        s.arrived f' ∧ f'.said.length = f.said.length := by
  have hend := hc.ends e
  obtain ⟨p,hp,rfl⟩ := hc.item hb
  obtain ⟨f',hf,hsaid,hread,hsent⟩ := Flood.step_pass (t := t.topology) hp
  refine ⟨f',⟨?_,hc.reads.advance ?_,Flood.pass_spread t.acyclic hc.spread hf,hsaid ▸ hc.clients⟩,
    by simp [hsaid]⟩
  · refine (Function.forall_update_iff _ fun d y => AtEnd lim f' d y).mpr ⟨?_,fun d hd => ?_⟩
    · refine ⟨hend.flowing.receive p.2,hend.short,?_,?_⟩
      · rw [hsent,if_neg (by simp)]
        exact hend.sent
      · rw [hread,Function.update_self,hend.read]
        simp [QueuedConnection.receive]
    · have hend' := hc.ends d
      have hread' : f'.read d = (s.conn t d).received.length := by
        rw [hread,Function.update_of_ne hd]
        exact hend'.read
      by_cases ho : t.owner d = t.owner e
      · obtain ⟨hacc,-,-⟩ := (s.conn t d).enqueue_kept p.2 (lim.length p.2)
        rw [if_pos ho]
        refine ⟨hend'.flowing.enqueue (hroom d ho hd),fun x hx => ?_,?_,by simpa using hread'⟩
        · rcases List.mem_append.mp (hacc ▸ hx) with hx | hx
          · exact hend'.short x hx
          · exact List.mem_singleton.mp hx ▸ hc.buffer_short e (by simp [hb])
        · rw [hsent,if_pos ⟨ho,hd⟩,List.map_append,hend'.sent,hacc]
          rfl
      · rw [if_neg ho]
        exact ⟨hend'.flowing,hend'.short,
          by rw [hsent,if_neg fun h => ho h.1]; exact hend'.sent,hread'⟩
  · refine (Function.forall_update_iff _ fun d y => (s.conn t d).Advances y).mpr
      ⟨QueuedConnection.advances_receive hb,fun d _ => ?_⟩
    split
    · exact QueuedConnection.advances_enqueue _ _ _
    · exact .refl _

theorem Effect.carries {w : End L → QueuedConnection D} {n : End L → ℕ}
    (hc : Carries t lim (s.conn t) s.arrived f) (h : s.Effect t lim a w n) :
    ∃ f', Carries t lim w n f' ∧ f'.said.length = f.said.length+if a.isSend then 1 else 0 := by
  cases h with
  | send e data x ho hlen => exact hc.say ho hlen
  | arrive e data hdata =>
    have hend := hc.ends e.flip
    refine ⟨f,hc.update ?_ (hc.reads.arrive hdata),rfl⟩
    exact ⟨hend.flowing.feed data,hend.short,hend.sent,hend.read⟩
  | receive e data ds hb hroom => exact hc.receive hb hroom
  | startSending e hs =>
    obtain ⟨hacc,-,-⟩ := (s.conn t e).sendNext_kept
    have hend := hc.ends e
    refine ⟨f,hc.update ?_ (hc.readsUpdate (QueuedConnection.advances_sendNext _)),rfl⟩
    exact ⟨hend.flowing.sendNext hs,hacc ▸ hend.short,hend.sent.trans hacc.symm,by simpa using hend.read⟩
  | taken e data hs =>
    have hend := hc.ends e
    obtain ⟨hacc,-,hw⟩ := QueuedConnection.taken_kept hend.flowing (lim.length data)
    refine ⟨f,hc.update ?_ (hc.readsUpdate ⟨hacc ▸ List.prefix_rfl,hw,by simp⟩),rfl⟩
    exact ⟨hend.flowing.taken hs,hacc ▸ hend.short,hend.sent.trans hacc.symm,by simpa using hend.read⟩

end Carried

def movedAt (w : End L → QueuedConnection D) (n : End L → ℕ) (e : End L) : ℕ := (w e).moved+n e

theorem Effect.moved {w : End L → QueuedConnection D} {n : End L → ℕ} {f : Flood (V ⊕ X) L D}
    (hc : Carries t lim (s.conn t) s.arrived f) (h : s.Effect t lim a w n) :
    (∀ e, movedAt (s.conn t) s.arrived e ≤ movedAt w n e) ∧
      (a.isSend = false → ∃ e, movedAt (s.conn t) s.arrived e < movedAt w n e) := by
  -- one connection has moved
  have set {e : End L} {x : QueuedConnection D} (hx : (s.conn t e).moved ≤ x.moved) (d : End L) :
      movedAt (s.conn t) s.arrived d ≤ movedAt (Function.update (s.conn t) e x) s.arrived d := by
    refine Nat.add_le_add_right ?_ _
    by_cases hd : d = e
    · subst d
      simpa using hx
    · simp [hd]
  have there {e : End L} {x : QueuedConnection D} {w : End L → QueuedConnection D}
      (hx : (s.conn t e).moved < x.moved) :
      ∃ d, movedAt (s.conn t) s.arrived d < movedAt (Function.update w e x) s.arrived d :=
    ⟨e,by simpa [movedAt] using hx⟩
  cases h with
  | send e data x ho hlen =>
    exact ⟨set (QueuedConnection.moved_say _ data),by simp [BaseMove.isSend]⟩
  | arrive e data hdata =>
    have hconn (d : End L) : (Function.update (s.conn t) e.flip ((s.conn t e.flip).feed data)
        d).moved = (s.conn t d).moved := by
      by_cases hd : d = e.flip
      · subst d
        simp [QueuedConnection.moved,QueuedConnection.feed]
      · simp [hd]
    refine ⟨fun d => ?_,fun _ => ⟨e,?_⟩⟩
    · rw [movedAt,movedAt,hconn]
      by_cases hd : d = e
      · subst d
        simp
      · simp [hd]
    · rw [movedAt,movedAt,hconn]
      simp
  | receive e data ds hb hroom =>
    refine ⟨fun d => Nat.add_le_add_right ?_ _,fun _ => there (QueuedConnection.moved_receive _ data)⟩
    by_cases hd : d = e
    · subst d
      simpa using (QueuedConnection.moved_receive _ data).le
    · rw [Function.update_of_ne hd]
      split
      · exact (QueuedConnection.moved_enqueue _ _ _).le
      · exact le_rfl
  | startSending e hs =>
    have hlt := QueuedConnection.moved_sendNext (hc.ends e).flowing hs
    exact ⟨set hlt.le,fun _ => there hlt⟩
  | taken e data hs =>
    have hlt := QueuedConnection.moved_taken (hc.ends e).flowing hs (lim.length data)
    exact ⟨set hlt.le,fun _ => there hlt⟩

omit [DecidableEq L] in
/-- Nothing moves more often than it was sent. -/
theorem Carries.moved_le {w : End L → QueuedConnection D} {n : End L → ℕ} {f : Flood (V ⊕ X) L D}
    (hc : Carries t lim w n f) (e : End L) : movedAt w n e ≤ 4*f.said.length := by
  have hacc (d : End L) : (w d).accepted.length ≤ f.said.length := by
    rw [← (hc.ends d).sent,List.length_map]
    exact (hc.spread.subperm d).length_le
  have hflow := (hc.ends e).flowing
  have hwritten := (hflow.sent hflow.isOpen).1.length_le
  have harrived := (hc.reads e).1
  have hitems := (hc.items e).length_le
  have h := hacc e
  have hflip := hacc e.flip
  rw [List.length_append] at hitems
  simp only [movedAt,QueuedConnection.moved]
  omega

variable [Fintype L]

def movedAll (w : End L → QueuedConnection D) (n : End L → ℕ) : ℕ :=
  ∑ l, (movedAt w n ⟨l,.source⟩+movedAt w n ⟨l,.target⟩)

omit [DecidableEq L] in
theorem Carries.movedAll_le {w : End L → QueuedConnection D} {n : End L → ℕ}
    {f : Flood (V ⊕ X) L D} (hc : Carries t lim w n f) :
    movedAll w n ≤ 8*Fintype.card L*f.said.length := by
  have hlink (l : L) : movedAt w n ⟨l,.source⟩+movedAt w n ⟨l,.target⟩ ≤ 8*f.said.length := by
    have hsource := hc.moved_le ⟨l,.source⟩
    have htarget := hc.moved_le ⟨l,.target⟩
    omega
  calc movedAll w n ≤ ∑ _ : L, 8*f.said.length := Finset.sum_le_sum fun l _ => hlink l
    _ = 8*Fintype.card L*f.said.length := by
      rw [Finset.sum_const_nat fun _ _ => rfl,Finset.card_univ,Nat.mul_left_comm,Nat.mul_assoc]

theorem Effect.movedAll {w : End L → QueuedConnection D} {n : End L → ℕ} {f : Flood (V ⊕ X) L D}
    (hc : Carries t lim (s.conn t) s.arrived f) (h : s.Effect t lim a w n) :
    BaseNetwork.movedAll (s.conn t) s.arrived+(if a.isSend then 0 else 1) ≤
      BaseNetwork.movedAll w n := by
  obtain ⟨hle,hlt⟩ := h.moved hc
  have hlink (l : L) : movedAt (s.conn t) s.arrived ⟨l,.source⟩+movedAt (s.conn t) s.arrived
      ⟨l,.target⟩ ≤ movedAt w n ⟨l,.source⟩+movedAt w n ⟨l,.target⟩ :=
    Nat.add_le_add (hle _) (hle _)
  by_cases ha : a.isSend = true
  · rw [if_pos ha]
    exact Finset.sum_le_sum fun l _ => hlink l
  · obtain ⟨⟨l,d⟩,hd⟩ := hlt (by simpa using ha)
    rw [if_neg ha]
    refine Finset.sum_lt_sum (fun l _ => hlink l) ⟨l,Finset.mem_univ l,?_⟩
    cases d with
    | source => exact Nat.add_lt_add_of_lt_of_le hd (hle _)
    | target => exact Nat.add_lt_add_of_le_of_lt (hle _) hd

/-- A run of the network is a flood, as long as what it sends and does allows. -/
theorem run_carries {as : List (BaseMove L D)} {f : Flood (V ⊕ X) L D} (hl : s.Listed t)
    (hc : Carries t lim (s.conn t) s.arrived f) (hrun : run (step t lim) s as = some s') :
    ∃ f', Carries t lim (s'.conn t) s'.arrived f' ∧
      f'.said.length = f.said.length+as.countP BaseMove.isSend ∧
      movedAll (s.conn t) s.arrived+as.countP (fun a => !a.isSend) ≤ movedAll (s'.conn t) s'.arrived := by
  induction as generalizing s f with
  | nil =>
    obtain rfl := Option.some.inj hrun
    exact ⟨f,hc,rfl,le_rfl⟩
  | cons a as ih =>
    obtain ⟨u,hu,hrest⟩ := run_cons hrun
    obtain ⟨heff,hlu⟩ := step_effect hl (fun e => (hc.ends e).flowing)
      (fun e d hd => hc.buffer_short e hd) hu
    obtain ⟨g,hg,hsaid⟩ := heff.carries hc
    obtain ⟨f',hf',hsaid',hmoved'⟩ := ih hlu hg hrest
    have hmoved := heff.movedAll hc
    refine ⟨f',hf',?_,?_⟩
    · rw [hsaid',hsaid,List.countP_cons]
      omega
    · rw [List.countP_cons]
      cases ha : a.isSend <;> simp only [ha] at hmoved ⊢ <;> simp at hmoved ⊢ <;> omega

/-- No data are queued, on their way or left in a reader. -/
def Quiet (t : BusTree V X L) (s : BaseNetwork V L D) : Prop :=
  ∀ e, (s.conn t e).sendQueue = [] ∧ s.arrived e = (s.conn t e).written.length ∧
    (s.conn t e).buffer = []

def sentBy (x : X) (rs : List (X × D)) : List D := (rs.filter fun r => r.1 = x).map Prod.snd

omit [DecidableEq L] [Fintype L] in
theorem Carries.still {f : Flood (V ⊕ X) L D} (hc : Carries t lim (s.conn t) s.arrived f)
    (hq : s.Quiet t) : f.Still := by
  intro e
  obtain ⟨hqueue,harrived,-⟩ := hq e.flip
  have hflow := (hc.ends e.flip).flowing
  have hwritten : (s.conn t e.flip).written = (s.conn t e.flip).accepted := by
    obtain ⟨ds,hds,hs'⟩ := hflow.order hflow.isOpen
    rw [hqueue,List.append_nil] at hds
    split at hs'
    · rw [hs'.2,hds]
    · exact absurd hqueue (hflow.waiting ‹_›)
    · simp [hqueue] at hs'
    · simp [hqueue] at hs'
    · exact hs'.elim
  have hitems := (hc.reads e.flip).2
  rw [End.flip_flip,harrived,List.take_length,(hq e).2.2,List.append_nil,hwritten,
    ← (hc.ends e.flip).sent] at hitems
  rw [(hc.ends e).read,hitems,List.length_map]

omit [DecidableEq L] [Fintype L] in
theorem Carries.said {f : Flood (V ⊕ X) L D} (hc : Carries t lim (s.conn t) s.arrived f) {c : End L}
    {x : X} (ho : t.owner c = .inr x) : (Flood.of (.inr x) f.said).map Prod.snd = s.said c := by
  have howner : t.topology.owner c = .inr x := ho
  have hall : ∀ p ∈ f.sent c, p.1 = .inr x := by
    intro p hp
    rcases hc.spread.behind c p hp with h | ⟨d,hd,hne,-⟩
    · exact h.trans howner
    · exact absurd (client_end ho (hd.trans howner)) hne
  have hown := hc.spread.own c
  rw [howner] at hown
  have hfilter : Flood.of (.inr x) (f.sent c) = f.sent c :=
    List.filter_eq_self.mpr fun p hp => by simpa using hall p hp
  rw [← hown,hfilter,(hc.ends c).sent,conn_client s ho]

/-- A tree of base layer nodes makes only finitely many moves, and a client receives what all
others send, each of them in order: never more than was sent, and everything once no data are
left. -/
theorem flooded (t : BusTree V X L) {as : List (BaseMove L D)}
    (hrun : run (step t lim) (init t) as = some s) :
    as.countP (fun a => !a.isSend) ≤ 8*Fintype.card L*as.countP BaseMove.isSend ∧
      ∀ e y, t.owner e = .inr y → ∃ rs : List (X × D), rs.map Prod.snd = (s.client e).received ∧
        (∀ r ∈ rs, r.1 ≠ y) ∧ ∀ c x, t.owner c = .inr x → x ≠ y →
          sentBy x rs <+: s.said c ∧ (s.Quiet t → sentBy x rs = s.said c) := by
  obtain ⟨hl,hc₀⟩ := init_carries t lim
  obtain ⟨f,hc,hsaid,hmoved⟩ := run_carries hl hc₀ hrun
  have hcount : f.said.length = as.countP BaseMove.isSend := by simpa [Flood.init] using hsaid
  refine ⟨?_,fun e y ho => ?_⟩
  · rw [← hcount]
    exact (Nat.le_add_left _ _).trans (hmoved.trans hc.movedAll_le)
  have hreceived : (f.received e).map Prod.snd = (s.client e).received := by
    obtain ⟨es,hes⟩ := (List.prefix_append _ _).trans (hc.items e)
    rw [Flood.received,List.map_take,(hc.ends e.flip).sent,(hc.ends e).read,← hes,List.take_left,
      conn_client s ho]
  obtain ⟨rs,hrs⟩ : ∃ rs : List (X × D), rs.map (fun r => (Sum.inr r.1,r.2)) = f.received e := by
    have hrange : f.received e ∈ Set.range (List.map fun r : X × D => ((Sum.inr r.1 : V ⊕ X),r.2)) := by
      rw [Set.range_list_map]
      intro p hp
      obtain ⟨x,hx⟩ := hc.clients p ((hc.spread.subperm e.flip).subset (List.mem_of_mem_take hp))
      exact ⟨(x,p.2),Prod.ext hx.symm rfl⟩
    exact hrange
  have hsent (x : X) : sentBy x rs = (Flood.of (.inr x) (f.received e)).map Prod.snd := by
    rw [← hrs]
    simp [sentBy,Flood.of,List.filter_map,Function.comp_def]
  refine ⟨rs,?_,fun r hr => ?_,fun c x hx hxy => ?_⟩
  · rw [← hreceived,← hrs]
    simp
  · rintro rfl
    exact hc.spread.received_ne t.acyclic (hrs ▸ List.mem_map_of_mem hr) ho.symm
  -- the tree leads from the one client to the other, through the only end the latter has
  have hreach : t.topology.Reach (fun _ => True) (.inr x) e := by
    obtain ⟨es,hes⟩ := t.connected (.inr y) (.inr x)
    obtain ⟨d,hd,hr⟩ := hes.reach t.topology fun h => hxy (Sum.inr.inj h).symm
    exact client_end ho hd ▸ hr
  rw [hsent x,← hc.said hx]
  exact ⟨(hc.spread.received_prefix hreach).map _,
    fun hq => by rw [hc.spread.received_all (hc.still hq) hreach]⟩

def starBus : Bus (Fin 1) (Fin 2) (Fin 2) := ⟨.inr,fun _ => 0⟩

theorem starBus_walk (x : Fin 2) :
    starBus.topology.IsWalkBetween (fun _ => True) (.inr x) (.inl 0) [⟨x,.source⟩] :=
  Topology.IsWalkBetween.snoc starBus.topology (x := ⟨x,.source⟩) (.nil _ _ _) trivial (by simp)

def star : BusTree (Fin 1) (Fin 2) (Fin 2) where
  toBus := starBus
  madeBy _ := []
  takenBy _ := [0,1]
  mem_madeBy := by simp [starBus]
  mem_takenBy := by decide
  nodup_madeBy := by simp
  nodup_takenBy := by simp
  leaf x := ⟨x,rfl,fun _ h => Sum.inr.inj h⟩
  acyclic := by
    refine Topology.acyclic_of_ranking _ Fin.val (fun l m _ _ h => Fin.ext h) (fun l _ => by
      simp [starBus,Bus.topology]) fun l _ e he hr => ?_
    obtain ⟨m,d⟩ := e
    cases d with
    | source => exact absurd hr.good.2 (by rw [Sum.inr.inj he]; exact Nat.lt_irrefl _)
    | target => simp [starBus,Bus.topology,Topology.owner] at he
  connected a b := by
    match a, b with
    | .inl 0, .inl 0 => exact ⟨[],.nil _ _ _⟩
    | .inr x, .inl 0 => exact ⟨_,starBus_walk x⟩
    | .inl 0, .inr y => exact ⟨_,(starBus_walk y).reverse⟩
    | .inr x, .inr y =>
      by_cases hxy : x = y
      · exact ⟨[],hxy ▸ .nil _ _ _⟩
      · refine ⟨_,(starBus_walk x).append _ (starBus_walk y).reverse ?_⟩
        simpa [End.flip,Side.flip,eq_comm] using hxy

theorem flooded_star : ∃ s : BaseNetwork (Fin 1) (Fin 2) ℕ,
    run (step star ⟨id,10,20⟩) (init star) [.send ⟨0,.source⟩ 5,.arrive ⟨0,.source⟩,
      .receive ⟨0,.target⟩,.startSending ⟨1,.target⟩,.arrive ⟨1,.target⟩,.receive ⟨1,.source⟩] =
        some s ∧ ∃ rs : List (Fin 2 × ℕ), rs.map Prod.snd = (s.client ⟨1,.source⟩).received ∧
          sentBy 0 rs <+: s.said ⟨0,.source⟩ := by
  have hrun := Option.some_get (show (run (step star ⟨id,10,20⟩) (init star)
    [.send ⟨0,.source⟩ 5,.arrive ⟨0,.source⟩,.receive ⟨0,.target⟩,.startSending ⟨1,.target⟩,
      .arrive ⟨1,.target⟩,.receive ⟨1,.source⟩]).isSome by decide)
  obtain ⟨rs,hrs,-,hreads⟩ := (flooded star hrun.symm).2 ⟨1,.source⟩ 1 rfl
  exact ⟨_,hrun.symm,rs,hrs,(hreads ⟨0,.source⟩ 0 rfl (by decide)).1⟩

end BaseNetwork
end SoftwareBus
