import SoftwareBus.Convergence

/-! The steps of a network whose connections stay as they are: messages are
delivered, queries passed on, and clients subscribe and publish. -/
namespace SoftwareBus

open LinkGraph Transition

variable {V X L I Q P C : Type}

/-- The events a node takes while its connections stay as they are. -/
def NodeEvent.isTraffic : NodeEvent C I Q P → Bool
  | .receive _ _ | .forward _ | .forwardDone _ | .forwardTimeout _ => true
  | _ => false

def Action.isTraffic : Action V X L I Q P → Bool
  | .node _ ev => ev.isTraffic
  | .deliver _ | .subscription _ _ _ | .publish _ _ _ => true
  | _ => false

namespace PubSubNode

variable [DecidableEq C] [DecidableEq I] [DecidableEq Q]

/-- What a node does when nothing is held: it changes nothing but its tables and its
queries, its tables only for a subscription message, and publishes only what it reads. -/
structure Forwards (n : PubSubNode C I Q P) (ev : NodeEvent C I Q P)
    (n' : PubSubNode C I Q P) (sends : List (Send C I Q P)) : Prop where
  upstream : n'.upstreamConnections = n.upstreamConnections
  downstream : n'.downstreamConnections = n.downstreamConnections
  pending : n'.pending = n.pending
  draining : n'.draining = n.draining
  closing : n'.closing = n.closing
  published : ∀ c s p, ev = .receive c (.publish s p) → sends = n.handlePublish c s p
  publishes : (∀ c s p, ev ≠ .receive c (.publish s p)) → ∀ d ∈ sends, ∀ s p, d.2 ≠ .publish s p
  tables : (∀ c s b, ev ≠ .receive c (.subscription s b)) →
    (∀ s, n'.subscribers s = n.subscribers s) ∧ ∀ d ∈ sends, ∀ s b, d.2 ≠ .subscription s b

variable {n n' : PubSubNode C I Q P} {ev : NodeEvent C I Q P} {sends : List (Send C I Q P)}

omit [DecidableEq I] [DecidableEq Q] in
theorem handleSubscription_sends (n : PubSubNode C I Q P) (c : C) (s : Str) (b up : Bool) :
    ∀ d ∈ (n.handleSubscription c s b up).2, ∃ b', d.2 = .subscription s b' := by
  cases b
  · simp only [handleSubscription,Bool.false_eq_true,if_false,unsubscribe]
    split
    · split <;> simp
    · simp
  · simp [handleSubscription]

theorem handleMessage_forwards (n : PubSubNode C I Q P) (hp : ∀ c, n.pending c = none) (c : C)
    (m : Message I Q P) (up : Bool) :
    n.Forwards (.receive c m) (n.handleMessage c m up).1 (n.handleMessage c m up).2 := by
  cases m with
  | subscription s b =>
    have hcheck := (handleSubscription_routes n c s b up).check
    refine ⟨congrArg _ hcheck,congrArg _ hcheck,congrArg _ hcheck,congrArg _ hcheck,
      congrArg _ hcheck,by simp,fun _ d hd t p => ?_,fun h => absurd rfl (h c s b)⟩
    obtain ⟨b',hb⟩ := handleSubscription_sends n c s b up d hd
    simp [hb]
  | publish s p =>
    refine ⟨rfl,rfl,rfl,rfl,rfl,?_,fun h => absurd rfl (h c s p),
      fun _ => ⟨fun _ => rfl,by simp [handleMessage,handlePublish]⟩⟩
    rintro d t q ⟨⟩
    rfl
  | hello i =>
    have hpend : (n.handleHello c i).pending = n.pending := by
      simp [CheckState.handleHello,hp]
    exact ⟨rfl,rfl,hpend,rfl,rfl,by simp,by simp [handleMessage],
      fun _ => ⟨fun _ => rfl,by simp [handleMessage]⟩⟩
  | query q i =>
    simp only [handleMessage,handleQuery]
    split
    · exact ⟨rfl,rfl,rfl,rfl,rfl,by simp,by simp,fun _ => ⟨fun _ => rfl,by simp⟩⟩
    · split <;>
        exact ⟨rfl,rfl,rfl,rfl,rfl,by simp,by simp,fun _ => ⟨fun _ => rfl,by simp⟩⟩
  | reply q r =>
    obtain ⟨qs,hqs⟩ : ∃ qs, n.handleReply c q r = {n.toCheckState with queries := qs} := by
      unfold CheckState.handleReply
      split <;> exact ⟨_,rfl⟩
    simp only [handleMessage,hqs]
    exact ⟨rfl,rfl,rfl,rfl,rfl,by simp,by simp,fun _ => ⟨fun _ => rfl,by simp⟩⟩

theorem step_forwards {cfg : Settings C I Q P} (h : n.step cfg ev = some (n',sends))
    (hev : ev.isTraffic = true) (hp : ∀ c, n.pending c = none ∧ n.draining c = none) :
    n.Forwards ev n' sends := by
  cases ev with
  | receive c m =>
    simp only [step,Option.ite_none_right_eq_some] at h
    have hheld : n.heldMessages c = none := by simp [CheckState.heldMessages,(hp c).1,(hp c).2]
    have he : n.onReceive c m (cfg.length m) cfg.heldMessagesLimit (cfg.fromUpstream c) =
        n.handleMessage c m (cfg.fromUpstream c) := by
      simp [onReceive,hheld]
    have hf := handleMessage_forwards n (fun c => (hp c).1) c m (cfg.fromUpstream c)
    rwa [← he,Option.some.inj h.2] at hf
  | forward q =>
    simp only [step] at h
    split at h <;> try contradiction
    obtain ⟨rfl,rfl⟩ := Prod.mk.inj (Option.some.inj h)
    exact ⟨rfl,rfl,rfl,rfl,rfl,by simp,by simp,fun _ => ⟨fun _ => rfl,by simp⟩⟩
  | forwardDone q | forwardTimeout q =>
    simp only [step] at h
    split at h <;> try contradiction
    try (split at h <;> try contradiction)
    obtain ⟨rfl,rfl⟩ := Prod.mk.inj (Option.some.inj h)
    refine ⟨rfl,rfl,rfl,rfl,rfl,by simp,fun _ => ?_,fun _ => ⟨fun _ => rfl,?_⟩⟩ <;> split <;> simp
  | _ => simp [NodeEvent.isTraffic] at hev

omit [DecidableEq I] [DecidableEq Q] in
theorem queuedOn_single {c : C} {ts : List C} (hts : ts.Nodup) (m : Message I Q P) :
    queuedOn c [(ts,m)] = if c ∈ ts then [m] else [] := by
  induction ts with
  | nil => rfl
  | cons t ts ih =>
    obtain ⟨ht,hts⟩ := List.nodup_cons.mp hts
    have hsplit : queuedOn c [(t::ts,m)] = (if t = c then [m] else [])++queuedOn c [(ts,m)] := by
      by_cases htc : t = c <;> simp [queuedOn,frames,htc]
    rw [hsplit,ih hts]
    by_cases htc : t = c
    · subst t
      simp [ht]
    · simp [htc,Ne.symm htc]

def Matched (n : PubSubNode C I Q P) (c : C) (s : Str) (d : C) : Prop :=
  d ≠ c ∧ ∃ u, SubjectMatcher.patternMatch s u = true ∧ d ∈ n.subscribers u

omit [DecidableEq I] [DecidableEq Q] in
theorem queuedOn_handlePublish {up : C → Bool} (h : n.Directed up) (c d : C) (s : Str) (p : P) :
    (n.Matched c s d → queuedOn d (n.handlePublish c s p) = [.publish s p]) ∧
      (¬n.Matched c s d → queuedOn d (n.handlePublish c s p) = []) := by
  have hnodup : ((n.downstreamSubscriptions.matchingConnections s++
      n.upstreamSubscriptions.matchingConnections s).filter (· ≠ c)).Nodup := by
    refine List.Nodup.filter _ ((Subscriptions.nodup_matchingConnections _ s).append
      (Subscriptions.nodup_matchingConnections _ s) fun d hd hu => ?_)
    obtain ⟨t,-,hd⟩ := Subscriptions.mem_matchingConnections.mp hd
    obtain ⟨u,-,hu⟩ := Subscriptions.mem_matchingConnections.mp hu
    simpa [h.downstream t d hd] using h.upstream u d hu
  have hmem : d ∈ (n.downstreamSubscriptions.matchingConnections s++
      n.upstreamSubscriptions.matchingConnections s).filter (· ≠ c) ↔ n.Matched c s d := by
    simp only [List.mem_filter,List.mem_append,Subscriptions.mem_matchingConnections,Matched,
      mem_subscribers,decide_eq_true_eq,← exists_or,← and_or_left]
    exact and_comm
  rw [handlePublish,queuedOn_single hnodup]
  exact ⟨fun hm => if_pos (hmem.mpr hm),fun hm => if_neg fun hd => hm (hmem.mp hd)⟩

end PubSubNode

namespace Network

variable [DecidableEq V] [DecidableEq X] [DecidableEq L]
  {b : Bus V X L} {lim : Limits I Q P} {ids : V → I} {s₀ s t : Network V X L I Q P}

/-- The connections are the same. -/
structure Still (s t : Network V X L I Q P) : Prop where
  upstream : ∀ v, (t.node v).upstreamConnections = (s.node v).upstreamConnections
  downstream : ∀ v, (t.node v).downstreamConnections = (s.node v).downstreamConnections
  pending : ∀ v, (t.node v).pending = (s.node v).pending
  draining : ∀ v, (t.node v).draining = (s.node v).draining
  closing : ∀ v, (t.node v).closing = (s.node v).closing
  lost : t.lost = s.lost
  current : t.current = s.current

omit [DecidableEq V] [DecidableEq X] [DecidableEq L]

theorem Still.of_node (hn : t.node = s.node) (hl : t.lost = s.lost) (hc : t.current = s.current) :
    s.Still t := by
  constructor <;> simp [hn,hl,hc]

theorem Still.trans {u : Network V X L I Q P} (h : s.Still t) (h' : t.Still u) : s.Still u :=
  ⟨fun v => (h'.upstream v).trans (h.upstream v),fun v => (h'.downstream v).trans (h.downstream v),
    fun v => (h'.pending v).trans (h.pending v),fun v => (h'.draining v).trans (h.draining v),
    fun v => (h'.closing v).trans (h.closing v),h'.lost.trans h.lost,h'.current.trans h.current⟩

theorem Still.linked (h : s.Still t) (l : L) : t.Linked b l ↔ s.Linked b l := by
  simp only [Linked,Accepted,h.upstream,h.pending,h.lost,h.current]

theorem Still.stable (h : s.Still t) (hs : s.Stable) : t.Stable := by
  refine ⟨fun v c => ?_,fun e he => ?_⟩
  · rw [h.pending,h.draining]
    exact hs.settled v c
  · have hn := hs.noticed e (h.lost ▸ he)
    simpa only [CheckState.allConnections,h.upstream,h.downstream,h.closing,h.current] using hn

variable [DecidableEq V] [DecidableEq X] [DecidableEq L]

/-- What the tables and the queues of a network owe to its connections. -/
structure Wired (b : Bus V X L) (s : Network V X L I Q P) : Prop where
  stable : s.Stable
  leaves : s.Leaves b
  bounded : ∀ e, s.read e ≤ (s.sent e).length
  directed : ∀ v, (s.node v).Directed fun e => decide (e.side = .source)
  tagged : ∀ v e u, e ∈ (s.node v).subscribers u → b.owner e = .inl v ∧ s.Linked b e.link

theorem Informed.wired (h : s.Informed b ids) (hc : s.Clients b) (hs : s.Stable) : s.Wired b := by
  refine ⟨hs,hc.leaves,h.bounded,fun v => (h.tables v).directed,fun v e u he => ?_⟩
  have hlist := hs.tagged_listed h he
  exact ⟨(h.sound.known v e (.inl hlist)).1,hs.linked h hc hlist⟩

variable [DecidableEq I] [DecidableEq Q]

theorem NodeTakes.forwards {v : V} {ev : NodeEvent (End L) I Q P}
    {sends : List (PubSubNode.Send (End L) I Q P)} (hn : s.NodeTakes b lim v ev sends t)
    (hev : ev.isTraffic = true) (hs : s.Stable) : (s.node v).Forwards ev (t.node v) sends :=
  PubSubNode.step_forwards hn.step hev (hs.settled v)

theorem NodeTakes.still {v : V} {ev : NodeEvent (End L) I Q P}
    {sends : List (PubSubNode.Send (End L) I Q P)} (hn : s.NodeTakes b lim v ev sends t)
    (hev : ev.isTraffic = true) (hs : s.Stable) : s.Still t := by
  have hf := hn.forwards hev hs
  have node {A : Type} {f : PubSubNode (End L) I Q P → A} (hv : f (t.node v) = f (s.node v)) (w : V) :
      f (t.node w) = f (s.node w) := by
    by_cases hw : w = v
    · rw [hw,hv]
    · rw [hn.others w hw]
  have hlist : (t.node v).allConnections = (s.node v).allConnections := by
    rw [CheckState.allConnections,hf.upstream,hf.downstream]
    rfl
  refine ⟨node (f := (·.upstreamConnections)) hf.upstream,
    node (f := (·.downstreamConnections)) hf.downstream,node (f := (·.pending)) hf.pending,
    node (f := (·.draining)) hf.draining,node (f := (·.closing)) hf.closing,?_,hn.current⟩
  funext l
  refine Bool.eq_iff_iff.mpr ((hn.lost l).trans ⟨fun h => h.resolve_right ?_,.inl⟩)
  rintro ⟨c,hc,-,hno⟩
  exact hno (hlist ▸ hc)

theorem step_still {a : Action V X L I Q P} (hs : s.Stable) (ha : a.isTraffic = true)
    (ht : s.step b lim a = some t) : s.Still t := by
  cases a with
  | node v ev =>
    obtain ⟨sends,hn⟩ := step_node ht
    exact hn.still ha hs
  | deliver e =>
    obtain ⟨m,-,⟨v,sends,hn⟩ | ⟨x,-,-,rfl⟩⟩ := step_deliver ht
    · exact hn.still rfl hs
    · exact .of_node rfl rfl rfl
  | subscription x subject subscribe =>
    obtain ⟨u,hu,rfl⟩ := Option.map_eq_some_iff.mp ht
    obtain ⟨l,-,rfl⟩ := Option.map_eq_some_iff.mp hu
    exact .of_node rfl rfl rfl
  | publish x subject payload =>
    obtain ⟨l,-,rfl⟩ := Option.map_eq_some_iff.mp ht
    exact .of_node rfl rfl rfl
  | _ => simp [Action.isTraffic] at ha

omit [DecidableEq V] [DecidableEq X] [DecidableEq L] [DecidableEq I] [DecidableEq Q] in
theorem Stable.calm (hs : s.Stable) {a : Action V X L I Q P} (ha : a.isTraffic = true) :
    s.overflows b lim a = false := by
  have hheld (v : V) (c : End L) : (s.node v).heldMessages c = none := by
    simp [CheckState.heldMessages,hs.settled v c]
  have hnode (v : V) (ev : NodeEvent (End L) I Q P) (hev : ev.isTraffic = true) :
      (s.node v).overflows (lim.onLinks L) ev = false := by
    cases ev with
    | receive c m => simp [PubSubNode.overflows,hheld]
    | forward q | forwardDone q | forwardTimeout q => rfl
    | _ => simp [NodeEvent.isTraffic] at hev
  cases a with
  | node v ev => exact hnode v ev ha
  | deliver e =>
    simp only [overflows]
    split
    · exact hnode _ _ rfl
    · rfl
  | _ => rfl

theorem step_delivered {a : Action V X L I Q P} (h : s.Wired b)
    (ht : s.step b lim a = some t) (e : End L) :
    a ≠ .deliver e ∧ t.delivered e = s.delivered e ∨
      ∃ m, a = .deliver e ∧ (s.inFlight e).head? = some m ∧
        t.delivered e = s.delivered e++[m] := by
  have takes {v : V} {ev : NodeEvent (End L) I Q P} {sends : List (PubSubNode.Send (End L) I Q P)}
      (hn : s.NodeTakes b lim v ev sends t) := (hn.delivered h.bounded e).1
  have written {u : Network V X L I Q P} {l : L} {m : Message I Q P}
      (hs : u.sent = Function.update s.sent ⟨l,.target⟩ (s.sent ⟨l,.target⟩++[m]))
      (hr : u.read = s.read) : u.delivered e = s.delivered e := by
    by_cases he : e = ⟨l,.target⟩
    · subst e
      simp [delivered,hs,hr,List.take_append_of_le_length (h.bounded _)]
    · simp [delivered,hs,hr,he]
  cases a with
  | node v ev =>
    obtain ⟨sends,hn⟩ := step_node ht
    refine .inl ⟨by simp,(takes hn).trans ?_⟩
    cases ev with
    | receive c m => simp [step,possible] at ht
    | _ => simp [NodeEvent.received]
  | deliver d =>
    obtain ⟨m,hm,⟨v,sends,hn⟩ | ⟨x,hx,-,rfl⟩⟩ := step_deliver ht
    · by_cases hd : d = e
      · exact .inr ⟨m,by rw [hd],hd ▸ hm,by rw [takes hn,NodeEvent.received,if_pos hd]⟩
      · exact .inl ⟨by simpa using hd,by rw [takes hn,NodeEvent.received,if_neg hd,List.append_nil]⟩
    · by_cases hd : d = e
      · subst d
        refine .inr ⟨m,rfl,hm,?_⟩
        rw [inFlight,List.head?_drop] at hm
        simp [delivered,List.take_add_one,hm]
      · exact .inl ⟨by simpa using hd,by simp [delivered,Ne.symm hd]⟩
  | subscription x subject subscribe =>
    obtain ⟨u,hu,rfl⟩ := Option.map_eq_some_iff.mp ht
    obtain ⟨l,-,rfl⟩ := Option.map_eq_some_iff.mp hu
    exact .inl ⟨by simp,written rfl rfl⟩
  | publish x subject payload =>
    obtain ⟨l,-,rfl⟩ := Option.map_eq_some_iff.mp ht
    exact .inl ⟨by simp,written rfl rfl⟩
  | breakLink l => obtain rfl := Option.some.inj ht; exact .inl ⟨by simp,rfl⟩
  | connect x l =>
    simp only [step,Option.ite_none_right_eq_some] at ht
    obtain rfl := Option.some.inj ht.2
    exact .inl ⟨by simp,rfl⟩
  | disconnect x =>
    obtain ⟨l,-,rfl⟩ := Option.map_eq_some_iff.mp ht
    exact .inl ⟨by simp,rfl⟩

/-- How a publish comes to be sent to an end: a client writes it, or a node passes it on. -/
inductive Sends (b : Bus V X L) (s : Network V X L I Q P) (e : End L) (p : Str) (q : P) :
    Action V X L I Q P → Prop
  | client (x : X) : b.source e.link = .inr x → s.current x = some e.link → e.side = .target →
      Sends b s e p q (.publish x p q)
  | node (v : V) (d : End L) : (s.inFlight d).head? = some (.publish p q) → b.owner d = .inl v →
      b.owner e.flip = .inl v → (s.node v).Matched d p e.flip → Sends b s e p q (.deliver d)

theorem step_sent {a : Action V X L I Q P} (h : s.Wired b) (ha : a.isTraffic = true)
    (ht : s.step b lim a = some t) (e : End L) : ∃ ms, t.sent e = s.sent e++ms ∧
      ∀ p q, .publish p q ∈ ms → ms = [.publish p q] ∧ Sends b s e p q a := by
  have takes {v : V} {ev : NodeEvent (End L) I Q P} {sends : List (PubSubNode.Send (End L) I Q P)}
      (hn : s.NodeTakes b lim v ev sends t) (hev : ev.isTraffic = true)
      (ha : ∀ d m, ev = .receive d m → a = .deliver d) :
      ∃ ms, t.sent e = s.sent e++ms ∧ ∀ p q, .publish p q ∈ ms →
        ms = [.publish p q] ∧ Sends b s e p q a := by
    refine ⟨_,hn.sent e,fun p q hm => ?_⟩
    have hf := hn.forwards hev h.stable
    obtain ⟨d,u,r,rfl⟩ : ∃ d u r, ev = .receive d (.publish u r) := by
      by_contra hno
      simp only [not_exists] at hno
      obtain ⟨x,hx,hxm⟩ := List.mem_flatMap.mp (PubSubNode.mem_queuedOn.mp hm)
      obtain ⟨_,_,hxe⟩ := List.mem_map.mp hxm
      exact hf.publishes hno x hx p q (Prod.mk.inj hxe).2
    rw [hf.published d u r rfl] at hm ⊢
    obtain ⟨hyes,hno⟩ := PubSubNode.queuedOn_handlePublish (h.directed v) d e.flip u r
    by_cases hmatch : (s.node v).Matched d u e.flip
    · rw [hyes hmatch] at hm ⊢
      obtain ⟨rfl,rfl⟩ : p = u ∧ q = r := by simpa using hm
      refine ⟨rfl,?_⟩
      obtain ⟨w,-,htag⟩ := hmatch.2
      rw [ha d _ rfl]
      exact .node v d hn.occurs.2 hn.occurs.1 (h.tagged v _ w htag).1 hmatch
    · rw [hno hmatch] at hm
      simp at hm
  have same (hs : t.sent = s.sent) : ∃ ms, t.sent e = s.sent e++ms ∧
      ∀ p q, .publish p q ∈ ms → ms = [.publish p q] ∧ Sends b s e p q a := ⟨[],by simp [hs]⟩
  have written {x : X} {m : Message I Q P} {l : L} (hl : s.current x = some l)
      (hs : t.sent = Function.update s.sent ⟨l,.target⟩ (s.sent ⟨l,.target⟩++[m]))
      (hm : ∀ p q, m = .publish p q → a = .publish x p q) : ∃ ms, t.sent e = s.sent e++ms ∧
      ∀ p q, .publish p q ∈ ms → ms = [.publish p q] ∧ Sends b s e p q a := by
    by_cases he : e = ⟨l,.target⟩
    · subst e
      refine ⟨[m],by simp [hs],fun p q hpq => ?_⟩
      obtain rfl : .publish p q = m := by simpa using hpq
      rw [hm p q rfl]
      exact ⟨rfl,.client x (h.leaves x l hl) hl rfl⟩
    · exact ⟨[],by simp [hs,he]⟩
  cases a with
  | node v ev =>
    obtain ⟨sends,hn⟩ := step_node ht
    refine takes hn ha fun d m hev => ?_
    subst hev
    simp [step,possible] at ht
  | deliver d =>
    obtain ⟨m,hm,⟨v,sends,hn⟩ | ⟨x,hx,-,rfl⟩⟩ := step_deliver ht
    · exact takes hn rfl fun d' m' hev => by rw [(NodeEvent.receive.inj hev).1]
    · exact same rfl
  | subscription x subject subscribe =>
    obtain ⟨u,hu,rfl⟩ := Option.map_eq_some_iff.mp ht
    obtain ⟨l,hl,rfl⟩ := Option.map_eq_some_iff.mp hu
    exact written hl rfl (by simp)
  | publish x subject payload =>
    obtain ⟨l,hl,rfl⟩ := Option.map_eq_some_iff.mp ht
    exact written hl rfl fun p q hpq => by
      obtain ⟨rfl,rfl⟩ := Message.publish.inj hpq
      rfl
  | _ => simp [Action.isTraffic] at ha

/-- A node passes a publish on to every connection it has to go to. -/
theorem step_passes_on {d : End L} {p : Str} {q : P} {v : V} (h : s.Wired b)
    (ht : s.step b lim (.deliver d) = some t) (hm : (s.inFlight d).head? = some (.publish p q))
    (hd : b.owner d = .inl v) {e : End L} (he : (s.node v).Matched d p e) :
    .publish p q ∈ t.sent e.flip := by
  obtain ⟨m,hm',⟨w,sends,hn⟩ | ⟨x,hx,-⟩⟩ := step_deliver ht
  · obtain rfl : .publish p q = m := Option.some.inj (hm.symm.trans hm')
    obtain rfl : v = w := Sum.inl.inj (hd.symm.trans hn.occurs.1)
    have hf := (hn.forwards rfl h.stable).published d p q rfl
    have hq := (PubSubNode.queuedOn_handlePublish (h.directed v) d e p q).1 he
    rw [hn.sent,hf,End.flip_flip,hq]
    simp
  · simp [hd] at hx

theorem step_read {a : Action V X L I Q P} (ht : s.step b lim a = some t) (e : End L) :
    s.read e ≤ t.read e := by
  rcases step_cases ht with ⟨v,ev,sends,-,hn⟩ | ho
  · rw [hn.read]
    cases ev with
    | receive c m =>
      by_cases he : e = c <;> simp [note,he]
    | _ => exact le_rfl
  · exact ho.read e

theorem step_inFlight {a : Action V X L I Q P} (h : s.Wired b)
    (ht : s.step b lim a = some t) {e : End L} {ms : List (Message I Q P)}
    (hs : t.sent e = s.sent e++ms) {m : Message I Q P} (hm : m ∈ t.inFlight e) :
    m ∈ s.inFlight e ∨ m ∈ ms := by
  rw [inFlight,hs] at hm
  have hm : m ∈ (s.sent e++ms).drop (s.read e) := by
    have hle := step_read ht e
    rw [← Nat.add_sub_cancel' hle,← List.drop_drop] at hm
    exact List.mem_of_mem_drop hm
  rwa [List.drop_append_of_le_length (h.bounded e),List.mem_append] at hm

/-- Nobody changes a subscription, and no subscription message is on its way. -/
theorem step_tables {a : Action V X L I Q P} (h : s.Wired b) (ha : a.isTraffic = true)
    (hsub : ∀ x u f, a ≠ .subscription x u f)
    (hquiet : ∀ e u f, Message.subscription u f ∉ s.inFlight e) (ht : s.step b lim a = some t) :
    (∀ v u, (t.node v).subscribers u = (s.node v).subscribers u) ∧ t.said = s.said ∧
      ∀ e u f, Message.subscription u f ∉ t.inFlight e := by
  have takes {v : V} {ev : NodeEvent (End L) I Q P} {sends : List (PubSubNode.Send (End L) I Q P)}
      (hn : s.NodeTakes b lim v ev sends t) (hev : ev.isTraffic = true) :
      (∀ v u, (t.node v).subscribers u = (s.node v).subscribers u) ∧ t.said = s.said ∧
        ∀ e, ∃ ms, t.sent e = s.sent e++ms ∧ ∀ u f, Message.subscription u f ∉ ms := by
    obtain ⟨hsame,hsends⟩ := (hn.forwards hev h.stable).tables fun c u f hc => by
      subst hc
      exact hquiet c u f (List.mem_of_mem_head? hn.occurs.2)
    refine ⟨fun w u => ?_,hn.said,fun e => ⟨_,hn.sent e,fun u f hm => ?_⟩⟩
    · by_cases hw : w = v
      · rw [hw,hsame]
      · rw [hn.others w hw]
    · obtain ⟨x,hx,hxm⟩ := List.mem_flatMap.mp (PubSubNode.mem_queuedOn.mp hm)
      obtain ⟨_,_,hxe⟩ := List.mem_map.mp hxm
      exact hsends x hx u f (Prod.mk.inj hxe).2
  have hstep : (∀ v u, (t.node v).subscribers u = (s.node v).subscribers u) ∧ t.said = s.said ∧
      ∀ e, ∃ ms, t.sent e = s.sent e++ms ∧ ∀ u f, Message.subscription u f ∉ ms := by
    cases a with
    | node v ev =>
      obtain ⟨sends,hn⟩ := step_node ht
      exact takes hn ha
    | deliver d =>
      obtain ⟨m,-,⟨v,sends,hn⟩ | ⟨x,-,-,rfl⟩⟩ := step_deliver ht
      · exact takes hn rfl
      · exact ⟨fun _ _ => rfl,rfl,fun _ => ⟨[],by simp⟩⟩
    | subscription x u f => exact absurd rfl (hsub x u f)
    | publish x u p =>
      obtain ⟨l,-,rfl⟩ := Option.map_eq_some_iff.mp ht
      refine ⟨fun _ _ => rfl,rfl,fun e => ?_⟩
      by_cases he : e = ⟨l,.target⟩
      · exact ⟨[.publish u p],by simp [he],by simp⟩
      · exact ⟨[],by simp [he]⟩
    | _ => simp [Action.isTraffic] at ha
  obtain ⟨hsame,hsaid,hsent⟩ := hstep
  refine ⟨hsame,hsaid,fun e u f hm => ?_⟩
  obtain ⟨ms,hs,hno⟩ := hsent e
  exact (step_inFlight h ht hs hm).elim (hquiet e u f) (hno u f)

end Network
end SoftwareBus
