import SoftwareBus.Traffic
import SoftwareBus.WalkWeight

/-! Subscriptions and publishes die out on a forest, whatever the tables are: no node passes one
on over the connection it came from, and none is passed on twice over another. -/
namespace SoftwareBus

open LinkGraph Transition

variable {V X L I Q P C : Type}

namespace PubSubNode

variable [DecidableEq C] [DecidableEq I] [DecidableEq Q] {up : C → Bool} {n : PubSubNode C I Q P}

/-- What a routed message from `c` makes a node send: one routed message to some others, each of
them once, or nothing. -/
structure PassesOn (n : PubSubNode C I Q P) (c : C) (sends : List (Send C I Q P)) : Prop where
  single : ∀ d, (queuedOn d sends).length ≤ 1
  queued : ∀ d, ∀ m ∈ queuedOn d sends, isRouted m = true ∧ d ≠ c ∧ n.Reaches d

omit [DecidableEq I] [DecidableEq Q] in
theorem passesOn_nil (n : PubSubNode C I Q P) (c : C) : n.PassesOn c [] := by
  constructor
  · intro d
    exact Nat.zero_le 1
  · intro d m hm
    cases hm

omit [DecidableEq I] [DecidableEq Q] in
theorem passesOn_single {c : C} {ts : List C} {m : Message I Q P} (hts : ts.Nodup)
    (hm : isRouted m = true) (hc : c ∉ ts) (hreach : ∀ d ∈ ts, n.Reaches d) :
    n.PassesOn c [(ts,m)] := by
  constructor
  · intro d
    rw [queuedOn_single hts]
    split_ifs <;> simp
  · intro d m' hm'
    rw [queuedOn_single hts] at hm'
    split_ifs at hm' with hd
    · cases List.mem_singleton.mp hm'
      refine ⟨hm,?_,hreach d hd⟩
      rintro rfl
      exact hc hd
    · cases hm'

omit [DecidableEq I] [DecidableEq Q] in
theorem active_nodup (hn : n.allConnections.Nodup) (c : C) :
    (n.active (n.peersExcept c)).Nodup :=
  (hn.filter _).filter _

omit [DecidableEq I] [DecidableEq Q] in
theorem not_mem_active (n : PubSubNode C I Q P) (c : C) : c ∉ n.active (n.peersExcept c) := by
  simp [CheckState.active,CheckState.peersExcept]

omit [DecidableEq I] [DecidableEq Q] in
theorem unsubscribe_passesOn (h : n.Directed up) (hn : n.allConnections.Nodup) (s : Str) (c : C) :
    n.PassesOn c (n.unsubscribe (up c) s c).2 := by
  have htargets (d : Send C I Q P) (hd : d ∈ (n.unsubscribe (up c) s c).2) :
      ∀ e ∈ d.1, n.Reaches e := fun e he => unsubscribe_targets hd he
  unfold unsubscribe at htargets ⊢
  split at htargets
  · rename_i hc
    rw [if_pos hc]
    let n' := n.setSubscriptions (up c) ((n.subscriptions (up c)).discard s c)
    have hcheck : n'.toCheckState = n.toCheckState := setSubscriptions_check n (up c) _
    have hactive : n'.active (n'.peersExcept c) = n.active (n.peersExcept c) := by rw [hcheck]
    dsimp only at htargets ⊢
    split at htargets
    · refine passesOn_single ?_ rfl ?_ (htargets _ (List.mem_singleton_self _))
      · exact hactive ▸ active_nodup hn c
      · exact hactive ▸ not_mem_active n c
    · rename_i r hr
      refine passesOn_single (List.nodup_singleton r) rfl ?_
        (htargets _ (List.mem_singleton_self _))
      -- `c` has just been removed from its own table, and is in no other
      intro hm
      have hgone := h.mem_subscribers_discard (s := s) (t := s) (c := c) (d := c)
      rw [hr] at hgone
      exact (hgone.mp hm).2 ⟨rfl,rfl⟩
    · exact passesOn_nil n c
  · rename_i hc
    rw [if_neg hc]
    exact passesOn_nil n c

theorem handleMessage_passesOn (h : n.Directed up) (hn : n.allConnections.Nodup) {c : C}
    {m : Message I Q P} (hm : isRouted m = true) :
    n.PassesOn c (n.handleMessage c m (up c)).2 := by
  have htargets (d : Send C I Q P) (hd : d ∈ (n.handleMessage c m (up c)).2) :
      ∀ e ∈ d.1, n.Reaches e := fun e he => handleMessage_targets hm hd he
  cases m with
  | subscription s subscribe =>
    cases subscribe with
    | false => exact unsubscribe_passesOn h hn s c
    | true =>
      let n' := n.setSubscriptions (up c) ((n.subscriptions (up c)).add s c)
      have hcheck : n'.toCheckState = n.toCheckState := setSubscriptions_check n (up c) _
      have hactive : n'.active (n'.peersExcept c) = n.active (n.peersExcept c) := by rw [hcheck]
      refine passesOn_single ?_ rfl ?_ (htargets _ (List.mem_singleton_self _))
      · exact hactive ▸ active_nodup hn c
      · exact hactive ▸ not_mem_active n c
  | publish s p =>
    obtain ⟨hone,hnone⟩ : (∀ d, n.Matched c s d → queuedOn d (n.handlePublish c s p) =
        [.publish s p]) ∧ ∀ d, ¬n.Matched c s d → queuedOn d (n.handlePublish c s p) = [] :=
      ⟨fun d => (queuedOn_handlePublish h c d s p).1,fun d => (queuedOn_handlePublish h c d s p).2⟩
    constructor
    · intro d
      by_cases hd : n.Matched c s d
      · exact (congrArg List.length (hone d hd)).le
      · exact (congrArg List.length (hnone d hd)).le.trans (Nat.zero_le 1)
    · intro d m hmem
      have hq : m ∈ queuedOn d (n.handlePublish c s p) := hmem
      by_cases hd : n.Matched c s d
      · rw [hone d hd] at hq
        cases List.mem_singleton.mp hq
        obtain ⟨hdc,u,-,hu⟩ := hd
        exact ⟨rfl,hdc,.inr ⟨u,hu⟩⟩
      · rw [hnone d hd] at hq
        cases hq
  | _ => cases hm

theorem onReceive_passesOn {cfg : Settings C I Q P} (h : n.Directed cfg.fromUpstream)
    (hn : n.allConnections.Nodup) {c : C} {m : Message I Q P} (hm : isRouted m = true)
    (hover : n.overflows cfg (.receive c m) = false) :
    let r := n.onReceive c m (cfg.length m) cfg.heldMessagesLimit (cfg.fromUpstream c)
    n.PassesOn c r.2 ∧ r.1.Directed cfg.fromUpstream ∧ r.1.allConnections = n.allConnections ∧
      ∀ s d, d ∈ r.1.subscribers s → d = c ∨ d ∈ n.subscribers s := by
  unfold onReceive
  rw [dif_pos hm]
  split
  · obtain ⟨hr,-⟩ := handleMessage_reroutes h (c := c) hm
    refine ⟨handleMessage_passesOn h hn hm,hr.directed,?_,?_⟩
    · exact congrArg CheckState.allConnections hr.routes.check
    · intro s d hd
      by_cases hdc : d = c
      · exact .inl hdc
      · exact .inr ((hr.tags s d hdc).mp hd)
  · rename_i held hheld
    have hfits : ¬cfg.heldMessagesLimit < held.size+cfg.length m := by
      simpa [overflows,hm,hheld] using hover
    rw [if_neg hfits]
    refine ⟨passesOn_nil n c,⟨h.upstream,h.downstream⟩,?_,fun s d hd => .inr hd⟩
    unfold CheckState.hold
    dsimp only
    split <;> rfl

end PubSubNode

namespace Network

variable {b : Bus V X L} {lim : Limits I Q P} {s t : Network V X L I Q P}

/-- Every node lists and tags only its own connections, each of them once in a list and only in
the table of its direction, and only subscriptions and publishes are on their way. -/
structure Routed (b : Bus V X L) (s : Network V X L I Q P) : Prop where
  listed : ∀ v, ∀ e ∈ (s.node v).allConnections, b.owner e = .inl v
  once : ∀ v, (s.node v).allConnections.Nodup
  directed : ∀ v, (s.node v).Directed fun e => decide (e.side = .source)
  tagged : ∀ v u, ∀ e ∈ (s.node v).subscribers u, b.owner e = .inl v
  routed : ∀ e, ∀ m ∈ s.inFlight e, isRouted m = true

def underWay (s : Network V X L I Q P) (e : End L) : ℕ := (s.inFlight e.flip).length

theorem load_underWay [Fintype L] (b : Bus V X L) (s : Network V X L I Q P) :
    b.topology.load s.underWay = ∑ e, (s.inFlight e).length*b.topology.weight e.flip := by
  have hinvolutive : Function.Involutive (End.flip : End L → End L) := End.flip_flip
  have hflip := Equiv.sum_comp hinvolutive.toPerm
    fun e => (s.inFlight e).length*b.topology.weight e.flip
  rw [← hflip]
  unfold Topology.load underWay
  apply Finset.sum_congr rfl
  intro e _
  show _ = (s.inFlight e.flip).length*b.topology.weight e.flip.flip
  rw [End.flip_flip]

theorem inFlight_append {e : End L} {ms : List (Message I Q P)} (hs : t.sent e = s.sent e++ms)
    (hr : s.read e ≤ t.read e) :
    (t.inFlight e).length ≤ (s.inFlight e).length+ms.length ∧
      ∀ m ∈ t.inFlight e, m ∈ s.inFlight e ∨ m ∈ ms := by
  have hsuffix : t.inFlight e <:+ (s.sent e++ms).drop (s.read e) := by
    unfold inFlight
    rw [hs,← Nat.add_sub_cancel' hr,← List.drop_drop]
    exact List.drop_suffix _ _
  constructor
  · have hlen := hsuffix.length_le
    simp only [inFlight,List.length_drop,List.length_append] at hlen ⊢
    omega
  · intro m hm
    have hmem := hsuffix.subset hm
    rw [List.drop_append] at hmem
    exact (List.mem_append.mp hmem).imp_right List.mem_of_mem_drop

variable [DecidableEq L]

/-- A delivery: what is sent goes over other connections of the node, once over each. -/
structure Passes (b : Bus V X L) (s : Network V X L I Q P) (e : End L)
    (t : Network V X L I Q P) : Prop where
  read : t.read = Function.update s.read e (s.read e+1)
  sent : ∀ f, ∃ ms, t.sent f = s.sent f++ms ∧ ms.length ≤ 1 ∧
    ∀ m ∈ ms, isRouted m = true ∧ b.topology.Follows e.flip f.flip

/-- Nothing goes back over the connection a message came from. -/
theorem Passes.silent {e : End L} (h : s.Passes b e t) :
    t.sent e.flip = s.sent e.flip := by
  obtain ⟨ms,hsent,-,hms⟩ := h.sent e.flip
  cases ms with
  | nil => simpa using hsent
  | cons m ms =>
    have hfollows := (hms m (List.mem_cons_self ..)).2
    exact absurd rfl hfollows.2

open Classical in
/-- In a forest every delivery lowers the load. -/
theorem Passes.load_lt [Fintype L] (hforest : b.topology.Acyclic fun _ => True) {e : End L}
    (h : s.Passes b e t) (hm : s.inFlight e ≠ []) :
    b.topology.load t.underWay+1 ≤ b.topology.load s.underWay := by
  apply b.topology.load_lt hforest e.flip
  intro f
  obtain ⟨ms,hsent,hone,hms⟩ := h.sent f.flip
  have hread : s.read f.flip ≤ t.read f.flip := by
    rw [h.read]
    by_cases hf : f.flip = e
    · rw [hf,Function.update_self]
      exact Nat.le_succ _
    · rw [Function.update_of_ne hf]
  have hlen := (inFlight_append hsent hread).1
  have hqueued : ms.length ≤ if b.topology.Follows e.flip f then 1 else 0 := by
    split_ifs with hfollows
    · exact hone
    · cases ms with
      | nil => exact le_rfl
      | cons m ms =>
        have hf := (hms m (List.mem_cons_self ..)).2
        rw [End.flip_flip] at hf
        exact absurd hf hfollows
  unfold underWay
  by_cases hf : f = e.flip
  · subst f
    rw [if_pos rfl]
    rw [End.flip_flip] at hlen hsent ⊢
    have hpos := List.length_pos_iff.mpr hm
    have hexact : (t.inFlight e).length+1 ≤ (s.inFlight e).length+ms.length := by
      have hr : t.read e = s.read e+1 := by rw [h.read,Function.update_self]
      simp only [inFlight,hsent,hr,List.length_drop,List.length_append] at hpos ⊢
      omega
    omega
  · rw [if_neg hf]
    omega

variable [DecidableEq V] [DecidableEq X] [DecidableEq I] [DecidableEq Q]

theorem NodeTakes.passesOn {v : V} {e : End L} {m : Message I Q P}
    {sends : List (PubSubNode.Send (End L) I Q P)} (hn : s.NodeTakes b lim v (.receive e m) sends t)
    (h : s.Routed b) (hm : isRouted m = true)
    (hover : (s.node v).overflows (lim.onLinks L) (.receive e m) = false) :
    (s.node v).PassesOn e sends ∧ (t.node v).Directed (fun e => decide (e.side = .source)) ∧
      (t.node v).allConnections = (s.node v).allConnections ∧
      ∀ u f, f ∈ (t.node v).subscribers u → f = e ∨ f ∈ (s.node v).subscribers u := by
  have hstep := hn.step
  simp only [PubSubNode.step,Option.ite_none_right_eq_some] at hstep
  have hpasses := PubSubNode.onReceive_passesOn (h.directed v) (h.once v) hm hover
  rwa [Option.some.inj hstep.2] at hpasses

theorem NodeTakes.passes {v : V} {e : End L} {m : Message I Q P}
    {sends : List (PubSubNode.Send (End L) I Q P)} (hn : s.NodeTakes b lim v (.receive e m) sends t)
    (h : s.Routed b) (hpass : (s.node v).PassesOn e sends) : s.Passes b e t := by
  refine ⟨hn.read,?_⟩
  intro f
  refine ⟨_,hn.sent f,hpass.single _,?_⟩
  intro m' hq
  obtain ⟨hm',hne,hreach⟩ := hpass.queued _ m' hq
  refine ⟨hm',?_,by simpa using hne⟩
  have hf : b.owner f.flip = .inl v := by
    rcases hreach with ⟨hl,-⟩ | ⟨u,hu⟩
    · exact h.listed v _ hl
    · exact h.tagged v u _ hu
  have hpeer : b.topology.peer e.flip = .inl v := by
    rw [Topology.peer_flip]
    exact hn.occurs.1
  exact hf.trans hpeer.symm

theorem NodeTakes.routed {v : V} {e : End L} {m : Message I Q P}
    {sends : List (PubSubNode.Send (End L) I Q P)} (hn : s.NodeTakes b lim v (.receive e m) sends t)
    (h : s.Routed b) (hm : isRouted m = true)
    (hover : (s.node v).overflows (lim.onLinks L) (.receive e m) = false)
    (hread : ∀ f, s.read f ≤ t.read f) : t.Routed b := by
  obtain ⟨hpass,hdir,hlist,htags⟩ := hn.passesOn h hm hover
  refine ⟨?_,?_,?_,?_,?_⟩
  · intro w f hf
    by_cases hw : w = v
    · subst w
      rw [hlist] at hf
      exact h.listed v f hf
    · rw [hn.others w hw] at hf
      exact h.listed w f hf
  · intro w
    by_cases hw : w = v
    · subst w
      rw [hlist]
      exact h.once v
    · rw [hn.others w hw]
      exact h.once w
  · intro w
    by_cases hw : w = v
    · exact hw ▸ hdir
    · rw [hn.others w hw]
      exact h.directed w
  · intro w u f hf
    by_cases hw : w = v
    · subst w
      rcases htags u f hf with rfl | hf
      · exact hn.occurs.1
      · exact h.tagged v u f hf
    · rw [hn.others w hw] at hf
      exact h.tagged w u f hf
  · intro f m' hm'
    rcases (inFlight_append (hn.sent f) (hread f)).2 m' hm' with hm' | hm'
    · exact h.routed f m' hm'
    · exact (hpass.queued _ m' hm').1

theorem deliver_passes {e : End L} (h : s.Routed b)
    (hover : s.overflows b lim (.deliver e) = false) (ht : s.step b lim (.deliver e) = some t) :
    s.Passes b e t ∧ t.Routed b := by
  obtain ⟨m,hm,⟨v,sends,hn⟩ | ⟨x,hx,hcur,rfl⟩⟩ := step_deliver ht
  · have hrouted : isRouted m = true := h.routed e m (List.mem_of_mem_head? hm)
    have howner : b.owner e = .inl v := hn.occurs.1
    have hover' : (s.node v).overflows (lim.onLinks L) (.receive e m) = false := by
      simpa [overflows,howner,hm] using hover
    exact ⟨hn.passes h (hn.passesOn h hrouted hover').1,hn.routed h hrouted hover' (step_read ht)⟩
  · -- a client passes nothing on
    refine ⟨⟨rfl,?_⟩,{h with routed := ?_}⟩
    · intro f
      exact ⟨[],by simp,Nat.zero_le 1,fun m hm => absurd hm List.not_mem_nil⟩
    · intro f m' hm'
      have hsame : s.sent f = s.sent f++[] := (List.append_nil _).symm
      have hkept := inFlight_append (t := {s with read := Function.update s.read e (s.read e+1)})
        hsame (step_read ht f)
      exact h.routed f m' ((hkept.2 m' hm').resolve_right List.not_mem_nil)

/-- Deliveries alone keep the nodes and the messages of their kind, and lower the load. -/
theorem deliveries_load [Fintype L] (hforest : b.topology.Acyclic fun _ => True) {es : List (End L)}
    (h : s.Routed b)
    (hover : Guarded (step b lim) (fun s a => s.overflows b lim a = false) s (es.map .deliver))
    (ht : run (step b lim) s (es.map .deliver) = some t) :
    t.Routed b ∧ b.topology.load t.underWay+es.length ≤ b.topology.load s.underWay := by
  induction es generalizing s with
  | nil =>
    cases ht
    exact ⟨h,le_rfl⟩
  | cons e es ih =>
    obtain ⟨u,hu,hrest⟩ := run_cons ht
    obtain ⟨hfirst,hguard⟩ := hover
    rw [hu] at hguard
    obtain ⟨hpass,hrouted⟩ := deliver_passes h hfirst hu
    obtain ⟨m,hm,-⟩ := step_deliver hu
    have hne : s.inFlight e ≠ [] := by
      intro hnil
      rw [hnil] at hm
      cases hm
    have hless := hpass.load_lt hforest hne
    obtain ⟨hlast,hload⟩ := ih hrouted hguard hrest
    refine ⟨hlast,?_⟩
    rw [List.length_cons]
    omega

/-- In a forest there are only so many deliveries, by a bound that is a sum over the messages on
their way of a weight that only the forest determines; and in each of them nothing is queued on
the connection the message came from. -/
theorem traffic_dies_out [Fintype L] (b : Bus V X L) (hforest : b.topology.Acyclic fun _ => True) :
    ∃ weight : End L → ℕ, ∀ (lim : Limits I Q P) (s : Network V X L I Q P) (es : List (End L))
      (t : Network V X L I Q P), s.Routed b →
      Guarded (step b lim) (fun s a => s.overflows b lim a = false) s (es.map .deliver) →
      run (step b lim) s (es.map .deliver) = some t →
      es.length ≤ ∑ e, (s.inFlight e).length*weight e ∧
      ∀ fs e gs u u', es = fs++e::gs → run (step b lim) s (fs.map .deliver) = some u →
        u.step b lim (.deliver e) = some u' → u'.sent e.flip = u.sent e.flip := by
  refine ⟨fun e => b.topology.weight e.flip,?_⟩
  intro lim s es t h hover ht
  constructor
  · have hload := (deliveries_load hforest h hover ht).2
    rw [load_underWay b s] at hload
    show es.length ≤ ∑ e, (s.inFlight e).length*b.topology.weight e.flip
    omega
  · rintro fs e gs u u' rfl hu hu'
    rw [List.map_append] at hover
    obtain ⟨hbefore,hafter⟩ := hover.split hu
    have hrouted := (deliveries_load hforest h hbefore hu).1
    exact (deliver_passes hrouted hafter.1 hu').1.silent

/-- Node 0 makes a link to node 1, and that one makes links to two others. -/
def hub : Bus (Fin 4) Empty (Fin 3) := ⟨fun l => .inl (if l = 0 then 0 else 1),Fin.succ⟩

theorem hub_acyclic : hub.topology.Acyclic fun _ => True := by
  refine Topology.acyclic_of_ranking _ Fin.val (fun l m _ _ h => Fin.ext h) (by decide) ?_
  rintro l - e - hr
  obtain ⟨⟨m,side⟩,⟨-,hlt⟩,hpeer⟩ := hr.last
  have hne : ∀ (l m : Fin 3) (side : Side), m.val < l.val →
      hub.topology.peer ⟨m,side⟩ ≠ hub.topology.target l := by decide
  exact hne l m side hlt hpeer

def subscribing : Network (Fin 4) Empty (Fin 3) (Fin 4) (Fin 1) (Fin 1) :=
  let s : Network (Fin 4) Empty (Fin 3) (Fin 4) (Fin 1) (Fin 1) := init id
  {s with
    node := fun v => {s.node v with
      upstreamConnections := if v = 1 then [⟨1,.source⟩,⟨2,.source⟩] else []
      downstreamConnections := match v with
        | 0 => []
        | 1 => [⟨0,.target⟩]
        | 2 => [⟨1,.target⟩]
        | 3 => [⟨2,.target⟩]
      reading := fun _ => true}
    sent := Function.update s.sent ⟨0,.target⟩ [.subscription [97] true]}

theorem subscribing_routed : subscribing.Routed hub := by
  constructor
  · decide
  · decide
  · exact fun v => ⟨fun s c hc => (nomatch hc),fun s c hc => (nomatch hc)⟩
  · exact fun v u e he => nomatch he
  · intro e m hm
    match e with
    | ⟨0,.target⟩ =>
      cases List.mem_singleton.mp hm
      rfl
    | ⟨0,.source⟩ | ⟨1,_⟩ | ⟨2,_⟩ => cases hm

/-- The subscription goes on to the two others, and not back. -/
theorem traffic_dies_out_hub :
    ∃ t u, run (step hub ⟨5,9,fun _ => 1⟩) subscribing
        [.deliver ⟨0,.target⟩,.deliver ⟨1,.target⟩,.deliver ⟨2,.target⟩] = some t ∧
      (t.node 2).subscribers [97] = [⟨1,.target⟩] ∧ (t.node 3).subscribers [97] = [⟨2,.target⟩] ∧
      (∃ weight : End (Fin 3) → ℕ, 3 ≤ ∑ e, (subscribing.inFlight e).length*weight e) ∧
      subscribing.step hub ⟨5,9,fun _ => 1⟩ (.deliver ⟨0,.target⟩) = some u ∧
      u.sent ⟨0,.source⟩ = subscribing.sent ⟨0,.source⟩ := by
  obtain ⟨weight,h⟩ := traffic_dies_out (I := Fin 4) (Q := Fin 1) (P := Fin 1) hub hub_acyclic
  obtain ⟨hlen,hsilent⟩ := h ⟨5,9,fun _ => 1⟩ subscribing [⟨0,.target⟩,⟨1,.target⟩,⟨2,.target⟩] _
    subscribing_routed (by decide) rfl
  exact ⟨_,_,rfl,rfl,rfl,⟨weight,hlen⟩,rfl,hsilent [] ⟨0,.target⟩ [⟨1,.target⟩,⟨2,.target⟩] _ _ rfl rfl rfl⟩

end Network
end SoftwareBus
