import SoftwareBus.QueryTasks
import SoftwareBus.NodeTaskInvariant
import SoftwareBus.QueryInvariant

/-! A connection is sent nothing but the node's hello and replies to queries before it is accepted.
It is neither tagged nor a target of a query, and every message that is neither of these two is for
connections that are not pending. -/
namespace SoftwareBus

open Transition

variable {C K I Q P : Type}

/-- What a connection is sent before it is accepted. -/
def Message.Introduces (i : I) (m : Message I Q P) : Prop := m = .hello i ∨ ∃ q r, m = .reply q r

namespace WiredNode

def Passed (watch : C → Prop) (n : WiredNode C I Q P) (c : C) : Prop :=
  n.pending c = none ∧ (watch c → n.verdict c = some true)

def Settled (watch : C → Prop) (n : WiredNode C I Q P) (c : C) : Prop :=
  n.made c = true ∧ n.Passed watch c

/-- The sends that are left name settled connections only, but for what introduces the node. -/
def Shields (watch : C → Prop) (i : I) (n : WiredNode C I Q P) : Frame C I Q P → Prop
  | .send cs m => ∀ c ∈ cs, n.made c = true ∧ (m.Introduces i ∨ n.Passed watch c)
  | _ => True

structure Reserved (watch : C → Prop) (i : I) (n : WiredNode C I Q P) : Prop where
  nodeId : n.nodeId = i
  queued : ∀ c, ¬n.Passed watch c → ∀ m ∈ n.queued c, m.Introduces i
  fresh : ∀ c, n.made c = false → n.queued c = []
  tagged : ∀ s, ∀ c ∈ n.subscribers s, watch c → n.verdict c = some true
  draining : ∀ c, (n.draining c).isSome → n.verdict c = some true
  targets : ∀ q o, n.queries q = some o → ∀ c ∈ o.query.targets, n.Settled watch c
  checked : ∀ c ∈ n.upstreamConnections, n.verdict c ≠ some true → (n.pending c).isSome
  aside : ∀ c ∈ n.downstreamConnections, ¬watch c

/-- A connection that has passed stays so. -/
structure Settles (watch : C → Prop) (n m : WiredNode C I Q P) : Prop where
  made : ∀ c, n.made c = true → m.made c = true
  passed : ∀ c, n.made c = true → n.Passed watch c → m.Passed watch c

/-- Nothing is queued, no connection is tagged and no query is opened. -/
structure Calm (n m : WiredNode C I Q P) : Prop extends n.Shrinks m where
  nodeId : m.nodeId = n.nodeId
  queued : m.queued = n.queued
  verdict : ∀ c, n.verdict c = some true → m.verdict c = some true
  queries : ∀ q o, m.queries q = some o →
    ∃ p, n.queries q = some p ∧ o.query.targets = p.query.targets
  checked : ∀ c ∈ m.upstreamConnections, (n.pending c).isSome → (m.pending c).isSome

variable {watch : C → Prop} {i : I} {up : C → Bool} {n m l : WiredNode C I Q P}

theorem Calm.refl (n : WiredNode C I Q P) : n.Calm n :=
  ⟨.refl n,rfl,rfl,fun _ => id,fun _ o ho => ⟨o,ho,rfl⟩,fun _ _ => id⟩

theorem Calm.trans (h : n.Calm m) (g : m.Calm l) : n.Calm l := by
  refine ⟨h.toShrinks.trans g.toShrinks,g.nodeId.trans h.nodeId,g.queued.trans h.queued,
    fun c hc => g.verdict c (h.verdict c hc),?_,?_⟩
  · intro q o ho
    obtain ⟨p,hp,heq⟩ := g.queries q o ho
    obtain ⟨p',hp',heq'⟩ := h.queries q p hp
    exact ⟨p',hp',heq.trans heq'⟩
  · exact fun c hc hp => g.checked c hc (h.checked c (g.upstream c hc) hp)

theorem Calm.passed (h : n.Calm m) {c : C} (hc : n.Passed watch c) : m.Passed watch c := by
  refine ⟨?_,fun hw => h.verdict c (hc.2 hw)⟩
  by_contra hp
  have hsome := h.pending c (Option.isSome_iff_ne_none.mpr hp)
  simp [hc.1] at hsome

theorem Calm.settles (h : n.Calm m) : n.Settles watch m :=
  ⟨fun _ hc => h.made ▸ hc,fun _ _ hc => h.passed hc⟩

theorem Settles.refl (n : WiredNode C I Q P) : n.Settles watch n := ⟨fun _ => id,fun _ _ => id⟩

theorem Settles.settled (h : n.Settles watch m) {c : C} (hc : n.Settled watch c) :
    m.Settled watch c := ⟨h.made c hc.1,h.passed c hc.1 hc.2⟩

theorem Settles.trans (h : n.Settles watch m) (g : m.Settles watch l) : n.Settles watch l :=
  ⟨fun c hc => g.made c (h.made c hc),fun c hc hp => g.passed c (h.made c hc) (h.passed c hc hp)⟩

theorem Settles.shields (h : n.Settles watch m) {f : Frame C I Q P} (hf : n.Shields watch i f) :
    m.Shields watch i f := by
  cases f with
  | send cs m =>
    intro c hc
    obtain ⟨hmade,hm⟩ := hf c hc
    exact ⟨h.made c hmade,hm.imp_right (h.passed c hmade)⟩
  | _ => trivial

theorem Calm.reserved (h : n.Calm m) (hn : n.Reserved watch i) : m.Reserved watch i := by
  constructor
  · exact h.nodeId.trans hn.nodeId
  · intro c hc m' hm
    rw [h.queued] at hm
    exact hn.queued c (fun hp => hc (h.passed hp)) m' hm
  · intro c hc
    rw [h.made] at hc
    rw [h.queued]
    exact hn.fresh c hc
  · exact fun s c hc hw => h.verdict c (hn.tagged s c (h.subscribers hc) hw)
  · exact fun c hc => h.verdict c (hn.draining c (h.toShrinks.draining c hc))
  · intro q o ho c hc
    obtain ⟨p,hp,heq⟩ := h.queries q o ho
    rw [heq] at hc
    exact h.settles.settled (hn.targets q p hp c hc)
  · exact fun c hc hv => h.checked c hc
      (hn.checked c (h.upstream c hc) fun hv' => hv (h.verdict c hv'))
  · exact fun c hc => hn.aside c (h.downstream c hc)

structure Leaves (watch : C → Prop) (i : I) (n : WiredNode C I Q P)
    (r : WiredNode C I Q P × List (Frame C I Q P)) : Prop where
  reserved : r.1.Reserved watch i
  settles : n.Settles watch r.1
  shields : ∀ f ∈ r.2, r.1.Shields watch i f

theorem Calm.leaves (h : n.Calm m) (hn : n.Reserved watch i) {fs : List (Frame C I Q P)}
    (hfs : ∀ f ∈ fs, n.Shields watch i f) : n.Leaves watch i (m,fs) :=
  ⟨h.reserved hn,h.settles,fun f hf => h.settles.shields (hfs f hf)⟩

theorem Leaves.after {r : WiredNode C I Q P × List (Frame C I Q P)} (h : m.Leaves watch i r)
    (hs : n.Settles watch m) : n.Leaves watch i r :=
  ⟨h.reserved,hs.trans h.settles,h.shields⟩

/-- Frames that were left before stay, after those of the piece. -/
theorem Leaves.append {r : WiredNode C I Q P × List (Frame C I Q P)} (h : n.Leaves watch i r)
    {fs : List (Frame C I Q P)} (hfs : ∀ f ∈ fs, n.Shields watch i f) :
    n.Leaves watch i (r.1,r.2++fs) := by
  refine ⟨h.reserved,h.settles,?_⟩
  intro f hf
  rcases List.mem_append.mp hf with hf | hf
  · exact h.shields f hf
  · exact h.settles.shields (hfs f hf)

theorem new_reserved (watch : C → Prop) (i : I) :
    (WiredNode.new i : WiredNode C I Q P).Reserved watch i := by
  constructor <;> simp [new,PubSubNode.new,PubSubNode.subscribers]

theorem Wired.settled_tagged (h : n.Wired up) (hn : n.Reserved watch i) {s : Str} {c : C}
    (hc : c ∈ n.subscribers s) : n.Settled watch c := by
  refine ⟨h.tagged s c hc,?_,hn.tagged s c hc⟩
  by_contra hp
  exact (h.pending c (Option.isSome_iff_ne_none.mpr hp)).2.2.2 s hc

theorem Wired.settled_listed (h : n.Wired up) (hn : n.Reserved watch i) {c : C}
    (hc : c ∈ n.allConnections) (hp : n.pending c = none) : n.Settled watch c := by
  refine ⟨h.listed c hc,hp,fun hwatch => ?_⟩
  rcases CheckState.mem_allConnections.mp hc with hdown | hup
  · exact absurd hwatch (hn.aside c hdown)
  · by_contra hv
    have hsome := hn.checked c hup hv
    simp [hp] at hsome

theorem Wired.settled_reached (h : n.Wired up) (hn : n.Reserved watch i) {c : C}
    (hc : n.Reaches c) : n.Settled watch c := by
  rcases hc with ⟨hl,hp⟩ | ⟨s,hs⟩
  · exact h.settled_listed hn hl hp
  · exact h.settled_tagged hn hs

theorem Wired.sends_shields (h : n.Wired up) (hn : n.Reserved watch i)
    {ds : List (PubSubNode.Send C I Q P)} (hds : ∀ d ∈ ds, ∀ e ∈ d.1, n.Reaches e) :
    ∀ f ∈ sends ds, n.Shields watch i f := by
  intro f hf
  obtain ⟨d,hd,rfl⟩ := List.mem_map.mp hf
  intro e he
  obtain ⟨hmade,hp⟩ := h.settled_reached hn (hds d hd e he)
  exact ⟨hmade,.inr hp⟩

theorem replies_shields {c : C} (hc : n.made c = true) (q : Q) (r : ReachabilityResult) :
    ∀ f ∈ sends [([c],Message.reply q r)], n.Shields watch i f := by
  intro f hf
  cases List.mem_singleton.mp hf
  intro d hd
  cases List.mem_singleton.mp hd
  exact ⟨hc,.inl (.inr ⟨q,r,rfl⟩)⟩

theorem Wired.settled_active (hw : n.Wired up) (hn : n.Reserved watch i) {c : C}
    (hc : c ∈ n.activeNodeConnections) : n.Settled watch c := by
  have hactive : c ∈ n.allConnections ∧ n.pending c = none := by
    have hmem := (List.mem_filter.mp hc).1
    exact PubSubNode.mem_active.mp hmem
  exact hw.settled_listed hn hactive.1 hactive.2

theorem sendSubscriptions_shields (n : PubSubNode C I Q P) {c : C} (hc : m.Settled watch c) :
    ∀ f ∈ sends (n.sendSubscriptions c), m.Shields watch i f := by
  intro f hf
  obtain ⟨d,hd,rfl⟩ := List.mem_map.mp hf
  obtain ⟨s,-,rfl⟩ := List.mem_map.mp hd
  intro e he
  cases List.mem_singleton.mp he
  exact ⟨hc.1,.inr hc.2⟩

variable [DecidableEq C] {c : C}

theorem establish_leaves (hn : n.Reserved watch i) (hc : n.made c = false) :
    n.Leaves watch i (n.establish c) := by
  have hne {d : C} (hd : n.made d = true) : d ≠ c := by
    rintro rfl
    rw [hc] at hd
    cases hd
  have hmade {d : C} (hd : n.made d = true) : (n.establish c).1.made d = true := by
    simpa [establish,hne hd] using hd
  have hpend {d : C} (hd : d ≠ c) : (n.establish c).1.pending d = n.pending d := by
    simp [establish,setNode,PubSubNode.establish,hd]
  have hsettles : n.Settles watch (n.establish c).1 :=
    ⟨fun d hd => hmade hd,fun d hd hp => ⟨(hpend (hne hd)).trans hp.1,hp.2⟩⟩
  have hself : ((n.establish c).1.pending c).isSome := by
    simp [establish,setNode,PubSubNode.establish]
  refine ⟨⟨hn.nodeId,?_,?_,hn.tagged,hn.draining,?_,?_,hn.aside⟩,hsettles,?_⟩
  · intro d hd m hm
    by_cases hdc : d = c
    · subst d
      have hnil : (n.establish c).1.queued c = [] := hn.fresh c hc
      rw [hnil] at hm
      cases hm
    · exact hn.queued d (fun hp => hd ⟨(hpend hdc).trans hp.1,hp.2⟩) m hm
  · intro d hd
    have hdc : n.made d = false := by
      by_contra hm
      rw [hmade (by simpa using hm)] at hd
      cases hd
    exact hn.fresh d hdc
  · intro q o ho d hd
    exact hsettles.settled (hn.targets q o ho d hd)
  · intro d hd hv
    by_cases hdc : d = c
    · exact hdc ▸ hself
    · rw [hpend hdc]
      have hmem : d ∈ n.upstreamConnections++[c] := hd
      rw [List.mem_append,List.mem_singleton] at hmem
      exact hn.checked d (hmem.resolve_right hdc) hv
  · intro f hf
    cases List.mem_singleton.mp hf
    intro d hd
    cases List.mem_singleton.mp hd
    refine ⟨?_,.inl (.inl ?_)⟩
    · simp [establish]
    · rw [hn.nodeId]

theorem accept_leaves (hw : n.Wired up) (hn : n.Reserved watch i) (hc : n.made c = false)
    (hwatch : ¬watch c) : n.Leaves watch i (n.accept c) := by
  have hmade {d : C} (hd : n.made d = true) : (n.accept c).1.made d = true := by
    by_cases hdc : d = c <;> simp [accept,hdc,hd]
  have hsettles : n.Settles watch (n.accept c).1 := ⟨fun d hd => hmade hd,fun d hd hp => hp⟩
  have hself : n.Passed watch c := by
    refine ⟨?_,fun hwc => absurd hwc hwatch⟩
    by_contra hp
    have hm := (hw.pending c (Option.isSome_iff_ne_none.mpr hp)).1
    rw [hc] at hm
    cases hm
  have hqueued {d : C} (hd : d ≠ c) : (n.accept c).1.queued d = n.queued d := by
    simp [accept,hd]
  refine ⟨⟨hn.nodeId,?_,?_,hn.tagged,hn.draining,?_,hn.checked,?_⟩,hsettles,?_⟩
  · intro d hd m hm
    have hdp : ¬n.Passed watch d := hd
    have hdc : d ≠ c := by
      rintro rfl
      exact hdp hself
    rw [hqueued hdc] at hm
    exact hn.queued d hdp m hm
  · intro d hd
    have hdc : d ≠ c := by
      rintro rfl
      simp [accept] at hd
    rw [hqueued hdc]
    refine hn.fresh d ?_
    by_contra hm
    rw [hmade (by simpa using hm)] at hd
    cases hd
  · intro q o ho d hd
    exact hsettles.settled (hn.targets q o ho d hd)
  · intro d hd
    have hmem : d ∈ n.downstreamConnections++[c] := hd
    rcases List.mem_append.mp hmem with hmem | hmem
    · exact hn.aside d hmem
    · exact List.mem_singleton.mp hmem ▸ hwatch
  · have hsettled : (n.accept c).1.Settled watch c := ⟨by simp [accept],hself⟩
    intro f hf
    rcases List.mem_cons.mp hf with rfl | hf
    · intro d hd
      cases List.mem_singleton.mp hd
      exact ⟨hsettled.1,.inr hself⟩
    · exact sendSubscriptions_shields _ hsettled f hf

theorem activate_leaves (hw : n.Wired up) (hn : n.Reserved watch i) {p : PendingConnection I Q P}
    (hp : n.pending c = some p) : n.Leaves watch i (n.activate c p.held) := by
  have hpend {d : C} (hd : d ≠ c) : (n.activate c p.held).1.pending d = n.pending d := by
    simp [activate,hd]
  have hverdict {d : C} (hd : d ≠ c) : (n.activate c p.held).1.verdict d = n.verdict d := by
    simp [activate,hd]
  have hqueued {d : C} (hd : d ≠ c) : (n.activate c p.held).1.queued d = n.queued d := by
    simp [activate,hd]
  have haccepted {d : C} (hd : n.verdict d = some true) :
      (n.activate c p.held).1.verdict d = some true := by
    by_cases hdc : d = c
    · simp [activate,hdc]
    · rw [hverdict hdc,hd]
  have hself : (n.activate c p.held).1.Passed watch c := by simp [Passed,activate]
  have hmade : n.made c = true := (hw.pending c (by simp [hp])).1
  have hpassed {d : C} (hd : n.Passed watch d) : (n.activate c p.held).1.Passed watch d := by
    by_cases hdc : d = c
    · exact hdc ▸ hself
    · exact ⟨(hpend hdc).trans hd.1,fun hwatch => haccepted (hd.2 hwatch)⟩
  have hsettles : n.Settles watch (n.activate c p.held).1 := ⟨fun d hd => hd,fun d _ => hpassed⟩
  have hne {d : C} (hd : ¬(n.activate c p.held).1.Passed watch d) : d ≠ c := by
    rintro rfl
    exact hd hself
  refine ⟨⟨hn.nodeId,?_,?_,fun s d hd hwatch => haccepted (hn.tagged s d hd hwatch),?_,?_,?_,
    hn.aside⟩,hsettles,?_⟩
  · intro d hd m hm
    rw [hqueued (hne hd)] at hm
    exact hn.queued d (fun hpd => hd (hpassed hpd)) m hm
  · intro d hd
    have hdm : n.made d = false := hd
    have hdc : d ≠ c := by
      rintro rfl
      rw [hmade] at hdm
      cases hdm
    rw [hqueued hdc]
    exact hn.fresh d hdm
  · intro d hd
    by_cases hdc : d = c
    · simp [activate,hdc]
    · exact haccepted (hn.draining d (by simpa [activate,hdc] using hd))
  · intro q o ho d hd
    exact hsettles.settled (hn.targets q o ho d hd)
  · intro d hd hv
    by_cases hdc : d = c
    · subst d
      simp [activate] at hv
    · rw [hpend hdc]
      rw [hverdict hdc] at hv
      exact hn.checked d hd hv
  · intro f hf
    rcases List.mem_append.mp hf with hf | hf
    · exact sendSubscriptions_shields (m := (n.activate c p.held).1) _ ⟨hmade,hself⟩ f hf
    · cases List.mem_singleton.mp hf
      trivial

theorem forget_calm (hc : c ∉ n.upstreamConnections) :
    n.Calm (n.setNode {n.toPubSubNode with toCheckState := n.forgetConnection c}) := by
  have hpend {d : C} (hd : d ≠ c) : (n.forgetConnection c).pending d = n.pending d := by
    simp [CheckState.forgetConnection,hd]
  refine ⟨forget_shrinks n c,rfl,rfl,fun _ => id,?_,?_⟩
  · intro q o ho
    obtain ⟨p,hp,rfl⟩ := Option.map_eq_some_iff.mp ho
    exact ⟨p,hp,Query.reply_targets _ _ _⟩
  · intro d hd hp
    have hdc : d ≠ c := by
      rintro rfl
      exact hc hd
    show ((n.forgetConnection c).pending d).isSome
    rw [hpend hdc]
    exact hp

theorem unlist_calm (n : WiredNode C I Q P) (c : C) (b : Bool) :
    n.Calm (n.setNode {n.toPubSubNode with toCheckState := n.unlist c b}) := by
  have hshrinks := unlist_shrinks n c b
  cases b <;> exact ⟨hshrinks,rfl,rfl,fun _ => id,fun _ o ho => ⟨o,ho,rfl⟩,fun _ _ => id⟩

theorem connectionError_calm (hw : n.Wired up) (c : C) (b : Bool) :
    n.Calm (n.connectionError c b).1 := by
  unfold connectionError
  split
  · rename_i hc
    have hunlist := unlist_calm n c b
    refine hunlist.trans (forget_calm ?_)
    intro hmem
    apply hw.not_mem_unlist hc
    exact CheckState.mem_allConnections.mpr (.inr hmem)
  · exact .refl n

theorem connectionError_shields (n : WiredNode C I Q P) (c : C) (b : Bool) :
    ∀ f ∈ (n.connectionError c b).2, m.Shields watch i f := by
  unfold connectionError
  split
  · intro f hf
    rcases List.mem_cons.mp hf with rfl | hf
    · trivial
    · cases List.mem_singleton.mp hf
      trivial
  · intro f hf
    cases hf

theorem connectionError_leaves (hw : n.Wired up) (hn : n.Reserved watch i) (c : C) (b : Bool) :
    n.Leaves watch i (n.connectionError c b) :=
  (connectionError_calm hw c b).leaves hn (connectionError_shields n c b)

omit [DecidableEq C] in
theorem openQuery_reserved (hn : n.Reserved watch i) [DecidableEq Q] {q : Q} {o : OpenQuery C I}
    (ho : ∀ c ∈ o.query.targets, n.Settled watch c) :
    (n.setNode {n.toPubSubNode with toCheckState := n.openQuery q o}).Reserved watch i := by
  refine ⟨hn.nodeId,hn.queued,hn.fresh,hn.tagged,hn.draining,?_,hn.checked,hn.aside⟩
  intro q' o' ho' c hc
  have hopen : Function.update n.queries q (some o) q' = some o' := ho'
  by_cases hq : q' = q
  · subst q'
    rw [Function.update_self] at hopen
    cases hopen
    exact ho c hc
  · rw [Function.update_of_ne hq] at hopen
    exact hn.targets q' o' hopen c hc

variable [DecidableEq I] [DecidableEq Q]

/-- A routed message tags the connection it came from, and no other. -/
theorem tagged_process (hw : n.Wired up) {m : Message I Q P} (hm : isRouted m = true) {s : Str}
    {d : C} (hd : d ∈ (n.process c m (up c)).1.subscribers s) :
    d ∈ n.subscribers s ∨ d = c ∧ m = .subscription s true := by
  obtain ⟨hr,htag⟩ := PubSubNode.handleMessage_reroutes hw.directed (c := c) hm
  by_cases hdc : d = c
  · subst d
    have hsaid := (htag s).mp hd
    cases m with
    | subscription t b =>
      by_cases hts : t = s
      · subst t
        exact .inr ⟨rfl,by simpa [Message.lastSaid_cons,Message.about] using hsaid⟩
      · exact .inl (by simpa [Message.lastSaid_cons,Message.about,hts] using hsaid)
    | publish t p => exact .inl (by simpa [Message.lastSaid_cons,Message.about] using hsaid)
    | _ => cases hm
  · exact .inl ((hr.tags s d hdc).mp hd)

theorem process_leaves (hw : n.Wired up) (hn : n.Reserved watch i) {m : Message I Q P}
    (hm : isRouted m = true)
    (hin : ∀ s, m = .subscription s true → watch c → n.verdict c = some true) :
    n.Leaves watch i (n.process c m (up c)) := by
  have hcheck : (n.process c m (up c)).1.toCheckState = n.toCheckState :=
    (PubSubNode.handleMessage_routes n.toPubSubNode c hm (up c)).check
  have hpend := congrArg CheckState.pending hcheck
  have hpassed {d : C} (hd : n.Passed watch d) : (n.process c m (up c)).1.Passed watch d :=
    ⟨(congrFun hpend d).trans hd.1,hd.2⟩
  have hsettles : n.Settles watch (n.process c m (up c)).1 := ⟨fun _ => id,fun _ _ => hpassed⟩
  have hlists (d : C) : (d ∈ (n.process c m (up c)).1.upstreamConnections ↔
        d ∈ n.upstreamConnections) ∧ (d ∈ (n.process c m (up c)).1.downstreamConnections ↔
        d ∈ n.downstreamConnections) := by rw [hcheck]; exact ⟨.rfl,.rfl⟩
  refine ⟨⟨(congrArg CheckState.nodeId hcheck).trans hn.nodeId,?_,hn.fresh,?_,?_,?_,?_,?_⟩,hsettles,
    fun f hf => hsettles.shields (hw.sends_shields hn ?_ f hf)⟩
  · exact fun d hd => hn.queued d fun hp => hd (hpassed hp)
  · intro s d hd hwatch
    rcases tagged_process hw hm hd with hd | ⟨rfl,hs⟩
    · exact hn.tagged s d hd hwatch
    · exact hin s hs hwatch
  · intro d hd
    rw [hcheck] at hd
    exact hn.draining d hd
  · intro q o ho d hd
    rw [hcheck] at ho
    exact hsettles.settled (hn.targets q o ho d hd)
  · intro d hd hv
    rw [hcheck]
    exact hn.checked d ((hlists d).1.mp hd) hv
  · exact fun d hd => hn.aside d ((hlists d).2.mp hd)
  · exact fun d hd e he => PubSubNode.handleMessage_targets hm hd he

theorem handleMessage_leaves (hw : n.Wired up) (hn : n.Reserved watch i) (hc : n.made c = true)
    {m : Message I Q P} (hm : isRouted m = false) (b : Bool) :
    n.Leaves watch i (n.handleMessage c m b) := by
  have hshrinks := handleMessage_shrinks n c hm b
  cases m with
  | subscription s b => cases hm
  | publish s p => cases hm
  | hello peerId =>
    refine Calm.leaves (m := (n.handleMessage c (.hello peerId) b).1) ?_ hn
      fun f hf => absurd hf List.not_mem_nil
    obtain ⟨pending,he,hsome,-⟩ := CheckState.handleHello_eq n.toCheckState c peerId
    have hstate : (n.handleMessage c (.hello peerId) b).1.toCheckState =
        n.handleHello c peerId := rfl
    rw [he] at hstate
    refine ⟨hshrinks,by rw [hstate],rfl,fun _ => id,fun q o ho => ?_,fun d _ hd => ?_⟩
    · rw [hstate] at ho
      exact ⟨o,ho,rfl⟩
    · rw [hstate]
      exact (hsome d).trans hd
  | query q target =>
    have hrefl : n.Calm n := .refl n
    simp only [WiredNode.handleMessage,PubSubNode.handleMessage,PubSubNode.handleQuery]
    cases hnow : n.answerNow c q target with
    | some r => exact hrefl.leaves hn (replies_shields hc q r)
    | none =>
      cases hactive : n.activeNodeConnections.filter (· ≠ c) with
      | nil => exact hrefl.leaves hn (replies_shields hc q .notFound)
      | cons d ds =>
        refine ⟨openQuery_reserved hn ?_,⟨fun _ => id,fun _ _ => id⟩,fun f hf => absurd hf List.not_mem_nil⟩
        intro e he
        have hmem : e ∈ n.activeNodeConnections.filter (· ≠ c) := hactive ▸ he
        exact hw.settled_active hn (List.mem_filter.mp hmem).1
  | reply q r =>
    refine Calm.leaves (m := (n.handleMessage c (.reply q r) b).1) ?_ hn
      fun f hf => absurd hf List.not_mem_nil
    have hstate : (n.handleMessage c (.reply q r) b).1 =
        n.setNode {n.toPubSubNode with toCheckState := n.handleReply c q r} := rfl
    rw [hstate] at hshrinks ⊢
    revert hshrinks
    unfold CheckState.handleReply
    cases ho : n.queries q with
    | none => exact fun _ => .refl n
    | some o =>
      intro hshrinks
      refine ⟨hshrinks,rfl,rfl,fun _ => id,?_,fun _ _ => id⟩
      intro q' o' ho'
      have hopen : Function.update n.queries q (some {o with query := o.query.reply c r}) q' =
        some o' := ho'
      by_cases hq : q' = q
      · subst q'
        rw [Function.update_self] at hopen
        cases hopen
        exact ⟨o,ho,Query.reply_targets _ _ _⟩
      · rw [Function.update_of_ne hq] at hopen
        exact ⟨o',hopen,rfl⟩

omit [DecidableEq I] [DecidableEq Q] in
theorem hold_calm (n : WiredNode C I Q P) (c : C) (m : {m : Message I Q P // isRouted m = true})
    (length : ℕ) : n.Calm (n.setNode {n.toPubSubNode with toCheckState := n.hold c m length}) := by
  have hshrinks := hold_shrinks n c m length
  obtain ⟨pending,draining,he,hsome,-⟩ := CheckState.hold_eq n.toCheckState c m length
  rw [he] at hshrinks ⊢
  exact ⟨hshrinks,rfl,rfl,fun _ => id,fun _ o ho => ⟨o,ho,rfl⟩,fun d _ hd => (hsome d).trans hd⟩

theorem onReceive_leaves {cfg : TaskSettings C I Q P} (hw : n.Wired cfg.fromUpstream)
    (hn : n.Reserved watch i) (hc : n.made c = true) {m : Message I Q P}
    (hin : ∀ s, m = .subscription s true → watch c → n.verdict c ≠ some true →
      (n.pending c).isSome) : n.Leaves watch i (n.onReceive cfg c m) := by
  unfold onReceive
  split
  · rename_i hm
    let n' : WiredNode C I Q P :=
      {n with received := Function.update n.received c (n.received c++[m])}
    have hw' : n'.Wired cfg.fromUpstream := hw.shrinks {Shrinks.refl n with}
    have hcalm : n.Calm n' := {Calm.refl n with}
    have hn' := hcalm.reserved hn
    split
    · rename_i hheld
      refine (process_leaves hw' hn' hm fun s hs hwatch => ?_).after hcalm.settles
      by_contra hv
      obtain ⟨p,hp⟩ := Option.isSome_iff_exists.mp (hin s hs hwatch hv)
      simp [CheckState.heldMessages,hp] at hheld
    · split
      · exact (connectionError_leaves hw' hn' c _).after hcalm.settles
      · exact (hcalm.trans (hold_calm n' c ⟨m,hm⟩ (cfg.length m))).leaves hn (by simp)
  · rename_i hm
    exact handleMessage_leaves hw hn hc (by simpa using hm) _

omit [DecidableEq I] [DecidableEq Q] in
/-- Whatever is queued on a connection that has not passed introduces the node. -/
theorem enqueue_leaves (hn : n.Reserved watch i) {cs : List C} {m : Message I Q P}
    (hf : n.Shields watch i (.send (c::cs) m)) : n.Leaves watch i (n.enqueue c m,[.send cs m]) := by
  obtain ⟨hmade,hm⟩ := hf c List.mem_cons_self
  have hqueued {d : C} (hd : d ≠ c) : (n.enqueue c m).queued d = n.queued d := by
    simp [enqueue,hd]
  have hself : (n.enqueue c m).queued c = n.queued c++[m] := by simp [enqueue]
  refine ⟨⟨hn.nodeId,?_,?_,hn.tagged,hn.draining,hn.targets,hn.checked,hn.aside⟩,
    ⟨fun _ => id,fun _ _ => id⟩,?_⟩
  · intro d hd m' hm'
    have hdp : ¬n.Passed watch d := hd
    by_cases hdc : d = c
    · subst d
      rw [hself] at hm'
      rcases List.mem_append.mp hm' with hm' | hm'
      · exact hn.queued c hdp m' hm'
      · rw [List.mem_singleton.mp hm']
        exact hm.resolve_right hdp
    · rw [hqueued hdc] at hm'
      exact hn.queued d hdp m' hm'
  · intro d hd
    have hdm : n.made d = false := hd
    have hdc : d ≠ c := by
      rintro rfl
      rw [hmade] at hdm
      cases hdm
    rw [hqueued hdc]
    exact hn.fresh d hdm
  · intro f hfs
    cases List.mem_singleton.mp hfs
    intro d hd
    exact hf d (List.mem_cons_of_mem _ hd)

omit [DecidableEq I] [DecidableEq Q] in
theorem endDrain_calm (n : WiredNode C I Q P) (c : C) : n.Calm (n.endDrain c) :=
  ⟨endDrain_shrinks n c,rfl,rfl,fun _ => id,fun _ o ho => ⟨o,ho,rfl⟩,fun _ _ => id⟩

omit [DecidableEq I] [DecidableEq Q] in
theorem unsubscribe_calm (n : WiredNode C I Q P) (b : Bool) (s : Str) (c : C) :
    n.Calm (n.setNode (n.unsubscribe b s c).1) := by
  have hshrinks := unsubscribe_shrinks n c b s
  revert hshrinks
  unfold PubSubNode.unsubscribe
  split
  · intro hshrinks
    cases b <;> exact ⟨hshrinks,rfl,rfl,fun _ => id,fun _ o ho => ⟨o,ho,rfl⟩,fun _ _ => id⟩
  · exact fun _ => .refl n

omit [DecidableEq I] [DecidableEq Q] in
theorem sendNext_leaves (hw : n.Wired up) (hn : n.Reserved watch i) (cfg : TaskSettings C I Q P)
    {cs : List C} {m : Message I Q P} (hf : n.Shields watch i (.send (c::cs) m)) :
    n.Leaves watch i (n.sendNext cfg c cs m) := by
  unfold sendNext
  split
  · refine (connectionError_leaves hw hn c _).append ?_
    intro f hfs
    cases List.mem_singleton.mp hfs
    intro d hd
    exact hf d (List.mem_cons_of_mem _ hd)
  · exact enqueue_leaves hn hf

theorem drainNext_leaves (hw : n.Wired up) (hn : n.Reserved watch i) (c : C) :
    n.Leaves watch i (n.drainNext c) := by
  unfold drainNext
  split
  · rename_i m length ms size hd
    have hsome : (n.draining c).isSome := by rw [hd]; rfl
    have hshrinks := draining_shrinks hsome ⟨ms,size-length⟩
    have hcalm : n.Calm {n with
        draining := Function.update n.draining c (some ⟨ms,size-length⟩)} :=
      ⟨hshrinks,rfl,rfl,fun _ => id,fun _ o ho => ⟨o,ho,rfl⟩,fun _ _ => id⟩
    have hproc := process_leaves (c := c) (hw.shrinks hshrinks) (hcalm.reserved hn) m.2
      fun _ _ _ => hn.draining c hsome
    rw [(hw.draining c hsome).2] at hproc
    apply (hproc.after hcalm.settles).append
    intro f (hfs : f ∈ [.drain c])
    cases List.mem_singleton.mp hfs
    trivial
  · exact (endDrain_calm n c).leaves hn fun f hf => nomatch hf

theorem exec_leaves {cfg : TaskSettings C I Q P} (hw : n.Wired up) (hn : n.Reserved watch i)
    {f : Frame C I Q P} (hf : n.Shields watch i f)
    (hforget : ∀ c b, f = .forget c b → c ∉ n.allConnections) : n.Leaves watch i (n.exec cfg f) := by
  have hrefl : n.Leaves watch i (n,[]) := (Calm.refl n).leaves hn fun f hf => nomatch hf
  cases f with
  | send cs m =>
    cases cs with
    | nil => exact hrefl
    | cons c cs => exact sendNext_leaves hw hn cfg hf
  | drop c b ss =>
    cases ss with
    | nil => exact hrefl
    | cons s ss =>
      have hsends : n.Leaves watch i (n.setNode (n.unsubscribe b s c).1,sends (n.unsubscribe b s c).2) := by
        refine (unsubscribe_calm n b s c).leaves hn (hw.sends_shields hn ?_)
        intro d hd e he
        exact PubSubNode.unsubscribe_targets hd he
      apply hsends.append
      intro f (hfs : f ∈ [.drop c b ss])
      cases List.mem_singleton.mp hfs
      trivial
  | drain c => exact drainNext_leaves hw hn c
  | undrain c =>
    have hcalm := endDrain_calm n c
    exact (connectionError_leaves (hw.shrinks (endDrain_shrinks n c)) (hcalm.reserved hn) c
      true).after hcalm.settles
  | forget c b =>
    have hc : c ∉ n.upstreamConnections := by
      intro hm
      exact hforget c b rfl (CheckState.mem_allConnections.mpr (.inr hm))
    refine (forget_calm hc).leaves hn ?_
    intro f hfs
    cases List.mem_singleton.mp hfs
    trivial
  | shut c b => exact hrefl
  | wait c b => exact hrefl

end WiredNode

namespace NodeTasks

variable {cfg : TaskSettings C I Q P} {watch : C → Prop} {i : I} {s t : NodeTasks C K I Q P}
  {a : TaskAction C K I Q P}

structure Reserved (watch : C → Prop) (i : I) (s : NodeTasks C K I Q P) : Prop where
  node : s.node.Reserved watch i
  frames : ∀ f, s.Has f → s.node.Shields watch i f

/-- What a step does to the connections that have been made. -/
structure Advances (watch : C → Prop) (s t : NodeTasks C K I Q P) : Prop where
  settles : s.node.Settles watch t.node
  keeps : s.node.Keeps t.node

/-- A connection that is watched is subscribed only while its messages are held, or once it has
been accepted. -/
def KeepsOut (watch : C → Prop) (s : NodeTasks C K I Q P) (a : TaskAction C K I Q P) : Prop :=
  ∀ c u, a = .receive c (.subscription u true) → watch c → s.node.verdict c ≠ some true →
    (s.node.pending c).isSome

theorem Pauses.calm {lost : List (Frame C I Q P)} (h : s.Pauses lost t)
    (hcheck : t.node.toCheckState = s.node.toCheckState) : s.node.Calm t.node := by
  refine ⟨h.rests.shrinks,congrArg CheckState.nodeId hcheck,h.rests.queued,?_,?_,?_⟩
  · exact fun c hc => (congrFun h.rests.verdict c).trans hc
  · intro q o ho
    rw [hcheck] at ho
    exact ⟨o,ho,rfl⟩
  · intro c _ hc
    rwa [hcheck]

theorem Wired.of_shrinks {up : C → Bool} (hs : s.Wired up) {n : WiredNode C I Q P}
    (h : s.node.Shrinks n) : ({s with node := n} : NodeTasks C K I Q P).Wired up := by
  refine ⟨hs.node.shrinks h,hs.frames,?_⟩
  intro c b hf
  obtain ⟨hm,hl⟩ := hs.forgets c b hf
  exact ⟨h.made ▸ hm,fun hc => hl (h.listed hc)⟩

theorem Reserved.of_calm (hr : s.Reserved watch i) {n : WiredNode C I Q P} (h : s.node.Calm n) :
    ({s with node := n} : NodeTasks C K I Q P).Reserved watch i :=
  ⟨h.reserved hr.node,fun f hf => h.settles.shields (hr.frames f hf)⟩

variable [DecidableEq C] [DecidableEq K] [DecidableEq I] [DecidableEq Q]

omit [DecidableEq K] in
theorem Work.leaves {out : Option (Frame C I Q P)} {r : WiredNode C I Q P × List (Frame C I Q P)}
    (h : s.Work cfg a out r) (ha : a.ofQueries = false)
    (hup : ∀ c, watch c → cfg.fromUpstream c = true) (hok : s.KeepsOut watch a)
    (hs : s.Wired cfg.fromUpstream) (hr : s.Reserved watch i) (hout : ∀ f, out = some f → s.Has f) :
    s.node.Leaves watch i r := by
  have hw := hs.node
  have hn := hr.node
  cases h with
  | establish c hm hu => exact WiredNode.establish_leaves hn hm
  | accept c hm hu => exact WiredNode.accept_leaves hw hn hm fun hc => by simp [hup c hc] at hu
  | receive c m hc =>
    exact WiredNode.onReceive_leaves hw hn (hw.reading c hc) fun u hm => hok c u (by rw [hm])
  | loopFailed c hc =>
    have hrests := WiredNode.Rests.endLoop s.node c
    have hcalm : s.node.Calm (s.node.setNode (s.node.endLoop c)) :=
      ⟨hrests.shrinks,rfl,rfl,fun _ => id,fun _ o ho => ⟨o,ho,rfl⟩,fun _ _ => id⟩
    exact (WiredNode.connectionError_leaves (hw.shrinks hrests.shrinks) (hcalm.reserved hn) c
      _).after hcalm.settles
  | sendFailed c => exact WiredNode.connectionError_leaves hw hn c _
  | activate c p hp hv => exact WiredNode.activate_leaves hw hn hp
  | abandon c hu hv =>
    have hshrinks : s.node.Shrinks
        {s.node with verdict := Function.update s.node.verdict c (some false)} :=
      {WiredNode.Shrinks.refl s.node with}
    have hcalm : s.node.Calm
        {s.node with verdict := Function.update s.node.verdict c (some false)} := by
      refine ⟨hshrinks,rfl,rfl,fun d hd => ?_,fun _ o ho => ⟨o,ho,rfl⟩,fun _ _ => id⟩
      have hdc : d ≠ c := by
        rintro rfl
        simp [hv] at hd
      exact (Function.update_of_ne hdc _ _).trans hd
    exact (WiredNode.connectionError_leaves (hw.shrinks hshrinks) (hcalm.reserved hn) c
      true).after hcalm.settles
  | closeConnection k c hc =>
    refine (WiredNode.unlist_calm s.node c _).leaves hn ?_
    intro f hf
    rcases List.mem_cons.mp hf with rfl | hf
    · trivial
    · cases List.mem_singleton.mp hf
      trivial
  | send k ts m hm => cases ha
  | exec f _ =>
    refine WiredNode.exec_leaves hw hn (hr.frames f (hout f rfl)) ?_
    rintro c b rfl
    exact (hs.forgets c b (hout _ rfl)).2

theorem step_reserved (h : step cfg s a = some t) (ha : a.ofQueries = false)
    (hup : ∀ c, watch c → cfg.fromUpstream c = true) (hok : s.KeepsOut watch a)
    (hs : s.Wired cfg.fromUpstream) (hr : s.Reserved watch i) :
    t.Reserved watch i ∧ s.Advances watch t := by
  rcases step_turns h with ⟨hp,hcheck⟩ | ⟨out,r,hw,hn,hf⟩
  · have hcalm := hp.calm (hcheck fun b qs heq => by rw [heq] at ha; cases ha)
    refine ⟨⟨hcalm.reserved hr.node,?_⟩,hcalm.settles,hp.rests.shrinks.keeps⟩
    intro f hft
    cases f with
    | send cs m => exact hcalm.settles.shields (hr.frames _ (hp.old _ rfl hft))
    | _ => trivial
  · have hleaves := hw.leaves ha hup hok hs hr hf.out
    have hkeeps := (hw.keeps hs).1
    rw [← hn] at hkeeps
    have hsettles := hleaves.settles
    rw [← hn] at hsettles
    refine ⟨⟨hn ▸ hleaves.reserved,?_⟩,hsettles,hkeeps⟩
    intro f hft
    rcases hf.old f hft with hold | hput
    · exact hsettles.shields (hr.frames f hold)
    · exact hn ▸ hleaves.shields f hput

end NodeTasks
end SoftwareBus
