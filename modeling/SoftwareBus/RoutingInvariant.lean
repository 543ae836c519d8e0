import SoftwareBus.Routing
import SoftwareBus.CheckInvariant

/-! What holds of the routing tables of a node between its steps, given what it has
queued on its connections and what it has received from them. -/
namespace SoftwareBus

open Interest Message

variable {C I Q P : Type} [DecidableEq C]

def NodeEvent.received (c : C) : NodeEvent C I Q P → List (Message I Q P)
  | .receive d m => if d = c then [m] else []
  | _ => []

theorem Message.lastSaid_filter_isRouted (b : Bool) (s : Str) (ms : List (Message I Q P)) :
    lastSaid b s (ms.filter isRouted) = lastSaid b s ms := by
  have hmap : (ms.filter isRouted).filterMap (about s) = ms.filterMap (about s) := by
    rw [List.filterMap_filter]
    refine List.filterMap_congr fun m _ => ?_
    cases m <;> simp [isRouted,about]
  rw [lastSaid,lastSaid,hmap]

namespace PubSubNode

/-- A send queue or the held messages of a connection go over their limit. -/
def overflows (cfg : Settings C I Q P) (n : PubSubNode C I Q P) : NodeEvent C I Q P → Bool
  | .connectionError _ goesOn => goesOn
  | .receive c m => isRouted m && (n.heldMessages c).any fun held =>
      decide (cfg.heldMessagesLimit < held.size+cfg.length m)
  | _ => false

/-- `out` is what has been queued on each connection, `inp` what has come in on it. -/
structure Informed (mine : C → Prop) (up : C → Bool) (n : PubSubNode C I Q P)
    (out inp : C → List (Message I Q P)) : Prop where
  strange : ∀ c, ¬mine c → ∀ s b, lastSaid b s (out c) = b
  directed : n.Directed up
  told : ∀ c ∈ n.active n.allConnections, ∀ s, lastSaid false s (out c) = n.wants c s
  quiet : ∀ c, (n.pending c).isSome → ∀ s, lastSaid false s (out c) = false ∧ c ∉ n.subscribers s
  heard : ∀ c ∈ n.active n.allConnections, ∀ s,
    c ∈ n.subscribers s ↔ lastSaid false s (inp c) = true
  held : ∀ c p, n.pending c = some p → p.held.messages.map (·.1.1) = (inp c).filter isRouted
  waiting : ∀ c, (n.pending c).isSome → c ∈ n.allConnections ∨ n.closing c = true
  gone : ∀ c s, c ∈ n.subscribers s → c ∈ n.allConnections ∨ n.closing c = true
  reading : ∀ c, n.reading c = true → c ∈ n.allConnections
  drained : ∀ c, n.draining c = none

variable {mine : C → Prop} {up : C → Bool} {n m n' : PubSubNode C I Q P}
  {out inp out' inp' : C → List (Message I Q P)}

theorem new_informed (i : I) : (new i : PubSubNode C I Q P).Informed mine up (fun _ => []) inp := by
  constructor <;> simp [new,subscribers,CheckState.allConnections,CheckState.active]
  constructor <;> simp

/-- Steps that do not route: they say and hear nothing of subjects. -/
theorem Informed.same (h : n.Informed mine up out inp)
    (ht : n'.downstreamSubscriptions = n.downstreamSubscriptions ∧
      n'.upstreamSubscriptions = n.upstreamSubscriptions)
    (hl : n'.allConnections = n.allConnections ∧ n'.closing = n.closing)
    (hp : ∀ c, (n'.pending c).map (·.held) = (n.pending c).map (·.held))
    (hr : n'.reading = n.reading ∧ n'.draining = n.draining)
    (hout : ∀ c s b, lastSaid b s (out' c) = lastSaid b s (out c))
    (hinp : ∀ c, (inp' c).filter isRouted = (inp c).filter isRouted) :
    n'.Informed mine up out' inp' := by
  have hsub (s : Str) : n'.subscribers s = n.subscribers s := by rw [subscribers,ht.1,ht.2]; rfl
  have hsome (c : C) : (n'.pending c).isSome = (n.pending c).isSome := by
    simpa using congrArg Option.isSome (hp c)
  have hactive (c : C) : c ∈ n'.active n'.allConnections ↔ c ∈ n.active n.allConnections := by
    rw [mem_active,mem_active,hl.1,← Option.not_isSome_iff_eq_none,hsome,
      Option.not_isSome_iff_eq_none]
  have hsaid (c : C) (s : Str) : lastSaid false s (inp' c) = lastSaid false s (inp c) := by
    rw [← lastSaid_filter_isRouted,hinp,lastSaid_filter_isRouted]
  refine ⟨fun c hc s b => ?_,⟨?_,?_⟩,fun c hc s => ?_,fun c hc s => ?_,fun c hc s => ?_,
    fun c p hcp => ?_,fun c hc => ?_,fun c s hc => ?_,fun c hc => ?_,fun c => ?_⟩
  · rw [hout,h.strange c hc]
  · exact ht.2 ▸ h.directed.upstream
  · exact ht.1 ▸ h.directed.downstream
  · rw [hout,wants,hsub]
    exact h.told c ((hactive c).mp hc) s
  · rw [hout,hsub]
    exact h.quiet c (hsome c ▸ hc) s
  · rw [hsaid,hsub]
    exact h.heard c ((hactive c).mp hc) s
  · have hc := hp c
    rw [hcp] at hc
    obtain ⟨q,hq,hqh⟩ := Option.map_eq_some_iff.mp hc.symm
    rw [hinp,← h.held c q hq,hqh]
  · rw [hl.1,hl.2]
    exact h.waiting c (hsome c ▸ hc)
  · rw [hl.1,hl.2]
    exact h.gone c s (hsub s ▸ hc)
  · exact hl.1 ▸ h.reading c (hr.1 ▸ hc)
  · exact hr.2 ▸ h.drained c

/-- What is queued for a connection that is not the node's own is silent. -/
theorem Informed.silent (h : n.Informed mine up out inp)
    (hk : ∀ d, d ∈ n.allConnections ∨ n.closing d = true → mine d) {c d : C} (hc : mine c)
    (hd : ¬mine d) {m : PubSubNode C I Q P} {r : PubSubNode C I Q P × List (Send C I Q P)}
    (hr : Reroutes up c m r) (hm : ∀ d ∈ m.allConnections, mine d)
    (hs : ∀ s, m.subscribers s = n.subscribers s) (s : Str) (b : Bool) :
    lastSaid b s (out d++queuedOn d r.2) = b := by
  rw [lastSaid_append,h.strange d hd]
  refine hr.silent d (fun he => hd (hm d (mem_active.mp he).1)) (fun t ht => hd ?_)
    (fun he => hd (he ▸ hc)) s b
  exact hk d (h.gone d t (hs t ▸ ht))

structure Without (c : C) (n m : PubSubNode C I Q P) : Prop where
  downstream : m.downstreamSubscriptions = n.downstreamSubscriptions
  upstream : m.upstreamSubscriptions = n.upstreamSubscriptions
  listed : ∀ d, d ∈ m.allConnections ↔ d ∈ n.allConnections ∧ d ≠ c
  pending : m.pending = Function.update n.pending c none
  draining : m.draining = Function.update n.draining c none

theorem Informed.drop (h : n.Informed mine up out inp)
    (hk : ∀ d, d ∈ n.allConnections ∨ n.closing d = true → mine d) {c : C} (hc : mine c)
    (hw : Without c n m) (rd cl : C → Bool)
    (hrd : ∀ d, rd d = true → n.reading d = true ∧ d ≠ c) (hcl : ∀ d, d ≠ c → cl d = n.closing d) :
    Informed mine up {(m.dropConnection c (up c)).1 with reading := rd, closing := cl}
      (fun d => out d++queuedOn d (m.dropConnection c (up c)).2) inp := by
  have hsub (s : Str) : m.subscribers s = n.subscribers s := by
    rw [subscribers,hw.downstream,hw.upstream]; rfl
  have hdir : m.Directed up := ⟨hw.upstream ▸ h.directed.upstream,hw.downstream ▸ h.directed.downstream⟩
  obtain ⟨hr,hnone⟩ := dropConnection_reroutes hdir c
  have hstrange (d : C) (hd : ¬mine d) := h.silent hk hc hd hr
    (fun d hd => hk d (.inl ((hw.listed d).mp hd).1)) hsub
  have hcheck := hr.routes.check
  generalize m.dropConnection c (up c) = r at hr hnone hcheck hstrange
  have htag {d : C} {s : Str} (hd : d ∈ r.1.subscribers s) : d ≠ c ∧ d ∈ n.subscribers s := by
    have hdc : d ≠ c := fun he => hnone s (he ▸ hd)
    exact ⟨hdc,hsub s ▸ (hr.tags s d hdc).mp hd⟩
  have hpend (d : C) : r.1.pending d = if d = c then none else n.pending d := by
    rw [hcheck,hw.pending,Function.update_apply]
  have hlist (d : C) : d ∈ r.1.allConnections ↔ d ∈ n.allConnections ∧ d ≠ c := by
    rw [hcheck]
    exact hw.listed d
  have hold {d : C} (hd : d ∈ r.1.allConnections ∧ r.1.pending d = none) :
      d ≠ c ∧ d ∈ n.active n.allConnections ∧ d ∈ m.active m.allConnections := by
    obtain ⟨hl,hdc⟩ := (hlist d).mp hd.1
    have hp : n.pending d = none := by simpa [hpend,hdc] using hd.2
    exact ⟨hdc,mem_active.mpr ⟨hl,hp⟩,mem_active.mpr ⟨(hw.listed d).mpr ⟨hl,hdc⟩,
      by simp [hw.pending,hdc,hp]⟩⟩
  refine ⟨hstrange,⟨hr.directed.upstream,hr.directed.downstream⟩,fun d hd s => ?_,
    fun d hd s => ?_,fun d hd s => ?_,fun d p hd => ?_,fun d hd => ?_,fun d s hd => ?_,
    fun d hd => ?_,fun d => ?_⟩
  · obtain ⟨-,hn,hm⟩ := hold (mem_active.mp hd)
    rw [lastSaid_append,h.told d hn s,wants,← hsub]
    exact hr.told d hm s
  · have hd : (r.1.pending d).isSome := hd
    have hdc : d ≠ c := by rintro rfl; simp [hpend] at hd
    rw [hpend,if_neg hdc] at hd
    obtain ⟨hq,hs⟩ := h.quiet d hd s
    refine ⟨?_,fun hm => hs (htag hm).2⟩
    rw [lastSaid_append,hq]
    refine hr.silent d (fun hm => ?_) (fun t hm => (h.quiet d hd t).2 (hsub t ▸ hm)) hdc s false
    obtain ⟨-,hp⟩ := mem_active.mp hm
    simp [hw.pending,hdc] at hp
    simp [hp] at hd
  · obtain ⟨hdc,hn,-⟩ := hold (mem_active.mp hd)
    refine Iff.trans ?_ (h.heard d hn s)
    exact (hr.tags s d hdc).trans (by rw [hsub])
  · have hd : r.1.pending d = some p := hd
    have hdc : d ≠ c := by rintro rfl; simp [hpend] at hd
    exact h.held d p (by simpa [hpend,hdc] using hd)
  · have hd : (r.1.pending d).isSome := hd
    have hdc : d ≠ c := by rintro rfl; simp [hpend] at hd
    rw [hpend,if_neg hdc] at hd
    exact (h.waiting d hd).imp (fun hl => (hlist d).mpr ⟨hl,hdc⟩) fun hc => (hcl d hdc).trans hc
  · obtain ⟨hdc,hn⟩ := htag hd
    exact (h.gone d s hn).imp (fun hl => (hlist d).mpr ⟨hl,hdc⟩) fun hc => (hcl d hdc).trans hc
  · obtain ⟨hd,hdc⟩ := hrd d hd
    exact (hlist d).mpr ⟨h.reading d hd,hdc⟩
  · change r.1.draining d = none
    rw [hcheck,hw.draining]
    by_cases hdc : d = c <;> simp [hdc,h.drained]

variable {own : C → Prop} {peerId : C → I → Prop}

theorem Informed.connectionError (h : n.Informed mine up out inp)
    (hk : ∀ d, d ∈ n.allConnections ∨ n.closing d = true → mine d) (hn : n.Sound own up peerId)
    (c : C) (b : Bool) : ((n.connectionError c b).1.endLoop c).Informed mine up
      (fun d => out d++queuedOn d (n.connectionError c b).2) inp := by
  have hrd {rd : C → Bool} (hrd : rd = n.reading) (d : C)
      (hd : Function.update rd c false d = true) : n.reading d = true ∧ d ≠ c := by
    by_cases hdc : d = c <;> simp_all
  by_cases hc : c ∈ n.connections b
  · have hb := CheckState.connections_direction hn hc
    subst hb
    have hl : c ∈ n.allConnections := by
      cases hu : up c <;> simp_all [CheckState.connections,CheckState.mem_allConnections]
    let m : PubSubNode C I Q P := {n with toCheckState := (n.unlist c (up c)).forgetConnection c}
    have hw : Without c n m := by
      refine ⟨rfl,rfl,fun d => ?_,?_,?_⟩
      · exact CheckState.mem_unlist_own hn c d
      · simp [m,CheckState.forgetConnection]
      · simp [m,CheckState.forgetConnection]
    have hroutes : Routes m (m.dropConnection c (up c)) := dropSubjects_routes m c (up c) _
    have hr := h.drop hk (hk c (.inl hl)) hw (Function.update (m.dropConnection c (up c)).1.reading c false)
      (m.dropConnection c (up c)).1.closing (hrd hroutes.reading) fun d _ => by
        rw [hroutes.check]
        simp [m,CheckState.forgetConnection]
    have he : n.connectionError c (up c) = m.dropConnection c (up c) := by
      rw [PubSubNode.connectionError,if_pos hc]
    rw [he]
    exact hr
  · have he : n.connectionError c b = (n,[]) := by rw [PubSubNode.connectionError,if_neg hc]
    simp only [he,queuedOn_nil,List.append_nil]
    exact {h with
      directed := ⟨h.directed.upstream,h.directed.downstream⟩
      reading := fun d hd => h.reading d (hrd rfl d hd).1}

theorem Informed.establish (h : n.Informed mine up out inp) {c : C} (hk : ¬n.Knows c)
    (hout : ∀ s, lastSaid false s (out c) = false) (hinp : inp c = []) :
    (n.establish c).1.Informed mine up (fun d => out d++queuedOn d (n.establish c).2) inp := by
  have hl : c ∉ n.allConnections := fun hl => hk (.inl hl)
  have hsaid (d : C) (s : Str) (b : Bool) : lastSaid b s (queuedOn d (n.establish c).2) = b :=
    lastSaid_queuedOn_of_silent (by simp [PubSubNode.establish,about]) b d
  have htag (s : Str) : c ∉ n.subscribers s := fun hm =>
    (h.gone c s hm).elim hl fun hc => hk (.inr (.inl hc))
  have hlist (d : C) : d ∈ (n.establish c).1.allConnections ↔ d ∈ n.allConnections ∨ d = c := by
    simp [PubSubNode.establish,CheckState.mem_allConnections,or_assoc]
  have hpend (d : C) : (n.establish c).1.pending d =
      if d = c then some ⟨none,.empty⟩ else n.pending d := Function.update_apply _ _ _ _
  have hold {d : C} (hd : d ∈ (n.establish c).1.active (n.establish c).1.allConnections) :
      d ∈ n.active n.allConnections := by
    obtain ⟨hd,hp⟩ := mem_active.mp hd
    rw [hpend] at hp
    have hdc : d ≠ c := by rintro rfl; simp at hp
    exact mem_active.mpr ⟨((hlist d).mp hd).resolve_right hdc,by simpa [hdc] using hp⟩
  refine ⟨fun d hd s b => ?_,⟨h.directed.upstream,h.directed.downstream⟩,fun d hd s => ?_,
    fun d hd s => ?_,fun d hd s => h.heard d (hold hd) s,fun d p hd => ?_,fun d hd => ?_,
    fun d s hd => ?_,fun d hd => ?_,h.drained⟩
  · rw [lastSaid_append,hsaid,h.strange d hd]
  · rw [lastSaid_append,hsaid]
    exact h.told d (hold hd) s
  · rw [lastSaid_append,hsaid]
    by_cases hdc : d = c
    · subst d
      exact ⟨hout s,htag s⟩
    · exact h.quiet d (by simpa [hpend,hdc] using hd) s
  · by_cases hdc : d = c
    · obtain rfl : _ = p := by simpa [hpend,hdc] using hd
      simp [HeldMessages.empty,hdc,hinp]
    · exact h.held d p (by simpa [hpend,hdc] using hd)
  · by_cases hdc : d = c
    · exact .inl ((hlist d).mpr (.inr hdc))
    · exact (h.waiting d (by simpa [hpend,hdc] using hd)).imp_left fun hd => (hlist d).mpr (.inl hd)
  · exact (h.gone d s hd).imp_left fun hd => (hlist d).mpr (.inl hd)
  · refine (hlist d).mpr ?_
    by_cases hdc : d = c
    · exact .inr hdc
    · exact .inl (h.reading d (by simpa [PubSubNode.establish,hdc] using hd))

theorem Informed.accept (h : n.Informed mine up out inp) {c : C} (hc : mine c) (hk : ¬n.Knows c)
    (hout : ∀ s, lastSaid false s (out c) = false) (hinp : inp c = []) :
    (n.accept c).1.Informed mine up (fun d => out d++queuedOn d (n.accept c).2) inp := by
  have hl : c ∉ n.allConnections := fun hl => hk (.inl hl)
  have htag (s : Str) : c ∉ n.subscribers s := fun hm =>
    (h.gone c s hm).elim hl fun hc => hk (.inr (.inl hc))
  have hsaid (d : C) (s : Str) (b : Bool) : lastSaid b s (queuedOn d (n.accept c).2) =
      if d = c ∧ n.subscribers s ≠ [] then true else b := by
    rw [PubSubNode.accept,lastSaid_queuedOn_cons,lastSaid_sendSubscriptions]
    simp [about,subscribers]
  have hlist (d : C) : d ∈ (n.accept c).1.allConnections ↔ d ∈ n.allConnections ∨ d = c := by
    simp only [PubSubNode.accept,CheckState.mem_allConnections,List.mem_append,List.mem_singleton]
    tauto
  have hold {d : C} (hdc : d ≠ c)
      (hd : d ∈ (n.accept c).1.active (n.accept c).1.allConnections) :
      d ∈ n.active n.allConnections := by
    obtain ⟨hd,hp⟩ := mem_active.mp hd
    exact mem_active.mpr ⟨((hlist d).mp hd).resolve_right hdc,hp⟩
  refine ⟨fun d hd s b => ?_,⟨h.directed.upstream,h.directed.downstream⟩,fun d hd s => ?_,
    fun d hd s => ?_,fun d hd s => ?_,h.held,fun d hd => ?_,fun d s hd => ?_,fun d hd => ?_,h.drained⟩
  · have hdc : d ≠ c := fun he => hd (he ▸ hc)
    rw [lastSaid_append,hsaid,if_neg fun he => hdc he.1,h.strange d hd]
  · rw [lastSaid_append,hsaid]
    change _ = n.wants d s
    by_cases hdc : d = c
    · rw [hdc,hout,wants,others_of_not_mem (htag s)]
      by_cases hs : n.subscribers s = [] <;> simp [hs]
    · simpa [hdc] using h.told d (hold hdc hd) s
  · have hdc : d ≠ c := by
      rintro rfl
      exact hk (.inr (.inr (.inl hd)))
    rw [lastSaid_append,hsaid,if_neg fun he => hdc he.1]
    exact h.quiet d hd s
  · by_cases hdc : d = c
    · subst d
      rw [hinp]
      exact iff_of_false (htag s) (by simp)
    · exact h.heard d (hold hdc hd) s
  · exact (h.waiting d hd).imp_left fun hd => (hlist d).mpr (.inl hd)
  · exact (h.gone d s hd).imp_left fun hd => (hlist d).mpr (.inl hd)
  · refine (hlist d).mpr ?_
    by_cases hdc : d = c
    · exact .inr hdc
    · exact .inl (h.reading d (by simpa [PubSubNode.accept,hdc] using hd))

theorem Informed.route (h : n.Informed mine up out inp)
    (hk : ∀ d, d ∈ n.allConnections ∨ n.closing d = true → mine d) {c : C}
    (hc : c ∈ n.active n.allConnections)
    {m : Message I Q P} {r : PubSubNode C I Q P × List (Send C I Q P)} (hr : Reroutes up c n r)
    (htag : ∀ t, c ∈ r.1.subscribers t ↔ lastSaid (decide (c ∈ n.subscribers t)) t [m] = true) :
    r.1.Informed mine up (fun d => out d++queuedOn d r.2)
      (fun d => inp d++if c = d then [m] else []) := by
  have hactive : r.1.active r.1.allConnections = n.active n.allConnections := by
    rw [hr.routes.check]
  have hpend : r.1.pending = n.pending := congrArg CheckState.pending hr.routes.check
  have hlist : r.1.allConnections = n.allConnections := congrArg CheckState.allConnections hr.routes.check
  have hclose : r.1.closing = n.closing := congrArg CheckState.closing hr.routes.check
  have hcp := (mem_active.mp hc).2
  refine ⟨fun d hd => h.silent hk (hk c (.inl (mem_active.mp hc).1)) hd hr (fun d hd => hk d (.inl hd))
    fun _ => rfl,hr.directed,fun d hd s => ?_,fun d hd s => ?_,fun d hd s => ?_,fun d p hd => ?_,
    fun d hd => ?_,fun d s hd => ?_,fun d hd => ?_,fun d => ?_⟩
  · rw [lastSaid_append,h.told d (hactive ▸ hd) s]
    exact hr.told d (hactive ▸ hd) s
  · rw [hpend] at hd
    have hdc : d ≠ c := by rintro rfl; simp [hcp] at hd
    obtain ⟨hq,hs⟩ := h.quiet d hd s
    refine ⟨?_,fun hm => hs ((hr.tags s d hdc).mp hm)⟩
    rw [lastSaid_append,hq]
    refine hr.silent d (fun hm => ?_) (fun t => (h.quiet d hd t).2) hdc s false
    simp [(mem_active.mp hm).2] at hd
  · have hold := h.heard d (hactive ▸ hd) s
    rw [lastSaid_append]
    by_cases hdc : c = d
    · subst d
      rw [if_pos rfl,htag s]
      refine iff_of_eq (congrArg (fun b => lastSaid b s [m] = true) ?_)
      exact Bool.eq_iff_iff.mpr (by simpa using hold)
    · simpa [hdc] using (hr.tags s d (Ne.symm hdc)).trans hold
  · rw [hpend] at hd
    have hdc : c ≠ d := by rintro rfl; simp [hcp] at hd
    simpa [hdc] using h.held d p hd
  · rw [hlist,hclose]
    exact h.waiting d (hpend ▸ hd)
  · rw [hlist,hclose]
    by_cases hdc : d = c
    · exact .inl (hdc ▸ (mem_active.mp hc).1)
    · exact h.gone d s ((hr.tags s d hdc).mp hd)
  · rw [hlist]
    exact h.reading d (hr.routes.reading ▸ hd)
  · rw [congrArg CheckState.draining hr.routes.check]
    exact h.drained d

/-- A pending connection is activated: what it sent meanwhile is routed, in order. -/
theorem Informed.activate (h : n.Informed mine up out inp)
    (hk : ∀ d, d ∈ n.allConnections ∨ n.closing d = true → mine d) {c : C} {p : PendingConnection I Q P}
    (hp : n.pending c = some p) (hu : up c = true) [DecidableEq I] [DecidableEq Q] :
    (n.activate c p.held).1.Informed mine up (fun d => out d++queuedOn d (n.activate c p.held).2) inp := by
  let n' : PubSubNode C I Q P := {n with
    pending := Function.update n.pending c none
    draining := Function.update n.draining c (some p.held)}
  have hdir : n'.Directed up := ⟨h.directed.upstream,h.directed.downstream⟩
  obtain ⟨hr,htag⟩ := drain_reroutes hdir hu p.held.messages
  have hreading : (n.activate c p.held).1.reading = n.reading := activate_reading n c p.held
  have hcheck := (activate_effect n c p.held).1
  have hsaid (d : C) (s : Str) (b : Bool) : lastSaid b s (out d++queuedOn d (n.activate c p.held).2) =
      lastSaid (lastSaid (lastSaid b s (out d)) s (queuedOn d (n'.sendSubscriptions c))) s
        (queuedOn d (n'.drain c p.held.messages).2) := by
    rw [← lastSaid_append,← queuedOn_append,← lastSaid_append]
    rfl
  have hsub (s : Str) : (n.activate c p.held).1.subscribers s =
      (n'.drain c p.held.messages).1.subscribers s := rfl
  have hactive {d : C} : d ∈ n'.active n'.allConnections ↔ d ∈ n.allConnections ∧
      (d = c ∨ n.pending d = none) := by
    rw [mem_active]
    by_cases hdc : d = c <;> simp [n',hdc,CheckState.allConnections]
  have hactive' (d : C) : d ∈ (n.activate c p.held).1.active (n.activate c p.held).1.allConnections ↔
      d ∈ n'.active n'.allConnections := by
    rw [hcheck]
    exact Iff.rfl
  have hcs (s : Str) : c ∉ n.subscribers s := (h.quiet c (by simp [hp]) s).2
  refine ⟨fun d hd s b => ?_,⟨hr.directed.upstream,hr.directed.downstream⟩,fun d hd s => ?_,
    fun d hd s => ?_,fun d hd s => ?_,fun d q hd => ?_,fun d hd => ?_,fun d s hd => ?_,
    fun d hd => ?_,fun d => ?_⟩
  · have hc : mine c := hk c (h.waiting c (by simp [hp]))
    have hdc : d ≠ c := fun he => hd (he ▸ hc)
    rw [hsaid,lastSaid_sendSubscriptions,if_neg fun he => hdc he.1,← lastSaid_append]
    exact h.silent hk hc hd hr (fun d hd => hk d (.inl hd)) (fun _ => rfl) s b
  · rw [hactive'] at hd
    rw [hsaid,lastSaid_sendSubscriptions,wants,hsub]
    refine Eq.trans ?_ (hr.told d hd s)
    congr 1
    change _ = n.wants d s
    by_cases hdc : d = c
    · have hout := (h.quiet c (by simp [hp]) s).1
      rw [hdc,hout,wants,others_of_not_mem (hcs s)]
      by_cases hs : n.subscribers s = [] <;> simp [n',subscribers] at hs ⊢
    · obtain ⟨hl,hpd⟩ := hactive.mp hd
      rw [if_neg fun he => hdc he.1]
      exact h.told d (mem_active.mpr ⟨hl,hpd.resolve_left hdc⟩) s
  · rw [hcheck] at hd
    have hdc : d ≠ c := by rintro rfl; simp at hd
    have hd : (n.pending d).isSome := by simpa [hdc] using hd
    obtain ⟨hq,hns⟩ := h.quiet d hd s
    refine ⟨?_,fun hm => hns ((hr.tags s d hdc).mp hm)⟩
    rw [hsaid,lastSaid_sendSubscriptions,hq,if_neg fun he => hdc he.1]
    refine hr.silent d (fun hm => ?_) (fun t => (h.quiet d hd t).2) hdc s false
    obtain he | he := (hactive.mp hm).2
    · exact hdc he
    · simp [he] at hd
  · rw [hactive'] at hd
    rw [hsub]
    by_cases hdc : d = c
    · subst d
      refine (htag s).trans ?_
      rw [h.held c p hp,lastSaid_filter_isRouted,show decide (c ∈ n'.subscribers s) = false from
        decide_eq_false (hcs s)]
    · obtain ⟨hl,hpd⟩ := hactive.mp hd
      exact (hr.tags s d hdc).trans (h.heard d (mem_active.mpr ⟨hl,hpd.resolve_left hdc⟩) s)
  · rw [hcheck] at hd
    have hdc : d ≠ c := by rintro rfl; simp at hd
    exact h.held d q (by simpa [hdc] using hd)
  · rw [hcheck] at hd ⊢
    have hdc : d ≠ c := by rintro rfl; simp at hd
    exact h.waiting d (by simpa [hdc] using hd)
  · rw [hcheck]
    by_cases hdc : d = c
    · exact hdc ▸ h.waiting c (by simp [hp])
    · exact h.gone d s ((hr.tags s d hdc).mp hd)
  · rw [hcheck]
    exact h.reading d (hreading ▸ hd)
  · rw [hcheck]
    by_cases hdc : d = c <;> simp [hdc,h.drained]

/-- What a step of the cycle check sends says nothing about a subject. -/
theorem Informed.control (h : n.Informed mine up out inp) {r : PubSubNode C I Q P × List (Send C I Q P)}
    (ht : r.1.downstreamSubscriptions = n.downstreamSubscriptions ∧
      r.1.upstreamSubscriptions = n.upstreamSubscriptions)
    (hl : r.1.allConnections = n.allConnections ∧ r.1.closing = n.closing)
    (hp : ∀ c, (r.1.pending c).map (·.held) = (n.pending c).map (·.held))
    (hr : r.1.reading = n.reading ∧ r.1.draining = n.draining)
    (hs : ∀ d ∈ r.2, isRouted d.2 = false) (hi : ∀ c, (inp' c).filter isRouted = []) :
    r.1.Informed mine up (fun c => out c++queuedOn c r.2) (fun c => inp c++inp' c) := by
  refine h.same ht hl hp hr (fun c s b => ?_) fun c => by rw [List.filter_append,hi,List.append_nil]
  rw [lastSaid_append]
  refine lastSaid_queuedOn_of_silent (fun d hd => ?_) _ c
  have hd := hs d hd
  cases hm : d.2 <;> simp_all [about,isRouted]

theorem Informed.closeConnection (h : n.Informed mine up out inp) (hn : n.Sound own up peerId) (c : C) :
    (n.closeConnection c (up c)).Informed mine up out inp := by
  have hlist (d : C) : d ∈ (n.closeConnection c (up c)).allConnections ↔
      d ∈ n.allConnections ∧ d ≠ c := CheckState.mem_unlist_own hn c d
  have hpend : (n.closeConnection c (up c)).pending = n.pending := CheckState.unlist_pending _ c _
  have hold {d : C} (hd : d ∈ (n.closeConnection c (up c)).active
      (n.closeConnection c (up c)).allConnections) : d ∈ n.active n.allConnections := by
    obtain ⟨hl,hp⟩ := mem_active.mp hd
    exact mem_active.mpr ⟨((hlist d).mp hl).1,hpend ▸ hp⟩
  have hkeep {d : C} (hd : d ∈ n.allConnections ∨ n.closing d = true) :
      d ∈ (n.closeConnection c (up c)).allConnections ∨
        (n.closeConnection c (up c)).closing d = true := by
    by_cases hdc : d = c
    · exact .inr (by simp [PubSubNode.closeConnection,endLoop,hdc])
    · exact hd.imp (fun hd => (hlist d).mpr ⟨hd,hdc⟩) fun hd => by
        simpa [PubSubNode.closeConnection,endLoop,hdc] using hd
  refine ⟨h.strange,⟨h.directed.upstream,h.directed.downstream⟩,fun d hd s => h.told d (hold hd) s,
    fun d hd s => h.quiet d (hpend ▸ hd) s,fun d hd s => h.heard d (hold hd) s,
    fun d p hd => h.held d p (hpend ▸ hd),fun d hd => hkeep (h.waiting d (hpend ▸ hd)),
    fun d s hd => hkeep (h.gone d s hd),fun d hd => (hlist d).mpr ?_,fun d => ?_⟩
  · have hd : Function.update n.reading c false d = true := hd
    by_cases hdc : d = c
    · simp [hdc] at hd
    · exact ⟨h.reading d (by simpa [hdc] using hd),hdc⟩
  · exact (congrFun (CheckState.unlist_draining _ c _) d).trans (h.drained d)

theorem Informed.closed (h : n.Informed mine up out inp)
    (hk : ∀ d, d ∈ n.allConnections ∨ n.closing d = true → mine d) (hn : n.Sound own up peerId)
    {c : C} (hc : n.closing c = true) : (n.closed c (up c)).1.Informed mine up
      (fun d => out d++queuedOn d (n.closed c (up c)).2) inp := by
  let m : PubSubNode C I Q P := {n with toCheckState := n.forgetConnection c}
  have hw : Without c n m := by
    refine ⟨rfl,rfl,fun d => ?_,rfl,rfl⟩
    exact ⟨fun hd => ⟨hd,fun he => hn.closing c hc (he ▸ hd)⟩,And.left⟩
  have hroutes : Routes m (m.dropConnection c (up c)) := dropSubjects_routes m c (up c) _
  refine h.drop hk (hk c (.inr hc)) hw (m.dropConnection c (up c)).1.reading
    (Function.update (m.dropConnection c (up c)).1.closing c false) (fun d hd => ?_) fun d hdc => ?_
  · have hd : n.reading d = true := hroutes.reading ▸ hd
    exact ⟨hd,fun he => hn.closing c hc (he ▸ h.reading d hd)⟩
  · rw [Function.update_of_ne hdc,hroutes.check]
    rfl

theorem Informed.hold (h : n.Informed mine up out inp) {c : C} {p : PendingConnection I Q P}
    (hp : n.pending c = some p) (m : {m : Message I Q P // isRouted m = true}) (length : ℕ) :
    Informed mine up {n with toCheckState := n.hold c m length} out
      (fun d => inp d++NodeEvent.received d (.receive c m.1 : NodeEvent C I Q P)) := by
  have he : n.hold c m length = {n.toCheckState with
      pending := Function.update n.pending c (some ⟨p.hello,p.held.append m length⟩)} := by
    simp [CheckState.hold,hp]
  rw [he]
  have hsome (d : C) (hd : (Function.update n.pending c
      (some ⟨p.hello,p.held.append m length⟩) d).isSome) : (n.pending d).isSome := by
    by_cases hdc : d = c
    · simp [hdc,hp]
    · simpa [hdc] using hd
  have hold {d : C} (hd : d ∈ n.allConnections ∧ Function.update n.pending c
      (some ⟨p.hello,p.held.append m length⟩) d = none) : d ≠ c ∧ d ∈ n.active n.allConnections := by
    have hdc : d ≠ c := by rintro rfl; simp at hd
    exact ⟨hdc,mem_active.mpr ⟨hd.1,by simpa [hdc] using hd.2⟩⟩
  refine {h with
    directed := ⟨h.directed.upstream,h.directed.downstream⟩
    told := fun d hd s => h.told d (hold (mem_active.mp hd)).2 s
    quiet := fun d hd s => h.quiet d (hsome d hd) s
    waiting := fun d hd => h.waiting d (hsome d hd)
    heard := fun d hd s => ?_,held := fun d q hd => ?_}
  · obtain ⟨hdc,hd⟩ := hold (mem_active.mp hd)
    refine (h.heard d hd s).trans ?_
    simp [NodeEvent.received,Ne.symm hdc]
  · by_cases hdc : d = c
    · subst d
      obtain rfl : _ = q := by simpa using hd
      simp [NodeEvent.received,HeldMessages.append,h.held c p hp,m.2]
    · have hd : n.pending d = some q := by simpa [hdc] using hd
      simpa [NodeEvent.received,Ne.symm hdc] using h.held d q hd

theorem handleHello_held (n : CheckState C I Q P) (c d : C) (i : I) :
    ((n.handleHello c i).pending d).map (·.held) = (n.pending d).map (·.held) := by
  unfold CheckState.handleHello
  split
  · rename_i held hp
    by_cases hdc : d = c <;> simp [hdc,hp]
  · rfl

theorem Informed.aside (h : n.Informed mine up out inp) {r : PubSubNode C I Q P × List (Send C I Q P)}
    {sends : List (Send C I Q P)} (he : r = (n',sends))
    (ht : r.1.downstreamSubscriptions = n.downstreamSubscriptions ∧
      r.1.upstreamSubscriptions = n.upstreamSubscriptions)
    (hl : r.1.allConnections = n.allConnections ∧ r.1.closing = n.closing)
    (hp : r.1.pending = n.pending) (hr : r.1.reading = n.reading ∧ r.1.draining = n.draining)
    (hd : ∀ d ∈ r.2, isRouted d.2 = false) :
    n'.Informed mine up (fun c => out c++queuedOn c sends) inp := by
  subst he
  have hr : n'.Informed mine up (fun c => out c++queuedOn c sends)
      (fun c => inp c++([] : List (Message I Q P))) :=
    h.control ht hl (fun c => by rw [hp]) hr hd fun _ => rfl
  simpa using hr

theorem Informed.refuse (h : n.Informed mine up out inp)
    (hk : ∀ d, d ∈ n.allConnections ∨ n.closing d = true → mine d) (hn : n.Sound own up peerId)
    (ha : ∀ d p k q, n.check ≠ .asking d p k q) {c : C} (hp : (n.pending c).isSome)
    {reason : Refusal} {sends : List (Send C I Q P)}
    (he : n.refuse c reason = (n',sends)) :
    n'.Informed mine up (fun d => out d++queuedOn d sends) inp := by
  have hu := hn.pendingUp c hp
  have h' : Informed mine up
      {n with check := .idle, refused := Function.update n.refused c (some reason)} out inp :=
    h.same ⟨rfl,rfl⟩ ⟨rfl,rfl⟩ (fun _ => rfl) ⟨rfl,rfl⟩ (fun _ _ _ => rfl) fun _ => rfl
  have hr := h'.connectionError hk (CheckState.check_sound hn ha (by simp)
    (by simp [Check.connection]) (by simp [Check.peer])) c (up c)
  rw [hu] at hr
  obtain ⟨rfl,rfl⟩ := Prod.mk.inj he
  exact hr

variable [DecidableEq I] [DecidableEq Q]

theorem Informed.receive (h : n.Informed mine up out inp)
    (hk : ∀ d, d ∈ n.allConnections ∨ n.closing d = true → mine d) {c : C} (hr : n.reading c = true)
    (m : Message I Q P) {length limit : ℕ} (hlimit : ∀ held, isRouted m = true →
      n.heldMessages c = some held → held.size+length ≤ limit) :
    (n.onReceive c m length limit (up c)).1.Informed mine up
      (fun d => out d++queuedOn d (n.onReceive c m length limit (up c)).2)
      (fun d => inp d++NodeEvent.received d (.receive c m : NodeEvent C I Q P)) := by
  have hl := h.reading c hr
  by_cases hm : isRouted m = true
  · cases hp : n.pending c with
    | none =>
      have hheld : n.heldMessages c = none := by simp [CheckState.heldMessages,hp,h.drained]
      have he : n.onReceive c m length limit (up c) = n.handleMessage c m (up c) := by
        simp [onReceive,hm,hheld]
      rw [he]
      obtain ⟨hr,htag⟩ := handleMessage_reroutes h.directed (c := c) hm
      exact h.route hk (mem_active.mpr ⟨hl,hp⟩) hr htag
    | some p =>
      have hheld : n.heldMessages c = some p.held := by simp [CheckState.heldMessages,hp]
      have he : n.onReceive c m length limit (up c) =
          ({n with toCheckState := n.hold c ⟨m,hm⟩ length},[]) := by
        simp [onReceive,hm,hheld,Nat.not_lt.mpr (hlimit _ hm hheld)]
      rw [he]
      simpa using h.hold hp ⟨m,hm⟩ length
  · have hm : isRouted m = false := by simpa using hm
    have hi (d : C) : (NodeEvent.received d (.receive c m : NodeEvent C I Q P)).filter isRouted =
        [] := by
      simp only [NodeEvent.received]
      split <;> simp [hm]
    have he : n.onReceive c m length limit (up c) = n.handleMessage c m (up c) := by
      simp [onReceive,hm]
    rw [he]
    cases m with
    | subscription s b => simp [isRouted] at hm
    | publish s p => simp [isRouted] at hm
    | hello i =>
      refine h.control ⟨rfl,rfl⟩ ⟨rfl,rfl⟩ (fun d => ?_) ⟨rfl,rfl⟩ (by simp [handleMessage]) hi
      exact handleHello_held n.toCheckState c d i
    | query q i =>
      simp only [handleMessage,handleQuery]
      split
      · exact h.control ⟨rfl,rfl⟩ ⟨rfl,rfl⟩ (fun _ => rfl) ⟨rfl,rfl⟩ (by simp [isRouted]) hi
      · split
        · exact h.control ⟨rfl,rfl⟩ ⟨rfl,rfl⟩ (fun _ => rfl) ⟨rfl,rfl⟩ (by simp [isRouted]) hi
        · exact h.control ⟨rfl,rfl⟩ ⟨rfl,rfl⟩ (fun _ => rfl) ⟨rfl,rfl⟩ (by simp) hi
    | reply q r =>
      obtain ⟨qs,hqs⟩ : ∃ qs, n.handleReply c q r = {n.toCheckState with queries := qs} := by
        unfold CheckState.handleReply
        split <;> exact ⟨_,rfl⟩
      simp only [handleMessage,hqs]
      exact h.control (r := (_,[])) ⟨rfl,rfl⟩ ⟨rfl,rfl⟩ (fun _ => rfl) ⟨rfl,rfl⟩ (by simp) hi

/-- What has been queued on a connection and received from it before it is made or taken. -/
def Fresh (out inp : C → List (Message I Q P)) : NodeEvent C I Q P → Prop
  | .establish c | .accept c => (∀ s, lastSaid false s (out c) = false) ∧ inp c = []
  | _ => True

section Waits

variable {cfg : Settings C I Q P} {sends : List (Send C I Q P)}

theorem helloTimeout_informed (hs : n.step cfg .helloTimeout = some (n',sends))
    (h : n.Informed mine cfg.fromUpstream out inp)
    (hk : ∀ d, d ∈ n.allConnections ∨ n.closing d = true → mine d)
    (hn : n.Sound own cfg.fromUpstream peerId) :
    n'.Informed mine cfg.fromUpstream (fun c => out c++queuedOn c sends) inp := by
  simp only [step] at hs
  split at hs <;> try contradiction
  rename_i c hc
  split at hs <;> try contradiction
  rename_i hp
  exact h.refuse hk hn (by simp [hc]) (by simp [hp]) (Option.some.inj hs)

theorem helloDone_informed (hs : n.step cfg .helloDone = some (n',sends))
    (h : n.Informed mine cfg.fromUpstream out inp)
    (hk : ∀ d, d ∈ n.allConnections ∨ n.closing d = true → mine d)
    (hn : n.Sound own cfg.fromUpstream peerId) :
    n'.Informed mine cfg.fromUpstream (fun c => out c++queuedOn c sends) inp := by
  simp only [step] at hs
  split at hs <;> try contradiction
  rename_i c hc
  split at hs <;> try contradiction
  rename_i hp
  split at hs
  · exact h.refuse hk hn (by simp [hc]) (by simp [hp]) (Option.some.inj hs)
  · exact h.aside (Option.some.inj hs) ⟨rfl,rfl⟩ ⟨rfl,rfl⟩ rfl ⟨rfl,rfl⟩ (by simp)

theorem ask_informed {q : Q} (hs : n.step cfg (.ask q) = some (n',sends))
    (h : n.Informed mine cfg.fromUpstream out inp) :
    n'.Informed mine cfg.fromUpstream (fun c => out c++queuedOn c sends) inp := by
  simp only [step] at hs
  split at hs <;> try contradiction
  simp only [ask] at hs
  split at hs
  · exact h.aside (Option.some.inj hs) ⟨rfl,rfl⟩ ⟨rfl,rfl⟩ rfl ⟨rfl,rfl⟩ (by simp)
  · exact h.aside (Option.some.inj hs) ⟨rfl,rfl⟩ ⟨rfl,rfl⟩ rfl ⟨rfl,rfl⟩ (by simp [isRouted])

/-- The answer of the own query: the link is activated, refused, or asked about again. -/
theorem resume_informed (hs : n.step cfg .resume = some (n',sends))
    (h : n.Informed mine cfg.fromUpstream out inp)
    (hk : ∀ d, d ∈ n.allConnections ∨ n.closing d = true → mine d)
    (hn : n.Sound own cfg.fromUpstream peerId) :
    n'.Informed mine cfg.fromUpstream (fun c => out c++queuedOn c sends) inp := by
  simp only [step] at hs
  split at hs <;> try contradiction
  rename_i c p k r hc
  split at hs <;> try contradiction
  rename_i pc hp
  cases r with
  | found => exact h.refuse hk hn (by simp [hc]) (by simp [hp]) (Option.some.inj hs)
  | notFound =>
    have h' : Informed mine cfg.fromUpstream {n with check := .idle} out inp :=
      h.same ⟨rfl,rfl⟩ ⟨rfl,rfl⟩ (fun _ => rfl) ⟨rfl,rfl⟩ (fun _ _ _ => rfl) fun _ => rfl
    have h' := h'.activate hk hp (hn.pendingUp c (by simp [hp]))
    rwa [Option.some.inj hs] at h'
  | unknown =>
    dsimp only at hs
    split at hs
    · exact h.aside (Option.some.inj hs) ⟨rfl,rfl⟩ ⟨rfl,rfl⟩ rfl ⟨rfl,rfl⟩ (by simp)
    · exact h.refuse hk hn (by simp [hc]) (by simp [hp]) (Option.some.inj hs)

end Waits

theorem step_informed {cfg : Settings C I Q P} {ev : NodeEvent C I Q P}
    {sends : List (Send C I Q P)} (hs : n.step cfg ev = some (n',sends))
    (h : n.Informed mine cfg.fromUpstream out inp) (hn : n.Sound own cfg.fromUpstream peerId)
    (hfit : n.Fits own cfg.fromUpstream peerId ev) (hcalm : n.overflows cfg ev = false)
    (hk : ∀ d, n.Knows d → mine d) (hnew : ∀ c, ev = .accept c → mine c) (hfresh : Fresh out inp ev) :
    n'.Informed mine cfg.fromUpstream (fun c => out c++queuedOn c sends)
      (fun c => inp c++ev.received c) := by
  have hlist (d : C) (hd : d ∈ n.allConnections ∨ n.closing d = true) : mine d :=
    hk d (hd.imp id .inl)
  -- every event but a message leaves what was received as it was
  have silent (hi : ∀ c, ev.received c = [])
      (h : n'.Informed mine cfg.fromUpstream (fun c => out c++queuedOn c sends) inp) :
      n'.Informed mine cfg.fromUpstream (fun c => out c++queuedOn c sends)
        (fun c => inp c++ev.received c) := by
    simpa only [hi,List.append_nil] using h
  cases ev with
  | establish c =>
    have h := h.establish hfit.2.2 hfresh.1 hfresh.2
    refine silent (fun _ => rfl) ?_
    rwa [Option.some.inj hs] at h
  | accept c =>
    have h := h.accept (hnew c rfl) hfit.2.2 hfresh.1 hfresh.2
    refine silent (fun _ => rfl) ?_
    rwa [Option.some.inj hs] at h
  | receive c m =>
    simp only [step,Option.ite_none_right_eq_some] at hs
    have h := h.receive hlist hs.1 m fun held hm hheld => by
      simpa [overflows,hm,hheld] using hcalm
    rwa [Option.some.inj hs.2] at h
  | connectionError c goesOn =>
    obtain rfl : goesOn = false := hcalm
    have h := h.connectionError hlist hn c (cfg.fromUpstream c)
    obtain ⟨rfl,rfl⟩ := Prod.mk.inj (Option.some.inj hs)
    exact silent (fun _ => rfl) h
  | closeConnection c =>
    simp only [step,Option.ite_none_right_eq_some] at hs
    have h := h.closeConnection hn c
    obtain ⟨rfl,rfl⟩ := Prod.mk.inj (Option.some.inj hs.2)
    exact silent (fun _ => rfl) (by simpa using h)
  | closed c =>
    simp only [step,Option.ite_none_right_eq_some] at hs
    have h := h.closed hlist hn hs.1
    refine silent (fun _ => rfl) ?_
    rwa [Option.some.inj hs.2] at h
  | helloTimeout => exact silent (fun _ => rfl) (helloTimeout_informed hs h hlist hn)
  | helloDone => exact silent (fun _ => rfl) (helloDone_informed hs h hlist hn)
  | ask q => exact silent (fun _ => rfl) (ask_informed hs h)
  | resume => exact silent (fun _ => rfl) (resume_informed hs h hlist hn)
  | forwardDone q | forwardTimeout q =>
    simp only [step] at hs
    split at hs <;> try contradiction
    try (split at hs <;> try contradiction)
    refine silent (fun _ => rfl)
      (h.aside (Option.some.inj hs) ⟨rfl,rfl⟩ ⟨rfl,rfl⟩ rfl ⟨rfl,rfl⟩ ?_)
    simp only [sendReply]
    split <;> simp [isRouted]
  | beginCheck c | queryDone | queryTimeout | abandon | forward q =>
    simp only [step] at hs
    split at hs <;> try contradiction
    all_goals (try (split at hs <;> try contradiction))
    all_goals (try (split at hs <;> try contradiction))
    all_goals
      exact silent (fun _ => rfl)
        (h.aside (Option.some.inj hs) ⟨rfl,rfl⟩ ⟨rfl,rfl⟩ rfl ⟨rfl,rfl⟩ (by simp [isRouted]))

end PubSubNode
end SoftwareBus
