import SoftwareBus.Reachability
import SoftwareBus.Acyclicity

/-! How an own query of a node ends while the links stay as they are. -/
namespace SoftwareBus

open LinkGraph Transition

variable {V X L I Q P : Type}

namespace Network

variable {b : Bus V X L} {lim : Limits I Q P} {ids : V → I} {s₀ s t : Network V X L I Q P}
  {asker target : V} {q : Q}
  [DecidableEq V] [DecidableEq X] [DecidableEq L] [DecidableEq I] [DecidableEq Q]

/-- A node has asked this query, and no other since. -/
structure Pursuing (b : Bus V X L) (ids : V → I) (asker target : V) (q : Q)
    (s₀ s : Network V X L I Q P) : Prop where
  steady : s₀.Steady b ids s
  apart : asker ≠ target
  asked : s.asked q = true
  spread : s.Spread b ids (s₀.Accepted b) asker target q
  expecting : s.Expecting b ids (s₀.Accepted b) target q
  asking : ∀ c i k q', (s.node asker).check = .asking c i k q' → i = ids target ∧ q' = q
  answered : ∀ c i k r, (s.node asker).check = .answered c i k r → i = ids target ∧
    (r = .found → b.Connected (s₀.Accepted b) asker target) ∧
    (r = .notFound → ¬b.Connected (s₀.Accepted b) asker target)

omit [DecidableEq V] [DecidableEq X] [DecidableEq L] [DecidableEq I] [DecidableEq Q] in
theorem Outside.pursuing (ho : s.Outside t) (h₀ : s₀.Steady b ids s₀)
    (hsame : s₀.SameLinks b t) (h : s₀.Pursuing b ids asker target q s) :
    s₀.Pursuing b ids asker target q t := by
  refine ⟨ho.steady h₀ h.steady hsame,h.apart,ho.asked ▸ h.asked,ho.spread h.spread,
    ho.expecting h.expecting fun _ => id,?_,?_⟩
  · exact ho.node ▸ h.asking
  · exact ho.node ▸ h.answered

omit [DecidableEq V] [DecidableEq X] [DecidableEq L] [DecidableEq I] [DecidableEq Q] in
theorem Steady.not_lost (h : s₀.Steady b ids s) {l : L} (hl : s₀.Accepted b l) :
    s.lost l = false := by
  obtain ⟨v,-,-,-,hl⟩ := (h.accepted l).mpr hl
  exact hl

theorem NodeTakes.pursuing {v : V} {ev : NodeEvent (End L) I Q P}
    {sends : List (PubSubNode.Send (End L) I Q P)} (hn : s.NodeTakes b lim v ev sends t)
    (hids : Function.Injective ids) (h₀ : s₀.Steady b ids s₀) (hsame : s₀.SameLinks b t)
    (h : s₀.Pursuing b ids asker target q s) (hask : v = asker → ∀ q', ev ≠ .ask q') :
    s₀.Pursuing b ids asker target q t := by
  have hs := h.steady
  have ht := hn.steady h₀ hs hsame
  have hfresh : ev ≠ .ask q := by
    rintro rfl
    have hnew := hn.asked_new
    simp [h.asked] at hnew
  have hsp := hn.spread hids hs h.spread hfresh
  have hexp : t.Expecting b ids (s₀.Accepted b) target q := by
    refine hn.expecting hs.sound h.expecting (fun _ => id) (fun l hl => ht.not_lost hl) ?_ ?_ hfresh
    · exact fun c i _ _ d hd hl => hs.active hd hl
    · rintro c i rfl hnow hl
      obtain ⟨hpend,-⟩ := CheckState.answerNow_eq_notFound hnow
      obtain ⟨-,hp,-⟩ := mem_activeNodeConnections.mp (hs.active hn.occurs.1 hl)
      rw [hp] at hpend
      simp at hpend
  refine ⟨ht,h.apart,hn.asked_mono h.asked,hsp,hexp,fun c i k q' hc => ?_,fun c i k r hc => ?_⟩
  · by_cases hv : asker = v
    · rcases hn.effect.asking_starts (hv ▸ hc) with hc | ⟨hev,-⟩
      · exact h.asking c i k q' (hv ▸ hc)
      · exact absurd hev (hask hv.symm q')
    · exact h.asking c i k q' (hn.others asker hv ▸ hc)
  · by_cases hv : asker = v
    · subst v
      rcases hn.effect.answer_starts hc with hold | ⟨q',hold,hr⟩ | ⟨⟨q',hev⟩,-⟩
      · exact h.answered c i k r hold
      · obtain ⟨rfl,rfl⟩ := h.asking c i k q' hold
        refine ⟨rfl,?_,?_⟩
        · rintro rfl
          obtain ⟨o,ho,hres⟩ := hr.resolve_right (by simp)
          exact h.spread.found asker o ho hres
        · rintro rfl ⟨es,hw⟩
          obtain ⟨o,ho,hres⟩ := hr.resolve_right (by simp)
          obtain ⟨query,hq⟩ := (hs.sound.node asker).own c _ k q' hold
          obtain rfl := Option.some.inj (ho.symm.trans hq)
          obtain ⟨e,he,hreach⟩ := hw.reach b.topology (by simpa using h.apart)
          exact (h.expecting.expects asker _ ho e ⟨he,hreach⟩ (by simp)).notEnded hres
      · exact absurd hev (hask rfl q')
    · exact h.answered c i k r (hn.others asker hv ▸ hc)

theorem NodeTakes.pursuing_asked {v : V} {sends : List (PubSubNode.Send (End L) I Q P)}
    (hn : s.NodeTakes b lim v (.ask q) sends t) (h₀ : s₀.Steady b ids s₀)
    (hs : s₀.Steady b ids s) (hsame : s₀.SameLinks b t) :
    ∃ target, s₀.Pursuing b ids v target q t := by
  obtain ⟨c,i,k,hc,-,hcase⟩ := hn.effect.asks
  obtain ⟨hself,⟨target,hpeer,rfl⟩,-⟩ := (hs.sound.node v).checked c i (by rw [hc,Check.peer])
  have hv : v ≠ target := by
    rintro rfl
    exact hself (hs.sound.nodeId v).symm
  have ht := hn.steady h₀ hs hsame
  have hexp := hn.expecting_asked hs.sound hc fun e he hl => hs.active he hl
  refine ⟨target,ht,hv,by simp [hn.asked,note],hn.spread_asked hs hc,hexp,fun d i m q' hd => ?_,
    fun d i m r hd => ?_⟩
  · rcases hcase with ⟨-,hck,-⟩ | ⟨hck,-⟩ <;> rw [hck] at hd
    · simp at hd
    · obtain ⟨-,rfl,-,rfl⟩ : c = d ∧ ids target = i ∧ k = m ∧ q = q' := by simpa using hd
      exact ⟨rfl,rfl⟩
  · rcases hcase with ⟨hnone,hck,-⟩ | ⟨hck,-⟩ <;> rw [hck] at hd
    · obtain ⟨-,rfl,-,rfl⟩ : c = d ∧ ids target = i ∧ k = m ∧ .notFound = r := by simpa using hd
      refine ⟨rfl,by simp,fun _ hwalk => ?_⟩
      obtain ⟨es,hw⟩ := hwalk
      obtain ⟨e,he,hreach⟩ := hw.reach b.topology (by simpa using hv)
      simpa [hnone] using hs.active he hreach.good
    · simp at hd

/-- The same, and nothing has made the query uncertain. -/
structure Assured (b : Bus V X L) (ids : V → I) (asker target : V) (q : Q)
    (s₀ s : Network V X L I Q P) : Prop where
  pursuing : s₀.Pursuing b ids asker target q s
  replied : s.Replied b
  certain : s.Certain b (s₀.Accepted b) asker q
  known : ∀ c i k, (s.node asker).check ≠ .answered c i k .unknown

theorem NodeTakes.assured {v : V} {ev : NodeEvent (End L) I Q P}
    {sends : List (PubSubNode.Send (End L) I Q P)} (hn : s.NodeTakes b lim v ev sends t)
    (hids : Function.Injective ids) (h₀ : s₀.Steady b ids s₀)
    (hforest : b.topology.Acyclic (s₀.Accepted b)) (hsame : s₀.SameLinks b t)
    (h : s₀.Assured b ids asker target q s) (hask : v = asker → ∀ q', ev ≠ .ask q')
    (hu : s.Undisturbed b (s₀.Accepted b) asker target) (hforward : ev ≠ .forwardTimeout q)
    (htime : v = asker → ev ≠ .queryTimeout) : s₀.Assured b ids asker target q t := by
  have hp := h.pursuing
  have hfresh : ev ≠ .ask q := by
    rintro rfl
    have hnew := hn.asked_new
    simp [hp.asked] at hnew
  refine ⟨hn.pursuing hids h₀ hsame hp hask,hn.replied hp.steady.sound h.replied,
    hn.certain hp.steady hforest hp.spread h.replied hu h.certain hfresh hforward,fun c i k hc => ?_⟩
  by_cases hv : asker = v
  · subst v
    rcases hn.effect.answer_starts hc with hold | ⟨q',hold,⟨o,ho,hres⟩ | ⟨hev,-⟩⟩ | ⟨-,-,hr⟩
    · exact h.known c i k hold
    · obtain ⟨-,rfl⟩ := hp.asking c i k q' hold
      exact h.certain.unsure asker o ho (.inr hres)
    · exact htime rfl hev
    · simp at hr
  · exact h.known c i k (hn.others asker hv ▸ hc)

omit [DecidableEq V] [DecidableEq X] [DecidableEq I] in
theorem Outside.assured (ho : s.Outside t) (h₀ : s₀.Steady b ids s₀)
    (hsame : s₀.SameLinks b t) (h : s₀.Assured b ids asker target q s) :
    s₀.Assured b ids asker target q t :=
  ⟨ho.pursuing h₀ hsame h.pursuing,ho.replied h.replied,ho.certain h.certain,ho.node ▸ h.known⟩

theorem NodeTakes.assured_asked {v : V} {sends : List (PubSubNode.Send (End L) I Q P)}
    (hn : s.NodeTakes b lim v (.ask q) sends t) (hs : s₀.Steady b ids s) (hrep : s.Replied b)
    (hp : s₀.Pursuing b ids v target q t) : s₀.Assured b ids v target q t := by
  refine ⟨hp,hn.replied hs.sound hrep,hn.certain_asked hs,fun c i k hc => ?_⟩
  obtain ⟨_,_,_,-,-,⟨-,hck,-⟩ | ⟨hck,-⟩⟩ := hn.effect.asks <;> simp [hck] at hc

omit [DecidableEq V] [DecidableEq X] [DecidableEq L] [DecidableEq I] [DecidableEq Q] in
theorem not_ask {a : Action V X L I Q P} {v : V} {ev : NodeEvent (End L) I Q P}
    (ha : a = .node v ev ∨ ∃ e m, a = .deliver e ∧ ev = .receive e m)
    (hask : ∀ q', a ≠ .node asker (.ask q')) : v = asker → ∀ q', ev ≠ .ask q' := by
  rintro rfl q' rfl
  rcases ha with rfl | ⟨e,m,-,hev⟩
  · exact hask q' rfl
  · simp at hev

theorem step_steady {a : Action V X L I Q P} (h₀ : s₀.Steady b ids s₀)
    (h : s₀.Steady b ids s) (hsame : s₀.SameLinks b t) (ht : s.step b lim a = some t) :
    s₀.Steady b ids t := by
  rcases step_cases ht with ⟨v,ev,sends,-,hn⟩ | ho
  · exact hn.steady h₀ h hsame
  · exact ho.steady h₀ h hsame

theorem step_pursuing {a : Action V X L I Q P} (hids : Function.Injective ids)
    (h₀ : s₀.Steady b ids s₀) (h : s₀.Pursuing b ids asker target q s)
    (hsame : s₀.SameLinks b t) (hask : ∀ q', a ≠ .node asker (.ask q'))
    (ht : s.step b lim a = some t) : s₀.Pursuing b ids asker target q t := by
  rcases step_cases ht with ⟨v,ev,sends,ha,hn⟩ | ho
  · exact hn.pursuing hids h₀ hsame h (not_ask ha hask)
  · exact ho.pursuing h₀ hsame h

theorem step_assured {a : Action V X L I Q P} (hids : Function.Injective ids)
    (h₀ : s₀.Steady b ids s₀) (hforest : b.topology.Acyclic (s₀.Accepted b))
    (h : s₀.Assured b ids asker target q s) (hsame : s₀.SameLinks b t)
    (hask : ∀ q', a ≠ .node asker (.ask q'))
    (hu : s.Undisturbed b (s₀.Accepted b) asker target)
    (hforward : ∀ v, a ≠ .node v (.forwardTimeout q)) (htime : a ≠ .node asker .queryTimeout)
    (ht : s.step b lim a = some t) : s₀.Assured b ids asker target q t := by
  rcases step_cases ht with ⟨v,ev,sends,ha,hn⟩ | ho
  · refine hn.assured hids h₀ hforest hsame h (not_ask ha hask) hu ?_ ?_
    · rintro rfl
      rcases ha with rfl | ⟨e,m,-,hev⟩
      · exact hforward v rfl
      · simp at hev
    · rintro rfl rfl
      rcases ha with rfl | ⟨e,m,-,hev⟩
      · exact htime rfl
      · simp at hev
  · exact ho.assured h₀ hsame h

section Runs

variable {as : List (Action V X L I Q P)}

theorem run_steady (h₀ : s₀.Steady b ids s₀) (hrun : run (step b lim) s₀ as = some s)
    (hsame : ∀ u, Passes (step b lim) s₀ as u → s₀.SameLinks b u) : s₀.Steady b ids s := by
  have hok : Guarded (step b lim)
      (fun u a => ∀ t, step b lim u a = some t → s₀.SameLinks b t) s₀ as :=
    guarded_of_passes fun _ _ _ _ hn t ht => hsame t (hn t ht)
  exact run_invariant (fun _ _ t h hok ht => step_steady h₀ h (hok t ht) ht) h₀ hok hrun

theorem run_pursuing (hids : Function.Injective ids) (h₀ : s₀.Steady b ids s₀)
    (h : s₀.Pursuing b ids asker target q s) (hrun : run (step b lim) s as = some t)
    (hsame : ∀ u, Passes (step b lim) s as u → s₀.SameLinks b u)
    (hask : ∀ q', .node asker (.ask q') ∉ as) : s₀.Pursuing b ids asker target q t := by
  have hok : Guarded (step b lim) (fun u a =>
      (∀ t, step b lim u a = some t → s₀.SameLinks b t) ∧ ∀ q', a ≠ .node asker (.ask q')) s as :=
    guarded_of_passes fun _ _ _ ha hn => ⟨fun t ht => hsame t (hn t ht),
      fun q' ha' => hask q' (ha' ▸ ha)⟩
  exact run_invariant (fun u a t (h : s₀.Pursuing b ids asker target q u) hok ht =>
    step_pursuing hids h₀ h (hok.1 t ht) hok.2 ht) h hok hrun

theorem run_assured (hids : Function.Injective ids) (h₀ : s₀.Steady b ids s₀)
    (hforest : b.topology.Acyclic (s₀.Accepted b)) (h : s₀.Assured b ids asker target q s)
    (hrun : run (step b lim) s as = some t)
    (hsame : ∀ u, Passes (step b lim) s as u → s₀.SameLinks b u)
    (hask : ∀ q', .node asker (.ask q') ∉ as)
    (hu : ∀ u, Passes (step b lim) s as u → u.Undisturbed b (s₀.Accepted b) asker target)
    (hforward : ∀ v, .node v (.forwardTimeout q) ∉ as) (htime : .node asker .queryTimeout ∉ as) :
    s₀.Assured b ids asker target q t := by
  have hok : Guarded (step b lim) (fun u a =>
      ((∀ t, step b lim u a = some t → s₀.SameLinks b t) ∧ ∀ q', a ≠ .node asker (.ask q')) ∧
        u.Undisturbed b (s₀.Accepted b) asker target ∧ (∀ v, a ≠ .node v (.forwardTimeout q)) ∧
        a ≠ .node asker .queryTimeout) s as :=
    guarded_of_passes fun u _ hp ha hn => ⟨⟨fun t ht => hsame t (hn t ht),
      fun q' ha' => hask q' (ha' ▸ ha)⟩,hu u hp,fun v ha' => hforward v (ha' ▸ ha),
      fun ha' => htime (ha' ▸ ha)⟩
  exact run_invariant (fun u a t (h : s₀.Assured b ids asker target q u) hok ht =>
    step_assured hids h₀ hforest h (hok.1.1 t ht) hok.1.2 hok.2.1 hok.2.2.1 hok.2.2.2 ht) h hok hrun

end Runs

/-- While the links of a forest of nodes stay as they are: an own query finds out
whether its target is connected by accepted links, and stays uncertain only if it
times out, another node is checking, or a second pending link leads it back to the
node that asked it. Nobody replies more often than it is asked, and at rest no
query is left. -/
theorem own_query_reaches (b : Bus V X L) (lim : Limits I Q P) {ids : V → I}
    (hids : Function.Injective ids) {before as : List (Action V X L I Q P)}
    (hbefore : run (step b lim) (init ids) before = some s₀) (hset : s₀.Settled b)
    (hrun : run (step b lim) s₀ as = some s)
    (hsame : ∀ u, Passes (step b lim) s₀ as u → s₀.SameLinks b u) :
    (∀ A B q c k r xs ys s₁, as = xs++.node A (.ask q)::ys →
      run (step b lim) s₀ (xs++[.node A (.ask q)]) = some s₁ →
      (∀ q', .node A (.ask q') ∉ ys) → (s.node A).check = .answered c (ids B) k r →
      (r = .found → b.Connected (s₀.Accepted b) A B) ∧
      (r = .notFound → ¬b.Connected (s₀.Accepted b) A B) ∧
      (r = .unknown → (.node A .queryTimeout ∈ ys ∨ ∃ v, .node v (.forwardTimeout q) ∈ ys) ∨
        (∃ u v, Passes (step b lim) s₁ ys u ∧ v ≠ A ∧ (u.node v).checking = true) ∨
        ∃ l, l ≠ c.link ∧ b.source l = .inl A ∧ ((s₀.node A).pending ⟨l,.source⟩).isSome ∧
          b.Connected (s₀.Accepted b) A (b.target l))) ∧
    (∀ v e q, b.owner e = .inl v → (s.sent e.flip).countP (Message.isReply q) ≤
      (s.delivered e).countP (Message.isQuery q)) ∧
    (s.AtRest b lim → ∀ v q, (s.node v).queries q = none) := by
  have h₀ : s₀.Steady b ids s₀ := hset.steady (reachable_replied b lim ids hbefore).1
  have hreach {u : Network V X L I Q P} {cs : List (Action V X L I Q P)}
      (hu : run (step b lim) s₀ cs = some u) : u.Sound b ids ∧ u.Replied b := by
    have hall : run (step b lim) (init ids) (before++cs) = some u := by
      rw [run_append,hbefore,Option.bind_some,hu]
    exact reachable_replied b lim ids hall
  obtain ⟨hsound,hrep⟩ := hreach hrun
  refine ⟨fun A B q c k r xs ys s₁ has hs₁ hno hans => ?_,fun v e q he => ?_,
    fun hrest => hrest.no_queries hsound⟩
  · subst as
    obtain ⟨u,hu,hafter⟩ := run_split hrun
    obtain ⟨u₁,hask,hys⟩ := run_cons hafter
    obtain rfl : u₁ = s₁ := by simpa [run_append,hu,run,hask] using hs₁
    have hpass {w : Network V X L I Q P} (hw : Passes (step b lim) u₁ ys w) : s₀.SameLinks b w :=
      hsame w (.append hu (passes_cons.mpr (.inr ⟨u₁,hask,hw⟩)))
    have hsteady := run_steady h₀ hu fun w hw => hsame w (hw.left _)
    obtain ⟨sends,hn⟩ := step_node hask
    obtain ⟨target,hp⟩ := hn.pursuing_asked h₀ hsteady (hpass (.start _ _ _))
    have hend := run_pursuing hids h₀ hp hys (fun w => hpass) hno
    obtain ⟨hi,hfound,hnotFound⟩ := hend.answered c _ k r hans
    obtain rfl : B = target := hids hi
    refine ⟨hfound,hnotFound,?_⟩
    rintro rfl
    by_contra hnone
    obtain ⟨⟨htime,hforward⟩,hcheck,hback⟩ : (_ ∧ _) ∧ _ ∧ _ := by
      simpa only [not_or] using hnone
    have hundisturbed (w : Network V X L I Q P) (hw : Passes (step b lim) u₁ ys w) :
        w.Undisturbed b (s₀.Accepted b) A B := by
      refine ⟨fun v hv => Bool.eq_false_iff.mpr fun hk => hcheck ⟨w,v,hw,hv,hk⟩,
        fun l hl hpend hne hconn => hback ⟨l,?_,hl,?_,hconn⟩⟩
      · -- the link under check leads to the target
        rintro rfl
        obtain ⟨-,⟨x,hx,hxi⟩,-⟩ := (hsound.node A).checked c _ (by rw [hans,Check.peer])
        obtain rfl : B = x := hids hxi
        obtain ⟨l,side⟩ := c
        cases side
        · exact hne (Sum.inl.inj hx)
        · exact hp.apart (Sum.inl.inj (hl.symm.trans hx))
      · rwa [← (hpass hw).pending]
    have hassured := run_assured hids h₀ hset.forest (hn.assured_asked hsteady (hreach hu).2 hp) hys
      (fun w => hpass) hno hundisturbed (fun v ha => hforward ⟨v,ha⟩) htime
    exact hassured.known c _ k hans
  · exact le_trans (Nat.le_add_right _ _) (hrep v e q he)

section Decidable

variable [Fintype V] [Fintype L]

instance betweenDecidable (b : Bus V X L) (l : L) : Decidable (b.Between l) :=
  match h : b.source l with
  | .inl v => .isTrue ⟨v,h⟩
  | .inr x => .isFalse (by
      rintro ⟨v,hv⟩
      simp [h] at hv)

instance sameLinksDecidable (b : Bus V X L) (s t : Network V X L I Q P) :
    Decidable (s.SameLinks b t) :=
  decidable_of_iff ((∀ v l side, b.Between l →
      (⟨l,side⟩ ∈ (t.node v).allConnections ↔ ⟨l,side⟩ ∈ (s.node v).allConnections)) ∧
      (∀ v l side, ((t.node v).pending ⟨l,side⟩).isSome = ((s.node v).pending ⟨l,side⟩).isSome) ∧
      ∀ l, b.Between l → t.lost l = s.lost l)
    ⟨fun h => ⟨fun v e => h.1 v e.link e.side,fun v e => h.2.1 v e.link e.side,h.2.2⟩,
      fun h => ⟨fun v l side => h.listed v ⟨l,side⟩,fun v l side => h.pending v ⟨l,side⟩,h.lost⟩⟩

end Decidable

theorem chain_settled {s : Network (Fin 3) Empty (Fin 2) (Fin 3) ℕ Unit}
    (hpend : ((s.node 1).pending ⟨1,.source⟩).isSome)
    (hactive : ⟨0,.target⟩ ∈ (s.node 1).activeNodeConnections) (hlost : ∀ l, s.lost l = false)
    (hreading : ∀ v l side, (s.node v).reading ⟨l,side⟩ = true →
      ⟨l,side⟩ ∈ (s.node v).allConnections) : s.Settled chain := by
  have hfirst (l : Fin 2) (hl : s.Accepted chain l) : l = 0 := by
    obtain ⟨v,hv,-,hp,-⟩ := hl
    by_contra hne
    obtain rfl : l = 1 := by omega
    obtain rfl : v = 1 := (Sum.inl.inj hv).symm
    simp [hp] at hpend
  refine ⟨chain.topology.acyclic_of_ranking (fun l => l.val) (fun l m _ _ => Fin.ext)
    (fun l _ => ?_) (fun l hl e _ hr => ?_),fun l hl => ?_,fun v e _ _ => hlost e.link,
    fun v e _ => hreading v e.link e.side⟩
  · intro hloop
    exact absurd (Sum.inl.inj hloop) (Fin.castSucc_lt_succ).ne
  · obtain ⟨-,hlt⟩ := hr.good
    simp [hfirst l hl] at hlt
  · obtain rfl := hfirst l hl
    exact hactive

/-- Node 1 of the chain asks for node 2, whom nobody knows yet. -/
theorem own_query_reaches_chain : ∃ s₀ s : Network (Fin 3) Empty (Fin 2) (Fin 3) ℕ Unit,
    run (step chain (smallLimits (Fin 3))) (init id) (chainRun.take 14) = some s₀ ∧
      run (step chain (smallLimits (Fin 3))) s₀ ((chainRun.drop 14).take 4) = some s ∧
      ¬chain.Connected (s₀.Accepted chain) 1 2 := by
  have h₀ := Option.some_get (show (run (step chain (smallLimits (Fin 3))) (init id)
    (chainRun.take 14)).isSome by decide)
  have hs := Option.some_get (show (run (step chain (smallLimits (Fin 3)))
    ((run (step chain (smallLimits (Fin 3))) (init id) (chainRun.take 14)).get (by decide))
    ((chainRun.drop 14).take 4)).isSome by decide)
  have h := own_query_reaches chain (smallLimits (Fin 3)) Function.injective_id h₀.symm
    (chain_settled (by decide) (by decide) (by decide) (by decide)) hs.symm (by decide)
  exact ⟨_,_,h₀.symm,hs.symm,(h.1 1 2 1 ⟨1,.source⟩ 0 .notFound [] ((chainRun.drop 15).take 3) _
    rfl (Option.some_get (by decide)).symm (by simp [chainRun]) (by decide)).2.1 rfl⟩

end Network
end SoftwareBus
