import SoftwareBus.Network
import SoftwareBus.QueryInvariant

/-! What holds of a network of nodes in every state it reaches. -/
namespace SoftwareBus

open LinkGraph

variable {V X L I Q P : Type}

/-- The Node ID that can be announced at an end: that of the node at the other end. -/
def Bus.Announces (b : Bus V X L) (ids : V → I) (e : End L) (i : I) : Prop :=
  ∃ w, b.owner e.flip = .inl w ∧ i = ids w

/-- The link has been made, for its source end, or taken, for its target end. -/
def Network.begun (s : Network V X L I Q P) (e : End L) : Bool :=
  match e.side with
  | .source => s.established e.link
  | .target => s.joined e.link

namespace Network

structure Sound (b : Bus V X L) (ids : V → I) (s : Network V X L I Q P) : Prop where
  node : ∀ v, (s.node v).Sound (fun e => b.owner e = .inl v) (fun e => decide (e.side = .source))
    (b.Announces ids)
  nodeId : ∀ v, (s.node v).nodeId = ids v
  hello : ∀ e i, .hello i ∈ s.sent e → b.Announces ids e i
  known : ∀ v e, (s.node v).Knows e → b.owner e = .inl v ∧ s.begun e = true
  closing : ∀ v e, (s.node v).closing e = true → s.lost e.link = true
  asked : ∀ q, (∃ v, ((s.node v).queries q).isSome) ∨ (∃ e, ∃ m ∈ s.sent e, m.queryId = some q) →
    s.asked q = true

theorem init_sound (b : Bus V X L) (ids : V → I) : (init ids : Network V X L I Q P).Sound b ids := by
  refine ⟨fun v => CheckState.new_sound _,fun v => rfl,by simp [init],?_,by simp [init,PubSubNode.new],?_⟩
  · intro v e he
    simp [init,PubSubNode.new,CheckState.Knows,CheckState.allConnections,Check.connection] at he
  · simp [init,PubSubNode.new]

variable {b : Bus V X L} {lim : Limits I Q P} {ids : V → I} {s t : Network V X L I Q P}

theorem Outside.mem_sent (h : s.Outside t) {e : End L} {m : Message I Q P} (hm : m ∈ t.sent e)
    (hr : isRouted m = false) : m ∈ s.sent e := by
  obtain ⟨ms,hs,hms⟩ := h.sent e
  rw [hs,List.mem_append] at hm
  exact hm.resolve_right fun hm => by simp [hms m hm] at hr

theorem head_mem_sent {e : End L} {m : Message I Q P} (h : (s.inFlight e).head? = some m) :
    m ∈ s.sent e :=
  List.mem_of_mem_drop (List.mem_of_mem_head? h)

theorem Outside.sound (ho : s.Outside t) (h : s.Sound b ids) : t.Sound b ids := by
  refine ⟨fun w => ?_,fun w => ?_,fun e i hm => ?_,fun w e hk => ?_,fun w e hc => ?_,fun q hq => ?_⟩
  · exact ho.node ▸ h.node w
  · exact ho.node ▸ h.nodeId w
  · exact h.hello e i (ho.mem_sent hm rfl)
  · obtain ⟨hown,hb⟩ := h.known w e (ho.node ▸ hk)
    refine ⟨hown,?_⟩
    cases hs : e.side <;> simp only [begun,hs] at hb ⊢
    · exact ho.established _ hb
    · exact ho.joined ▸ hb
  · exact ho.lost _ (h.closing w e (ho.node ▸ hc))
  · rw [ho.asked]
    refine h.asked q (hq.imp (fun ⟨w,hw⟩ => ⟨w,ho.node ▸ hw⟩) fun ⟨e,m,hm,hmq⟩ => ?_)
    exact ⟨e,m,ho.mem_sent hm (by cases m <;> simp_all [Message.queryId,isRouted]),hmq⟩

variable [DecidableEq V] [DecidableEq X] [DecidableEq L] [DecidableEq I] [DecidableEq Q]

theorem NodeTakes.effect {v : V} {ev : NodeEvent (End L) I Q P}
    {sends : List (PubSubNode.Send (End L) I Q P)} (h : s.NodeTakes b lim v ev sends t) :
    CheckState.Effect (fun e => decide (e.side = .source)) (s.node v).toCheckState ev
      (t.node v).toCheckState (PubSubNode.control sends) :=
  PubSubNode.step_effect h.step

theorem NodeTakes.mem_sent {v : V} {ev : NodeEvent (End L) I Q P}
    {sends : List (PubSubNode.Send (End L) I Q P)} (h : s.NodeTakes b lim v ev sends t)
    {e : End L} {m : Message I Q P} (hm : m ∈ t.sent e) (hr : isRouted m = false) :
    m ∈ s.sent e ∨ (e.flip,m) ∈ PubSubNode.control sends := by
  rw [h.sent,List.mem_append,PubSubNode.mem_queuedOn] at hm
  exact hm.imp id fun hf => List.mem_filter.mpr ⟨hf,by simp [hr]⟩

theorem NodeTakes.onQuery {v : V} {ev : NodeEvent (End L) I Q P}
    {sends : List (PubSubNode.Send (End L) I Q P)} (h : s.NodeTakes b lim v ev sends t)
    (hs : s.Sound b ids) (q : Q) :
    CheckState.OnQuery q (s.node v).toCheckState (t.node v).toCheckState ev
      ((t.node v).queries q) (PubSubNode.ofQuery q sends) :=
  h.effect.onQuery (hs.node v) q

theorem NodeTakes.mem_ofQuery {v : V} {ev : NodeEvent (End L) I Q P}
    {sends : List (PubSubNode.Send (End L) I Q P)} (h : s.NodeTakes b lim v ev sends t)
    {e : End L} {m : Message I Q P} {q : Q} (hm : m ∈ t.sent e) (hq : m.queryId = some q) :
    m ∈ s.sent e ∨ (e.flip,m) ∈ PubSubNode.ofQuery q sends :=
  (h.mem_sent hm (by cases m <;> simp_all [Message.queryId,isRouted])).imp_right fun hf =>
    List.mem_filter.mpr ⟨hf,decide_eq_true hq⟩

omit [DecidableEq L] [DecidableEq I] [DecidableEq Q] in
/-- What a message in flight to a node says may be relied on. -/
theorem Sound.fits (h : s.Sound b ids) {v : V} {ev : NodeEvent (End L) I Q P}
    (ho : s.Occurs b v ev) :
    (s.node v).Fits (fun e => b.owner e = .inl v) (fun e => decide (e.side = .source))
      (b.Announces ids) ev := by
  cases ev with
  | establish e =>
    obtain ⟨hside,hsrc,hnew⟩ := occurs_establish.mp ho
    have hk : ¬(s.node v).Knows e := fun hk => by
      have hb := (h.known v e hk).2
      simp [begun,hside,hnew] at hb
    exact ⟨(b.owner_source hside).trans hsrc,by simp [hside],hk⟩
  | accept e =>
    obtain ⟨hside,htgt,-,hnew⟩ := occurs_accept.mp ho
    have hk : ¬(s.node v).Knows e := fun hk => by
      have hb := (h.known v e hk).2
      simp [begun,hside,hnew] at hb
    exact ⟨(b.owner_target hside).trans (by rw [htgt]),by simp [hside],hk⟩
  | receive e m =>
    cases m with
    | hello i => exact h.hello e i (head_mem_sent ho.2)
    | query q i => exact ho.1
    | _ => trivial
  | _ => trivial

theorem NodeTakes.reading {v : V} {e : End L} {m : Message I Q P}
    {sends : List (PubSubNode.Send (End L) I Q P)}
    (hn : s.NodeTakes b lim v (.receive e m) sends t) : (s.node v).reading e = true := by
  have hstep := hn.step
  simp only [PubSubNode.step,Option.ite_none_right_eq_some] at hstep
  exact hstep.1

theorem NodeTakes.begun {v : V} {ev : NodeEvent (End L) I Q P}
    {sends : List (PubSubNode.Send (End L) I Q P)} (hn : s.NodeTakes b lim v ev sends t) {e : End L}
    (h : s.begun e = true) : t.begun e = true := by
  cases hs : e.side <;> simp only [Network.begun,hs,hn.established,hn.joined] at h ⊢
  · cases ev <;> simp only [note,h]
    rename_i c
    by_cases hc : e.link = c.link <;> simp [hc,h]
  · cases ev <;> simp only [note,h]
    rename_i c
    by_cases hc : e.link = c.link <;> simp [hc,h]

theorem NodeTakes.asked_mono {v : V} {ev : NodeEvent (End L) I Q P}
    {sends : List (PubSubNode.Send (End L) I Q P)} (hn : s.NodeTakes b lim v ev sends t) {q : Q}
    (h : s.asked q = true) : t.asked q = true := by
  rw [hn.asked]
  cases ev <;> simp only [note,h]
  rename_i q'
  by_cases hqq : q = q' <;> simp_all

section ask

variable {v : V} {sends : List (PubSubNode.Send (End L) I Q P)} {q : Q}

theorem NodeTakes.asked_new (hn : s.NodeTakes b lim v (.ask q) sends t) : s.asked q = false := by
  simpa [Occurs,possible] using hn.occurs

theorem NodeTakes.unasked (hn : s.NodeTakes b lim v (.ask q) sends t) (hs : s.Sound b ids) :
    (∀ w, (s.node w).queries q = none) ∧ ∀ e, ∀ m ∈ s.sent e, m.queryId ≠ some q := by
  have hnew := hn.asked_new
  constructor
  · intro w
    by_contra hq
    rw [hs.asked q (.inl ⟨w,Option.isSome_iff_ne_none.mpr hq⟩)] at hnew
    cases hnew
  · intro e m hm hq
    rw [hs.asked q (.inr ⟨e,m,hm,hq⟩)] at hnew
    cases hnew

theorem NodeTakes.unreplied (hn : s.NodeTakes b lim v (.ask q) sends t) (hs : s.Sound b ids)
    (e : End L) (r : ReachabilityResult) : .reply q r ∉ t.sent e := by
  obtain ⟨hnone,hunsent⟩ := hn.unasked hs
  intro hm
  rcases hn.mem_ofQuery hm rfl with hm | hf
  · exact hunsent e _ hm rfl
  · rcases (hn.onQuery hs q).reply_sent hf with ⟨_,hev,-⟩ | ⟨_,hev,-⟩ | ⟨o,ho,-⟩
    · cases hev
    · cases hev
    · rw [hnone v] at ho
      cases ho

theorem NodeTakes.asked_entry (hn : s.NodeTakes b lim v (.ask q) sends t) (hs : s.Sound b ids)
    {c : End L} {i : I} {k : ℕ} (hc : (s.node v).check = .attempt c i k) {w : V}
    {o : OpenQuery (End L) I} (ho : (t.node w).queries q = some o) :
    w = v ∧ o = ⟨.new (s.node v).activeNodeConnections,i,none,true⟩ := by
  have hnone := (hn.unasked hs).1
  by_cases hw : w = v
  · subst w
    rcases (hn.onQuery hs q).entry ho with ⟨p,hp,-⟩ | ⟨_,_,hev,-⟩ | ⟨-,d,j,m,hd,rfl⟩
    · rw [hnone v] at hp
      cases hp
    · cases hev
    · obtain ⟨-,rfl,-⟩ : c = d ∧ i = j ∧ k = m := by simpa [hc] using hd
      exact ⟨rfl,rfl⟩
  · rw [hn.others w hw,hnone w] at ho
    cases ho

end ask

theorem NodeTakes.sound {v : V} {ev : NodeEvent (End L) I Q P}
    {sends : List (PubSubNode.Send (End L) I Q P)} (hn : s.NodeTakes b lim v ev sends t)
    (h : s.Sound b ids) : t.Sound b ids := by
  have hfit := h.fits hn.occurs
  have he := hn.effect
  have hnode := he.sound (h.node v) hfit
  refine ⟨fun w => ?_,fun w => ?_,fun e i hm => ?_,fun w e hk => ?_,fun w e hc => ?_,fun q hq => ?_⟩
  · by_cases hw : w = v
    · exact hw ▸ hnode
    · exact hn.others w hw ▸ h.node w
  · by_cases hw : w = v
    · exact hw ▸ he.nodeId.trans (h.nodeId v)
    · exact hn.others w hw ▸ h.nodeId w
  · rcases hn.mem_sent hm rfl with hm | hf
    · exact h.hello e i hm
    · obtain ⟨rfl,hev⟩ := he.hello_sent hf
      refine ⟨v,?_,h.nodeId v⟩
      rcases hev with rfl | rfl <;> exact hfit.1
  · by_cases hw : w = v
    · subst w
      rcases he.knows hk with hk | rfl | rfl
      · exact ⟨(h.known v e hk).1,hn.begun (h.known v e hk).2⟩
      · have hs : e.side = .source := of_decide_eq_true hfit.2.1
        exact ⟨hfit.1,by simp [Network.begun,hs,hn.established,note]⟩
      · have hs : e.side = .target := by
          cases hs : e.side
          · simp [CheckState.Fits,hs] at hfit
          · rfl
        exact ⟨hfit.1,by simp [Network.begun,hs,hn.joined,note]⟩
    · rw [hn.others w hw] at hk
      exact ⟨(h.known w e hk).1,hn.begun (h.known w e hk).2⟩
  · by_cases hw : w = v
    · subst w
      refine (hn.lost _).mpr ((he.closes hc).imp (h.closing v e) fun hm => ?_)
      exact ⟨e,hm,rfl,hnode.closing e hc⟩
    · exact (hn.lost _).mpr (.inl (h.closing w e (hn.others w hw ▸ hc)))
  · have hold : s.asked q = true → t.asked q = true := hn.asked_mono
    have hnew (hq : ((t.node v).queries q).isSome ∨ PubSubNode.ofQuery q sends ≠ []) :
        t.asked q = true := by
      rcases (hn.onQuery h q).known hq with hq | rfl | ⟨e,m,rfl,hmq⟩
      · exact hold (h.asked q (.inl ⟨v,hq⟩))
      · simp [hn.asked,note]
      · exact hold (h.asked q (.inr ⟨e,m,head_mem_sent hn.occurs.2,hmq⟩))
    rcases hq with ⟨w,hw⟩ | ⟨e,m,hm,hmq⟩
    · by_cases hwv : w = v
      · exact hnew (.inl (hwv ▸ hw))
      · exact hold (h.asked q (.inl ⟨w,hn.others w hwv ▸ hw⟩))
    · rcases hn.mem_ofQuery hm hmq with hm | hf
      · exact hold (h.asked q (.inr ⟨e,m,hm,hmq⟩))
      · exact hnew (.inr (List.ne_nil_of_mem hf))

theorem step_sound {a : Action V X L I Q P} (h : s.Sound b ids) (ht : s.step b lim a = some t) :
    t.Sound b ids := by
  rcases step_cases ht with ⟨v,ev,sends,-,hn⟩ | ho
  · exact hn.sound h
  · exact ho.sound h

end Network
end SoftwareBus
