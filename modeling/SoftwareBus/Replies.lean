import SoftwareBus.NetworkInvariant
import SoftwareBus.Transition

/-! How many messages of one query there are: nobody replies more often than it
is asked, and the entry of a query does not outlive its task. -/
namespace SoftwareBus

open LinkGraph

variable {V X L I Q P : Type}

theorem PubSubNode.countP_queuedOn {C : Type} [DecidableEq C] [DecidableEq Q] {q : Q}
    {p : Message I Q P → Bool} (hp : ∀ m, p m = true → m.queryId = some q) (c : C)
    (sends : List (Send C I Q P)) :
    (queuedOn c sends).countP p = (ofQuery q sends).countP fun f => decide (f.1 = c) && p f.2 := by
  rw [ofQuery,control,List.filter_filter,List.countP_filter,queuedOn,List.countP_filterMap]
  refine List.countP_congr fun f _ => ?_
  cases hpf : p f.2 with
  | false => by_cases hc : f.1 = c <;> simp [hc,hpf]
  | true =>
    have hq := hp _ hpf
    have hr : isRouted f.2 = false := by
      cases hm : f.2 <;> simp_all [Message.queryId,isRouted]
    by_cases hc : f.1 = c <;> simp [hc,hpf,hq,hr]

theorem Message.queryId_of_isQuery [DecidableEq Q] {q : Q} {m : Message I Q P}
    (h : m.isQuery q = true) : m.queryId = some q := by
  cases m <;> simp_all [isQuery,queryId]

theorem Message.queryId_of_isReply [DecidableEq Q] {q : Q} {m : Message I Q P}
    (h : m.isReply q = true) : m.queryId = some q := by
  cases m <;> simp_all [isReply,queryId]

/-- The steps of the tasks that send queries on and wait for their replies. -/
def NodeEvent.ofQueryTask {C : Type} : NodeEvent C I Q P → Bool
  | .queryDone | .queryTimeout | .forward _ | .forwardDone _ | .forwardTimeout _ => true
  | _ => false

namespace Network

variable {b : Bus V X L} {lim : Limits I Q P} {ids : V → I} {s t : Network V X L I Q P}

theorem countP_delivered_le (s : Network V X L I Q P) (p : Message I Q P → Bool) (e : End L) :
    (s.delivered e).countP p ≤ (s.sent e).countP p :=
  (List.take_sublist _ _).countP_le

theorem countP_delivered_lt {e : End L} {m : Message I Q P} {p : Message I Q P → Bool}
    (hm : (s.inFlight e).head? = some m) (hp : p m = true) :
    (s.delivered e).countP p < (s.sent e).countP p := by
  have hpos : 0 < (s.inFlight e).countP p :=
    List.countP_pos_iff.mpr ⟨m,List.mem_of_mem_head? hm,hp⟩
  have hsplit := congrArg (List.countP p) (List.take_append_drop (s.read e) (s.sent e))
  rw [List.countP_append] at hsplit
  simp only [delivered,inFlight] at *
  omega

theorem Outside.countP_sent (ho : s.Outside t) {p : Message I Q P → Bool}
    (hp : ∀ m, isRouted m = true → p m = false) (e : End L) :
    (t.sent e).countP p = (s.sent e).countP p := by
  obtain ⟨ms,hs,hms⟩ := ho.sent e
  have hnone : ms.countP p = 0 := List.countP_eq_zero.mpr fun m hm => by simp [hp m (hms m hm)]
  rw [hs,List.countP_append,hnone,Nat.add_zero]

theorem Outside.countP_delivered (ho : s.Outside t) (p : Message I Q P → Bool) (e : End L) :
    (s.delivered e).countP p ≤ (t.delivered e).countP p := by
  obtain ⟨ms,hs,-⟩ := ho.sent e
  refine List.Sublist.countP_le ?_
  rw [delivered,delivered,hs]
  exact ((List.take_prefix_take_left (ho.read e)).sublist).trans
    ((List.prefix_append _ ms).take _).sublist

variable [DecidableEq V] [DecidableEq X] [DecidableEq L] [DecidableEq I] [DecidableEq Q]

theorem NodeTakes.countP_sent {v : V} {ev : NodeEvent (End L) I Q P}
    {sends : List (PubSubNode.Send (End L) I Q P)} (hn : s.NodeTakes b lim v ev sends t) {q : Q}
    {p : Message I Q P → Bool} (hp : ∀ m, p m = true → m.queryId = some q) (e : End L) :
    (t.sent e).countP p = (s.sent e).countP p+
      (PubSubNode.ofQuery q sends).countP fun f => decide (f.1 = e.flip) && p f.2 := by
  rw [hn.sent,List.countP_append,PubSubNode.countP_queuedOn hp]

theorem NodeTakes.countP_delivered {v : V} {ev : NodeEvent (End L) I Q P}
    {sends : List (PubSubNode.Send (End L) I Q P)} (hn : s.NodeTakes b lim v ev sends t) (q : Q)
    (e : End L) : (s.delivered e).countP (Message.isQuery q)+(CheckState.arrives q e ev).toNat ≤
      (t.delivered e).countP (Message.isQuery q) := by
  have same (hr : t.read e = s.read e) : (s.delivered e).countP (Message.isQuery q) ≤
      (t.delivered e).countP (Message.isQuery q) := by
    rw [delivered,delivered,hr,hn.sent]
    exact ((List.prefix_append _ _).take _).sublist.countP_le
  cases ev with
  | receive c m =>
    by_cases hc : c = e
    · subst hc
      have hm := hn.occurs.2
      have hlt : s.read c < (s.sent c).length := by
        by_contra hle
        simp [inFlight,List.drop_eq_nil_of_le (Nat.le_of_not_lt hle)] at hm
      obtain rfl : (s.sent c)[s.read c] = m := by
        simpa [inFlight,List.head?_drop,hlt] using hm
      have hr : t.read c = s.read c+1 := by simp [hn.read,note]
      rw [delivered,delivered,hr,hn.sent,List.take_append_of_le_length hlt,
        List.take_succ_eq_append_getElem hlt,List.countP_append]
      cases hq : (s.sent c)[s.read c].isQuery q <;> simp [CheckState.arrives,hq]
    · simpa [CheckState.arrives,hc] using same (by simp [hn.read,note,Ne.symm hc])
  | _ => exact same (by rw [hn.read]; rfl)

/-- A node sends at most one reply per query it receives, counting the one it may still owe. -/
def Replied (b : Bus V X L) (s : Network V X L I Q P) : Prop :=
  ∀ v e q, b.owner e = .inl v →
    (s.sent e.flip).countP (Message.isReply q)+
        (CheckState.owes ((s.node v).queries q) e).toNat ≤
      (s.delivered e).countP (Message.isQuery q)

omit [DecidableEq V] [DecidableEq X] [DecidableEq I] in
theorem Outside.replied (ho : s.Outside t) (h : s.Replied b) : t.Replied b := by
  intro v e q he
  rw [ho.node,ho.countP_sent (by intro m hm; cases m <;> simp_all [isRouted,Message.isReply])]
  exact (h v e q he).trans (ho.countP_delivered _ e)

theorem NodeTakes.replied {v : V} {ev : NodeEvent (End L) I Q P}
    {sends : List (PubSubNode.Send (End L) I Q P)} (hn : s.NodeTakes b lim v ev sends t)
    (hs : s.Sound b ids) (h : s.Replied b) : t.Replied b := by
  intro w e q he
  have hx := hn.onQuery hs q
  have hold := h w e q he
  have hread := hn.countP_delivered q e
  rw [hn.countP_sent (p := Message.isReply q) (fun m => Message.queryId_of_isReply),End.flip_flip]
  by_cases hw : w = v
  · subst w
    have hcount := hx.reply_count e
    omega
  · have hnone : ((PubSubNode.ofQuery q sends).countP
        fun f => decide (f.1 = e) && f.2.isReply q) = 0 := by
      refine List.countP_eq_zero.mpr fun f hf hp => ?_
      obtain ⟨c,m⟩ := f
      obtain ⟨rfl,hm⟩ : c = e ∧ m.isReply q = true := by simpa using hp
      cases m with
      | reply q' r =>
        obtain rfl : q' = q := by simpa [Message.isReply] using hm
        have hv : b.owner c = .inl v := by
          rcases hx.reply_sent hf with ⟨i,rfl,-⟩ | ⟨i,rfl,-⟩ | ⟨o,ho,hsrc,-⟩
          · exact hn.occurs.1
          · exact hn.occurs.1
          · exact (hs.node v).source q' o c ho hsrc
        exact hw (Sum.inl.inj (he.symm.trans hv))
      | _ => simp [Message.isReply] at hm
    rw [hnone,hn.others w hw]
    omega

theorem reachable_replied (b : Bus V X L) (lim : Limits I Q P) (ids : V → I)
    {as : List (Action V X L I Q P)}
    (hrun : Transition.run (step b lim) (init ids) as = some s) :
    s.Sound b ids ∧ s.Replied b := by
  refine Transition.run_invariant_always (I := fun s => s.Sound b ids ∧ s.Replied b)
    (fun s a t h ht => ?_)
    ⟨init_sound b ids,fun v e q he => by simp [init,PubSubNode.new,CheckState.owes]⟩ hrun
  refine ⟨step_sound h.1 ht,?_⟩
  rcases step_cases ht with ⟨v,ev,sends,-,hn⟩ | ho
  · exact hn.replied h.1 h.2
  · exact ho.replied h.2

/-- No message is on its way, and no query task can go on or run into its timeout. -/
structure AtRest (b : Bus V X L) (lim : Limits I Q P) (s : Network V X L I Q P) : Prop where
  delivered : ∀ e, s.inFlight e = []
  tasks : ∀ v ev, ev.ofQueryTask = true → s.step b lim (.node v ev) = none

/-- The entry of a query is left only while its task runs. -/
theorem AtRest.no_queries (h : s.AtRest b lim) (hs : s.Sound b ids) (v : V) (q : Q) :
    (s.node v).queries q = none := by
  have stuck {ev : NodeEvent (End L) I Q P} (hev : ev.ofQueryTask = true)
      (hp : s.possible b v ev = true) : (s.node v).step (lim.onLinks L) ev = none := by
    have hstep := h.tasks v ev hev
    simpa [Network.step,hp,nodeStep] using hstep
  by_contra hq
  obtain ⟨⟨query,target,source,sent⟩,ho⟩ := Option.ne_none_iff_exists'.mp hq
  cases source with
  | none =>
    obtain ⟨c,i,k,hc⟩ := (hs.node v).ownOnly q _ ho rfl
    have hstep := stuck (show NodeEvent.ofQueryTask .queryTimeout = true from rfl) rfl
    simp [PubSubNode.step,hc] at hstep
  | some e =>
    cases sent with
    | false =>
      have hstep := stuck (show NodeEvent.ofQueryTask (.forward q) = true from rfl) rfl
      simp [PubSubNode.step,ho] at hstep
    | true =>
      have hstep := stuck (show NodeEvent.ofQueryTask (.forwardTimeout q) = true from rfl) rfl
      simp [PubSubNode.step,ho] at hstep

end Network
end SoftwareBus
