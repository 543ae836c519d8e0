import SoftwareBus.RoutingInvariant
import SoftwareBus.NetworkInvariant
import Mathlib.Data.Set.Finite.Range

/-! What the routing tables of a network say about its clients once nothing is on
its way any more. -/
namespace SoftwareBus

open LinkGraph Transition Message

variable {V X L I Q P : Type}

namespace Network

def Mine (b : Bus V X L) (s : Network V X L I Q P) (v : V) (e : End L) : Prop :=
  b.owner e = .inl v ∧ s.begun e = true

section

variable [DecidableEq V] [DecidableEq X]

def queuedBy (b : Bus V X L) (s : Network V X L I Q P) (v : V) (e : End L) : List (Message I Q P) :=
  if b.owner e = .inl v then s.sent e.flip else []

def receivedBy (b : Bus V X L) (s : Network V X L I Q P) (v : V) (e : End L) :
    List (Message I Q P) :=
  if b.owner e = .inl v then s.delivered e else []

end

variable [DecidableEq V] [DecidableEq X] [DecidableEq L]

/-- What the nodes know of their connections, given what has been sent over them. -/
structure Informed (b : Bus V X L) (ids : V → I) (s : Network V X L I Q P) : Prop where
  sound : s.Sound b ids
  tables : ∀ v, (s.node v).Informed (s.Mine b v) (fun e => decide (e.side = .source))
    (s.queuedBy b v) (s.receivedBy b v)
  bounded : ∀ e, s.read e ≤ (s.sent e).length
  unread : ∀ v e, b.owner e = .inl v → s.begun e = false → s.read e = 0
  listed : ∀ v e, b.owner e = .inl v → s.begun e = true → s.lost e.link = false →
    e ∈ (s.node v).allConnections
  greeted : ∀ v l, b.source l = .inl v → s.established l = true → s.sent ⟨l,.target⟩ ≠ []
  joined : ∀ l, s.joined l = true → s.established l = true

variable {b : Bus V X L} {lim : Limits I Q P} {ids : V → I} {s t : Network V X L I Q P}

theorem init_informed : (init ids : Network V X L I Q P).Informed b ids := by
  refine ⟨init_sound b ids,fun v => ?_,by simp [init],by simp [init],?_,by simp [init],by simp [init]⟩
  · have h : (init ids : Network V X L I Q P).queuedBy b v = fun _ => [] := by
      funext e
      simp [queuedBy,init]
    rw [h]
    exact PubSubNode.new_informed (ids v)
  · intro v e _ hb
    cases hs : e.side <;> simp [init,begun,hs] at hb

variable [DecidableEq I] [DecidableEq Q]

/-- No send queue and no held messages go over their limit in a step. -/
def overflows (b : Bus V X L) (lim : Limits I Q P) (s : Network V X L I Q P) :
    Action V X L I Q P → Bool
  | .node v ev => (s.node v).overflows (lim.onLinks L) ev
  | .deliver e =>
    match b.owner e,(s.inFlight e).head? with
    | .inl v,some m => (s.node v).overflows (lim.onLinks L) (.receive e m)
    | _,_ => false
  | _ => false

theorem NodeTakes.begun_new {v : V} {ev : NodeEvent (End L) I Q P}
    {sends : List (PubSubNode.Send (End L) I Q P)} (hn : s.NodeTakes b lim v ev sends t) {e : End L}
    (h : t.begun e = true) : s.begun e = true ∨ ev = .establish e ∨ ev = .accept e := by
  have heq {c : End L} (hl : e.link = c.link) (hs : e.side = c.side) : c = e := by
    cases e; cases c; cases hl; cases hs; rfl
  cases hs : e.side <;> simp only [Network.begun,hs,hn.established,hn.joined] at h ⊢
  · cases ev with
    | establish c =>
      have hocc := occurs_establish.mp hn.occurs
      by_cases hc : e.link = c.link
      · exact .inr (.inl (by rw [heq hc (hs.trans hocc.1.symm)]))
      · exact .inl (by simpa [note,hc] using h)
    | _ => exact .inl h
  · cases ev with
    | accept c =>
      have hocc := occurs_accept.mp hn.occurs
      by_cases hc : e.link = c.link
      · exact .inr (.inr (by rw [heq hc (hs.trans hocc.1.symm)]))
      · exact .inl (by simpa [note,hc] using h)
    | _ => exact .inl h

theorem NodeTakes.delivered {v : V} {ev : NodeEvent (End L) I Q P}
    {sends : List (PubSubNode.Send (End L) I Q P)} (hn : s.NodeTakes b lim v ev sends t)
    (hb : ∀ e, s.read e ≤ (s.sent e).length) (e : End L) :
    t.delivered e = s.delivered e++ev.received e ∧ t.read e ≤ (t.sent e).length ∧
      (ev.received e = [] → t.read e = s.read e) := by
  have same (hr : t.read e = s.read e) (hev : ev.received e = []) :
      t.delivered e = s.delivered e++ev.received e ∧ t.read e ≤ (t.sent e).length ∧
        (ev.received e = [] → t.read e = s.read e) := by
    refine ⟨?_,?_,fun _ => hr⟩
    · rw [Network.delivered,hr,hn.sent,List.take_append_of_le_length (hb e),hev,List.append_nil]
      rfl
    · rw [hr,hn.sent,List.length_append]
      exact Nat.le_add_right_of_le (hb e)
  cases ev with
  | receive c m =>
    have hread : t.read e = if e = c then s.read c+1 else s.read e := by
      simp [hn.read,note,Function.update_apply]
    by_cases hc : c = e
    · subst c
      have hm : (s.inFlight e).head? = some m := hn.occurs.2
      rw [inFlight,List.head?_drop] at hm
      obtain ⟨hlt,hget⟩ := List.getElem?_eq_some_iff.mp hm
      refine ⟨?_,?_,by simp [NodeEvent.received]⟩
      · rw [Network.delivered,hread,if_pos rfl,hn.sent,List.take_append_of_le_length hlt,
          List.take_add_one,hm]
        simp [Network.delivered,NodeEvent.received]
      · rw [hread,if_pos rfl,hn.sent,List.length_append]
        exact Nat.le_add_right_of_le hlt
    · exact same (by simp [hread,Ne.symm hc]) (by simp [NodeEvent.received,hc])
  | _ => exact same (by simp [hn.read,note]) rfl

section NodeTakes

variable {v : V} {ev : NodeEvent (End L) I Q P} {sends : List (PubSubNode.Send (End L) I Q P)}

theorem NodeTakes.mine (hn : s.NodeTakes b lim v ev sends t) (w : V) (e : End L)
    (he : s.Mine b w e) : t.Mine b w e := ⟨he.1,hn.begun he.2⟩

omit [DecidableEq I] [DecidableEq Q] in
/-- Nothing has been sent or received over an end that is not in use yet. -/
theorem Informed.unused (h : s.Informed b ids) (v : V) {e : End L} (hb : s.begun e = false) :
    (∀ subject, lastSaid false subject (s.queuedBy b v e) = false) ∧ s.receivedBy b v e = [] := by
  refine ⟨fun subject => (h.tables v).strange e (fun hm => by simp [hm.2] at hb) subject false,?_⟩
  unfold receivedBy
  split
  · rename_i he
    simp [Network.delivered,h.unread v e he hb]
  · rfl

theorem NodeTakes.fresh (hn : s.NodeTakes b lim v ev sends t) (h : s.Informed b ids) :
    PubSubNode.Fresh (s.queuedBy b v) (s.receivedBy b v) ev ∧
      ∀ e, ev = .accept e → t.Mine b v e := by
  cases ev with
  | establish e =>
    have hocc := occurs_establish.mp hn.occurs
    exact ⟨h.unused v (by simp [Network.begun,hocc.1,hocc.2.2]),by simp⟩
  | accept e =>
    have hocc := occurs_accept.mp hn.occurs
    refine ⟨h.unused v (by simp [Network.begun,hocc.1,hocc.2.2.2]),fun f hf => ?_⟩
    obtain rfl : e = f := by simpa using hf
    refine ⟨by rw [b.owner_target hocc.1,hocc.2.1],?_⟩
    simp [Network.begun,hocc.1,hn.joined,note]
  | _ => exact ⟨trivial,by simp⟩

theorem NodeTakes.table (hn : s.NodeTakes b lim v ev sends t)
    (hcalm : (s.node v).overflows (lim.onLinks L) ev = false) (h : s.Informed b ids) :
    (t.node v).Informed (t.Mine b v) (fun e => decide (e.side = .source))
      (fun e => s.queuedBy b v e++PubSubNode.queuedOn e sends)
        fun e => s.receivedBy b v e++ev.received e := by
  have htable : (s.node v).Informed (t.Mine b v) (fun e => decide (e.side = .source))
      (s.queuedBy b v) (s.receivedBy b v) :=
    {h.tables v with strange := fun e he => (h.tables v).strange e fun hm => he (hn.mine v e hm)}
  obtain ⟨hfresh,hmine⟩ := hn.fresh h
  exact PubSubNode.step_informed hn.step htable (h.sound.node v) (h.sound.fits hn.occurs) hcalm
    (fun e he => hn.mine v e (h.sound.known v e he)) hmine hfresh

/-- It says nothing over the ends of others. -/
theorem NodeTakes.silent (hn : s.NodeTakes b lim v ev sends t)
    (hcalm : (s.node v).overflows (lim.onLinks L) ev = false) (h : s.Informed b ids) (e : End L)
    (he : b.owner e ≠ .inl v) (subject : Str) (d : Bool) :
    lastSaid d subject (PubSubNode.queuedOn e sends) = d := by
  have hs := (hn.table hcalm h).strange e (fun hm => he hm.1) subject d
  simpa [queuedBy,he] using hs

theorem NodeTakes.received_elsewhere (hn : s.NodeTakes b lim v ev sends t) {e : End L}
    (he : b.owner e ≠ .inl v) : ev.received e = [] := by
  cases ev with
  | receive c m =>
    have hc : c ≠ e := fun hce => he (hce ▸ hn.occurs.1)
    simp [NodeEvent.received,hc]
  | _ => rfl

theorem NodeTakes.tables (hn : s.NodeTakes b lim v ev sends t)
    (hcalm : (s.node v).overflows (lim.onLinks L) ev = false) (h : s.Informed b ids) (w : V) :
    (t.node w).Informed (t.Mine b w) (fun e => decide (e.side = .source))
      (t.queuedBy b w) (t.receivedBy b w) := by
  have hsilent := hn.silent hcalm h
  have hdel := hn.delivered h.bounded
  by_cases hw : w = v
  · subst w
    refine (hn.table hcalm h).same ⟨rfl,rfl⟩ ⟨rfl,rfl⟩ (fun _ => rfl) ⟨rfl,rfl⟩
      (fun e subject d => ?_) fun e => ?_
    · by_cases he : b.owner e = .inl v
      · simp [queuedBy,he,hn.sent]
      · simp [queuedBy,he,hsilent e he]
    · by_cases he : b.owner e = .inl v
      · simp [receivedBy,he,(hdel e).1]
      · simp [receivedBy,he,hn.received_elsewhere he]
  · have htable : (s.node w).Informed (t.Mine b w) (fun e => decide (e.side = .source))
        (s.queuedBy b w) (s.receivedBy b w) :=
      {h.tables w with strange := fun e he => (h.tables w).strange e fun hm => he (hn.mine w e hm)}
    rw [hn.others w hw]
    refine htable.same ⟨rfl,rfl⟩ ⟨rfl,rfl⟩ (fun _ => rfl) ⟨rfl,rfl⟩ (fun e subject d => ?_)
      fun e => ?_ <;> by_cases he : b.owner e = .inl w
    · have hev : b.owner e ≠ .inl v := fun hv => hw (Sum.inl.inj (he.symm.trans hv))
      simp [queuedBy,he,hn.sent,lastSaid_append,hsilent e hev]
    · simp [queuedBy,he]
    · have hev : b.owner e ≠ .inl v := fun hv => hw (Sum.inl.inj (he.symm.trans hv))
      simp [receivedBy,he,(hdel e).1,hn.received_elsewhere hev]
    · simp [receivedBy,he]

theorem NodeTakes.unread (hn : s.NodeTakes b lim v ev sends t) (h : s.Informed b ids) {w : V}
    {e : End L} (he : b.owner e = .inl w) (hb : t.begun e = false) : t.read e = 0 := by
  have hold : s.begun e = false := by
    by_contra hne
    simp [hn.begun (by simpa using hne)] at hb
  rw [((hn.delivered h.bounded e).2.2),h.unread w e he hold]
  cases ev with
  | receive c m =>
    have hc : c ≠ e := by
      rintro rfl
      have hk := (h.sound.known v c (.inl ((h.tables v).reading c hn.reading))).2
      simp [hk] at hold
    simp [NodeEvent.received,hc]
  | _ => rfl

theorem NodeTakes.listed (hn : s.NodeTakes b lim v ev sends t) (h : s.Informed b ids) {w : V}
    {e : End L} (he : b.owner e = .inl w) (hb : t.begun e = true) (hl : t.lost e.link = false) :
    e ∈ (t.node w).allConnections := by
  by_cases hold : s.begun e = true
  · have hnl : s.lost e.link = false := by
      by_contra hne
      simp [(hn.lost e.link).mpr (.inl (by simpa using hne))] at hl
    have hlist := h.listed w e he hold hnl
    by_cases hw : w = v
    · subst w
      by_contra hgone
      simp [(hn.lost e.link).mpr (.inr ⟨e,hlist,rfl,hgone⟩)] at hl
    · exact hn.others w hw ▸ hlist
  · have hev := (hn.begun_new hb).resolve_left hold
    have hown : b.owner e = .inl v := by
      have hfit := h.sound.fits hn.occurs
      rcases hev with rfl | rfl <;> exact hfit.1
    obtain rfl : w = v := Sum.inl.inj (he.symm.trans hown)
    exact hn.effect.lists hev

theorem NodeTakes.greeted (hn : s.NodeTakes b lim v ev sends t) (h : s.Informed b ids) {w : V}
    {l : L} (hl : b.source l = .inl w) (he : t.established l = true) :
    t.sent ⟨l,.target⟩ ≠ [] := by
  rw [hn.sent]
  rcases hn.begun_new (e := ⟨l,.source⟩) he with hold | rfl | rfl
  · simp [h.greeted w l hl hold]
  · obtain ⟨-,rfl⟩ := Prod.mk.inj (Option.some.inj hn.step)
    simp [PubSubNode.queuedOn,PubSubNode.frames,End.flip,Side.flip]
  · have hocc := (occurs_accept.mp hn.occurs).1
    simp at hocc

theorem NodeTakes.joins (hn : s.NodeTakes b lim v ev sends t) (h : s.Informed b ids) {l : L}
    (hl : t.joined l = true) : t.established l = true := by
  have hest : s.established l = true := by
    rcases hn.begun_new (e := ⟨l,.target⟩) hl with hold | rfl | rfl
    · exact h.joined l hold
    · have hocc := (occurs_establish.mp hn.occurs).1
      simp at hocc
    · exact (occurs_accept.mp hn.occurs).2.2.1
  exact hn.begun (e := ⟨l,.source⟩) hest

theorem NodeTakes.informed (hn : s.NodeTakes b lim v ev sends t)
    (hcalm : (s.node v).overflows (lim.onLinks L) ev = false) (h : s.Informed b ids) :
    t.Informed b ids ∧ ∀ e, b.owner e ≠ .inl v → ∀ subject d,
      lastSaid d subject (PubSubNode.queuedOn e sends) = d where
  left := {
    sound := hn.sound h.sound
    tables := hn.tables hcalm h
    bounded := fun e => (hn.delivered h.bounded e).2.1
    unread := fun _ _ he hb => hn.unread h he hb
    listed := fun _ _ he hb hl => hn.listed h he hb hl
    greeted := fun _ _ hl he => hn.greeted h hl he
    joined := fun _ hl => hn.joins h hl}
  right := hn.silent hcalm h

end NodeTakes

omit [DecidableEq I] [DecidableEq Q] in
/-- Steps outside the nodes leave alone what the nodes have sent and received. -/
theorem Informed.outside (h : s.Informed b ids) (ht : t.Sound b ids) (hnode : t.node = s.node)
    (hsent : ∀ v e, b.owner e = .inl v →
      t.sent e.flip = s.sent e.flip ∧ t.delivered e = s.delivered e ∧ t.read e = s.read e)
    (hbound : ∀ e, t.read e ≤ (t.sent e).length) (hj : t.joined = s.joined)
    (hest : ∀ v l, b.source l = .inl v → t.established l = s.established l)
    (hmono : ∀ l, s.established l = true → t.established l = true)
    (hlost : ∀ l, s.lost l = true → t.lost l = true) : t.Informed b ids := by
  have hbegun {v : V} {e : End L} (he : b.owner e = .inl v) : t.begun e = s.begun e := by
    cases hs : e.side
    · simpa [begun,hs] using hest v e.link (b.owner_source hs ▸ he)
    · simp [begun,hs,hj]
  refine ⟨ht,fun v => ?_,hbound,fun v e he hb => ?_,fun v e he hb hl => ?_,fun v l hl he => ?_,
    fun l hl => hmono l (h.joined l (hj ▸ hl))⟩
  · have hq : t.queuedBy b v = s.queuedBy b v := by
      funext e
      by_cases he : b.owner e = .inl v <;> simp [queuedBy,he,hsent v e]
    have hr : t.receivedBy b v = s.receivedBy b v := by
      funext e
      by_cases he : b.owner e = .inl v <;> simp [receivedBy,he,hsent v e]
    have hm : t.Mine b v = s.Mine b v := by
      funext e
      exact propext (and_congr_right fun he => by rw [hbegun he])
    rw [hnode,hq,hr,hm]
    exact h.tables v
  · rw [(hsent v e he).2.2]
    exact h.unread v e he (hbegun he ▸ hb)
  · have hnl : s.lost e.link = false := by
      by_contra hne
      simp [hlost e.link (by simpa using hne)] at hl
    exact hnode ▸ h.listed v e he (hbegun he ▸ hb) hnl
  · have hs := (hsent v ⟨l,.source⟩ (by simp [b.owner_source,hl])).1
    have hs : t.sent ⟨l,.target⟩ = s.sent ⟨l,.target⟩ := hs
    rw [hs]
    exact h.greeted v l hl (hest v l hl ▸ he)

def Leaves (b : Bus V X L) (s : Network V X L I Q P) : Prop :=
  ∀ x l, s.current x = some l → b.source l = .inr x

structure Clients (b : Bus V X L) (s : Network V X L I Q P) : Prop where
  current : ∀ x l, s.current x = some l → b.source l = .inr x ∧ s.established l = true
  kept : ∀ x l, b.source l = .inr x → s.established l = true → s.lost l = false →
    s.current x = some l
  said : ∀ x l, s.current x = some l → ∀ subject,
    lastSaid false subject (s.sent ⟨l,.target⟩) = s.said x subject
  unsaid : ∀ x, s.current x = none → ∀ subject, s.said x subject = false
  silent : ∀ x l, b.source l = .inr x → s.established l = false → ∀ subject,
    lastSaid false subject (s.sent ⟨l,.target⟩) = false

omit [DecidableEq V] [DecidableEq X] [DecidableEq L] [DecidableEq I] [DecidableEq Q] in
theorem Clients.leaves (h : s.Clients b) : s.Leaves b := fun x l hl => (h.current x l hl).1

omit [DecidableEq V] [DecidableEq X] [DecidableEq L] [DecidableEq I] [DecidableEq Q] in
theorem init_clients : (init ids : Network V X L I Q P).Clients b := by
  constructor <;> simp [init]

theorem NodeTakes.clients {v : V} {ev : NodeEvent (End L) I Q P}
    {sends : List (PubSubNode.Send (End L) I Q P)} (hn : s.NodeTakes b lim v ev sends t)
    (hsilent : ∀ e, b.owner e ≠ .inl v → ∀ subject d,
      lastSaid d subject (PubSubNode.queuedOn e sends) = d) (h : s.Clients b) : t.Clients b := by
  have hsaid {x : X} {l : L} (hl : b.source l = .inr x) (subject : Str) :
      lastSaid false subject (t.sent ⟨l,.target⟩) =
        lastSaid false subject (s.sent ⟨l,.target⟩) := by
    have hs : t.sent ⟨l,.target⟩ = s.sent ⟨l,.target⟩++PubSubNode.queuedOn ⟨l,.source⟩ sends :=
      hn.sent _
    rw [hs,lastSaid_append,hsilent ⟨l,.source⟩ (by simp [b.owner_source,hl])]
  have hest {x : X} {l : L} (hl : b.source l = .inr x) : t.established l = s.established l := by
    refine Bool.eq_iff_iff.mpr ⟨fun he => ?_,fun he => hn.begun (e := ⟨l,.source⟩) he⟩
    rcases hn.begun_new (e := ⟨l,.source⟩) he with he | rfl | rfl
    · exact he
    · have hocc := (occurs_establish.mp hn.occurs).2.1
      simp [hl] at hocc
    · have hocc := (occurs_accept.mp hn.occurs).1
      simp at hocc
  constructor
  · intro x l hl
    obtain ⟨hsrc,he⟩ := h.current x l (hn.current ▸ hl)
    exact ⟨hsrc,(hest hsrc).trans he⟩
  · intro x l hl he hlost
    rw [hn.current]
    refine h.kept x l hl (hest hl ▸ he) ?_
    by_contra hne
    simp [(hn.lost l).mpr (.inl (by simpa using hne))] at hlost
  · intro x l hl subject
    rw [hn.current] at hl
    rw [hsaid (h.current x l hl).1,h.said x l hl,hn.said]
  · intro x hx
    rw [hn.said]
    exact h.unsaid x (hn.current ▸ hx)
  · intro x l hl he subject
    rw [hsaid hl]
    exact h.silent x l hl (hest hl ▸ he) subject

omit [DecidableEq X] [DecidableEq L] [DecidableEq V] [DecidableEq I] [DecidableEq Q] in
theorem Bus.source_of_owner {e : End L} {x : X} (h : b.owner e = .inr x) :
    e.side = .source ∧ b.source e.link = .inr x := by
  cases hs : e.side
  · exact ⟨rfl,b.owner_source hs ▸ h⟩
  · simp [b.owner_target hs] at h

omit [DecidableEq I] [DecidableEq Q] in
theorem clientSend_informed {u : Network V X L I Q P} {x : X} {m : Message I Q P}
    (h : s.Informed b ids) (hc : s.Clients b) (hm : s.clientSend x m = some u) (hu : u.Sound b ids) :
    u.Informed b ids ∧ ∃ l, s.current x = some l ∧ u =
      {s with sent := Function.update s.sent ⟨l,.target⟩ (s.sent ⟨l,.target⟩++[m])} := by
  obtain ⟨l,hl,rfl⟩ := Option.map_eq_some_iff.mp hm
  refine ⟨h.outside hu rfl (fun v e he => ?_) (fun e => ?_) rfl (fun _ _ _ => rfl) (fun _ => id)
    fun _ => id,l,hl,rfl⟩
  · have hne : e.flip ≠ ⟨l,.target⟩ := by
      intro hf
      obtain rfl : e = ⟨l,.source⟩ := End.flip_inj.mp hf
      rw [b.owner_source rfl,(hc.current x l hl).1] at he
      simp at he
    refine ⟨by simp [hne],?_,rfl⟩
    by_cases hel : e = ⟨l,.target⟩
    · subst e
      simp [delivered,List.take_append_of_le_length (h.bounded _)]
    · simp [delivered,hel]
  · have hb := h.bounded e
    by_cases hel : e = ⟨l,.target⟩
    · subst e
      simp
      omega
    · simpa [hel] using hb

theorem NodeTakes.keeps {v : V} {ev : NodeEvent (End L) I Q P}
    {sends : List (PubSubNode.Send (End L) I Q P)} (hn : s.NodeTakes b lim v ev sends t)
    (h : s.Informed b ids) (hc : s.Clients b)
    (hcalm : (s.node v).overflows (lim.onLinks L) ev = false) : t.Informed b ids ∧ t.Clients b := by
  obtain ⟨hi,hsilent⟩ := hn.informed hcalm h
  exact ⟨hi,hn.clients hsilent hc⟩

omit [DecidableEq V] [DecidableEq X] [DecidableEq I] [DecidableEq Q] in
theorem Clients.lastSaid_sent (hc : s.Clients b) {x : X} {l : L} (hl : s.current x = some l)
    (m : Message I Q P) (subject : Str) (l' : L) :
    lastSaid false subject
        (Function.update s.sent ⟨l,.target⟩ (s.sent ⟨l,.target⟩++[m]) ⟨l',.target⟩) =
      if l' = l then (about subject m).getD (s.said x subject)
      else lastSaid false subject (s.sent ⟨l',.target⟩) := by
  by_cases hll : l' = l
  · subst l'
    rw [Function.update_self,lastSaid_append,hc.said x l hl,lastSaid_cons]
    simp
  · simp [hll]

section ClientSteps

variable {x : X} {l : L} (h : s.Informed b ids) (hc : s.Clients b)

include h hc

theorem deliver_informed {e : End L} (hcalm : s.overflows b lim (.deliver e) = false)
    (ht : s.step b lim (.deliver e) = some t) : t.Informed b ids ∧ t.Clients b := by
  have hsound := step_sound h.sound ht
  obtain ⟨m,hm,⟨v,sends,hn⟩ | ⟨x,hx,-,rfl⟩⟩ := step_deliver ht
  · exact hn.keeps h hc (by simpa [overflows,hn.occurs.1,hm] using hcalm)
  · rw [inFlight,List.head?_drop] at hm
    obtain ⟨hlt,-⟩ := List.getElem?_eq_some_iff.mp hm
    refine ⟨h.outside hsound rfl (fun v f hf => ?_) (fun f => ?_) rfl (fun _ _ _ => rfl)
      (fun _ => id) fun _ => id,{hc with}⟩
    · have hfe : f ≠ e := by rintro rfl; simp [hx] at hf
      simp [delivered,hfe]
    · by_cases hfe : f = e
      · simpa [hfe] using hlt
      · simpa [hfe] using h.bounded f

theorem breakLink_informed (ht : s.step b lim (.breakLink l) = some t) :
    t.Informed b ids ∧ t.Clients b := by
  have hsound := step_sound h.sound ht
  obtain rfl := Option.some.inj ht
  have hmono (m : L) (hm : s.lost m = true) : Function.update s.lost l true m = true := by
    by_cases hl : m = l <;> simp [hl,hm]
  refine ⟨h.outside hsound rfl (fun _ _ _ => ⟨rfl,rfl,rfl⟩) h.bounded rfl (fun _ _ _ => rfl)
    (fun _ => id) hmono,{hc with kept := fun x m hm he hl => hc.kept x m hm he ?_}⟩
  by_contra hne
  have hl : Function.update s.lost l true m = false := hl
  simp [hmono m (by simpa using hne)] at hl

theorem connect_informed (ht : s.step b lim (.connect x l) = some t) :
    t.Informed b ids ∧ t.Clients b := by
  have hsound := step_sound h.sound ht
  simp only [step,Option.ite_none_right_eq_some] at ht
  obtain ⟨⟨hsrc,hnew,hcur⟩,ht⟩ := ht
  obtain rfl := Option.some.inj ht
  have hmono (m : L) (hm : s.established m = true) :
      Function.update s.established l true m = true := by
    by_cases hl : m = l <;> simp [hl,hm]
  have hother {m : L} (hm : Function.update s.established l true m = true) (hml : m ≠ l) :
      s.established m = true := by simpa [hml] using hm
  refine ⟨h.outside hsound rfl (fun _ _ _ => ⟨rfl,rfl,rfl⟩) h.bounded rfl (fun v m hm => ?_)
    hmono fun _ => id,⟨fun y m hm => ?_,fun y m hm he hl => ?_,fun y m hm subject => ?_,
    fun y hy subject => ?_,fun y m hm he subject => ?_⟩⟩
  · have hml : m ≠ l := by rintro rfl; simp [hsrc] at hm
    simp [hml]
  · by_cases hyx : y = x
    · obtain rfl : l = m := by simpa [hyx] using hm
      exact ⟨hyx ▸ hsrc,by simp⟩
    · obtain ⟨hs,he⟩ := hc.current y m (by simpa [hyx] using hm)
      exact ⟨hs,hmono m he⟩
  · by_cases hml : m = l
    · obtain rfl : x = y := Sum.inr.inj (hsrc.symm.trans (hml ▸ hm))
      simp [hml]
    · have hk := hc.kept y m hm (hother he hml) hl
      have hyx : y ≠ x := by rintro rfl; simp [hcur] at hk
      simpa [hyx] using hk
  · by_cases hyx : y = x
    · obtain rfl : l = m := by simpa [hyx] using hm
      simpa [hyx] using hc.silent x l hsrc hnew subject
    · simpa [hyx] using hc.said y m (by simpa [hyx] using hm) subject
  · have hyx : y ≠ x := by rintro rfl; simp at hy
    simpa [hyx] using hc.unsaid y (by simpa [hyx] using hy) subject
  · refine hc.silent y m hm ?_ subject
    by_contra hne
    have he : Function.update s.established l true m = false := he
    simp [hmono m (by simpa using hne)] at he

theorem disconnect_informed (ht : s.step b lim (.disconnect x) = some t) :
    t.Informed b ids ∧ t.Clients b := by
  have hsound := step_sound h.sound ht
  obtain ⟨l,hcur,rfl⟩ := Option.map_eq_some_iff.mp ht
  have hmono (m : L) (hm : s.lost m = true) : Function.update s.lost l true m = true := by
    by_cases hl : m = l <;> simp [hl,hm]
  refine ⟨h.outside hsound rfl (fun _ _ _ => ⟨rfl,rfl,rfl⟩) h.bounded rfl (fun _ _ _ => rfl)
    (fun _ => id) hmono,⟨fun y m hm => ?_,fun y m hm he hl => ?_,fun y m hm subject => ?_,
    fun y hy subject => ?_,hc.silent⟩⟩
  · have hyx : y ≠ x := by rintro rfl; simp at hm
    exact hc.current y m (by simpa [hyx] using hm)
  · have hml : m ≠ l := by rintro rfl; simp at hl
    have hk := hc.kept y m hm he (by simpa [hml] using hl)
    have hyx : y ≠ x := by
      rintro rfl
      exact hml (Option.some.inj (hk.symm.trans hcur))
    simpa [hyx] using hk
  · have hyx : y ≠ x := by rintro rfl; simp at hm
    simpa [hyx] using hc.said y m (by simpa [hyx] using hm) subject
  · by_cases hyx : y = x
    · simp [hyx]
    · simpa [hyx] using hc.unsaid y (by simpa [hyx] using hy) subject

theorem subscription_informed {subject : Str} {subscribe : Bool}
    (ht : s.step b lim (.subscription x subject subscribe) = some t) :
    t.Informed b ids ∧ t.Clients b := by
  have hsound := step_sound h.sound ht
  obtain ⟨u,hu,rfl⟩ := Option.map_eq_some_iff.mp ht
  obtain ⟨hi,l,hl,rfl⟩ := clientSend_informed h hc hu {hsound with}
  refine ⟨{hi with sound := hsound},{hc with
    said := fun y m hm t => ?_,unsaid := fun y hy t => ?_,silent := fun y m hm he t => ?_}⟩
  · refine (hc.lastSaid_sent hl _ t m).trans ?_
    by_cases hyx : y = x
    · subst y
      obtain rfl : l = m := Option.some.inj (hl.symm.trans hm)
      by_cases hts : t = subject
      · simp [about,hts]
      · simp [about,hts,Ne.symm hts]
    · have hml : m ≠ l := by
        rintro rfl
        exact hyx (Sum.inr.inj ((hc.current y m hm).1.symm.trans (hc.current x m hl).1))
      simpa [hyx,hml] using hc.said y m hm t
  · have hyx : y ≠ x := by rintro rfl; simp [hl] at hy
    simpa [hyx] using hc.unsaid y hy t
  · have hml : m ≠ l := by rintro rfl; simp [(hc.current x m hl).2] at he
    exact (hc.lastSaid_sent hl _ t m).trans (by simpa [hml] using hc.silent y m hm he t)

theorem publish_informed {subject : Str} {payload : P}
    (ht : s.step b lim (.publish x subject payload) = some t) :
    t.Informed b ids ∧ t.Clients b := by
  obtain ⟨hi,l,hl,rfl⟩ := clientSend_informed h hc ht (step_sound h.sound ht)
  have hsame (t : Str) (m : L) : lastSaid false t (Function.update s.sent ⟨l,.target⟩
      (s.sent ⟨l,.target⟩++[.publish subject payload]) ⟨m,.target⟩) =
        lastSaid false t (s.sent ⟨m,.target⟩) := by
    refine (hc.lastSaid_sent hl _ t m).trans ?_
    split
    · rename_i hml
      simpa [hml,about] using (hc.said x l hl t).symm
    · rfl
  exact ⟨hi,{hc with
    said := fun y m hm t => (hsame t m).trans (hc.said y m hm t)
    silent := fun y m hm he t => (hsame t m).trans (hc.silent y m hm he t)}⟩

end ClientSteps

theorem step_informed {a : Action V X L I Q P} (h : s.Informed b ids) (hc : s.Clients b)
    (hcalm : s.overflows b lim a = false) (ht : s.step b lim a = some t) :
    t.Informed b ids ∧ t.Clients b := by
  cases a with
  | node v ev =>
    obtain ⟨sends,hn⟩ := step_node ht
    exact hn.keeps h hc hcalm
  | deliver e => exact deliver_informed h hc hcalm ht
  | breakLink l => exact breakLink_informed h hc ht
  | connect x l => exact connect_informed h hc ht
  | disconnect x => exact disconnect_informed h hc ht
  | subscription x subject subscribe => exact subscription_informed h hc ht
  | publish x subject payload => exact publish_informed h hc ht

/-- The links in use: between nodes those that are accepted, and for each client
its current connection. -/
def Linked (b : Bus V X L) (s : Network V X L I Q P) (l : L) : Prop :=
  s.Accepted b l ∨ ∃ x, s.current x = some l

/-- The tables are exact: a connection is tagged under a subject exactly if it leads to
a client that has subscribed to it. -/
def Exact (b : Bus V X L) (s : Network V X L I Q P) : Prop :=
  ∀ v e u, e ∈ (s.node v).subscribers u ↔ b.owner e = .inl v ∧
    ∃ x, s.said x u = true ∧ b.topology.Reach (s.Linked b) (.inr x) e

/-- No connection is pending or draining, and every loss has been noticed at both ends. -/
structure Stable (s : Network V X L I Q P) : Prop where
  settled : ∀ v c, (s.node v).pending c = none ∧ (s.node v).draining c = none
  noticed : ∀ e, s.lost e.link = true → (∀ v, e ∉ (s.node v).allConnections ∧
    (s.node v).closing e = false) ∧ ∀ x, s.current x ≠ some e.link

structure Quiet (s : Network V X L I Q P) : Prop extends s.Stable where
  arrived : ∀ e, s.lost e.link = false → s.inFlight e = []

section

omit [DecidableEq V] [DecidableEq X] [DecidableEq L] [DecidableEq I] [DecidableEq Q]

theorem Leaves.current_of_linked (hc : s.Leaves b) {l : L} (hl : s.Linked b l) {x : X}
    (hx : b.source l = .inr x) : s.current x = some l := by
  rcases hl with ⟨v,hv,-⟩ | ⟨y,hy⟩
  · simp [hx] at hv
  · obtain rfl : y = x := Sum.inr.inj ((hc y l hy).symm.trans hx)
    exact hy

theorem Leaves.accepted_of_linked (hc : s.Leaves b) {e : End L} (hl : s.Linked b e.link) {v w : V}
    (hv : b.owner e = .inl v) (hw : b.owner e.flip = .inl w) : s.Accepted b e.link := by
  refine hl.resolve_right ?_
  rintro ⟨x,hx⟩
  have hsrc := hc x e.link hx
  cases hs : e.side
  · simp [b.owner_source hs,hsrc] at hv
  · simp [b.owner_source (e := e.flip) (by simp [End.flip,hs,Side.flip]),hsrc] at hw

/-- A client is a leaf: no walk goes on through it. -/
theorem Leaves.leaf (hc : s.Leaves b) {e f : End L} (he : s.Linked b e.link)
    (hf : s.Linked b f.link) {x : X} (hx : b.owner e.flip = .inr x) :
    ¬b.topology.Follows e f := by
  intro hfol
  obtain ⟨hside,hsrc⟩ := Bus.source_of_owner hx
  obtain ⟨hfside,hfsrc⟩ := Bus.source_of_owner (hfol.1.trans hx)
  have hcur := hc.current_of_linked he hsrc
  have hlink : f.link = e.link :=
    Option.some.inj ((hc.current_of_linked hf hfsrc).symm.trans hcur)
  refine hfol.2 ?_
  cases f
  cases e
  cases hlink
  cases hfside
  simp [End.flip,← hside]

theorem Leaves.acyclic (hc : s.Leaves b) (ha : b.topology.Acyclic (s.Accepted b)) :
    b.topology.Acyclic (s.Linked b) := by
  intro es hcyc hg
  have hno : ∀ e ∈ es, ∀ x, b.owner e ≠ .inr x := by
    intro e he x hx
    obtain ⟨hside,hsrc⟩ := Bus.source_of_owner hx
    obtain ⟨f,hfm,hf,hfe⟩ := hcyc.before b.topology he
    obtain ⟨hfs,hfsrc⟩ := Bus.source_of_owner (hf.trans hx)
    have hel := hc.current_of_linked (hg e he) hsrc
    have hfl := hc.current_of_linked (hg f hfm) hfsrc
    rcases hfe with rfl | hne
    · simp [hside,Side.flip,End.flip] at hfs
    · exact hne (Option.some.inj (hfl.symm.trans hel))
  refine ha es hcyc fun e he => (hg e he).resolve_right ?_
  rintro ⟨x,hx⟩
  have hsrc := hc x e.link hx
  cases hs : e.side with
  | source => exact hno e he x (by rw [b.owner_source hs,hsrc])
  | target =>
    obtain ⟨f,hfm,hf⟩ := hcyc.after b.topology he
    refine hno f hfm x (hf.trans ?_)
    rw [← hsrc]
    exact b.owner_source (by simp [End.flip,hs,Side.flip])

theorem Stable.not_lost (hq : s.Stable) {v : V} {e : End L} (he : e ∈ (s.node v).allConnections) :
    s.lost e.link = false := by
  by_contra hne
  exact ((hq.noticed e (by simpa using hne)).1 v).1 he

end

section

omit [DecidableEq I] [DecidableEq Q]

theorem Stable.tagged_listed (hq : s.Stable) (h : s.Informed b ids) {v : V} {e : End L}
    {subject : Str} (he : e ∈ (s.node v).subscribers subject) : e ∈ (s.node v).allConnections := by
  refine ((h.tables v).gone e subject he).resolve_right fun hc => ?_
  simp [((hq.noticed e (h.sound.closing v e hc)).1 v).2] at hc

/-- An end over which something was sent, and not lost, is listed. -/
theorem Quiet.sent_listed (hq : s.Quiet) (h : s.Informed b ids) {v : V} {e : End L}
    (hv : b.owner e = .inl v) (hl : s.lost e.link = false) (hne : s.sent e ≠ []) :
    e ∈ (s.node v).allConnections := by
  refine h.listed v e hv ?_ hl
  by_contra hb
  have hr := h.unread v e hv (by simpa using hb)
  have ha := hq.arrived e hl
  rw [inFlight,hr,List.drop_zero] at ha
  exact hne ha

theorem Quiet.accepted_listed (hq : s.Quiet) (h : s.Informed b ids) {v : V} {e : End L}
    (hv : b.owner e = .inl v) (ha : s.Accepted b e.link) : e ∈ (s.node v).allConnections := by
  obtain ⟨w,hw,hlist,-,hlost⟩ := ha
  obtain ⟨l,side⟩ := e
  cases side with
  | source =>
    obtain rfl : v = w := Sum.inl.inj (hv.symm.trans ((b.owner_source rfl).trans hw))
    exact CheckState.mem_allConnections.mpr (.inr hlist)
  | target =>
    have hbegun := (h.sound.known w ⟨l,.source⟩ (.inl (CheckState.mem_allConnections.mpr (.inr hlist)))).2
    exact hq.sent_listed h hv hlost (h.greeted w l hw hbegun)

theorem Stable.linked (hq : s.Stable) (h : s.Informed b ids) (hc : s.Clients b) {v : V} {e : End L}
    (he : e ∈ (s.node v).allConnections) : s.Linked b e.link := by
  have source {w : V} {l : L} (hl : (⟨l,.source⟩ : End L) ∈ (s.node w).allConnections) :
      s.Accepted b l := by
    have hown := (h.sound.known w _ (.inl hl)).1
    rw [b.owner_source rfl] at hown
    refine ⟨w,hown,?_,(hq.settled w _).1,hq.not_lost hl⟩
    refine (CheckState.mem_allConnections.mp hl).resolve_left fun hd => ?_
    simpa using ((h.sound.node w).downstream _ hd).2
  have hbegun := (h.sound.known v e (.inl he)).2
  obtain ⟨l,side⟩ := e
  cases side with
  | source => exact .inl (source he)
  | target =>
    have hest := h.joined l hbegun
    have hlost := hq.not_lost he
    cases hsrc : b.source l with
    | inl w =>
      exact .inl (source (h.listed w ⟨l,.source⟩ ((b.owner_source rfl).trans hsrc) hest hlost))
    | inr x => exact .inr ⟨x,hc.kept x l hsrc hest hlost⟩

/-- A connection is tagged if the last message about the subject that its peer sent
was a subscribe. -/
theorem Quiet.tagged_iff (hq : s.Quiet) (h : s.Informed b ids) {v : V} {e : End L}
    (he : e ∈ (s.node v).allConnections) (subject : Str) :
    e ∈ (s.node v).subscribers subject ↔ lastSaid false subject (s.sent e) = true := by
  have hown := (h.sound.known v e (.inl he)).1
  have hdel : s.delivered e = s.sent e := by
    have ha := hq.arrived e (hq.not_lost he)
    rw [inFlight,List.drop_eq_nil_iff] at ha
    exact List.take_of_length_le ha
  have hheard := (h.tables v).heard e (PubSubNode.mem_active.mpr ⟨he,(hq.settled v e).1⟩) subject
  rwa [receivedBy,if_pos hown,hdel] at hheard

theorem Quiet.said_iff (hq : s.Quiet) (h : s.Informed b ids) {v : V} {e : End L}
    (he : e ∈ (s.node v).allConnections) (subject : Str) :
    lastSaid false subject (s.sent e.flip) = true ↔
      ∃ d ∈ (s.node v).subscribers subject, d ≠ e := by
  have hown := (h.sound.known v e (.inl he)).1
  have htold := (h.tables v).told e (PubSubNode.mem_active.mpr ⟨he,(hq.settled v e).1⟩) subject
  rw [queuedBy,if_pos hown] at htold
  rw [htold]
  exact Interest.others_eq_true

theorem Quiet.tagged_node (hq : s.Quiet) (h : s.Informed b ids) {v w : V} {e : End L}
    (hv : b.owner e = .inl v) (hw : b.owner e.flip = .inl w) (ha : s.Accepted b e.link)
    (subject : Str) : e ∈ (s.node v).subscribers subject ↔
      ∃ d ∈ (s.node w).subscribers subject, d ≠ e.flip := by
  have hs := hq.said_iff h (hq.accepted_listed h hw ha) subject
  rw [End.flip_flip] at hs
  exact (hq.tagged_iff h (hq.accepted_listed h hv ha) subject).trans hs

theorem Quiet.tagged_client (hq : s.Quiet) (h : s.Informed b ids) (hc : s.Clients b) {v : V}
    {x : X} {e : End L} (hv : b.owner e = .inl v) (hx : b.owner e.flip = .inr x)
    (hl : s.Linked b e.link) (subject : Str) :
    e ∈ (s.node v).subscribers subject ↔ s.said x subject = true := by
  obtain ⟨hside,hsrc⟩ := Bus.source_of_owner hx
  have hcur := hc.leaves.current_of_linked hl hsrc
  obtain ⟨l,side⟩ := e
  obtain rfl : side = .target := by cases side <;> simp_all [End.flip,Side.flip]
  rw [← hc.said x l hcur subject]
  by_cases he : (⟨l,.target⟩ : End L) ∈ (s.node v).allConnections
  · exact hq.tagged_iff h he subject
  · have hlost : s.lost l = false := by
      by_contra hne
      exact (hq.noticed ⟨l,.target⟩ (by simpa using hne)).2 x hcur
    have hnil : s.sent ⟨l,.target⟩ = [] := by
      by_contra hne
      exact he (hq.sent_listed h hv hlost hne)
    simp only [hnil,lastSaid_nil,Bool.false_eq_true,iff_false]
    exact fun ht => he (hq.tagged_listed h ht)

/-- What is tagged leads to a client that has subscribed. -/
theorem Quiet.tagged_reach [Finite V] (hq : s.Quiet) (h : s.Informed b ids) (hc : s.Clients b)
    (ha : b.topology.Acyclic (s.Linked b)) {v : V} {e : End L} {subject : Str}
    (he : e ∈ (s.node v).subscribers subject) :
    ∃ x, s.said x subject = true ∧ b.topology.Reach (s.Linked b) (.inr x) e := by
  have hkind : ∀ e, (∃ v, e ∈ (s.node v).subscribers subject) →
      s.Linked b e.link ∧ b.topology.owner e ∈ Set.range Sum.inl := by
    rintro e ⟨v,he⟩
    have hlist := hq.tagged_listed h he
    exact ⟨hq.linked h hc hlist,v,(h.sound.known v e (.inl hlist)).1.symm⟩
  have hstep : ∀ e, (∃ v, e ∈ (s.node v).subscribers subject) →
      (∃ x, b.topology.peer e = .inr x ∧ s.said x subject = true) ∨
        ∃ f, b.topology.Follows e f ∧ ∃ v, f ∈ (s.node v).subscribers subject := by
    rintro e ⟨v,he⟩
    have hlist := hq.tagged_listed h he
    have hl := hq.linked h hc hlist
    have hv := (h.sound.known v e (.inl hlist)).1
    cases hp : b.owner e.flip with
    | inl w =>
      obtain ⟨d,hd,hne⟩ :=
        (hq.tagged_node h hv hp (hc.leaves.accepted_of_linked hl hv hp) subject).mp he
      exact .inr ⟨d,⟨(h.sound.known w d (.inl (hq.tagged_listed h hd))).1.trans hp.symm,hne⟩,w,hd⟩
    | inr x => exact .inl ⟨x,hp,(hq.tagged_client h hc hv hp hl subject).mp he⟩
  obtain ⟨u,⟨x,rfl,hx⟩,hr⟩ := b.topology.reach_of_forward ha (Set.finite_range Sum.inl)
    (fun e => ∃ v, e ∈ (s.node v).subscribers subject)
    (fun u => ∃ x, u = .inr x ∧ s.said x subject = true) hkind hstep ⟨v,he⟩
  exact ⟨x,hx,hr⟩

/-- An end that leads to a client that has subscribed is tagged. -/
theorem Quiet.reach_tagged (hq : s.Quiet) (h : s.Informed b ids) (hc : s.Clients b) {x : X}
    {subject : Str} (hx : s.said x subject = true) {e : End L}
    (hr : b.topology.Reach (s.Linked b) (.inr x) e) {v : V} (hv : b.owner e = .inl v) :
    e ∈ (s.node v).subscribers subject := by
  induction hr generalizing v with
  | here hl hp => exact (hq.tagged_client h hc hv hp hl subject).mpr hx
  | @step e f hl hf hr ih =>
    cases hp : b.owner e.flip with
    | inl w =>
      have ha := hc.leaves.accepted_of_linked hl hv hp
      exact (hq.tagged_node h hv hp ha subject).mpr ⟨f,ih (hf.1.trans hp),hf.2⟩
    | inr y => exact absurd hf (hc.leaves.leaf hl hr.good hp)

end

/-- Once nothing is on its way, the tables are exact. -/
theorem tags_exact [Finite V] {as : List (Action V X L I Q P)}
    (hrun : run (step b lim) (init ids) as = some s)
    (hcalm : Guarded (step b lim) (fun s a => s.overflows b lim a = false) (init ids) as)
    (hq : s.Quiet) (ha : b.topology.Acyclic (s.Accepted b)) : s.Exact b := by
  have hinv : s.Informed b ids ∧ s.Clients b :=
    run_invariant (fun s a t h hok ht => step_informed h.1 h.2 hok ht) ⟨init_informed,init_clients⟩
      hcalm hrun
  obtain ⟨h,hc⟩ := hinv
  intro v e subject
  constructor
  · intro he
    exact ⟨(h.sound.known v e (.inl (hq.tagged_listed h he))).1,
      hq.tagged_reach h hc (hc.leaves.acyclic ha) he⟩
  · rintro ⟨hv,x,hx,hr⟩
    exact hq.reach_tagged h hc hx hr hv

def outpost : Bus (Fin 2) (Fin 1) (Fin 2) :=
  ⟨fun l => if l = 0 then .inl 0 else .inr 0,fun _ => 1⟩

/-- The client subscribes while the link is pending: node 0 holds what node 1 tells it. -/
def outpostRun : List (Action (Fin 2) (Fin 1) (Fin 2) (Fin 2) ℕ Unit) :=
  [.node 0 (.establish ⟨0,.source⟩),.node 1 (.accept ⟨0,.target⟩),.connect 0 1,
    .node 1 (.accept ⟨1,.target⟩),.subscription 0 [97] true,.deliver ⟨1,.target⟩,
    .deliver ⟨0,.source⟩,.deliver ⟨0,.source⟩,.deliver ⟨0,.target⟩,.deliver ⟨1,.source⟩,
    .node 0 (.beginCheck ⟨0,.source⟩),.node 0 .helloDone,.node 0 (.ask 0),.node 0 .resume]

theorem outpost_quiet {s : Network (Fin 2) (Fin 1) (Fin 2) (Fin 2) ℕ Unit}
    (hlost : ∀ l, s.lost l = false) (harrived : ∀ l side, s.inFlight ⟨l,side⟩ = [])
    (hsettled : ∀ v l side, ((s.node v).pending ⟨l,side⟩).isNone ∧
      ((s.node v).draining ⟨l,side⟩).isNone) : s.Quiet where
  arrived e _ := harrived e.link e.side
  settled v c := by simpa using hsettled v c.link c.side
  noticed e he := by simp [hlost] at he

theorem outpost_forest {s : Network (Fin 2) (Fin 1) (Fin 2) (Fin 2) ℕ Unit} :
    outpost.topology.Acyclic (s.Accepted outpost) := by
  have hfirst (l : Fin 2) (hl : s.Accepted outpost l) : l = 0 := by
    obtain ⟨v,hv,-⟩ := hl
    by_contra hne
    simp [outpost,hne] at hv
  refine outpost.topology.acyclic_of_ranking (fun _ => 0) (fun l m hl hm _ => ?_) (fun l hl => ?_)
    fun l _ e _ hr => Nat.lt_irrefl 0 hr.good.2
  · rw [hfirst l hl,hfirst m hm]
  · rw [hfirst l hl]
    exact fun h => absurd (Sum.inl.inj h) (by decide)

theorem tags_exact_outpost : ∃ s : Network (Fin 2) (Fin 1) (Fin 2) (Fin 2) ℕ Unit,
    run (step outpost ⟨5,100,fun _ => 1⟩) (init id) outpostRun = some s ∧
      ∃ x, s.said x [97] = true ∧
        outpost.topology.Reach (s.Linked outpost) (.inr x) ⟨0,.source⟩ := by
  have hrun := Option.some_get (show (run (step outpost ⟨5,100,fun _ => 1⟩) (init id)
    outpostRun).isSome by decide)
  exact ⟨_,hrun.symm,((tags_exact hrun.symm (by decide) (outpost_quiet (by decide) (by decide)
    (by decide)) outpost_forest 0 ⟨0,.source⟩ [97]).mp (by decide)).2⟩

end Network
end SoftwareBus
