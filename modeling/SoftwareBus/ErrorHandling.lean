import SoftwareBus.LiveLoops
import Mathlib.Data.Fintype.Basic

/-! Who closes a connection that is open and read, but that its client or node does not keep any
more: a call that is in the connection error callback for it. -/
namespace SoftwareBus

variable {C K D : Type}

namespace Connection

/-- The loop of a connection has met no error and has not ended. -/
def receiving (c : Connection D) : Bool :=
  match c.loop with
  | .reading | .callback => true
  | _ => false

theorem receiving_loopStep {c x : Connection D} {ev : LoopEvent D} (h : c.loopStep ev = some x)
    (hc : c.receiving = false) : x.receiving = false := by
  cases ev with
  | read =>
    simp only [loopStep] at h
    split at h <;> try contradiction
    simp only [Option.ite_none_right_eq_some] at h
    simp [receiving,h.1.1] at hc
  | feed d =>
    simp only [loopStep,Option.ite_none_right_eq_some,Option.some.injEq] at h
    obtain ⟨-,rfl⟩ := h
    exact hc
  | returned =>
    simp only [loopStep,Option.ite_none_right_eq_some,Option.some.injEq] at h
    simp [receiving,h.1.1] at hc
  | swallow =>
    simp only [loopStep,Option.ite_none_right_eq_some,Option.some.injEq] at h
    simp [receiving,h.1.1] at hc
  | escape | stop =>
    simp only [loopStep,Option.ite_none_right_eq_some,Option.some.injEq] at h
    obtain ⟨-,rfl⟩ := h
    rfl

/-- A connection that is open and read, as far as the connection itself tells. -/
structure IsRead (c : Connection D) : Prop where
  made : c.made = true
  isOpen : c.closing = false
  receiving : c.receiving = true

instance (c : Connection D) : Decidable c.IsRead :=
  decidable_of_iff (c.made = true ∧ c.closing = false ∧ c.receiving = true)
    ⟨fun ⟨hm,ho,hr⟩ => ⟨hm,ho,hr⟩,fun h => ⟨h.made,h.isOpen,h.receiving⟩⟩

theorem IsRead.of_loop {c x : Connection D} {ev : LoopEvent D} (h : c.loopStep ev = some x)
    (hx : x.IsRead) : c.IsRead := by
  obtain ⟨hm,hcl⟩ := loopStep_kept h
  refine ⟨hm ▸ hx.made,hcl ▸ hx.isOpen,?_⟩
  by_contra hr
  have hx' := hx.receiving
  simp [receiving_loopStep h (by simpa using hr)] at hx'

end Connection

variable [DecidableEq C] [DecidableEq K]

namespace BaseLayerClient

variable {s t : BaseLayerClient C K D} {a : ClientAction C K D}

omit [DecidableEq C] [DecidableEq K] in
def reporting (s : BaseLayerClient C K D) (k : K) : Option C :=
  match s.calls k with
  | some (.reporting c,_) => some c
  | _ => none

omit [DecidableEq C] [DecidableEq K] in
def InErrorCallback (s : BaseLayerClient C K D) (c : C) : Prop := ∃ k, s.reporting k = some c

instance [Fintype K] (s : BaseLayerClient C K D) (c : C) : Decidable (s.InErrorCallback c) :=
  inferInstanceAs (Decidable (∃ _, _))

omit [DecidableEq C] [DecidableEq K] in
/-- What a call that waits has done with the connection it waits for. -/
def HasClosed (s : BaseLayerClient C K D) : ClientCall C → Prop
  | .reporting c => (s.conn c).made = true
  | .closingFailed c | .closing c => (s.conn c).made = true ∧ (s.conn c).closing = true
  | _ => True

/-- A connection that is read is the client's, or a call handles an error of it. -/
structure Attended (s : BaseLayerClient C K D) : Prop where
  known : s.Known
  calls : ∀ k, ∀ w ∈ s.calls k, s.HasClosed w.1
  reads : ∀ c, (s.conn c).IsRead → s.connection = some c ∨ s.InErrorCallback c

omit [DecidableEq C] [DecidableEq K] in
theorem init_attended : (init : BaseLayerClient C K D).Attended :=
  ⟨init_known,by simp [init],fun c hc => by simpa [init,Connection.unmade] using hc.made⟩

theorem step_hasClosed (h : s.step a = some t) {call : ClientCall C} (hc : s.HasClosed call) :
    t.HasClosed call := by
  cases call with
  | reporting => exact step_made h hc
  | closingFailed | closing => exact ⟨step_made h hc.1,step_closing h hc.1 hc.2⟩
  | _ => trivial

omit [DecidableEq C] [DecidableEq K] in
/-- A call goes on from the connection error callback only with the connection closed. -/
def GoesOn (s t : BaseLayerClient C K D) (k : K) : Prop :=
  t.calls k = s.calls k ∨ (∀ w ∈ t.calls k, t.HasClosed w.1) ∧
    ∀ c, s.reporting k = some c → (t.conn c).closing = true

omit [DecidableEq C] in
theorem GoesOn.set {j : K} {w : Option (ClientCall C × Option C)}
    (ht : t.calls = Function.update s.calls j w) (hw : ∀ v ∈ w, t.HasClosed v.1)
    (hj : ∀ c, s.reporting j = some c → (t.conn c).closing = true) (k : K) : s.GoesOn t k := by
  by_cases hkj : k = j
  · subst j
    exact .inr ⟨by simpa [ht] using hw,hj⟩
  · exact .inl (by simp [ht,hkj])

theorem closeLost_goesOn (hs : s.Attended) {j : K} {d : C} {task : Option C}
    (hj : s.calls j = some (.reporting d,task)) (k : K) : s.GoesOn (s.closeLost j d task) k := by
  have hmade : (s.conn d).made = true := hs.calls j _ hj
  unfold closeLost
  split
  · exact .set rfl (by simp) (by simp [reporting,hj,finish,endCall,setConn]) k
  · exact .set rfl (by simpa [HasClosed,setCall,setConn] using hmade)
      (by simp [reporting,hj,setCall,setConn]) k

theorem step_goesOn (hs : s.Attended) (h : s.step a = some t) (k : K) : s.GoesOn t k := by
  have made {d : C} (hd : s.connection = some d) : (s.conn d).made = true :=
    hs.known.made d (hs.known.connected d hd).1
  cases step_outcome h with
  | connected | unconnected | loop | loopFailed | loopGone | loopReported | loopReportedAgain
  | loopClosed => exact .inl rfl
  | reported j d task hj | raised j d task hj => exact closeLost_goesOn hs hj k
  | sendFailed j d task hj hd =>
    exact .set rfl (by simpa [HasClosed,setCall,lose] using made hd) (by simp [reporting,hj]) k
  | interrupted j w hj hne =>
    refine .set rfl (by simp) (fun c hc => ?_) k
    unfold reporting at hc
    split at hc <;> try contradiction
    rename_i hd
    exact absurd (congrArg Prod.fst (Option.some.inj (hj.symm.trans hd))) (hne _)
  | close j task d hj hd =>
    refine .set rfl ?_ (by simp [reporting,hj]) k
    simpa [HasClosed,setCall,shut,setConn] using made hd
  | connect j task hj | discarded j d task hj | opened j d task hj | send j task d hj
  | sent j d task hj | sendGone j d task hj | closeNone j task hj | closeAgain j task d hj
  | closed j d task hj | closedFailed j d task hj | closedDiscarded j d task hj =>
    exact .set rfl (by simp [HasClosed]) (by simp [reporting,hj]) k

/-- A client gives up its connection only when an error of it is handled, or once it is closed. -/
theorem step_gives_up (hs : s.Attended) (hok : s.forgetsOther a = false) (h : s.step a = some t)
    {c : C} (hc : s.connection = some c) (hx : (t.conn c).IsRead) :
    t.connection = some c ∨ t.InErrorCallback c := by
  cases step_outcome h with
  | opened k d task hk hnew hnone => simp [hnone] at hc
  | closeNone k task hk hnone => simp [hnone] at hc
  | sendFailed k d task hk hd =>
    obtain rfl : c = d := Option.some.inj (hc.symm.trans hd)
    exact .inr ⟨k,by simp [reporting,setCall]⟩
  | loopFailed d hl hn hd =>
    obtain rfl : c = d := Option.some.inj (hc.symm.trans hd)
    simpa [setConn,Connection.receiving] using hx.receiving
  | closeAgain k task d hk hd =>
    obtain rfl : c = d := Option.some.inj (hc.symm.trans hd)
    simpa [forget,endCall,shut,setConn] using hx.isOpen
  | closed k d task hk =>
    obtain rfl : c = d := by simpa [forgetsOther,closing,hk,hc] using hok
    have hopen := hx.isOpen
    simp [forget,endCall,(hs.calls k _ hk).2] at hopen
  | reported k d task | raised k d task =>
    exact .inl ((congrArg ClientRecord.connection (closeLost_record s k d task)).trans hc)
  | _ => exact .inl hc

theorem step_attended (hs : s.Attended) (hok : s.forgetsOther a = false) (h : s.step a = some t) :
    t.Attended := by
  refine ⟨step_known hs.known h,fun k w hw => ?_,fun c hx => ?_⟩
  · rcases step_goesOn hs h k with hk | ⟨hk,-⟩
    · exact step_hasClosed h (hs.calls k w (hk ▸ hw))
    · exact hk w hw
  · have old (hold : (s.conn c).IsRead) : t.connection = some c ∨ t.InErrorCallback c := by
      rcases hs.reads c hold with hc | ⟨k,hk⟩
      · exact step_gives_up hs hok h hc hx
      · rcases step_goesOn hs h k with hsame | ⟨-,hcl⟩
        · exact .inr ⟨k,by simpa [reporting,hsame] using hk⟩
        · have hopen := hx.isOpen
          simp [hcl c hk] at hopen
    have hchange := step_conn h c
    generalize hy : t.conn c = y at hchange hx
    cases hchange with
    | same => exact old hx
    | loop ev x hev => exact old (.of_loop hev hx)
    | opened k hnone hnew =>
      cases step_outcome h with
      | discarded _ _ _ _ _ hsome => simp [hnone] at hsome
      | opened => exact .inl rfl
    | discarded | close | reported | reportedAgain => simpa using hx.isOpen
    | failed | gone | closed => simpa [Connection.receiving] using hx.receiving

end BaseLayerClient

namespace BaseLayerNode

variable {lim : NodeLimits D} {s t : BaseLayerNode C K D} {a : BaseAction C K D}

omit [DecidableEq C] [DecidableEq K] in
def reporting (s : BaseLayerNode C K D) (k : K) : Option C :=
  match s.calls k with
  | some (.reporting c _ _,_) => some c
  | _ => none

omit [DecidableEq C] [DecidableEq K] in
def InErrorCallback (s : BaseLayerNode C K D) (c : C) : Prop :=
  (∃ k, s.reporting k = some c) ∨ (s.conn c).sender = .reporting

instance [Fintype K] [DecidableEq D] (s : BaseLayerNode C K D) (c : C) :
    Decidable (s.InErrorCallback c) := inferInstanceAs (Decidable (_ ∨ _))

omit [DecidableEq C] [DecidableEq K] in
/-- What a call that waits has done with the connections it waits for. -/
def HasClosed (s : BaseLayerNode C K D) : NodeCall C D → Prop
  | .reporting c _ _ => (s.conn c).made = true
  | .closingFailed c _ _ | .closing c => (s.conn c).made = true ∧ (s.conn c).closing = true
  | .closingAll _ rest =>
    s.isClosed = true ∧ ∀ c ∈ s.allConnections, (s.conn c).closing = true ∨ c ∈ rest
  | .waiting => s.isClosed = true ∧ s.allConnections = []

/-- A connection that is read is listed, or a task handles an error of it. -/
structure Attended (s : BaseLayerNode C K D) : Prop where
  listed : s.Listed
  calls : ∀ k, ∀ w ∈ s.calls k, s.HasClosed w.1
  senders : ∀ c, (s.conn c).sender = .closing → (s.conn c).closing = true
  reads : ∀ c, (s.conn c).IsRead → c ∈ s.allConnections ∨ s.InErrorCallback c

omit [DecidableEq C] [DecidableEq K] in
theorem init_attended : (init : BaseLayerNode C K D).Attended :=
  ⟨init_listed,by simp [init],by simp [init,QueuedConnection.unmade],fun c hc => by
    simpa [init,QueuedConnection.unmade,Connection.unmade] using hc.made⟩

omit [DecidableEq K] in
theorem relayTo_kept (data : D) (cs : List C) :
    (s.relayTo lim data cs).1.calls = s.calls ∧
      (s.relayTo lim data cs).1.isClosed = s.isClosed := by
  induction cs generalizing s with
  | nil => exact ⟨rfl,rfl⟩
  | cons c cs ih =>
    simp only [relayTo]
    split
    · split
      · exact ⟨rfl,rfl⟩
      · exact ih (s := s.finish c)
    · exact ih (s := s.setConn c _)

omit [DecidableEq K] in
theorem closeAll_kept (task : Option (NodeTask C)) (cs : List C) :
    (s.closeAll task cs).1.calls = s.calls ∧ (s.closeAll task cs).1.isClosed = s.isClosed := by
  induction cs generalizing s with
  | nil => exact ⟨rfl,rfl⟩
  | cons c cs ih =>
    simp only [closeAll]
    split
    · exact ih (s := {s.shut c task with closed := Function.update s.closed c true})
    · exact ⟨rfl,rfl⟩

omit [DecidableEq K] in
theorem closeAll_closing {task : Option (NodeTask C)} {cs : List C} {o : Option (C × List C)}
    (h : s.closeAll task cs = (t,o)) {c : C} (hc : (s.conn c).closing = true) :
    (t.conn c).closing = true := by
  have hconn : Touched (⟨fun _ => 0,0,0⟩ : NodeLimits D) (fun _ => True) (s.conn c)
    ((s.closeAll task cs).1.conn c) := closeAll_conn task cs c fun _ => trivial
  rw [h] at hconn
  exact hconn.closing.1 hc

omit [DecidableEq K] in
/-- `close` waits for a connection with all before it closed, and clears the lists in the end. -/
theorem closeAll_closes (task : Option (NodeTask C)) (cs : List C) :
    (∀ u, s.closeAll task cs = (u,none) →
      u.allConnections = [] ∧ ∀ c ∈ cs, (u.conn c).closing = true) ∧
    ∀ u d rest, s.closeAll task cs = (u,some (d,rest)) →
      u.allConnections = s.allConnections ∧ ∀ c ∈ cs, (u.conn c).closing = true ∨ c ∈ rest := by
  induction cs generalizing s with
  | nil => simp [closeAll,NodeRecord.allConnections]
  | cons c cs ih =>
    have hclosed : ((s.shut c task).conn c).closing = true := by simp [shut,setConn]
    simp only [closeAll]
    split
    · let u : BaseLayerNode C K D := {s.shut c task with closed := Function.update s.closed c true}
      have hkeep {v : BaseLayerNode C K D} {o : Option (C × List C)}
          (hv : u.closeAll task cs = (v,o)) : (v.conn c).closing = true :=
        closeAll_closing hv hclosed
      obtain ⟨hnone,hsome⟩ := ih (s := u)
      refine ⟨fun v hv => ?_,fun v d rest hv => ?_⟩
      · obtain ⟨hall,hcs⟩ := hnone v hv
        exact ⟨hall,List.forall_mem_cons.mpr ⟨hkeep hv,hcs⟩⟩
      · obtain ⟨hall,hcs⟩ := hsome v d rest hv
        exact ⟨hall,List.forall_mem_cons.mpr ⟨.inl (hkeep hv),hcs⟩⟩
    · refine ⟨by simp,fun v d rest hv => ?_⟩
      obtain ⟨rfl,hd⟩ := Prod.mk.inj hv
      obtain ⟨rfl,rfl⟩ := Prod.mk.inj (Option.some.inj hd)
      exact ⟨rfl,List.forall_mem_cons.mpr ⟨.inl hclosed,fun e he => .inr he⟩⟩

omit [DecidableEq K] in
@[simp] theorem shut_made (c d : C) (task : Option (NodeTask C)) :
    ((s.shut c task).conn d).made = (s.conn d).made := by
  by_cases hdc : d = c <;> simp [shut,setConn,hdc]

/-- A call goes on from the connection error callback only with the connection closed. -/
def GoesOn (s t : BaseLayerNode C K D) (k : K) : Prop :=
  t.calls k = s.calls k ∨ (∀ w ∈ t.calls k, t.HasClosed w.1) ∧
    ∀ c, s.reporting k = some c → (t.conn c).closing = true

/-- A listed connection stays listed, or an error of it is handled, or it is not read any more. -/
def Keeps (s t : BaseLayerNode C K D) : Prop :=
  ∀ c ∈ s.allConnections, (t.conn c).IsRead → c ∈ t.allConnections ∨ t.InErrorCallback c

structure Handles (s t : BaseLayerNode C K D) : Prop where
  calls : ∀ k, s.GoesOn t k
  lists : s.Keeps t
  isClosed : s.isClosed = true → t.isClosed = true

omit [DecidableEq C] in
theorem GoesOn.set {j : K} {w : Option (NodeCall C D × Option (NodeTask C))}
    (ht : t.calls = Function.update s.calls j w) (hw : ∀ v ∈ w, t.HasClosed v.1)
    (hj : ∀ c, s.reporting j = some c → (t.conn c).closing = true) (k : K) : s.GoesOn t k := by
  by_cases hkj : k = j
  · subst j
    exact .inr ⟨by simpa [ht] using hw,hj⟩
  · exact .inl (by simp [ht,hkj])

theorem relay_handles (hs : s.Listed) {u : BaseLayerNode C K D}
    (hu : u.toNodeRecord = s.toNodeRecord) (hcalls : u.calls = s.calls)
    (hsame : u.isClosed = s.isClosed)
    (hmade : ∀ c, (s.conn c).made = true → (u.conn c).made = true) (j : K)
    (task : Option (NodeTask C)) (cs : List C) (data : D)
    (hj : ∀ c, s.reporting j = some c → (u.conn c).closing = true) :
    s.Handles (u.relay lim j task cs data) := by
  have hconn (c : C) : Touched lim (fun _ => True) (u.conn c)
    ((u.relay lim j task cs data).conn c) := relay_conn j task cs data c
  have hclosing (c : C) (hc : s.reporting j = some c) := (hconn c).closing.1 (hj c hc)
  have hkept := @relayTo_kept _ _ _ _ lim u data cs
  obtain ⟨hnone,hsome⟩ := @relayTo_record _ _ _ _ lim u data cs
  unfold relay at hconn hclosing ⊢
  match hr : u.relayTo lim data cs with
  | (v,none) =>
    simp only [hr] at hconn hclosing hkept ⊢
    have hall : (v.endCall j).allConnections = s.allConnections :=
      congrArg NodeRecord.allConnections ((hnone v hr).trans hu)
    have hset : (v.endCall j).calls = Function.update s.calls j none := by
      simp [endCall,hkept.1,hcalls]
    exact ⟨.set hset (by simp) hclosing,fun c hc _ => .inl (hall ▸ hc),(hkept.2.trans hsame).trans⟩
  | (v,some (d,rest)) =>
    simp only [hr] at hconn hclosing hkept ⊢
    obtain ⟨hd,hv⟩ := hsome v d rest hr
    rw [hu] at hd
    have hset : (v.setCall j (.reporting d rest data) task).calls =
        Function.update s.calls j (some (.reporting d rest data,task)) := by
      simp [setCall,hkept.1,hcalls]
    refine ⟨.set hset ?_ hclosing,fun c hc _ => ?_,(hkept.2.trans hsame).trans⟩
    · simpa [HasClosed] using (hconn d).loop.1.trans (hmade d (hs.made d hd))
    · by_cases hcd : c = d
      · subst d
        exact .inr (.inl ⟨j,by simp [reporting,setCall]⟩)
      · have hmem : c ∈ (s.unlist d).allConnections := (mem_unlist hs).mpr ⟨hc,hcd⟩
        have hall : v.allConnections = (s.unlist d).allConnections :=
          (congrArg NodeRecord.allConnections hv).trans (by
            simp only [lose,unlist,NodeRecord.allConnections,hu])
        have hmem' : c ∈ v.allConnections := hall ▸ hmem
        exact .inl hmem'

theorem closeRest_handles {u : BaseLayerNode C K D} (hall : u.allConnections = s.allConnections)
    (hcalls : u.calls = s.calls) (hu : u.isClosed = true) (j : K) (task : Option (NodeTask C))
    (cs : List C) (hcs : ∀ c ∈ u.allConnections, (u.conn c).closing = true ∨ c ∈ cs)
    (hj : s.reporting j = none) :
    s.Handles (u.closeRest j task cs) := by
  have hkept := closeAll_kept (s := u) task cs
  obtain ⟨hnone,hsome⟩ := closeAll_closes (s := u) task cs
  unfold closeRest
  match hr : u.closeAll task cs with
  | (v,none) =>
    simp only [hr] at hkept ⊢
    obtain ⟨hnil,hclosed⟩ := hnone v hr
    have hset : (v.setCall j .waiting task).calls =
        Function.update s.calls j (some (.waiting,task)) := by simp [setCall,hkept.1,hcalls]
    refine ⟨.set hset ?_ (by simp [hj]),fun c hc hx => ?_,fun _ => hkept.2.trans hu⟩
    · simpa [HasClosed,setCall] using And.intro (hkept.2.trans hu) hnil
    · have hclosing : (v.conn c).closing = true :=
        (hcs c (hall ▸ hc)).elim (closeAll_closing hr) (hclosed c)
      have hopen := hx.isOpen
      simp [setCall,hclosing] at hopen
  | (v,some (d,rest)) =>
    simp only [hr] at hkept ⊢
    obtain ⟨hsame,hclosed⟩ := hsome v d rest hr
    have hset : (v.setCall j (.closingAll d rest) task).calls =
        Function.update s.calls j (some (.closingAll d rest,task)) := by
      simp [setCall,hkept.1,hcalls]
    refine ⟨.set hset ?_ (by simp [hj]),fun c hc _ => ?_,fun _ => hkept.2.trans hu⟩
    · have hrest (c : C) (hc : c ∈ v.allConnections) : (v.conn c).closing = true ∨ c ∈ rest :=
        (hcs c (hsame ▸ hc)).elim (fun h => .inl (closeAll_closing hr h)) (hclosed c)
      simpa [HasClosed,setCall] using And.intro (hkept.2.trans hu) hrest
    · have hc' : c ∈ v.allConnections := hsame.trans hall ▸ hc
      exact .inl hc'

omit [DecidableEq K] in
/-- Unlisting a connection that is not read any more. -/
theorem keeps_unlist (hs : s.Listed) {c : C} (ht : t.allConnections = (s.unlist c).allConnections)
    (hc : (t.conn c).IsRead → t.InErrorCallback c) : s.Keeps t := by
  intro d hd hx
  by_cases hdc : d = c
  · subst d
    exact .inr (hc hx)
  · exact .inl (ht ▸ (mem_unlist hs).mpr ⟨hd,hdc⟩)

theorem closeLost_handles (hs : s.Attended) {j : K} {c : C} {rest rest' : List C} {data : D}
    {task : Option (NodeTask C)} (hj : s.calls j = some (.reporting c rest data,task)) :
    s.Handles (s.closeLost lim j task c rest' data) := by
  have hmade : (s.conn c).made = true := hs.calls j _ hj
  have hclosing : ((s.shut c task).conn c).closing = true := by simp [shut,setConn]
  have hj' (d : C) (hd : s.reporting j = some d) : ((s.shut c task).conn d).closing = true := by
    obtain rfl : c = d := by simpa [reporting,hj] using hd
    exact hclosing
  unfold closeLost
  split
  · exact relay_handles hs.listed (u := (s.shut c task).finish c) rfl rfl rfl (by simp [finish]) j
      task rest' data hj'
  · refine ⟨.set rfl ?_ hj',fun d hd _ => .inl hd,id⟩
    simpa [HasClosed,setCall] using And.intro hmade hclosing

theorem step_handles (hs : s.Attended) (h : s.step lim a = some t) : s.Handles t := by
  have listed {u : BaseLayerNode C K D} (hu : u.allConnections = s.allConnections) : s.Keeps u :=
    fun c hc _ => .inl (hu ▸ hc)
  have same {u : BaseLayerNode C K D} (hu : u.calls = s.calls) (k : K) : s.GoesOn u k :=
    .inl (congrFun hu k)
  cases step_outcome h with
  | startUpstream c | startDownstream c =>
    refine ⟨same rfl,fun d hd _ => .inl ?_,id⟩
    have hd := List.mem_append.mp hd
    simp only [NodeRecord.allConnections,setConn,List.mem_append]
    tauto
  | relay j task cs data hj =>
    exact relay_handles hs.listed rfl rfl rfl (fun _ => id) j task cs data (by simp [reporting,hj])
  | reported j c rest data task hj | raised j c rest data task hj => exact closeLost_handles hs hj
  | interrupted j w hj hne =>
    refine ⟨.set rfl (by simp) fun c hc => ?_,listed rfl,id⟩
    unfold reporting at hc
    split at hc <;> try contradiction
    rename_i hd
    exact absurd (congrArg Prod.fst (Option.some.inj (hj.symm.trans hd))) (hne _ _ _)
  | closeConnection j task c hj hc =>
    refine ⟨.set rfl ?_ (by simp [reporting,hj]),keeps_unlist hs.listed rfl fun hx => ?_,id⟩
    · simpa [HasClosed,setCall,shut,setConn,unlist] using hs.listed.made c hc
    · simpa [setCall,shut,setConn] using hx.isOpen
  | closeAgain j task c hj hc =>
    exact ⟨same rfl,keeps_unlist hs.listed rfl fun hx => by
      simpa [finish,shut,setConn] using hx.isOpen,id⟩
  | close j task hj =>
    exact closeRest_handles (s := s) (u := {s with isClosed := true}) rfl rfl rfl j task _
      (fun c hc => .inr hc) (by simp [reporting,hj])
  | closedFailed j c rest data task hj =>
    exact relay_handles hs.listed (u := s.finish c) rfl rfl rfl (fun _ => id) j task rest data
      (by simp [reporting,hj])
  | closed j c task hj | closedAll j task hj =>
    exact ⟨.set rfl (by simp) (by simp [reporting,hj]),listed rfl,id⟩
  | closedNext j c rest task hj =>
    obtain ⟨hclosed,hrest⟩ := hs.calls j _ hj
    exact closeRest_handles rfl rfl hclosed j task rest hrest (by simp [reporting,hj])
  | loopFailed c =>
    exact ⟨same rfl,keeps_unlist hs.listed rfl fun hx => by
      simpa [setConn,Connection.receiving] using hx.receiving,id⟩
  | sendFailed c =>
    exact ⟨same rfl,keeps_unlist hs.listed rfl fun _ => .inr (by simp [setConn]),id⟩
  | _ => exact ⟨same rfl,listed rfl,id⟩

theorem step_lists_closed (hs : s.Listed) (hc : s.isClosed = true) (h : s.step lim a = some t)
    {c : C} (hmem : c ∈ t.allConnections) : c ∈ s.allConnections := by
  have start {d : C} {up : Bool} (ha : a = .start d up) : t = s := by
    subst ha
    simp only [step,hc,if_true] at h
    split at h <;> try contradiction
    exact (Option.some.inj h).symm
  have hrec := step_record h
  generalize hr : t.toNodeRecord = r at hrec hmem
  cases hrec with
  | same | close => exact hmem
  | startUpstream d ha | startDownstream d ha =>
    rw [← hr,start ha] at hmem
    exact hmem
  | lose d | closeConnection d => exact ((mem_unlist hs).mp hmem).1
  | clear => simp [NodeRecord.allConnections] at hmem

theorem step_hasClosed (hs : s.Attended) (h : s.step lim a = some t) {call : NodeCall C D}
    (hc : s.HasClosed call) : t.HasClosed call := by
  cases call with
  | reporting => exact step_made h hc
  | closingFailed | closing => exact ⟨step_made h hc.1,step_closing h hc.1 hc.2⟩
  | closingAll c rest =>
    obtain ⟨hclosed,hrest⟩ := hc
    refine ⟨(step_handles hs h).isClosed hclosed,fun d hd => ?_⟩
    have hd := step_lists_closed hs.listed hclosed h hd
    exact (hrest d hd).imp_left (step_closing h (hs.listed.made d hd))
  | waiting =>
    obtain ⟨hclosed,hnil⟩ := hc
    refine ⟨(step_handles hs h).isClosed hclosed,List.eq_nil_iff_forall_not_mem.mpr fun d hd => ?_⟩
    simpa [hnil] using step_lists_closed hs.listed hclosed h hd

omit [DecidableEq C] [DecidableEq K] in
theorem Touched.sender {own : Bool → Prop} {x y : QueuedConnection D} (h : Touched lim own x y) :
    (y.sender = .closing → x.sender = .closing) ∧
      (x.sender = .reporting → y.sender = .reporting) := by
  induction h with
  | refl => exact ⟨id,id⟩
  | close ownLoop ownSender _ _ ih => exact ih
  | enqueue data _ _ ih =>
    refine ⟨fun hc => ih.1 ?_,fun hr => ?_⟩
    · unfold QueuedConnection.enqueue at hc
      split at hc <;> simp_all
    · unfold QueuedConnection.enqueue
      split <;> simp_all

omit [DecidableEq K] in
theorem Changes.closes {c : C} {x : QueuedConnection D} (h : s.Changes lim c a x)
    (hs : (s.conn c).sender = .closing → (s.conn c).closing = true) (hx : x.sender = .closing) :
    x.closing = true := by
  cases h with
  | touched h => exact h.closing.1 (hs (h.sender.1 hx))
  | loop ev y hy => exact (Connection.loopStep_kept hy).2.trans (hs hx)
  | failed | gone | closed => exact hs hx
  | reported | reportedAgain | sendReported => rfl
  | send hstart =>
    unfold QueuedConnection.sendNext at hx
    split at hx <;> contradiction
  | sent data hsend =>
    unfold QueuedConnection.taken QueuedConnection.sendNext at hx
    split at hx
    · contradiction
    · split at hx <;> contradiction
  | _ => contradiction

theorem step_attended (hs : s.Attended) (h : s.step lim a = some t) : t.Attended := by
  have hhandles := step_handles hs h
  refine ⟨step_listed hs.listed h,fun k w hw => ?_,
    fun c hc => (step_conn h c).closes (hs.senders c) hc,fun c hx => ?_⟩
  · rcases hhandles.calls k with hk | ⟨hk,-⟩
    · exact step_hasClosed hs h (hs.calls k w (hk ▸ hw))
    · exact hk w hw
  · have old (hold : (s.conn c).IsRead)
        (hsender : (s.conn c).sender = .reporting → (t.conn c).sender = .reporting) :
        c ∈ t.allConnections ∨ t.InErrorCallback c := by
      rcases hs.reads c hold with hc | ⟨k,hk⟩ | hr
      · exact hhandles.lists c hc hx
      · rcases hhandles.calls k with hsame | ⟨-,hcl⟩
        · exact .inr (.inl ⟨k,by simpa [reporting,hsame] using hk⟩)
        · have hopen := hx.isOpen
          simp [hcl c hk] at hopen
      · exact .inr (.inr (hsender hr))
    have hchange := step_conn h c
    generalize hy : t.conn c = y at hchange hx old
    cases hchange with
    | touched h =>
      obtain ⟨hm,hl,-,-⟩ := h.loop
      refine old ⟨hm ▸ hx.made,?_,?_⟩ h.sender.2
      · by_contra hcl
        simpa [h.closing.1 (by simpa using hcl)] using hx.isOpen
      · simpa [Connection.receiving,hl] using hx.receiving
    | started up hnew =>
      cases step_outcome h with
      | startClosed =>
        have hmade := congrArg (fun x : QueuedConnection D => x.made) hy
        simp [hnew,QueuedConnection.new,Connection.new] at hmade
      | startUpstream | startDownstream =>
        exact .inl (by simp [setConn,NodeRecord.allConnections])
    | loop ev x hev => exact old (.of_loop hev hx) id
    | failed | gone | closed => simpa [Connection.receiving] using hx.receiving
    | reported | reportedAgain | sendReported | sendReportedAgain => simpa using hx.isOpen
    | sendFailed => exact old hx fun _ => rfl
    | sendStopped hsend | send hsend | sent _ hsend | sendGone _ hsend | sendCancelled _ hsend
    | sendClosed hsend => exact old (by simpa using hx) (by simp [hsend])

end BaseLayerNode
end SoftwareBus
