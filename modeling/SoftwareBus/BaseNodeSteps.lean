import SoftwareBus.BaseLayerNode

/-! What a step of a base layer node does to its lists and to each connection. -/
namespace SoftwareBus
namespace BaseLayerNode

variable {C K D : Type} [DecidableEq C] [DecidableEq K] {lim : NodeLimits D}
  {s t : BaseLayerNode C K D} {a : BaseAction C K D}

/-- What a step can do, with what it has checked. -/
inductive Outcome (lim : NodeLimits D) (s : BaseLayerNode C K D) :
    BaseAction C K D → BaseLayerNode C K D → Prop
  | startClosed (c : C) (up : Bool) (hclosed : s.isClosed = true) : s.Outcome lim (.start c up) s
  | startUpstream (c : C) (hnew : (s.conn c).made = false) :
    s.Outcome lim (.start c true)
      {s.setConn c .new with upstreamConnections := s.upstreamConnections++[c]}
  | startDownstream (c : C) (hnew : (s.conn c).made = false) :
    s.Outcome lim (.start c false)
      {s.setConn c .new with downstreamConnections := s.downstreamConnections++[c]}
  | relayLong (k : K) (task : Option (NodeTask C)) (cs : List C) (data : D)
    (hlen : lim.maxPayloadLength < lim.length data) : s.Outcome lim (.relay k task cs data) s
  | relay (k : K) (task : Option (NodeTask C)) (cs : List C) (data : D) (hk : s.calls k = none)
    (hlen : ¬lim.maxPayloadLength < lim.length data) :
    s.Outcome lim (.relay k task cs data) (s.relay lim k task cs data)
  | reported (k : K) (c : C) (rest : List C) (data : D) (task : Option (NodeTask C))
    (hk : s.calls k = some (.reporting c rest data,task)) :
    s.Outcome lim (.reported k) (s.closeLost lim k task c rest data)
  | raised (k : K) (c : C) (rest : List C) (data : D) (task : Option (NodeTask C))
    (hk : s.calls k = some (.reporting c rest data,task)) :
    s.Outcome lim (.interrupt k) (s.closeLost lim k task c [] data)
  | interrupted (k : K) (w : NodeCall C D × Option (NodeTask C)) (hk : s.calls k = some w)
    (hw : ∀ c rest data, w.1 ≠ .reporting c rest data) :
    s.Outcome lim (.interrupt k) (s.endCall k)
  | closeConnection (k : K) (task : Option (NodeTask C)) (c : C) (hk : s.calls k = none)
    (hc : c ∈ s.allConnections) (hopen : (s.conn c).closing = false) :
    s.Outcome lim (.closeConnection k task c)
      ({(s.unlist c).shut c task with closed := Function.update s.closed c true}.setCall k
        (.closing c) task)
  | closeAgain (k : K) (task : Option (NodeTask C)) (c : C) (hk : s.calls k = none)
    (hc : c ∈ s.allConnections) (hclosing : (s.conn c).closing = true) :
    s.Outcome lim (.closeConnection k task c)
      ({(s.unlist c).shut c task with closed := Function.update s.closed c true}.finish c)
  | closeGone (k : K) (task : Option (NodeTask C)) (c : C) (hk : s.calls k = none)
    (hc : c ∉ s.allConnections) : s.Outcome lim (.closeConnection k task c) (s.finish c)
  | close (k : K) (task : Option (NodeTask C)) (hk : s.calls k = none) :
    s.Outcome lim (.close k task) ({s with isClosed := true}.closeRest k task s.allConnections)
  | closedFailed (k : K) (c : C) (rest : List C) (data : D) (task : Option (NodeTask C))
    (hk : s.calls k = some (.closingFailed c rest data,task)) :
    s.Outcome lim (.closed k) ((s.finish c).relay lim k task rest data)
  | closed (k : K) (c : C) (task : Option (NodeTask C)) (hk : s.calls k = some (.closing c,task)) :
    s.Outcome lim (.closed k) ((s.endCall k).finish c)
  | closedNext (k : K) (c : C) (rest : List C) (task : Option (NodeTask C))
    (hk : s.calls k = some (.closingAll c rest,task)) :
    s.Outcome lim (.closed k) (s.closeRest k task rest)
  | closedAll (k : K) (task : Option (NodeTask C)) (hk : s.calls k = some (.waiting,task)) :
    s.Outcome lim (.closed k) {s.endCall k with finished := fun c => s.finished c || (s.conn c).made}
  | loop (c : C) (ev : LoopEvent D) (x : Connection D) (hx : (s.conn c).loopStep ev = some x) :
    s.Outcome lim (.loop c ev) (s.setConn c {s.conn c with toConnection := x})
  | loopFailed (c : C) (hl : (s.conn c).loop = .reading) (hn : (s.conn c).cancelled = false)
    (hc : c ∈ s.allConnections) :
    s.Outcome lim (.loopFailed c) ((s.lose c).setConn c {s.conn c with loop := .reporting})
  | loopGone (c : C) (hl : (s.conn c).loop = .reading) (hn : (s.conn c).cancelled = false)
    (hc : c ∉ s.allConnections) :
    s.Outcome lim (.loopFailed c) ((s.setConn c {s.conn c with loop := .ended}).finish c)
  | loopReported (c : C) (hl : (s.conn c).loop = .reporting) (hopen : (s.conn c).closing = false) :
    s.Outcome lim (.loopReported c)
      (s.setConn c {(s.conn c).close true false with loop := .closing})
  | loopReportedAgain (c : C) (hl : (s.conn c).loop = .reporting)
    (hclosing : (s.conn c).closing = true) :
    s.Outcome lim (.loopReported c)
      ((s.setConn c {(s.conn c).close true false with loop := .ended}).finish c)
  | loopClosed (c : C) (hl : (s.conn c).loop = .closing) :
    s.Outcome lim (.loopClosed c) ((s.setConn c {s.conn c with loop := .ended}).finish c)
  | send (c : C) (hs : (s.conn c).sender = .starting) (hn : (s.conn c).senderCancelled = false) :
    s.Outcome lim (.send c) (s.setConn c (s.conn c).sendNext)
  | sendStopped (c : C) (hs : (s.conn c).sender = .starting)
    (hn : (s.conn c).senderCancelled = true) :
    s.Outcome lim (.send c) (s.setConn c (s.conn c).endSender)
  | sent (c : C) (data : D) (hs : (s.conn c).sender = .sending data) :
    s.Outcome lim (.sent c) (s.setConn c ((s.conn c).taken (lim.length data)))
  | sendFailed (c : C) (data : D) (hs : (s.conn c).sender = .sending data)
    (hc : c ∈ s.allConnections) :
    s.Outcome lim (.sendFailed c) ((s.lose c).setConn c {s.conn c with sender := .reporting})
  | sendGone (c : C) (data : D) (hs : (s.conn c).sender = .sending data)
    (hc : c ∉ s.allConnections) :
    s.Outcome lim (.sendFailed c) ((s.setConn c (s.conn c).endSender).finish c)
  | sendCancelled (c : C) (data : D) (hs : (s.conn c).sender = .sending data)
    (hn : (s.conn c).senderCancelled = true) :
    s.Outcome lim (.sendCancelled c) (s.setConn c (s.conn c).endSender)
  | sendReported (c : C) (hs : (s.conn c).sender = .reporting)
    (hopen : (s.conn c).closing = false) :
    s.Outcome lim (.sendReported c)
      (s.setConn c {(s.conn c).close false true with sender := .closing})
  | sendReportedAgain (c : C) (hs : (s.conn c).sender = .reporting)
    (hclosing : (s.conn c).closing = true) :
    s.Outcome lim (.sendReported c)
      ((s.setConn c ((s.conn c).close false true).endSender).finish c)
  | sendClosed (c : C) (hs : (s.conn c).sender = .closing) :
    s.Outcome lim (.sendClosed c) ((s.setConn c (s.conn c).endSender).finish c)

section Outcome

variable {c : C} {k : K} {task : Option (NodeTask C)}

theorem start_outcome {up : Bool} (h : s.step lim (.start c up) = some t) :
    s.Outcome lim (.start c up) t := by
  simp only [step] at h
  split at h <;> try contradiction
  rename_i hmade
  have hnew : (s.conn c).made = false := by simpa using hmade
  split at h <;> obtain rfl := Option.some.inj h
  · exact .startClosed c up ‹_›
  · cases up
    · exact .startDownstream c hnew
    · exact .startUpstream c hnew

theorem relay_outcome {cs : List C} {data : D} (h : s.step lim (.relay k task cs data) = some t) :
    s.Outcome lim (.relay k task cs data) t := by
  simp only [step,Option.ite_none_right_eq_some,Option.some.injEq,Option.isNone_iff_eq_none] at h
  obtain ⟨⟨hk,-⟩,rfl⟩ := h
  split
  · exact .relayLong k task cs data ‹_›
  · exact .relay k task cs data hk ‹_›

theorem closeConnection_outcome (h : s.step lim (.closeConnection k task c) = some t) :
    s.Outcome lim (.closeConnection k task c) t := by
  simp only [step,Option.ite_none_right_eq_some,Option.isNone_iff_eq_none] at h
  obtain ⟨⟨hk,-⟩,h⟩ := h
  split at h <;> rename_i hc <;> obtain rfl := Option.some.inj h
  · split
    · exact .closeAgain k task c hk hc ‹_›
    · rename_i hopen
      exact .closeConnection k task c hk hc (by simpa using hopen)
  · exact .closeGone k task c hk hc

theorem closed_outcome (h : s.step lim (.closed k) = some t) : s.Outcome lim (.closed k) t := by
  simp only [step] at h
  split at h <;> try contradiction
  all_goals rename_i hk; obtain rfl := Option.some.inj h
  · exact .closedFailed k _ _ _ _ hk
  · exact .closed k _ _ hk
  · exact .closedNext k _ _ _ hk
  · exact .closedAll k _ hk

theorem interrupt_outcome (h : s.step lim (.interrupt k) = some t) :
    s.Outcome lim (.interrupt k) t := by
  simp only [step] at h
  split at h <;> try contradiction
  · obtain rfl := Option.some.inj h
    exact .raised k _ _ _ _ ‹_›
  · rename_i w hne hk
    obtain rfl := Option.some.inj h
    exact .interrupted k w hk fun c rest data hw => hne c rest data w.2 (Prod.ext hw rfl)

theorem loopFailed_outcome (h : s.step lim (.loopFailed c) = some t) :
    s.Outcome lim (.loopFailed c) t := by
  simp only [step,Option.ite_none_right_eq_some,Option.some.injEq] at h
  obtain ⟨⟨hl,hn⟩,rfl⟩ := h
  split
  · exact .loopFailed c hl hn ‹_›
  · exact .loopGone c hl hn ‹_›

theorem loopReported_outcome (h : s.step lim (.loopReported c) = some t) :
    s.Outcome lim (.loopReported c) t := by
  simp only [step,Option.ite_none_right_eq_some,Option.some.injEq] at h
  obtain ⟨hl,rfl⟩ := h
  split
  · exact .loopReportedAgain c hl ‹_›
  · rename_i hopen
    exact .loopReported c hl (by simpa using hopen)

theorem send_outcome (h : s.step lim (.send c) = some t) : s.Outcome lim (.send c) t := by
  simp only [step] at h
  split at h <;> try contradiction
  obtain rfl := Option.some.inj h
  split
  · exact .sendStopped c ‹_› ‹_›
  · rename_i hn
    exact .send c ‹_› (by simpa using hn)

theorem sendFailed_outcome (h : s.step lim (.sendFailed c) = some t) :
    s.Outcome lim (.sendFailed c) t := by
  simp only [step] at h
  split at h <;> try contradiction
  obtain rfl := Option.some.inj h
  split
  · exact .sendFailed c _ ‹_› ‹_›
  · exact .sendGone c _ ‹_› ‹_›

theorem sendReported_outcome (h : s.step lim (.sendReported c) = some t) :
    s.Outcome lim (.sendReported c) t := by
  simp only [step] at h
  split at h <;> try contradiction
  obtain rfl := Option.some.inj h
  split
  · exact .sendReportedAgain c ‹_› ‹_›
  · rename_i hopen
    exact .sendReported c ‹_› (by simpa using hopen)

theorem step_outcome (h : s.step lim a = some t) : s.Outcome lim a t := by
  cases a with
  | start c up => exact start_outcome h
  | relay k task cs data => exact relay_outcome h
  | closeConnection k task c => exact closeConnection_outcome h
  | closed k => exact closed_outcome h
  | interrupt k => exact interrupt_outcome h
  | loopFailed c => exact loopFailed_outcome h
  | loopReported c => exact loopReported_outcome h
  | send c => exact send_outcome h
  | sendFailed c => exact sendFailed_outcome h
  | sendReported c => exact sendReported_outcome h
  | close k task =>
    simp only [step,Option.ite_none_right_eq_some,Option.isNone_iff_eq_none] at h
    obtain ⟨⟨hk,-⟩,h⟩ := h
    obtain rfl := Option.some.inj h
    exact .close k task hk
  | reported k =>
    simp only [step] at h
    split at h <;> try contradiction
    obtain rfl := Option.some.inj h
    exact .reported k _ _ _ _ ‹_›
  | loop c ev =>
    obtain ⟨x,hx,rfl⟩ := Option.map_eq_some_iff.mp h
    exact .loop c ev x hx
  | loopClosed c =>
    simp only [step,Option.ite_none_right_eq_some,Option.some.injEq] at h
    obtain ⟨hl,rfl⟩ := h
    exact .loopClosed c hl
  | sent c =>
    simp only [step] at h
    split at h <;> try contradiction
    obtain rfl := Option.some.inj h
    exact .sent c _ ‹_›
  | sendCancelled c =>
    simp only [step] at h
    split at h <;> try contradiction
    simp only [Option.ite_none_right_eq_some,Option.some.injEq] at h
    obtain ⟨hn,rfl⟩ := h
    exact .sendCancelled c _ ‹_› hn
  | sendClosed c =>
    simp only [step] at h
    split at h <;> try contradiction
    obtain rfl := Option.some.inj h
    exact .sendClosed c ‹_›

end Outcome

omit [DecidableEq K] in
theorem relayTo_record (data : D) (cs : List C) :
    (∀ u, s.relayTo lim data cs = (u,none) → u.toNodeRecord = s.toNodeRecord) ∧
      ∀ u c rest, s.relayTo lim data cs = (u,some (c,rest)) →
        c ∈ s.allConnections ∧ u.toNodeRecord = (s.lose c).toNodeRecord := by
  induction cs generalizing s with
  | nil => simp [relayTo]
  | cons c cs ih =>
    simp only [relayTo]
    split
    · split
      · refine ⟨by simp,fun u d rest h => ?_⟩
        obtain ⟨rfl,hd⟩ := Prod.mk.inj h
        obtain ⟨rfl,-⟩ := Prod.mk.inj (Option.some.inj hd)
        exact ⟨‹_›,rfl⟩
      · exact ih (s := s.finish c)
    · exact ih (s := s.setConn c _)

inductive Records (lim : NodeLimits D) (s : BaseLayerNode C K D) (a : BaseAction C K D) :
    NodeRecord C → Prop
  | same (hd : s.dropped lim a = none) : s.Records lim a s.toNodeRecord
  | startUpstream (c : C) (ha : a = .start c true) (hc : (s.conn c).made = false) :
    s.Records lim a {s.toNodeRecord with upstreamConnections := s.upstreamConnections++[c]}
  | startDownstream (c : C) (ha : a = .start c false) (hc : (s.conn c).made = false) :
    s.Records lim a {s.toNodeRecord with downstreamConnections := s.downstreamConnections++[c]}
  | lose (c : C) (hd : s.dropped lim a = some c) (hc : c ∈ s.allConnections) :
    s.Records lim a (s.lose c).toNodeRecord
  | closeConnection (c : C) (hd : s.dropped lim a = none) (hc : c ∈ s.allConnections) :
    s.Records lim a {(s.unlist c).toNodeRecord with closed := Function.update s.closed c true}
  | close (hd : s.dropped lim a = none) (f : C → Bool) (hf : ∀ c, s.closed c = true → f c = true) :
    s.Records lim a {s.toNodeRecord with closed := f}
  | clear (hd : s.dropped lim a = none) (f : C → Bool) (hf : ∀ c, s.closed c = true → f c = true) :
    s.Records lim a ⟨[],[],f,s.reports⟩

omit [DecidableEq K] in
theorem closeAll_record (task : Option (NodeTask C)) (cs : List C) : ∃ f : C → Bool,
    (∀ c, s.closed c = true → f c = true) ∧
      (∀ u, s.closeAll task cs = (u,none) → u.toNodeRecord = ⟨[],[],f,s.reports⟩) ∧
        ∀ u d, s.closeAll task cs = (u,some d) → u.toNodeRecord = {s.toNodeRecord with closed := f} := by
  induction cs generalizing s with
  | nil => exact ⟨s.closed,fun _ => id,by simp [closeAll]⟩
  | cons c cs ih =>
    have hupdate (d : C) (hd : s.closed d = true) : Function.update s.closed c true d = true := by
      by_cases hdc : d = c <;> simp [hdc,hd]
    simp only [closeAll]
    split
    · obtain ⟨f,hf,hnone,hsome⟩ :=
        ih (s := {s.shut c task with closed := Function.update s.closed c true})
      exact ⟨f,fun d hd => hf d (hupdate d hd),hnone,hsome⟩
    · refine ⟨_,hupdate,by simp,fun u d h => ?_⟩
      obtain ⟨rfl,-⟩ := Prod.mk.inj h
      rfl

theorem relay_record (u : BaseLayerNode C K D) (hu : u.toNodeRecord = s.toNodeRecord) (k : K)
    (task : Option (NodeTask C)) (cs : List C) (data : D)
    (hd : s.dropped lim a = (u.relayTo lim data cs).2.map Prod.fst) :
    s.Records lim a (u.relay lim k task cs data).toNodeRecord := by
  obtain ⟨hnone,hsome⟩ := @relayTo_record _ _ _ _ lim u data cs
  have hlose (c : C) : (u.lose c).toNodeRecord = (s.lose c).toNodeRecord := by
    simp only [lose,unlist,hu]
  unfold relay
  match hr : u.relayTo lim data cs with
  | (w,none) =>
    have hw := (hnone w hr).trans hu
    exact (show (w.endCall k).toNodeRecord = s.toNodeRecord from hw) ▸ .same (by simp [hd,hr])
  | (w,some (c,rest)) =>
    obtain ⟨hc,hw⟩ := hsome w c rest hr
    rw [show (w.setCall k (.reporting c rest data) task).toNodeRecord = (s.lose c).toNodeRecord from
      hw.trans (hlose c)]
    rw [hu] at hc
    exact .lose c (by simp [hd,hr]) hc

theorem closeRest_record (u : BaseLayerNode C K D) (hu : u.toNodeRecord = s.toNodeRecord) (k : K)
    (task : Option (NodeTask C)) (cs : List C) (hd : s.dropped lim a = none) :
    s.Records lim a (u.closeRest k task cs).toNodeRecord := by
  obtain ⟨f,hf,hnone,hsome⟩ := closeAll_record (s := u) task cs
  rw [hu] at hf hnone hsome
  unfold closeRest
  match hr : u.closeAll task cs with
  | (w,none) =>
    exact (show (w.setCall k .waiting task).toNodeRecord = _ from hnone w hr) ▸ .clear hd f hf
  | (w,some (c,rest)) =>
    exact (show (w.setCall k (.closingAll c rest) task).toNodeRecord = _ from hsome w _ hr) ▸
      .close hd f hf

theorem closeLost_record (k : K) (task : Option (NodeTask C)) (c : C) (rest : List C) (data : D)
    (hd : s.dropped lim a = if (s.conn c).closing then
      (((s.shut c task).finish c).relayTo lim data rest).2.map Prod.fst else none) :
    s.Records lim a (s.closeLost lim k task c rest data).toNodeRecord := by
  by_cases hc : (s.conn c).closing = true
  · rw [closeLost,if_pos hc]
    exact relay_record (s := s) ((s.shut c task).finish c) rfl k task rest data (by simp [hd,hc])
  · rw [closeLost,if_neg hc]
    exact .same (by simp [hd,hc])

theorem step_record (h : s.step lim a = some t) : s.Records lim a t.toNodeRecord := by
  cases step_outcome h with
  | startUpstream c hnew => exact .startUpstream c rfl hnew
  | startDownstream c hnew => exact .startDownstream c rfl hnew
  | relayLong k task cs data hlen => exact .same (by simp [dropped,hlen])
  | relay k task cs data hk hlen => exact relay_record s rfl k task cs data (by simp [dropped,hlen])
  | reported k c rest data task hk => exact closeLost_record k task c rest data (by simp [dropped,hk])
  | raised k c rest data task => exact closeLost_record k task c [] data (by simp [dropped,relayTo])
  | closeConnection k task c hk hc | closeAgain k task c hk hc => exact .closeConnection c rfl hc
  | close k task hk => exact closeRest_record (s := s) {s with isClosed := true} rfl k task _ rfl
  | closedFailed k c rest data task hk =>
    exact relay_record (s := s) (s.finish c) rfl k task rest data (by simp [dropped,hk])
  | closedNext k c rest task hk => exact closeRest_record s rfl k task rest (by simp [dropped,hk])
  | closed k c task hk | closedAll k task hk => exact .same (by simp [dropped,hk])
  | loopFailed c hl hn hc | sendFailed c data hs hc => exact .lose c (by simp [dropped,hc]) hc
  | loopGone c hl hn hc | sendGone c data hs hc => exact .same (by simp [dropped,hc])
  | _ => exact .same rfl

/-- What other tasks do to a connection: they queue data on it and close it. While it is open, only
a task that `own` tells of does: whether it is the loop of the connection. -/
inductive Touched (lim : NodeLimits D) (own : Bool → Prop) (x : QueuedConnection D) :
    QueuedConnection D → Prop
  | refl : Touched lim own x x
  | enqueue {y : QueuedConnection D} (data : D) (h : Touched lim own x y)
    (hroom : y.queuedBytes+lim.length data ≤ lim.sendQueueLimit) :
    Touched lim own x (y.enqueue data (lim.length data))
  | close {y : QueuedConnection D} (ownLoop ownSender : Bool) (h : Touched lim own x y)
    (hown : y.closing = true ∨ own ownLoop) : Touched lim own x (y.close ownLoop ownSender)

section Touched

variable {own : Bool → Prop}

theorem Touched.trans {x y z : QueuedConnection D} (h : Touched lim own x y)
    (h' : Touched lim own y z) : Touched lim own x z := by
  induction h' with
  | refl => exact h
  | enqueue data _ hroom ih => exact ih.enqueue data hroom
  | close ownLoop ownSender _ hown ih => exact ih.close ownLoop ownSender hown

/-- Other tasks leave the loop of a connection where it is, unless they cancel it. -/
theorem Touched.loop {x y : QueuedConnection D} (h : Touched lim own x y) :
    y.made = x.made ∧ y.loop = x.loop ∧ y.buffer = x.buffer ∧ y.received = x.received := by
  induction h with
  | refl => exact ⟨rfl,rfl,rfl,rfl⟩
  | enqueue data _ _ ih | close _ _ _ _ ih => simpa using ih

theorem Touched.closing {x y : QueuedConnection D} (h : Touched lim own x y) :
    (x.closing = true → y.closing = true) ∧ (x.cancelled = true → y.cancelled = true) ∧
      (y.cancelled = true → x.cancelled = true ∨ y.closing = true) := by
  induction h with
  | refl => exact ⟨id,id,.inl⟩
  | enqueue data _ _ ih => simpa using ih
  | close ownLoop _ _ _ ih => exact ⟨fun _ => rfl,fun h => by simp [ih.2.1 h],fun _ => .inr rfl⟩

omit [DecidableEq K] in
theorem touched_set {c d : C} {x : QueuedConnection D} (h : c = d → Touched lim own (s.conn c) x) :
    Touched lim own (s.conn d) ((s.setConn c x).conn d) := by
  by_cases hdc : d = c
  · subst d
    simpa [setConn] using h rfl
  · simpa [setConn,hdc] using Touched.refl

omit [DecidableEq K] in
theorem relayTo_conn (data : D) (cs : List C) (d : C) :
    Touched lim own (s.conn d) ((s.relayTo lim data cs).1.conn d) := by
  induction cs generalizing s with
  | nil => exact .refl
  | cons c cs ih =>
    simp only [relayTo]
    split
    · split
      · exact .refl
      · exact ih (s := s.finish c)
    · exact (touched_set fun _ => .enqueue data .refl (by omega)).trans (ih (s := s.setConn c _))

omit [DecidableEq K] in
theorem closeAll_conn (task : Option (NodeTask C)) (cs : List C) (d : C)
    (hown : s.firstOpen cs = some d → own (decide (task = some (.loop d)))) :
    Touched lim own (s.conn d) ((s.closeAll task cs).1.conn d) := by
  induction cs generalizing s with
  | nil => exact .refl
  | cons c cs ih =>
    simp only [closeAll]
    split
    · rename_i hc
      refine (touched_set fun _ => .close _ _ .refl (.inl hc)).trans
        (ih (s := {s.shut c task with closed := Function.update s.closed c true}) fun hd => hown ?_)
      have hsame (e : C) : ((s.shut c task).conn e).closing = (s.conn e).closing := by
        by_cases hec : e = c <;> simp [shut,setConn,hec,hc]
      have hd' : (cs.find? fun e => !((s.shut c task).conn e).closing) = some d := hd
      simpa [firstOpen,hc,hsame] using hd'
    · rename_i hc
      refine touched_set fun hcd => .close _ _ .refl (.inr ?_)
      subst d
      exact hown (by simp [firstOpen,hc])

theorem relay_conn (k : K) (task : Option (NodeTask C)) (cs : List C) (data : D) (d : C) :
    Touched lim own (s.conn d) ((s.relay lim k task cs data).conn d) := by
  have h := @relayTo_conn _ _ _ _ lim s own data cs d
  unfold relay
  split <;> rename_i hr <;> rw [hr] at h <;> exact h

theorem closeRest_conn (k : K) (task : Option (NodeTask C)) (cs : List C) (d : C)
    (hown : s.firstOpen cs = some d → own (decide (task = some (.loop d)))) :
    Touched lim own (s.conn d) ((s.closeRest k task cs).conn d) := by
  have h := @closeAll_conn _ _ _ _ lim s own task cs d hown
  unfold closeRest
  split <;> rename_i hr <;> rw [hr] at h <;> exact h

theorem closeLost_conn (k : K) (task : Option (NodeTask C)) (c : C) (rest : List C) (data : D)
    (d : C) (hown : s.firstOpen [c] = some d → own (decide (task = some (.loop d)))) :
    Touched lim own (s.conn d) ((s.closeLost lim k task c rest data).conn d) := by
  have h : Touched lim own (s.conn d) ((s.shut c task).conn d) := by
    refine touched_set fun hcd => .close _ _ .refl ?_
    subst d
    cases hc : (s.conn c).closing with
    | true => exact .inl rfl
    | false => exact .inr (hown (by simp [firstOpen,hc]))
  unfold closeLost
  split
  · exact h.trans (relay_conn (s := (s.shut c task).finish c) k task rest data d)
  · exact h

end Touched

/-- Whether the task that closes an open connection in a step is the loop of the connection. -/
def ClosedBy (s : BaseLayerNode C K D) (a : BaseAction C K D) (c : C) (own : Bool) : Prop :=
  ∃ task, s.closes a = some (c,task) ∧ own = decide (task = some (.loop c))

inductive Changes (lim : NodeLimits D) (s : BaseLayerNode C K D) (c : C) :
    BaseAction C K D → QueuedConnection D → Prop
  | touched {a : BaseAction C K D} {x : QueuedConnection D}
    (h : Touched lim (s.ClosedBy a c) (s.conn c) x) : s.Changes lim c a x
  | started (up : Bool) (hc : (s.conn c).made = false) : s.Changes lim c (.start c up) .new
  | loop (ev : LoopEvent D) (x : Connection D) (hx : (s.conn c).loopStep ev = some x) :
    s.Changes lim c (.loop c ev) {s.conn c with toConnection := x}
  | failed (hl : (s.conn c).loop = .reading) (hn : (s.conn c).cancelled = false)
    (hc : c ∈ s.allConnections) : s.Changes lim c (.loopFailed c) {s.conn c with loop := .reporting}
  | gone (hl : (s.conn c).loop = .reading) (hn : (s.conn c).cancelled = false)
    (hc : c ∉ s.allConnections) : s.Changes lim c (.loopFailed c) {s.conn c with loop := .ended}
  | reported (hl : (s.conn c).loop = .reporting) : s.Changes lim c (.loopReported c)
    {(s.conn c).close true false with loop := .closing}
  | reportedAgain (hl : (s.conn c).loop = .reporting) : s.Changes lim c (.loopReported c)
    {(s.conn c).close true false with loop := .ended}
  | closed (hl : (s.conn c).loop = .closing) :
    s.Changes lim c (.loopClosed c) {s.conn c with loop := .ended}
  | sendStopped (hs : (s.conn c).sender = .starting) (hn : (s.conn c).senderCancelled = true) :
    s.Changes lim c (.send c) (s.conn c).endSender
  | send (hs : (s.conn c).sender = .starting) (hn : (s.conn c).senderCancelled = false) :
    s.Changes lim c (.send c) (s.conn c).sendNext
  | sent (data : D) (hs : (s.conn c).sender = .sending data) :
    s.Changes lim c (.sent c) ((s.conn c).taken (lim.length data))
  | sendFailed (data : D) (hs : (s.conn c).sender = .sending data) (hc : c ∈ s.allConnections) :
    s.Changes lim c (.sendFailed c) {s.conn c with sender := .reporting}
  | sendGone (data : D) (hs : (s.conn c).sender = .sending data) (hc : c ∉ s.allConnections) :
    s.Changes lim c (.sendFailed c) (s.conn c).endSender
  | sendCancelled (data : D) (hs : (s.conn c).sender = .sending data)
    (hn : (s.conn c).senderCancelled = true) :
    s.Changes lim c (.sendCancelled c) (s.conn c).endSender
  | sendReported (hs : (s.conn c).sender = .reporting) : s.Changes lim c (.sendReported c)
    {(s.conn c).close false true with sender := .closing}
  | sendReportedAgain (hs : (s.conn c).sender = .reporting) :
    s.Changes lim c (.sendReported c) ((s.conn c).close false true).endSender
  | sendClosed (hs : (s.conn c).sender = .closing) :
    s.Changes lim c (.sendClosed c) (s.conn c).endSender

omit [DecidableEq K] in
theorem shut_conn {d : C} {task : Option (NodeTask C)}
    (hd : (s.conn d).closing = true ∨ s.closes a = some (d,task)) (c : C) :
    Touched lim (s.ClosedBy a c) (s.conn c) ((s.shut d task).conn c) := by
  refine touched_set fun hdc => .close _ _ .refl ?_
  subst d
  exact hd.imp_right fun hd => ⟨task,hd,rfl⟩

theorem step_conn (h : s.step lim a = some t) (c : C) : s.Changes lim c a (t.conn c) := by
  -- a step that sets one connection
  have set {d : C} {x : QueuedConnection D} (hx : c = d → s.Changes lim c a x) :
      s.Changes lim c a (Function.update s.conn d x c) := by
    by_cases hcd : c = d
    · subst d
      simpa using hx rfl
    · simpa [hcd] using Changes.touched .refl
  cases step_outcome h with
  | startUpstream d hnew | startDownstream d hnew =>
    exact set fun hcd => hcd ▸ .started _ (hcd ▸ hnew)
  | relay k task cs data => exact .touched (relay_conn k task cs data c)
  | reported k d rest data task hk | raised k d rest data task hk =>
    exact .touched (closeLost_conn k task d _ data c fun hc => ⟨task,by simp [closes,hk,hc],rfl⟩)
  | closeConnection k task d hk hd hopen =>
    exact .touched (shut_conn (s := s) (.inr (by simp [closes,firstOpen,hd,hopen])) c)
  | closeAgain k task d hk hd hclosing => exact .touched (shut_conn (s := s) (.inl hclosing) c)
  | close k task =>
    refine .touched (closeRest_conn (s := {s with isClosed := true}) k task _ c fun hc => ⟨task,?_,rfl⟩)
    have hc : s.firstOpen s.allConnections = some c := hc
    simp [closes,hc]
  | closedFailed k d rest data task =>
    exact .touched (relay_conn (s := s.finish d) k task rest data c)
  | closedNext k d rest task hk =>
    exact .touched (closeRest_conn k task rest c fun hc => ⟨task,by simp [closes,hk,hc],rfl⟩)
  | loop d ev x hx => exact set fun hcd => hcd ▸ .loop ev x (hcd ▸ hx)
  | loopFailed d hl hn hd => exact set fun hcd => hcd ▸ .failed (hcd ▸ hl) (hcd ▸ hn) (hcd ▸ hd)
  | loopGone d hl hn hd => exact set fun hcd => hcd ▸ .gone (hcd ▸ hl) (hcd ▸ hn) (hcd ▸ hd)
  | loopReported d hl => exact set fun hcd => hcd ▸ .reported (hcd ▸ hl)
  | loopReportedAgain d hl => exact set fun hcd => hcd ▸ .reportedAgain (hcd ▸ hl)
  | loopClosed d hl => exact set fun hcd => hcd ▸ .closed (hcd ▸ hl)
  | send d hs hn => exact set fun hcd => hcd ▸ .send (hcd ▸ hs) (hcd ▸ hn)
  | sendStopped d hs hn => exact set fun hcd => hcd ▸ .sendStopped (hcd ▸ hs) (hcd ▸ hn)
  | sent d data hs => exact set fun hcd => hcd ▸ .sent data (hcd ▸ hs)
  | sendFailed d data hs hd => exact set fun hcd => hcd ▸ .sendFailed data (hcd ▸ hs) (hcd ▸ hd)
  | sendGone d data hs hd => exact set fun hcd => hcd ▸ .sendGone data (hcd ▸ hs) (hcd ▸ hd)
  | sendCancelled d data hs hn =>
    exact set fun hcd => hcd ▸ .sendCancelled data (hcd ▸ hs) (hcd ▸ hn)
  | sendReported d hs => exact set fun hcd => hcd ▸ .sendReported (hcd ▸ hs)
  | sendReportedAgain d hs => exact set fun hcd => hcd ▸ .sendReportedAgain (hcd ▸ hs)
  | sendClosed d hs => exact set fun hcd => hcd ▸ .sendClosed (hcd ▸ hs)
  | _ => exact .touched .refl

theorem step_made (h : s.step lim a = some t) {c : C} (hc : (s.conn c).made = true) :
    (t.conn c).made = true := by
  generalize ht : t.conn c = y
  have hs := ht ▸ step_conn h c
  cases hs with
  | touched h => exact h.loop.1.trans hc
  | loop ev x hx => exact (Connection.loopStep_kept hx).1.trans hc
  | started => rfl
  | _ => simpa using hc

theorem step_start {c : C} {up : Bool} (h : s.step lim (.start c up) = some t) :
    t = s ∨ (t.conn c).made = true := by
  cases step_outcome h with
  | startClosed => exact .inl rfl
  | startUpstream | startDownstream =>
    exact .inr (by simp [setConn,QueuedConnection.new,Connection.new])

end BaseLayerNode
end SoftwareBus
