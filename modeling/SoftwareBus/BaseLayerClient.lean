import SoftwareBus.Connection

/-! A base layer client. Its calls and the receive loops of its connections are
tasks that take turns where they wait; a step is what one of them does from one wait
to the next. -/
namespace SoftwareBus

inductive ClientCall (C : Type)
  /-- `connect`: for the socket to open. -/
  | connecting
  /-- `connect`: for a connection to close that another call was faster than. -/
  | discarding (c : C)
  /-- `send`: for the data to be taken. -/
  | sending (c : C)
  /-- `send`: in the connection error callback. -/
  | reporting (c : C)
  /-- `send`: for the failed connection to close. -/
  | closingFailed (c : C)
  /-- `close` -/
  | closing (c : C)

structure ClientRecord (C : Type) where
  connection : Option C
  /-- The connections that a `connect` has returned. -/
  returned : C → Bool
  /-- Those that `_handle_connection_error` has forgotten. -/
  lost : C → Bool
  /-- Those that a `close` has started to close. -/
  closed : C → Bool
  /-- The calls of the connection error callback, and whether a `close` had started
  to close the connection. -/
  reports : List (C × Bool)

structure BaseLayerClient (C K D : Type) extends ClientRecord C where
  conn : C → Connection D
  /-- The calls that wait, each with the connection whose loop made it, if one did. -/
  calls : K → Option (ClientCall C × Option C)
  /-- The connections that a `close` or the handling of an error is over for. -/
  finished : C → Bool

inductive ClientAction (C K D : Type)
  | connect (k : K) (task : Option C)
  | opened (k : K) (c : C)
  | send (k : K) (task : Option C)
  | sent (k : K)
  | sendFailed (k : K)
  /-- The connection error callback ends. -/
  | reported (k : K)
  | close (k : K) (task : Option C)
  /-- The socket a call waits for has closed. -/
  | closed (k : K)
  /-- What a call waits for is cancelled or fails. -/
  | interrupt (k : K)
  | loop (c : C) (ev : LoopEvent D)
  | loopFailed (c : C)
  | loopReported (c : C)
  | loopClosed (c : C)
  deriving DecidableEq

namespace BaseLayerClient

variable {C K D : Type}

def init : BaseLayerClient C K D where
  connection := none
  conn _ := .unmade
  calls _ := none
  returned _ := false
  lost _ := false
  closed _ := false
  reports := []
  finished _ := false

def canCall (s : BaseLayerClient C K D) : Option C → Bool
  | none => true
  | some c => (s.conn c).inCallback

variable [DecidableEq C] [DecidableEq K]

def setCall (s : BaseLayerClient C K D) (k : K) (call : ClientCall C) (task : Option C) :
    BaseLayerClient C K D := {s with calls := Function.update s.calls k (some (call,task))}

def endCall (s : BaseLayerClient C K D) (k : K) : BaseLayerClient C K D :=
  {s with calls := Function.update s.calls k none}

def setConn (s : BaseLayerClient C K D) (c : C) (x : Connection D) : BaseLayerClient C K D :=
  {s with conn := Function.update s.conn c x}

def finish (s : BaseLayerClient C K D) (c : C) : BaseLayerClient C K D :=
  {s with finished := fun d => s.finished d || (decide (d = c) && (s.conn d).made)}

/-- `_handle_connection_error` up to the connection error callback. -/
def lose (s : BaseLayerClient C K D) (c : C) : BaseLayerClient C K D :=
  {s with
    connection := none
    lost := Function.update s.lost c true
    reports := s.reports++[(c,s.closed c)]}

/-- The rest of `_handle_connection_error` in a `send`. -/
def closeLost (s : BaseLayerClient C K D) (k : K) (c : C) (task : Option C) : BaseLayerClient C K D :=
  let s' := s.setConn c ((s.conn c).close (task = some c))
  if (s.conn c).closing then (s'.endCall k).finish c else s'.setCall k (.closingFailed c) task

/-- `close` up to where it waits for the socket. -/
def shut (s : BaseLayerClient C K D) (c : C) (task : Option C) : BaseLayerClient C K D :=
  {s.setConn c ((s.conn c).close (task = some c)) with closed := Function.update s.closed c true}

/-- The end of `close`. -/
def forget (s : BaseLayerClient C K D) (k : K) : BaseLayerClient C K D :=
  {s.endCall k with
    connection := none
    finished := fun c => s.finished c || (s.conn c).made}

def step (s : BaseLayerClient C K D) : ClientAction C K D → Option (BaseLayerClient C K D)
  | .connect k task =>
    if (s.calls k).isNone ∧ s.canCall task then
      some (if s.connection.isSome then s else s.setCall k .connecting task)
    else none
  | .opened k c =>
    match s.calls k with
    | some (.connecting,task) =>
      if (s.conn c).made then none
      else if s.connection.isSome then
        some ((s.setConn c {Connection.new .ended with closing := true}).setCall k (.discarding c) task)
      else
        some {(s.setConn c (.new .reading)).endCall k with
          connection := some c
          returned := Function.update s.returned c true}
    | _ => none
  | .send k task =>
    if (s.calls k).isNone ∧ s.canCall task then
      match s.connection with
      | none => some s
      | some c => some (s.setCall k (.sending c) task)
    else none
  | .sent k =>
    match s.calls k with
    | some (.sending _,_) => some (s.endCall k)
    | _ => none
  | .sendFailed k =>
    match s.calls k with
    | some (.sending c,task) =>
      some (if s.connection = some c then (s.lose c).setCall k (.reporting c) task
        else (s.endCall k).finish c)
    | _ => none
  | .reported k =>
    match s.calls k with
    | some (.reporting c,task) => some (s.closeLost k c task)
    | _ => none
  | .close k task =>
    if (s.calls k).isNone ∧ s.canCall task then
      match s.connection with
      | none => some (s.forget k)
      | some c =>
        some (if (s.conn c).closing then (s.shut c task).forget k
          else (s.shut c task).setCall k (.closing c) task)
    else none
  | .closed k =>
    match s.calls k with
    | some (.closing _,_) => some (s.forget k)
    | some (.closingFailed c,_) => some ((s.endCall k).finish c)
    | some (.discarding _,_) => some (s.endCall k)
    | _ => none
  | .interrupt k =>
    match s.calls k with
    -- the `finally` of `_handle_connection_error`
    | some (.reporting c,task) => some (s.closeLost k c task)
    | some _ => some (s.endCall k)
    | none => none
  | .loop c ev => ((s.conn c).loopStep ev).map (s.setConn c)
  | .loopFailed c =>
    if (s.conn c).loop = .reading ∧ (s.conn c).cancelled = false then
      some (if s.connection = some c then (s.lose c).setConn c {s.conn c with loop := .reporting}
        else (s.setConn c {s.conn c with loop := .ended}).finish c)
    else none
  | .loopReported c =>
    if (s.conn c).loop = .reporting then
      some (if (s.conn c).closing then
          (s.setConn c {(s.conn c).close true with loop := .ended}).finish c
        else s.setConn c {(s.conn c).close true with loop := .closing})
    else none
  | .loopClosed c =>
    if (s.conn c).loop = .closing then
      some ((s.setConn c {s.conn c with loop := .ended}).finish c)
    else none

/-- What a step can do, with what it has checked. -/
inductive Outcome (s : BaseLayerClient C K D) : ClientAction C K D → BaseLayerClient C K D → Prop
  | connected (k : K) (task : Option C) : s.Outcome (.connect k task) s
  | connect (k : K) (task : Option C) (hk : s.calls k = none) :
    s.Outcome (.connect k task) (s.setCall k .connecting task)
  | discarded (k : K) (c : C) (task : Option C) (hk : s.calls k = some (.connecting,task))
    (hnew : (s.conn c).made = false) (hc : s.connection.isSome = true) :
    s.Outcome (.opened k c)
      ((s.setConn c {Connection.new .ended with closing := true}).setCall k (.discarding c) task)
  | opened (k : K) (c : C) (task : Option C) (hk : s.calls k = some (.connecting,task))
    (hnew : (s.conn c).made = false) (hc : s.connection = none) :
    s.Outcome (.opened k c) {(s.setConn c (.new .reading)).endCall k with
      connection := some c
      returned := Function.update s.returned c true}
  | unconnected (k : K) (task : Option C) : s.Outcome (.send k task) s
  | send (k : K) (task : Option C) (c : C) (hk : s.calls k = none) :
    s.Outcome (.send k task) (s.setCall k (.sending c) task)
  | sent (k : K) (c : C) (task : Option C) (hk : s.calls k = some (.sending c,task)) :
    s.Outcome (.sent k) (s.endCall k)
  | sendFailed (k : K) (c : C) (task : Option C) (hk : s.calls k = some (.sending c,task))
    (hc : s.connection = some c) :
    s.Outcome (.sendFailed k) ((s.lose c).setCall k (.reporting c) task)
  | sendGone (k : K) (c : C) (task : Option C) (hk : s.calls k = some (.sending c,task))
    (hc : s.connection ≠ some c) : s.Outcome (.sendFailed k) ((s.endCall k).finish c)
  | reported (k : K) (c : C) (task : Option C) (hk : s.calls k = some (.reporting c,task)) :
    s.Outcome (.reported k) (s.closeLost k c task)
  | raised (k : K) (c : C) (task : Option C) (hk : s.calls k = some (.reporting c,task)) :
    s.Outcome (.interrupt k) (s.closeLost k c task)
  | interrupted (k : K) (w : ClientCall C × Option C) (hk : s.calls k = some w)
    (hw : ∀ c, w.1 ≠ .reporting c) : s.Outcome (.interrupt k) (s.endCall k)
  | closeNone (k : K) (task : Option C) (hk : s.calls k = none) (hc : s.connection = none) :
    s.Outcome (.close k task) (s.forget k)
  | close (k : K) (task : Option C) (c : C) (hk : s.calls k = none) (hc : s.connection = some c)
    (hopen : (s.conn c).closing = false) :
    s.Outcome (.close k task) ((s.shut c task).setCall k (.closing c) task)
  | closeAgain (k : K) (task : Option C) (c : C) (hk : s.calls k = none)
    (hc : s.connection = some c) (hclosing : (s.conn c).closing = true) :
    s.Outcome (.close k task) ((s.shut c task).forget k)
  | closed (k : K) (c : C) (task : Option C) (hk : s.calls k = some (.closing c,task)) :
    s.Outcome (.closed k) (s.forget k)
  | closedFailed (k : K) (c : C) (task : Option C)
    (hk : s.calls k = some (.closingFailed c,task)) :
    s.Outcome (.closed k) ((s.endCall k).finish c)
  | closedDiscarded (k : K) (c : C) (task : Option C)
    (hk : s.calls k = some (.discarding c,task)) : s.Outcome (.closed k) (s.endCall k)
  | loop (c : C) (ev : LoopEvent D) (x : Connection D) (hx : (s.conn c).loopStep ev = some x) :
    s.Outcome (.loop c ev) (s.setConn c x)
  | loopFailed (c : C) (hl : (s.conn c).loop = .reading) (hn : (s.conn c).cancelled = false)
    (hc : s.connection = some c) :
    s.Outcome (.loopFailed c) ((s.lose c).setConn c {s.conn c with loop := .reporting})
  | loopGone (c : C) (hl : (s.conn c).loop = .reading) (hn : (s.conn c).cancelled = false)
    (hc : s.connection ≠ some c) :
    s.Outcome (.loopFailed c) ((s.setConn c {s.conn c with loop := .ended}).finish c)
  | loopReported (c : C) (hl : (s.conn c).loop = .reporting) (hopen : (s.conn c).closing = false) :
    s.Outcome (.loopReported c) (s.setConn c {(s.conn c).close true with loop := .closing})
  | loopReportedAgain (c : C) (hl : (s.conn c).loop = .reporting)
    (hclosing : (s.conn c).closing = true) :
    s.Outcome (.loopReported c)
      ((s.setConn c {(s.conn c).close true with loop := .ended}).finish c)
  | loopClosed (c : C) (hl : (s.conn c).loop = .closing) :
    s.Outcome (.loopClosed c) ((s.setConn c {s.conn c with loop := .ended}).finish c)

section Outcome

variable {s t : BaseLayerClient C K D} {a : ClientAction C K D}

theorem connect_outcome {k : K} {task : Option C} (h : s.step (.connect k task) = some t) :
    s.Outcome (.connect k task) t := by
  simp only [step,Option.ite_none_right_eq_some,Option.some.injEq,Option.isNone_iff_eq_none] at h
  obtain ⟨⟨hk,-⟩,rfl⟩ := h
  split
  · exact .connected k task
  · exact .connect k task hk

theorem send_outcome {k : K} {task : Option C} (h : s.step (.send k task) = some t) :
    s.Outcome (.send k task) t := by
  simp only [step,Option.ite_none_right_eq_some,Option.isNone_iff_eq_none] at h
  obtain ⟨⟨hk,-⟩,h⟩ := h
  split at h <;> obtain rfl := Option.some.inj h
  · exact .unconnected k task
  · exact .send k task _ hk

theorem close_outcome {k : K} {task : Option C} (h : s.step (.close k task) = some t) :
    s.Outcome (.close k task) t := by
  simp only [step,Option.ite_none_right_eq_some,Option.isNone_iff_eq_none] at h
  obtain ⟨⟨hk,-⟩,h⟩ := h
  split at h <;> rename_i hc <;> obtain rfl := Option.some.inj h
  · exact .closeNone k task hk hc
  · split
    · exact .closeAgain k task _ hk hc ‹_›
    · rename_i hopen
      exact .close k task _ hk hc (by simpa using hopen)

theorem opened_outcome {k : K} {c : C} (h : s.step (.opened k c) = some t) :
    s.Outcome (.opened k c) t := by
  simp only [step] at h
  split at h <;> try contradiction
  rename_i hk
  split at h <;> try contradiction
  rename_i hmade
  have hnew : (s.conn c).made = false := by simpa using hmade
  split at h <;> rename_i hc <;> obtain rfl := Option.some.inj h
  · exact .discarded k c _ hk hnew hc
  · exact .opened k c _ hk hnew (by simpa using hc)

theorem step_outcome (h : s.step a = some t) : s.Outcome a t := by
  cases a with
  | connect k task => exact connect_outcome h
  | send k task => exact send_outcome h
  | close k task => exact close_outcome h
  | opened k c => exact opened_outcome h
  | sent k =>
    simp only [step] at h
    split at h <;> try contradiction
    obtain rfl := Option.some.inj h
    exact .sent k _ _ ‹_›
  | sendFailed k =>
    simp only [step] at h
    split at h <;> try contradiction
    obtain rfl := Option.some.inj h
    split
    · exact .sendFailed k _ _ ‹_› ‹_›
    · exact .sendGone k _ _ ‹_› ‹_›
  | reported k =>
    simp only [step] at h
    split at h <;> try contradiction
    obtain rfl := Option.some.inj h
    exact .reported k _ _ ‹_›
  | closed k =>
    simp only [step] at h
    split at h <;> try contradiction
    all_goals rename_i hk; obtain rfl := Option.some.inj h
    · exact .closed k _ _ hk
    · exact .closedFailed k _ _ hk
    · exact .closedDiscarded k _ _ hk
  | interrupt k =>
    simp only [step] at h
    split at h <;> try contradiction
    · obtain rfl := Option.some.inj h
      exact .raised k _ _ ‹_›
    · rename_i w hne hk
      obtain rfl := Option.some.inj h
      exact .interrupted k w hk fun c hw => hne c w.2 (Prod.ext hw rfl)
  | loop c ev =>
    obtain ⟨x,hx,rfl⟩ := Option.map_eq_some_iff.mp h
    exact .loop c ev x hx
  | loopFailed c =>
    simp only [step,Option.ite_none_right_eq_some,Option.some.injEq] at h
    obtain ⟨⟨hl,hn⟩,rfl⟩ := h
    split
    · exact .loopFailed c hl hn ‹_›
    · exact .loopGone c hl hn ‹_›
  | loopReported c =>
    simp only [step,Option.ite_none_right_eq_some,Option.some.injEq] at h
    obtain ⟨hl,rfl⟩ := h
    split
    · exact .loopReportedAgain c hl ‹_›
    · rename_i hopen
      exact .loopReported c hl (by simpa using hopen)
  | loopClosed c =>
    simp only [step,Option.ite_none_right_eq_some,Option.some.injEq] at h
    obtain ⟨hl,rfl⟩ := h
    exact .loopClosed c hl

@[simp] theorem closeLost_record (s : BaseLayerClient C K D) (k : K) (c : C) (task : Option C) :
    (s.closeLost k c task).toClientRecord = s.toClientRecord := by
  unfold closeLost
  split <;> rfl

end Outcome

inductive Records (s : BaseLayerClient C K D) : ClientAction C K D → ClientRecord C → Prop
  | same (a : ClientAction C K D) : s.Records a s.toClientRecord
  | opened (k : K) (c : C) (hc : s.connection = none) (hnew : (s.conn c).made = false) :
    s.Records (.opened k c) {s.toClientRecord with
      connection := some c
      returned := Function.update s.returned c true}
  | lose (a : ClientAction C K D) (c : C) (hc : s.connection = some c)
    (ha : a = .loopFailed c ∨ ∃ k task, a = .sendFailed k ∧ s.calls k = some (.sending c,task)) :
    s.Records a (s.lose c).toClientRecord
  | close (k : K) (task : Option C) (c : C) (hc : s.connection = some c) :
    s.Records (.close k task) {s.toClientRecord with closed := Function.update s.closed c true}
  | closeAgain (k : K) (task : Option C) (c : C) (hc : s.connection = some c) :
    s.Records (.close k task) {s.toClientRecord with
      connection := none
      closed := Function.update s.closed c true}
  | forget (k : K) (c : C) (task : Option C) (hcall : s.calls k = some (.closing c,task)) :
    s.Records (.closed k) {s.toClientRecord with connection := none}

theorem step_record {s t : BaseLayerClient C K D} {a : ClientAction C K D}
    (h : s.step a = some t) : s.Records a t.toClientRecord := by
  cases step_outcome h with
  | opened k c task hk hnew hc => exact .opened k c hc hnew
  | sendFailed k c task hk hc => exact .lose _ c hc (.inr ⟨k,task,rfl,hk⟩)
  | loopFailed c hl hn hc => exact .lose _ c hc (.inl rfl)
  | reported | raised =>
    rw [closeLost_record]
    exact .same _
  | closeNone k task hk hc =>
    have hsame : (s.forget k).toClientRecord = s.toClientRecord := by
      show {s.toClientRecord with connection := none} = _
      rw [← hc]
    exact hsame ▸ .same _
  | close k task c hk hc => exact .close k task c hc
  | closeAgain k task c hk hc => exact .closeAgain k task c hc
  | closed k c task hk => exact .forget k c task hk
  | _ => exact .same _

/-- The open connection that a step calls `Connection.close` on, and the task that does it. -/
def closes (s : BaseLayerClient C K D) (a : ClientAction C K D) : Option (C × Option C) :=
  let opened (c : C) (task : Option C) := if (s.conn c).closing then none else some (c,task)
  match a with
  | .reported k | .interrupt k =>
    match s.calls k with
    | some (.reporting c,task) => opened c task
    | _ => none
  | .close _ task => s.connection.bind fun c => opened c task
  | .loopReported c => opened c (some c)
  | _ => none

inductive Changes (s : BaseLayerClient C K D) (c : C) : ClientAction C K D → Connection D → Prop
  | same (a : ClientAction C K D) : s.Changes c a (s.conn c)
  | opened (k : K) (hc : s.connection = none) (hnew : (s.conn c).made = false) :
    s.Changes c (.opened k c) (.new .reading)
  | discarded (k : K) (hc : s.connection.isSome = true) (hnew : (s.conn c).made = false) :
    s.Changes c (.opened k c) {Connection.new .ended with closing := true}
  | loop (ev : LoopEvent D) (x : Connection D) (hx : (s.conn c).loopStep ev = some x) :
    s.Changes c (.loop c ev) x
  | close (a : ClientAction C K D) (task : Option C)
    (hc : (s.conn c).closing = true ∨ s.closes a = some (c,task)) :
    s.Changes c a ((s.conn c).close (task = some c))
  | failed (hl : (s.conn c).loop = .reading) (hn : (s.conn c).cancelled = false)
    (hc : s.connection = some c) : s.Changes c (.loopFailed c) {s.conn c with loop := .reporting}
  | gone (hl : (s.conn c).loop = .reading) (hn : (s.conn c).cancelled = false)
    (hc : s.connection ≠ some c) : s.Changes c (.loopFailed c) {s.conn c with loop := .ended}
  | reported (hl : (s.conn c).loop = .reporting) :
    s.Changes c (.loopReported c) {(s.conn c).close true with loop := .closing}
  | reportedAgain (hl : (s.conn c).loop = .reporting) :
    s.Changes c (.loopReported c) {(s.conn c).close true with loop := .ended}
  | closed (hl : (s.conn c).loop = .closing) :
    s.Changes c (.loopClosed c) {s.conn c with loop := .ended}

theorem step_conn {s t : BaseLayerClient C K D} {a : ClientAction C K D}
    (h : s.step a = some t) (c : C) : s.Changes c a (t.conn c) := by
  -- a step that sets one connection
  have set {d : C} {x : Connection D} (hx : c = d → s.Changes c a x) :
      s.Changes c a (Function.update s.conn d x c) := by
    by_cases hcd : c = d
    · subst d
      simpa using hx rfl
    · simpa [hcd] using .same a
  have closeLost {k : K} {d : C} {task : Option C}
      (hd : (s.conn d).closing = true ∨ s.closes a = some (d,task)) :
      s.Changes c a ((s.closeLost k d task).conn c) := by
    unfold BaseLayerClient.closeLost
    split <;> exact set fun hcd => hcd ▸ .close a task (hcd ▸ hd)
  cases step_outcome h with
  | discarded k d task hk hnew hc => exact set fun hcd => hcd ▸ .discarded k hc (hcd ▸ hnew)
  | opened k d task hk hnew hc => exact set fun hcd => hcd ▸ .opened k hc (hcd ▸ hnew)
  | reported k d task hk | raised k d task hk =>
    refine closeLost ?_
    cases hcl : (s.conn d).closing <;> simp [closes,hk,hcl]
  | close k task d hk hd hopen =>
    have hcl : s.closes (.close k task) = some (d,task) := by simp [closes,hd,hopen]
    exact set fun hcd => hcd ▸ .close _ task (.inr (hcd ▸ hcl))
  | closeAgain k task d hk hd hclosing =>
    exact set fun hcd => hcd ▸ .close _ task (.inl (hcd ▸ hclosing))
  | loop d ev x hx => exact set fun hcd => hcd ▸ .loop ev x (hcd ▸ hx)
  | loopFailed d hl hn hd => exact set fun hcd => hcd ▸ .failed (hcd ▸ hl) (hcd ▸ hn) (hcd ▸ hd)
  | loopGone d hl hn hd => exact set fun hcd => hcd ▸ .gone (hcd ▸ hl) (hcd ▸ hn) (hcd ▸ hd)
  | loopReported d hl => exact set fun hcd => hcd ▸ .reported (hcd ▸ hl)
  | loopReportedAgain d hl => exact set fun hcd => hcd ▸ .reportedAgain (hcd ▸ hl)
  | loopClosed d hl => exact set fun hcd => hcd ▸ .closed (hcd ▸ hl)
  | _ => exact .same _

end BaseLayerClient
end SoftwareBus
