import SoftwareBus.ErrorHandling

/-! Whether a connection is silent once it has been closed. What follows from one step for a whole
run is the same for a client and a node. -/
namespace SoftwareBus

open Transition

variable {C K D : Type}

namespace Connection

variable {c x : Connection D}

/-- The loop of a connection calls the receive callback no more: it has met an error or ended, or
it is cancelled, or the connection is closed and no complete message is left in its reader. -/
def muted (c : Connection D) : Bool :=
  match c.loop with
  | .reading | .callback => c.cancelled || (c.closing && c.buffer.isEmpty)
  | _ => true

theorem muted_of_not_receiving (h : c.receiving = false) : c.muted = true := by
  unfold receiving at h
  unfold muted
  split <;> simp_all

theorem muted_of_closing (hc : c.closing = true)
    (h : c.receiving = true → c.cancelled = true ∨ c.buffer = []) : c.muted = true := by
  cases hr : c.receiving with
  | false => exact muted_of_not_receiving hr
  | true =>
    unfold muted
    rcases h hr with hn | hb
    · split <;> simp [hn]
    · split <;> simp [hc,hb]

/-- A muted loop stays muted and receives nothing, unless it catches its cancellation. -/
theorem muted_loopStep {ev : LoopEvent D} (h : c.loopStep ev = some x) (hc : c.muted = true) :
    x.received = c.received ∧ (x.muted = true ∨ ev = .swallow ∧ x.buffer = c.buffer) := by
  cases ev with
  | feed d =>
    simp only [loopStep,Option.ite_none_right_eq_some,Option.some.injEq] at h
    obtain ⟨⟨-,hopen⟩,rfl⟩ := h
    refine ⟨rfl,.inl ?_⟩
    simpa [muted,hopen] using hc
  | read =>
    simp only [loopStep] at h
    split at h <;> try contradiction
    rename_i d ds hb
    simp only [Option.ite_none_right_eq_some] at h
    obtain ⟨⟨hl,hn⟩,-⟩ := h
    simp [muted,hl,hn,hb] at hc
  | returned =>
    simp only [loopStep,Option.ite_none_right_eq_some,Option.some.injEq] at h
    obtain ⟨⟨hl,hn⟩,rfl⟩ := h
    refine ⟨rfl,.inl ?_⟩
    simpa [muted,hl,hn] using hc
  | swallow =>
    simp only [loopStep,Option.ite_none_right_eq_some,Option.some.injEq] at h
    obtain ⟨-,rfl⟩ := h
    exact ⟨rfl,.inr ⟨rfl,rfl⟩⟩
  | escape | stop =>
    simp only [loopStep,Option.ite_none_right_eq_some,Option.some.injEq] at h
    obtain ⟨-,rfl⟩ := h
    exact ⟨rfl,.inl rfl⟩

theorem muted_close (own : Bool) (h : c.muted = true) : (c.close own).muted = true := by
  unfold muted at h ⊢
  simp only [close_loop]
  split at h <;> try rfl
  all_goals
    rcases Bool.or_eq_true_iff.mp h with hn | hb
    · simp [hn]
    · simp [(Bool.and_eq_true_iff.mp hb).2]

/-- What a step does to a connection that it may close: a loop that is left with messages to read
has been cancelled. -/
structure Hushes (c x : Connection D) : Prop where
  made : c.made = true → x.made = true
  shut : (c.closing = true → c.muted = true) → x.closing = true → x.muted = true
  stays : c.made = true → c.closing = true ∨ c.receiving = false →
    x.closing = true ∨ x.receiving = false
  received : c.made = true → c.muted = true → x.received = c.received

theorem Hushes.refl (c : Connection D) : c.Hushes c := ⟨id,id,fun _ => id,fun _ _ => rfl⟩

theorem Hushes.of_new (hc : c.made = false) (hx : x.made = true)
    (h : x.closing = true → x.muted = true) : c.Hushes x :=
  ⟨fun _ => hx,fun _ => h,by simp [hc],by simp [hc]⟩

/-- The loop ends, or goes on with the error it has met. -/
theorem Hushes.of_stopped (hm : x.made = c.made) (hr : x.received = c.received)
    (h : x.receiving = false) : c.Hushes x :=
  ⟨fun hc => hm.trans hc,fun _ _ => muted_of_not_receiving h,fun _ _ => .inr h,fun _ _ => hr⟩

theorem Hushes.of_loop {ev : LoopEvent D} (h : c.loopStep ev = some x)
    (hev : ev = .swallow → c.buffer = []) : c.Hushes x := by
  obtain ⟨hm,hcl⟩ := loopStep_kept h
  refine ⟨fun hc => hm.trans hc,fun hc hx => ?_,fun _ hc => ?_,
    fun _ hc => (muted_loopStep h hc).1⟩
  · rcases (muted_loopStep h (hc (hcl ▸ hx))).2 with hx' | ⟨he,hb⟩
    · exact hx'
    · exact muted_of_closing hx fun _ => .inr (hb.trans (hev he))
  · exact hc.imp (fun hc => hcl.trans hc) (receiving_loopStep h)

/-- `Connection.close` cancels the loop, unless that is the task that calls it. -/
theorem Hushes.of_close {own : Bool}
    (h : c.closing = true ∨ (own = true → c.receiving = true → c.buffer = [])) :
    c.Hushes (c.close own) := by
  refine ⟨id,fun hc _ => ?_,fun _ _ => .inl rfl,fun _ _ => rfl⟩
  rcases h with hcl | hown
  · exact muted_close own (hc hcl)
  · refine muted_of_closing rfl fun hr => ?_
    cases own with
    | false => exact .inl (by simp)
    | true => exact .inr (hown rfl hr)

theorem Hushes.trans {y : Connection D} (h : c.Hushes x) (h' : x.Hushes y)
    (hm : c.muted = true → x.muted = true) : c.Hushes y :=
  ⟨fun hc => h'.made (h.made hc),fun hc => h'.shut (h.shut hc),
    fun hc ho => h'.stays (h.made hc) (h.stays hc ho),
    fun hc hmute => (h'.received (h.made hc) (hm hmute)).trans (h.received hc hmute)⟩

end Connection

/-- The connections that a closing call or the handling of an error is over for stay so; those that
are new among them have a property. -/
structure Over (P : C → Prop) (f f' : C → Bool) : Prop where
  keeps : ∀ c, f c = true → f' c = true
  known : ∀ c, f' c = true → f c = true ∨ P c

namespace Over

variable {P : C → Prop} {made f f' f'' : C → Bool}

theorem refl (P : C → Prop) (f : C → Bool) : Over P f f := ⟨fun _ => id,fun _ => .inl⟩

theorem trans (h : Over P f f') (h' : Over P f' f'') : Over P f f'' :=
  ⟨fun c hc => h'.keeps c (h.keeps c hc),fun c hc => (h'.known c hc).elim (h.known c) .inr⟩

theorem imp {Q : C → Prop} (h : Over P f f')
    (hPQ : ∀ c, f c = false → f' c = true → P c → Q c) : Over Q f f' := by
  refine ⟨h.keeps,fun c hc => ?_⟩
  cases hf : f c with
  | true => exact .inl rfl
  | false => exact .inr (hPQ c hf hc ((h.known c hc).resolve_left (by simp [hf])))

theorem all (h : ∀ c, made c = true → P c) : Over P f fun c => f c || made c :=
  ⟨fun c hc => by simp [hc],fun c hc => (Bool.or_eq_true_iff.mp hc).imp_right (h c)⟩

theorem one [DecidableEq C] (c : C) (h : made c = true → P c) :
    Over P f fun d => f d || (decide (d = c) && made d) := by
  refine ⟨fun d hd => by simp [hd],fun d hd => (Bool.or_eq_true_iff.mp hd).imp_right fun hd => ?_⟩
  obtain ⟨hdc,hm⟩ := Bool.and_eq_true_iff.mp hd
  obtain rfl := of_decide_eq_true hdc
  exact h hm

end Over

/-- A connection that is closed is muted; one that a closing call is over for is closed, or its
loop has met an error or ended. -/
structure Hushed (conn : C → Connection D) (finished : C → Bool) : Prop where
  shut : ∀ c, (conn c).closing = true → (conn c).muted = true
  finished : ∀ c, finished c = true → (conn c).made = true ∧
    ((conn c).closing = true ∨ (conn c).receiving = false)

theorem Hushed.muted {conn : C → Connection D} {finished : C → Bool} (h : Hushed conn finished)
    {c : C} (hc : finished c = true) : (conn c).made = true ∧ (conn c).muted = true := by
  obtain ⟨hm,hcl | hr⟩ := h.finished c hc
  · exact ⟨hm,h.shut c hcl⟩
  · exact ⟨hm,Connection.muted_of_not_receiving hr⟩

/-- What a step does to the connections, and to those that a closing call is over for. -/
structure Hushing (conn conn' : C → Connection D) (finished finished' : C → Bool) : Prop where
  hushes : ∀ c, (conn c).Hushes (conn' c)
  finished : Over (fun c => (conn' c).made = true ∧
    ((conn' c).closing = true ∨ (conn' c).receiving = false)) finished finished'

theorem Hushing.hushed {conn conn' : C → Connection D} {finished finished' : C → Bool}
    (h : Hushing conn conn' finished finished') (hs : Hushed conn finished) :
    Hushed conn' finished' := by
  refine ⟨fun c => (h.hushes c).shut (hs.shut c),fun c hc => ?_⟩
  rcases h.finished.known c hc with hold | hnew
  · obtain ⟨hm,ho⟩ := hs.finished c hold
    exact ⟨(h.hushes c).made hm,(h.hushes c).stays hm ho⟩
  · exact hnew

theorem Hushing.silent {S A : Type} {step : S → A → Option S} {ok : S → A → Prop} {I : S → Prop}
    {conn : S → C → Connection D} {finished : S → C → Bool}
    (hstep : ∀ s a t, I s → ok s a → step s a = some t →
      I t ∧ Hushing (conn s) (conn t) (finished s) (finished t))
    {s t u : S} {as bs : List A} (hI : I s) (hs : Hushed (conn s) (finished s))
    (hst : run step s as = some t) (htu : run step t bs = some u)
    (hok : Guarded step ok s (as++bs)) {c : C} (hc : finished t c = true) :
    (conn u c).received = (conn t c).received := by
  obtain ⟨hbefore,hafter⟩ := hok.split hst
  have hushed (v : S) (a : A) (w : S) (hv : I v ∧ Hushed (conn v) (finished v)) (ha : ok v a)
      (hw : step v a = some w) : I w ∧ Hushed (conn w) (finished w) := by
    obtain ⟨hIw,hvw⟩ := hstep v a w hv.1 ha hw
    exact ⟨hIw,hvw.hushed hv.2⟩
  have ht : I t ∧ Hushed (conn t) (finished t) := run_invariant hushed ⟨hI,hs⟩ hbefore hst
  have silent (v : S) (a : A) (w : S)
      (hv : (I v ∧ Hushed (conn v) (finished v)) ∧ finished v c = true ∧
        (conn v c).received = (conn t c).received) (ha : ok v a) (hw : step v a = some w) :
      (I w ∧ Hushed (conn w) (finished w)) ∧ finished w c = true ∧
        (conn w c).received = (conn t c).received := by
    obtain ⟨hinv,hover,hsame⟩ := hv
    obtain ⟨-,hvw⟩ := hstep v a w hinv.1 ha hw
    obtain ⟨hm,hmute⟩ := hinv.2.muted hover
    exact ⟨hushed v a w hinv ha hw,hvw.finished.keeps c hover,
      ((hvw.hushes c).received hm hmute).trans hsame⟩
  exact (run_invariant silent ⟨ht,hc,rfl⟩ hafter htu).2.2

/-- What is new among the connections over is closed or not read, or its owner does not keep it and
the step ends its loop if it is read. -/
theorem Hushing.of_over {conn conn' : C → Connection D} {finished finished' : C → Bool}
    {lost : C → Prop} (hushes : ∀ c, (conn c).Hushes (conn' c))
    (hover : Over (fun c => (conn c).made = true ∧
      ((conn c).closing = true ∨ (conn c).receiving = false ∨ lost c)) finished finished')
    (hlost : ∀ c, finished c = false → finished' c = true → lost c → (conn c).IsRead →
      (conn' c).receiving = false) : Hushing conn conn' finished finished' := by
  refine ⟨hushes,hover.imp fun c hfirst hnow ⟨hm,hgone⟩ => ⟨(hushes c).made hm,?_⟩⟩
  rcases hgone with hcl | hr | hc
  · exact (hushes c).stays hm (.inl hcl)
  · exact (hushes c).stays hm (.inr hr)
  · by_cases hx : (conn c).IsRead
    · exact .inr (hlost c hfirst hnow hc hx)
    · refine (hushes c).stays hm ?_
      cases hcl : (conn c).closing with
      | true => exact .inl rfl
      | false =>
        refine .inr ?_
        by_contra hr
        exact hx ⟨hm,hcl,by simpa using hr⟩

variable [DecidableEq C] [DecidableEq K]

namespace BaseLayerClient

variable {s t : BaseLayerClient C K D} {a : ClientAction C K D}

/-- A call returns for a connection that the client has forgotten: a `send` that fails, a `close`
that finds nothing open, or one that has waited for another connection. -/
def comesLate (s : BaseLayerClient C K D) : ClientAction C K D → C → Bool
  | .sendFailed k,c => decide (s.sending k = some c ∧ s.connection ≠ some c)
  | .close _ _,c => s.connection.all fun d => (s.conn d).closing && decide (d ≠ c)
  | .closed k,c => (s.closing k).isSome && decide (s.connection ≠ some c)
  | _,_ => false

/-- A connection is closed from its own receive callback, and a receive callback goes on in spite of
its cancellation, only while no complete message is left in the reader. While a call is in the
connection error callback for a connection that is still read, no other one comes late for it. -/
structure LeavesNothing (s : BaseLayerClient C K D) (a : ClientAction C K D) : Prop where
  own : ∀ c, s.closes a = some (c,some c) → (s.conn c).receiving = true → (s.conn c).buffer = []
  swallow : ∀ c, a = .loop c .swallow → (s.conn c).buffer = []
  late : ∀ c, s.comesLate a c = true → (s.conn c).IsRead → ¬s.InErrorCallback c
  forgotten : s.forgetsOther a = false

instance [Fintype C] [Fintype K] [DecidableEq D] (s : BaseLayerClient C K D)
    (a : ClientAction C K D) : Decidable (s.LeavesNothing a) :=
  decidable_of_iff ((∀ c, s.closes a = some (c,some c) → (s.conn c).receiving = true →
      (s.conn c).buffer = []) ∧ (∀ c, a = .loop c .swallow → (s.conn c).buffer = []) ∧
      (∀ c, s.comesLate a c = true → (s.conn c).IsRead → ¬s.InErrorCallback c) ∧
      s.forgetsOther a = false)
    ⟨fun ⟨ho,hs,hl,hf⟩ => ⟨ho,hs,hl,hf⟩,fun h => ⟨h.own,h.swallow,h.late,h.forgotten⟩⟩

omit [DecidableEq K] in
theorem comesLate_gone {c : C} (h : s.comesLate a c = true) : s.connection ≠ some c := by
  unfold comesLate at h
  split at h
  · exact (of_decide_eq_true h).2
  · rintro hc
    simp [hc] at h
  · exact of_decide_eq_true (Bool.and_eq_true_iff.mp h).2
  · cases h

/-- A connection that a call comes late for, or whose loop meets an error once it is forgotten. -/
def Lost (s : BaseLayerClient C K D) (a : ClientAction C K D) (c : C) : Prop :=
  s.comesLate a c = true ∨ a = .loopFailed c ∧ s.connection ≠ some c

def Gone (s : BaseLayerClient C K D) (a : ClientAction C K D) (c : C) : Prop :=
  (s.conn c).made = true ∧
    ((s.conn c).closing = true ∨ (s.conn c).receiving = false ∨ s.Lost a c)

theorem over_closeLost (k : K) (d : C) (task : Option C) :
    Over (s.Gone a) s.finished (s.closeLost k d task).finished := by
  unfold closeLost
  split
  · exact .one d fun hm => ⟨by simpa [endCall,setConn] using hm,.inl ‹_›⟩
  · exact .refl ..

theorem step_over (hs : s.Attended) (hok : s.forgetsOther a = false) (h : s.step a = some t) :
    Over (s.Gone a) s.finished t.finished := by
  cases step_outcome h with
  | reported k d task | raised k d task => exact over_closeLost k d task
  | sendGone k d task hk hd =>
    exact .one d fun hm => ⟨hm,.inr (.inr (.inl (by simp [comesLate,sending,hk,hd])))⟩
  | closeNone k task hk hnone =>
    exact .all fun c hm => ⟨hm,.inr (.inr (.inl (by simp [comesLate,hnone])))⟩
  | closeAgain k task d hk hd hclosing =>
    refine .all fun c hm => ?_
    by_cases hcd : c = d
    · subst d
      exact ⟨hs.known.made c (hs.known.connected c hd).1,.inl hclosing⟩
    · refine ⟨by simpa [shut,setConn,hcd] using hm,.inr (.inr (.inl ?_))⟩
      simpa [comesLate,hd,hclosing] using Ne.symm hcd
  | closed k d task hk =>
    refine .all fun c hm => ⟨hm,?_⟩
    by_cases hc : s.connection = some c
    · obtain rfl : c = d := by simpa [forgetsOther,closing,hk,hc] using hok
      exact .inl (hs.calls k _ hk).2
    · exact .inr (.inr (.inl (by simp [comesLate,closing,hk,hc])))
  | closedFailed k d task hk => exact .one d fun hm => ⟨hm,.inl (hs.calls k _ hk).2⟩
  | loopGone d hl hn hd =>
    exact .one d fun hm => ⟨by simpa [setConn] using hm,.inr (.inr (.inr ⟨rfl,hd⟩))⟩
  | loopReportedAgain d hl hclosing => exact .one d fun hm => ⟨by simpa [setConn] using hm,.inl hclosing⟩
  | loopClosed d hl =>
    exact .one d fun hm => ⟨by simpa [setConn] using hm,.inr (.inl (by simp [Connection.receiving,hl]))⟩
  | _ => exact .refl ..

omit [DecidableEq K] in
theorem Changes.hushes {c : C} {x : Connection D} (h : s.Changes c a x)
    (hown : s.closes a = some (c,some c) → (s.conn c).receiving = true → (s.conn c).buffer = [])
    (hswallow : a = .loop c .swallow → (s.conn c).buffer = []) : (s.conn c).Hushes x := by
  cases h with
  | same => exact .refl _
  | opened k _ hnew => exact .of_new hnew rfl (by simp [Connection.new])
  | discarded k _ hnew => exact .of_new hnew rfl fun _ => rfl
  | loop ev x hx => exact .of_loop hx fun he => hswallow (by rw [he])
  | close _ task hc =>
    refine .of_close (hc.imp_right fun hc ht => hown ?_)
    rw [hc,of_decide_eq_true ht]
  | failed | gone | reported | reportedAgain | closed => exact .of_stopped rfl rfl rfl

theorem step_loopFailed_gone {c : C} (hc : s.connection ≠ some c)
    (h : s.step (.loopFailed c) = some t) : (t.conn c).receiving = false := by
  cases step_outcome h with
  | loopFailed _ _ _ hc' => exact absurd hc' hc
  | loopGone => simp [finish,setConn,Connection.receiving]

theorem step_hushing (hs : s.Attended) (hok : s.LeavesNothing a) (h : s.step a = some t) :
    Hushing s.conn t.conn s.finished t.finished := by
  refine .of_over (fun c => (step_conn h c).hushes (hok.own c) (hok.swallow c))
    (step_over hs hok.forgotten h) fun c _ _ hc hx => ?_
  rcases hc with hlate | ⟨rfl,hne⟩
  · have hin : s.InErrorCallback c := (hs.reads c hx).resolve_left (comesLate_gone hlate)
    exact absurd hin (hok.late c hlate hx)
  · exact step_loopFailed_gone hne h

end BaseLayerClient

namespace BaseLayerNode

variable {lim : NodeLimits D} {s t u : BaseLayerNode C K D} {a : BaseAction C K D}

/-- The targets that `_relay_to` passes over: their queue is too full, and they are not listed. -/
def passedOver (lim : NodeLimits D) (listed : List C) (data : D) (conn : C → QueuedConnection D) :
    List C → List C
  | [] => []
  | c::rest =>
    if lim.sendQueueLimit < (conn c).queuedBytes+lim.length data then
      if c ∈ listed then [] else c::passedOver lim listed data conn rest
    else passedOver lim listed data
      (Function.update conn c ((conn c).enqueue data (lim.length data))) rest

/-- A call is over for a connection that it finds is not listed any more: `close_connection`, the
handling of an error, or a `close` that has waited for the others. -/
def comesLate (lim : NodeLimits D) (s : BaseLayerNode C K D) : BaseAction C K D → C → Bool
  | .relay _ _ targets data,c => decide (lim.length data ≤ lim.maxPayloadLength ∧
      c ∈ passedOver lim s.allConnections data s.conn targets)
  | .reported k,c =>
    match s.calls k with
    | some (.reporting d rest data,task) =>
      (s.conn d).closing && decide (c ∈ passedOver lim s.allConnections data (s.shut d task).conn rest)
    | _ => false
  | .closed k,c =>
    match s.calls k with
    | some (.closingFailed _ rest data,_) =>
      decide (c ∈ passedOver lim s.allConnections data s.conn rest)
    | some (.waiting,_) => decide (c ∉ s.allConnections)
    | _ => false
  | .closeConnection _ _ d,c | .sendFailed d,c => decide (d = c ∧ c ∉ s.allConnections)
  | _,_ => false

/-- A connection is closed from its own receive callback, and a receive callback goes on in spite of
its cancellation, only while no complete message is left in the reader. While a task is in the
connection error callback for a connection that is still read, no other one comes late for it. -/
structure LeavesNothing (lim : NodeLimits D) (s : BaseLayerNode C K D) (a : BaseAction C K D) :
    Prop where
  own : ∀ c, s.closes a = some (c,some (.loop c)) → (s.conn c).receiving = true →
    (s.conn c).buffer = []
  swallow : ∀ c, a = .loop c .swallow → (s.conn c).buffer = []
  late : ∀ c, s.comesLate lim a c = true → (s.conn c).IsRead → ¬s.InErrorCallback c

instance [Fintype C] [Fintype K] [DecidableEq D] (s : BaseLayerNode C K D) (a : BaseAction C K D) :
    Decidable (s.LeavesNothing lim a) :=
  decidable_of_iff ((∀ c, s.closes a = some (c,some (.loop c)) → (s.conn c).receiving = true →
      (s.conn c).buffer = []) ∧ (∀ c, a = .loop c .swallow → (s.conn c).buffer = []) ∧
      ∀ c, s.comesLate lim a c = true → (s.conn c).IsRead → ¬s.InErrorCallback c)
    ⟨fun ⟨ho,hs,hl⟩ => ⟨ho,hs,hl⟩,fun h => ⟨h.own,h.swallow,h.late⟩⟩

omit [DecidableEq K] in
theorem passedOver_unlisted {listed : List C} {data : D} {conn : C → QueuedConnection D} {cs : List C}
    {c : C} (h : c ∈ passedOver lim listed data conn cs) : c ∉ listed := by
  induction cs generalizing conn with
  | nil => cases h
  | cons d cs ih =>
    simp only [passedOver] at h
    split at h
    · split at h
      · cases h
      · rename_i hd
        rcases List.mem_cons.mp h with rfl | h
        · exact hd
        · exact ih h
    · exact ih h

omit [DecidableEq K] in
theorem comesLate_unlisted {c : C} (h : s.comesLate lim a c = true) : c ∉ s.allConnections := by
  unfold comesLate at h
  split at h
  · exact passedOver_unlisted (of_decide_eq_true h).2
  · split at h
    · exact passedOver_unlisted (of_decide_eq_true (Bool.and_eq_true_iff.mp h).2)
    · cases h
  · split at h
    · exact passedOver_unlisted (of_decide_eq_true h)
    · exact of_decide_eq_true h
    · cases h
  · exact (of_decide_eq_true h).2
  · exact (of_decide_eq_true h).2
  · cases h

/-- A connection that a call comes late for, or whose loop meets an error once it is unlisted. -/
def Lost (lim : NodeLimits D) (s : BaseLayerNode C K D) (a : BaseAction C K D) (c : C) : Prop :=
  s.comesLate lim a c = true ∨ a = .loopFailed c ∧ c ∉ s.allConnections

def Gone (lim : NodeLimits D) (s : BaseLayerNode C K D) (a : BaseAction C K D) (c : C) : Prop :=
  (s.conn c).made = true ∧
    ((s.conn c).closing = true ∨ (s.conn c).receiving = false ∨ s.Lost lim a c)

omit [DecidableEq K] in
theorem over_relayTo (data : D) (cs : List C) :
    Over (fun c => (s.conn c).made = true ∧ c ∈ passedOver lim s.allConnections data s.conn cs)
      s.finished (s.relayTo lim data cs).1.finished := by
  induction cs generalizing s with
  | nil => exact .refl ..
  | cons c cs ih =>
    simp only [relayTo,passedOver]
    split
    · split
      · exact .refl ..
      · have hfinish : Over (fun d => (s.conn d).made = true ∧
            d ∈ c::passedOver lim s.allConnections data s.conn cs) s.finished (s.finish c).finished :=
          .one c fun hm => ⟨hm,List.mem_cons_self⟩
        exact hfinish.trans ((ih (s := s.finish c)).imp fun d _ _ hd =>
          ⟨hd.1,List.mem_cons_of_mem c hd.2⟩)
    · refine (ih (s := s.setConn c _)).imp fun d _ _ hd => ⟨?_,hd.2⟩
      by_cases hdc : d = c
      · simpa [setConn,hdc] using hd.1
      · simpa [setConn,hdc] using hd.1

omit [DecidableEq K] in
theorem closeAll_finished (task : Option (NodeTask C)) (cs : List C) :
    (s.closeAll task cs).1.finished = s.finished := by
  induction cs generalizing s with
  | nil => rfl
  | cons c cs ih =>
    simp only [closeAll]
    split
    · exact ih
    · rfl

theorem over_relay (k : K) (task : Option (NodeTask C)) (cs : List C) (data : D) :
    Over (fun c => (s.conn c).made = true ∧ c ∈ passedOver lim s.allConnections data s.conn cs)
      s.finished (s.relay lim k task cs data).finished := by
  have h : Over (fun c => (s.conn c).made = true ∧
      c ∈ passedOver lim s.allConnections data s.conn cs) s.finished
      (s.relayTo lim data cs).1.finished := over_relayTo data cs
  unfold relay
  split <;> rename_i hr <;> rw [hr] at h <;> exact h

theorem closeRest_finished (k : K) (task : Option (NodeTask C)) (cs : List C) :
    (s.closeRest k task cs).finished = s.finished := by
  have h := closeAll_finished (s := s) task cs
  unfold closeRest
  split <;> rename_i hr <;> rw [hr] at h <;> exact h

theorem over_closeLost (k : K) (task : Option (NodeTask C)) (c : C) (rest : List C) (data : D) :
    Over (fun d => (s.conn d).made = true ∧ ((s.conn d).closing = true ∨ (s.conn c).closing = true ∧
      d ∈ passedOver lim s.allConnections data (s.shut c task).conn rest)) s.finished
      (s.closeLost lim k task c rest data).finished := by
  have hmade (d : C) : ((s.shut c task).conn d).made = (s.conn d).made := shut_made c d task
  unfold closeLost
  split
  · rename_i hc
    have hfinish : Over (fun d => (s.conn d).made = true ∧ ((s.conn d).closing = true ∨
        (s.conn c).closing = true ∧
          d ∈ passedOver lim s.allConnections data (s.shut c task).conn rest)) s.finished
        ((s.shut c task).finish c).finished := .one c fun hm => ⟨hmade c ▸ hm,.inl hc⟩
    exact hfinish.trans ((over_relay (s := (s.shut c task).finish c) k task rest data).imp
      fun d _ _ hd => ⟨hmade d ▸ hd.1,.inr ⟨hc,hd.2⟩⟩)
  · exact .refl ..

theorem step_over (hs : s.Attended) (h : s.step lim a = some t) :
    Over (s.Gone lim a) s.finished t.finished := by
  cases step_outcome h with
  | relay k task cs data hk hlen =>
    exact (over_relay k task cs data).imp fun c _ _ hc =>
      ⟨hc.1,.inr (.inr (.inl (decide_eq_true ⟨Nat.not_lt.mp hlen,hc.2⟩)))⟩
  | reported k c rest data task hk =>
    refine (over_closeLost k task c rest data).imp fun d _ _ hd => ⟨hd.1,hd.2.imp_right fun hd => ?_⟩
    exact .inr (.inl (by simpa [comesLate,hk,hd.1] using hd.2))
  | raised k c rest data task hk =>
    exact (over_closeLost k task c [] data).imp fun d _ _ hd =>
      ⟨hd.1,.inl (hd.2.resolve_right (by simp [passedOver]))⟩
  | closeAgain k task c hk hc hclosing =>
    exact .one c fun _ => ⟨hs.listed.made c hc,.inl hclosing⟩
  | closeGone k task c hk hc =>
    exact .one c fun hm => ⟨hm,.inr (.inr (.inl (by simp [comesLate,hc])))⟩
  | close k task =>
    rw [closeRest_finished]
    exact .refl ..
  | closedFailed k c rest data task hk =>
    have hfinish : Over (s.Gone lim (.closed k)) s.finished (s.finish c).finished :=
      .one c fun hm => ⟨hm,.inl (hs.calls k _ hk).2⟩
    refine hfinish.trans ((over_relay (s := s.finish c) k task rest data).imp fun d _ _ hd =>
      ⟨hd.1,.inr (.inr (.inl ?_))⟩)
    simp only [comesLate,hk]
    exact decide_eq_true hd.2
  | closed k c task hk => exact .one c fun hm => ⟨hm,.inl (hs.calls k _ hk).2⟩
  | closedNext k c rest task =>
    rw [closeRest_finished]
    exact .refl ..
  | closedAll k task hk =>
    exact .all fun c hm => ⟨hm,.inr (.inr (.inl (by simp [comesLate,hk,(hs.calls k _ hk).2])))⟩
  | loopGone c hl hn hc =>
    exact .one c fun hm => ⟨by simpa [setConn] using hm,.inr (.inr (.inr ⟨rfl,hc⟩))⟩
  | loopReportedAgain c hl hclosing =>
    exact .one c fun hm => ⟨by simpa [setConn] using hm,.inl hclosing⟩
  | loopClosed c hl =>
    exact .one c fun hm =>
      ⟨by simpa [setConn] using hm,.inr (.inl (by simp [Connection.receiving,hl]))⟩
  | sendGone c data hsend hc =>
    exact .one c fun hm =>
      ⟨by simpa [setConn] using hm,.inr (.inr (.inl (by simp [comesLate,hc])))⟩
  | sendReportedAgain c hsend hclosing =>
    exact .one c fun hm => ⟨by simpa [setConn] using hm,.inl hclosing⟩
  | sendClosed c hsend =>
    exact .one c fun hm => ⟨by simpa [setConn] using hm,.inl (hs.senders c hsend)⟩
  | _ => exact .refl ..

omit [DecidableEq C] [DecidableEq K] in
theorem Touched.hushes {own : Bool → Prop} {x y : QueuedConnection D} (h : Touched lim own x y)
    (hown : own true → x.receiving = true → x.buffer = []) :
    x.toConnection.Hushes y.toConnection ∧ (x.muted = true → y.muted = true) := by
  induction h with
  | refl => exact ⟨.refl _,id⟩
  | enqueue data _ _ ih => simpa using ih
  | close ownLoop _ h hwho ih =>
    obtain ⟨-,hloop,hbuffer,-⟩ := h.loop
    refine ⟨ih.1.trans (.of_close (hwho.imp_right ?_)) ih.2,fun hx => ?_⟩
    · rintro hwho rfl hr
      rw [hbuffer]
      exact hown hwho (by simpa [Connection.receiving,hloop] using hr)
    · exact Connection.muted_close _ (ih.2 hx)

omit [DecidableEq K] in
theorem Changes.hushes {c : C} {x : QueuedConnection D} (h : s.Changes lim c a x)
    (hown : s.closes a = some (c,some (.loop c)) → (s.conn c).receiving = true →
      (s.conn c).buffer = [])
    (hswallow : a = .loop c .swallow → (s.conn c).buffer = []) :
    (s.conn c).toConnection.Hushes x.toConnection := by
  have closed : (s.conn c).toConnection.Hushes ((s.conn c).toConnection.close false) :=
    .of_close (.inr nofun)
  cases h with
  | touched h =>
    refine (h.hushes ?_).1
    rintro ⟨task,hc,ht⟩
    exact hown (by rw [hc,of_decide_eq_true ht.symm])
  | started _ hnew => exact .of_new hnew rfl (by simp [QueuedConnection.new,Connection.new])
  | loop ev x hx => exact .of_loop hx fun he => hswallow (by rw [he])
  | failed | gone | reported | reportedAgain | closed => exact .of_stopped rfl rfl rfl
  | sendReported | sendReportedAgain => exact closed
  | send | sent => simpa using Connection.Hushes.refl _
  | _ => exact .refl _

theorem step_loopFailed_gone {c : C} (hc : c ∉ s.allConnections)
    (h : s.step lim (.loopFailed c) = some t) : (t.conn c).receiving = false := by
  cases step_outcome h with
  | loopFailed _ _ _ hc' => exact absurd hc' hc
  | loopGone => simp [finish,setConn,Connection.receiving]

theorem step_hushing (hs : s.Attended) (hok : s.LeavesNothing lim a) (h : s.step lim a = some t) :
    Hushing (fun c => (s.conn c).toConnection) (fun c => (t.conn c).toConnection) s.finished
      t.finished := by
  refine .of_over (fun c => (step_conn h c).hushes (hok.own c) (hok.swallow c)) (step_over hs h)
    fun c _ _ hc hx => ?_
  rcases hc with hlate | ⟨rfl,hne⟩
  · have hin : s.InErrorCallback c := (hs.reads c hx).resolve_left (comesLate_unlisted hlate)
    exact absurd hin (hok.late c hlate hx)
  · exact step_loopFailed_gone hne h

end BaseLayerNode

/-- Nothing is received from a connection once a call that closes it or handles an error of it has
returned, as long as the steps of the run leave nothing to read. -/
theorem silent_when_over {lim : NodeLimits D} {as as' : List (ClientAction C K D)}
    {bs bs' : List (BaseAction C K D)} {s s' : BaseLayerClient C K D} {t t' : BaseLayerNode C K D}
    (hs : run BaseLayerClient.step .init as = some s)
    (hs' : run BaseLayerClient.step s as' = some s')
    (hclient : Guarded BaseLayerClient.step BaseLayerClient.LeavesNothing .init (as++as'))
    (ht : run (BaseLayerNode.step lim) .init bs = some t)
    (ht' : run (BaseLayerNode.step lim) t bs' = some t')
    (hnode : Guarded (BaseLayerNode.step lim) (BaseLayerNode.LeavesNothing lim) .init (bs++bs')) :
    (∀ c, s.finished c = true → (s'.conn c).received = (s.conn c).received) ∧
      ∀ c, t.finished c = true → (t'.conn c).received = (t.conn c).received := by
  have hempty : Hushed (C := C) (D := D) (fun _ => .unmade) (fun _ => false) :=
    ⟨by simp [Connection.unmade],by simp⟩
  have client (s : BaseLayerClient C K D) (a : ClientAction C K D) (t : BaseLayerClient C K D)
      (hs : s.Attended) (hok : s.LeavesNothing a) (h : s.step a = some t) :
      t.Attended ∧ Hushing s.conn t.conn s.finished t.finished :=
    ⟨BaseLayerClient.step_attended hs hok.forgotten h,BaseLayerClient.step_hushing hs hok h⟩
  have node (s : BaseLayerNode C K D) (a : BaseAction C K D) (t : BaseLayerNode C K D)
      (hs : s.Attended) (hok : s.LeavesNothing lim a) (h : s.step lim a = some t) :
      t.Attended ∧ Hushing (fun c => (s.conn c).toConnection) (fun c => (t.conn c).toConnection)
        s.finished t.finished :=
    ⟨BaseLayerNode.step_attended hs h,BaseLayerNode.step_hushing hs hok h⟩
  exact ⟨fun c hc => Hushing.silent client BaseLayerClient.init_attended hempty hs hs' hclient hc,
    fun c hc => Hushing.silent node BaseLayerNode.init_attended hempty ht ht' hnode hc⟩

theorem silent_when_over_closed :
    ∃ (s s' : BaseLayerClient (Fin 1) (Fin 1) ℕ) (t t' : BaseLayerNode (Fin 1) (Fin 1) ℕ),
      run BaseLayerClient.step .init [.connect 0 none,.opened 0 0,.loop 0 (.feed 1),.loop 0 .read,
        .loop 0 (.feed 2),.close 0 none,.closed 0] = some s ∧
      run BaseLayerClient.step s [.loop 0 .escape] = some s' ∧
      run (BaseLayerNode.step ⟨id,10,4⟩) .init [.start 0 true,.loop 0 (.feed 1),.loop 0 .read,
        .loop 0 (.feed 2),.closeConnection 0 none 0,.closed 0] = some t ∧
      run (BaseLayerNode.step ⟨id,10,4⟩) t [.loop 0 .escape] = some t' ∧
      (s.conn 0).buffer = [2] ∧ (s'.conn 0).received = (s.conn 0).received ∧
      (t.conn 0).buffer = [2] ∧ (t'.conn 0).received = (t.conn 0).received := by
  refine ⟨_,_,_,_,rfl,rfl,rfl,rfl,?_⟩
  obtain ⟨hclient,hnode⟩ := silent_when_over (C := Fin 1) (K := Fin 1) (D := ℕ) (s := _) (t := _)
    (show run BaseLayerClient.step .init [.connect 0 none,.opened 0 0,.loop 0 (.feed 1),
      .loop 0 .read,.loop 0 (.feed 2),.close 0 none,.closed 0] = some _ from rfl)
    (show run BaseLayerClient.step _ [.loop 0 .escape] = some _ from rfl) (by decide)
    (show run (BaseLayerNode.step ⟨id,10,4⟩) .init [.start 0 true,.loop 0 (.feed 1),.loop 0 .read,
      .loop 0 (.feed 2),.closeConnection 0 none 0,.closed 0] = some _ from rfl)
    (show run (BaseLayerNode.step ⟨id,10,4⟩) _ [.loop 0 .escape] = some _ from rfl) (by decide)
  exact ⟨rfl,hclient 0 (by decide),rfl,hnode 0 (by decide)⟩

/-- The receive callback closes its own connection while a message is left in the reader. -/
theorem not_silent_when_over :
    ∃ (s s' : BaseLayerClient ℕ ℕ ℕ) (t t' : BaseLayerNode ℕ ℕ ℕ),
      run BaseLayerClient.step .init [.connect 0 none,.opened 0 0,.loop 0 (.feed 1),
        .loop 0 (.feed 2),.loop 0 .read,.close 0 (some 0),.closed 0] = some s ∧
      run BaseLayerClient.step s [.loop 0 .returned,.loop 0 .read] = some s' ∧
      run (BaseLayerNode.step ⟨id,10,4⟩) .init [.start 0 true,.loop 0 (.feed 1),.loop 0 (.feed 2),
        .loop 0 .read,.closeConnection 0 (some (.loop 0)) 0,.closed 0] = some t ∧
      run (BaseLayerNode.step ⟨id,10,4⟩) t [.loop 0 .returned,.loop 0 .read] = some t' ∧
      s.finished 0 = true ∧ (s'.conn 0).received ≠ (s.conn 0).received ∧
      t.finished 0 = true ∧ (t'.conn 0).received ≠ (t.conn 0).received :=
  ⟨_,_,_,_,rfl,rfl,rfl,rfl,by decide,by decide,by decide,by decide⟩

end SoftwareBus
