import SoftwareBus.ClientTracking
import SoftwareBus.NodeReports

/-! A listed connection is read: the loop of a connection that a node lists, or that is
the connection of a client, goes on until the connection is closed. -/
namespace SoftwareBus

open Transition

variable {C K D : Type} [DecidableEq C] [DecidableEq K]

namespace BaseLayerClient

variable {s t : BaseLayerClient C K D} {a : ClientAction C K D}

def Live (s : BaseLayerClient C K D) : Prop :=
  ∀ c, s.connection = some c → (s.conn c).closing = false → (s.conn c).loop ≠ .ended

/-- A receive callback lets a cancellation escape though its connection is not being closed. -/
def escapes (s : BaseLayerClient C K D) : ClientAction C K D → Bool
  | .loop c .escape => decide (s.connection = some c) && !(s.conn c).closing
  | _ => false

/-- The loop of the connection of a client has met no error, and is cancelled only to close it. -/
structure Reads (s : BaseLayerClient C K D) : Prop where
  known : s.Known
  cancelled : ∀ c, (s.conn c).cancelled = true → (s.conn c).closing = true
  reading : ∀ c, s.connection = some c → (s.conn c).closing = true ∨
    (s.conn c).loop = .reading ∨ (s.conn c).loop = .callback

omit [DecidableEq C] [DecidableEq K] in
theorem init_reads : (init : BaseLayerClient C K D).Reads :=
  ⟨init_known,by simp [init,Connection.unmade],by simp [init]⟩

omit [DecidableEq C] [DecidableEq K] in
theorem Reads.live (h : s.Reads) : s.Live := by
  intro c hc hopen hl
  rcases h.reading c hc with hcl | hr | hr
  · simp [hcl] at hopen
  · simp [hr] at hl
  · simp [hr] at hl

theorem step_connection (h : s.step a = some t) {c : C} (hc : t.connection = some c) :
    s.connection = some c ∨ t.conn c = .new .reading := by
  cases step_outcome h with
  | opened k d =>
    obtain rfl := Option.some.inj hc
    exact .inr (by simp [setConn,endCall])
  | sendFailed | loopFailed => simp [setCall,setConn,lose] at hc
  | closeNone | closeAgain | closed => simp [forget] at hc
  | reported | raised =>
    have hrec := closeLost_record s ‹K› ‹C› ‹Option C›
    exact .inl ((congrArg ClientRecord.connection hrec).symm.trans hc)
  | _ => exact .inl hc

theorem step_loopFailed {c : C} (h : s.step (.loopFailed c) = some t) : t.connection ≠ some c := by
  cases step_outcome h with
  | loopFailed => simp [setConn,lose]
  | loopGone _ _ _ hc => exact hc

theorem step_closing (h : s.step a = some t) {c : C} (hm : (s.conn c).made = true)
    (hc : (s.conn c).closing = true) : (t.conn c).closing = true := by
  generalize ht : t.conn c = x
  have hchange := ht ▸ step_conn h c
  cases hchange with
  | loop ev x hx => exact (Connection.loopStep_kept hx).2.trans hc
  | opened k _ hnew => simp [hm] at hnew
  | discarded | close | reported | reportedAgain => rfl
  | _ => exact hc

theorem step_cancelled (hs : ∀ c, (s.conn c).cancelled = true → (s.conn c).closing = true)
    (h : s.step a = some t) (c : C) (hc : (t.conn c).cancelled = true) : (t.conn c).closing = true := by
  generalize ht : t.conn c = x at hc
  have hchange := ht ▸ step_conn h c
  cases hchange with
  | loop ev x hx =>
    exact (Connection.loopStep_kept hx).2.trans (hs c (Connection.loopStep_cancelled hx hc))
  | opened => simp [Connection.new] at hc
  | discarded | close | reported | reportedAgain => rfl
  | _ => exact hs c hc

theorem step_reads (hs : s.Reads) (hok : s.escapes a = false) (h : s.step a = some t) : t.Reads := by
  refine ⟨step_known hs.known h,step_cancelled hs.cancelled h,fun c hc => ?_⟩
  rcases step_connection h hc with hc' | hnew
  · have hmade := hs.known.made c (hs.known.connected c hc').1
    rcases hs.reading c hc' with hcl | hl
    · exact .inl (step_closing h hmade hcl)
    · generalize ht : t.conn c = x
      have hchange := ht ▸ step_conn h c
      cases hchange with
      | same | opened => exact .inr (by first | exact hl | exact .inl rfl)
      | discarded | close | reported | reportedAgain => exact .inl rfl
      | loop ev x hx =>
        have hkept := (Connection.loopStep_kept hx).2
        rcases Connection.loopStep_reading hx hl with hr | hr | rfl | hn
        · exact .inr (.inl hr)
        · exact .inr (.inr hr)
        · exact .inl (hkept.trans (by simpa [escapes,hc'] using hok))
        · exact .inl (hkept.trans (hs.cancelled c hn))
      | failed => exact absurd hc (step_loopFailed h)
      | gone _ _ hne => exact absurd hc' hne
      | closed hcl => simp [hcl] at hl
  · exact .inr (.inl (hnew ▸ rfl))

theorem escapes_of_live (h : s.step a = some t) (ht : t.Live) : s.escapes a = false := by
  cases a with
  | loop c ev =>
    cases ev with
    | escape =>
      obtain ⟨x,hx,rfl⟩ := Option.map_eq_some_iff.mp h
      by_contra hbad
      obtain ⟨hc,hopen⟩ : s.connection = some c ∧ (s.conn c).closing = false := by
        simpa [escapes] using hbad
      have hx := Connection.loopStep_escape hx
      exact ht c hc (by simpa [setConn,hx] using hopen) (by simp [setConn,hx])
    | _ => rfl
  | _ => rfl

end BaseLayerClient

namespace BaseLayerNode

variable {lim : NodeLimits D} {s t : BaseLayerNode C K D} {a : BaseAction C K D}

def Live (s : BaseLayerNode C K D) : Prop :=
  ∀ c ∈ s.allConnections, (s.conn c).closing = false → (s.conn c).loop ≠ .ended

/-- A receive callback lets a cancellation escape though its connection is not being closed. -/
def escapes (s : BaseLayerNode C K D) : BaseAction C K D → Bool
  | .loop c .escape => decide (c ∈ s.allConnections) && !(s.conn c).closing
  | _ => false

/-- The loop of a listed connection has met no error, and is cancelled only to close it. -/
structure Reads (s : BaseLayerNode C K D) : Prop where
  listed : s.Listed
  cancelled : ∀ c, (s.conn c).cancelled = true → (s.conn c).closing = true
  reading : ∀ c ∈ s.allConnections, (s.conn c).closing = true ∨
    (s.conn c).loop = .reading ∨ (s.conn c).loop = .callback

omit [DecidableEq C] [DecidableEq K] in
theorem init_reads : (init : BaseLayerNode C K D).Reads :=
  ⟨init_listed,by simp [init,QueuedConnection.unmade,Connection.unmade],
    by simp [init,NodeRecord.allConnections]⟩

omit [DecidableEq C] [DecidableEq K] in
theorem Reads.live (h : s.Reads) : s.Live := by
  intro c hc hopen hl
  rcases h.reading c hc with hcl | hr | hr
  · simp [hcl] at hopen
  · simp [hr] at hl
  · simp [hr] at hl

theorem step_listed_old (h : s.step lim a = some t) {c : C} (hs : s.Listed) (hc : c ∈ t.allConnections) :
    c ∈ s.allConnections ∨ t.conn c = .new := by
  have hrec := step_record h
  have start {d : C} {up : Bool} (ha : a = .start d up) (hd : c = d) : t = s ∨ t.conn c = .new := by
    subst ha hd
    cases step_outcome h with
    | startClosed => exact .inl rfl
    | startUpstream | startDownstream => exact .inr (by simp [setConn])
  have hall : c ∈ t.toNodeRecord.allConnections := hc
  generalize hr : t.toNodeRecord = r at hrec hall
  cases hrec with
  | same | close => exact .inl hall
  | startUpstream d ha | startDownstream d ha =>
    by_cases hd : c = d
    · rcases start ha hd with rfl | hnew
      · exact .inl hc
      · exact .inr hnew
    · exact .inl (by simpa [NodeRecord.allConnections,hd] using hall)
  | lose d | closeConnection d => exact .inl ((mem_unlist hs).mp hall).1
  | clear => simp [NodeRecord.allConnections] at hall

theorem step_loopFailed (hs : s.Listed) {c : C} (h : s.step lim (.loopFailed c) = some t) :
    c ∉ t.allConnections := by
  cases step_outcome h with
  | loopFailed => exact fun hc => ((mem_unlist hs).mp hc).2 rfl
  | loopGone _ _ _ hc => exact hc

theorem step_closing (h : s.step lim a = some t) {c : C} (hm : (s.conn c).made = true)
    (hc : (s.conn c).closing = true) : (t.conn c).closing = true := by
  generalize ht : t.conn c = x
  have hchange := ht ▸ step_conn h c
  cases hchange with
  | touched h => exact h.closing.1 hc
  | loop ev x hx => exact (Connection.loopStep_kept hx).2.trans hc
  | started up hnew => simp [hm] at hnew
  | reported | reportedAgain | sendReported | sendReportedAgain => rfl
  | _ => simpa using hc

theorem step_cancelled (hs : ∀ c, (s.conn c).cancelled = true → (s.conn c).closing = true)
    (h : s.step lim a = some t) (c : C) (hc : (t.conn c).cancelled = true) :
    (t.conn c).closing = true := by
  generalize ht : t.conn c = x at hc
  have hchange := ht ▸ step_conn h c
  cases hchange with
  | touched h =>
    rcases h.closing.2.2 hc with hn | hcl
    · exact h.closing.1 (hs c hn)
    · exact hcl
  | loop ev x hx =>
    exact (Connection.loopStep_kept hx).2.trans (hs c (Connection.loopStep_cancelled hx hc))
  | started => simp [QueuedConnection.new,Connection.new] at hc
  | reported | reportedAgain | sendReported | sendReportedAgain => rfl
  | _ => simpa using hs c (by simpa using hc)

theorem step_reads (hs : s.Reads) (hok : s.escapes a = false) (h : s.step lim a = some t) :
    t.Reads := by
  refine ⟨step_listed hs.listed h,step_cancelled hs.cancelled h,fun c hc => ?_⟩
  rcases step_listed_old h hs.listed hc with hc' | hnew
  · have hmade := hs.listed.made c hc'
    rcases hs.reading c hc' with hcl | hl
    · exact .inl (step_closing h hmade hcl)
    · generalize ht : t.conn c = x
      have hchange := ht ▸ step_conn h c
      cases hchange with
      | touched h => exact .inr (h.loop.2.1 ▸ hl)
      | started => exact .inr (.inl rfl)
      | loop ev x hx =>
        have hkept := (Connection.loopStep_kept hx).2
        rcases Connection.loopStep_reading hx hl with hr | hr | rfl | hn
        · exact .inr (.inl hr)
        · exact .inr (.inr hr)
        · exact .inl (hkept.trans (by simpa [escapes,hc'] using hok))
        · exact .inl (hkept.trans (hs.cancelled c hn))
      | failed => exact absurd hc (step_loopFailed hs.listed h)
      | gone _ _ hne => exact absurd hc' hne
      | closed hcl => simp [hcl] at hl
      | reported | reportedAgain | sendReported | sendReportedAgain => exact .inl rfl
      | _ => exact .inr (by simpa using hl)
  · exact .inr (.inl (hnew ▸ rfl))

theorem escapes_of_live (h : s.step lim a = some t) (ht : t.Live) : s.escapes a = false := by
  cases a with
  | loop c ev =>
    cases ev with
    | escape =>
      obtain ⟨x,hx,rfl⟩ := Option.map_eq_some_iff.mp h
      by_contra hbad
      obtain ⟨hc,hopen⟩ : c ∈ s.allConnections ∧ (s.conn c).closing = false := by
        simpa [escapes] using hbad
      have hx := Connection.loopStep_escape hx
      exact ht c hc (by simpa [setConn,hx] using hopen) (by simp [setConn,hx])
    | _ => rfl
  | _ => rfl

end BaseLayerNode

/-- A listed connection that is not being closed is read, in every state, exactly as long as no
receive callback of such a connection lets a cancellation escape. -/
theorem loops_live {lim : NodeLimits D} {as : List (ClientAction C K D)}
    {bs : List (BaseAction C K D)} {s : BaseLayerClient C K D} {t : BaseLayerNode C K D}
    (hs : run BaseLayerClient.step .init as = some s)
    (ht : run (BaseLayerNode.step lim) .init bs = some t) :
    ((∀ u, Passes BaseLayerClient.step .init as u → u.Live) ↔
        Guarded BaseLayerClient.step (fun s a => s.escapes a = false) .init as) ∧
      ((∀ u, Passes (BaseLayerNode.step lim) .init bs u → u.Live) ↔
        Guarded (BaseLayerNode.step lim) (fun s a => s.escapes a = false) .init bs) :=
  ⟨passes_good_iff (fun _ _ _ h hok hstep => BaseLayerClient.step_reads h hok hstep)
      (fun _ h => h.live) (fun _ _ _ h hl => BaseLayerClient.escapes_of_live h hl)
      BaseLayerClient.init_reads hs,
    passes_good_iff (fun _ _ _ h hok hstep => BaseLayerNode.step_reads h hok hstep)
      (fun _ h => h.live) (fun _ _ _ h hl => BaseLayerNode.escapes_of_live h hl)
      BaseLayerNode.init_reads ht⟩

theorem loops_live_message : ∃ (s : BaseLayerClient ℕ ℕ ℕ) (t : BaseLayerNode ℕ ℕ ℕ),
    run BaseLayerClient.step .init
      [.connect 0 none,.opened 0 0,.loop 0 (.feed 1),.loop 0 .read,.loop 0 .returned] = some s ∧
    run (BaseLayerNode.step ⟨id,10,4⟩) .init
      [.start 0 true,.loop 0 (.feed 1),.loop 0 .read,.close 0 none,.loop 0 .escape] = some t ∧
    s.Live ∧ t.Live := by
  have hs := Option.some_get (show (run BaseLayerClient.step (.init : BaseLayerClient ℕ ℕ ℕ)
    [.connect 0 none,.opened 0 0,.loop 0 (.feed 1),.loop 0 .read,.loop 0 .returned]).isSome by decide)
  have ht := Option.some_get (show (run (BaseLayerNode.step ⟨id,10,4⟩) (.init : BaseLayerNode ℕ ℕ ℕ)
    [.start 0 true,.loop 0 (.feed 1),.loop 0 .read,.close 0 none,.loop 0 .escape]).isSome by decide)
  obtain ⟨hclient,hnode⟩ := loops_live hs.symm ht.symm
  exact ⟨_,_,hs.symm,ht.symm,hclient.mpr (by decide) _ (.finish hs.symm),
    hnode.mpr (by decide) _ (.finish ht.symm)⟩

/-- The receive callback awaits a task that is cancelled, and lets the error escape. -/
theorem not_loops_live : ∃ (s : BaseLayerClient ℕ ℕ ℕ) (t : BaseLayerNode ℕ ℕ ℕ),
    run BaseLayerClient.step .init
      [.connect 0 none,.opened 0 0,.loop 0 (.feed 1),.loop 0 .read,.loop 0 .escape] = some s ∧
    run (BaseLayerNode.step ⟨id,10,4⟩) .init
      [.start 0 true,.loop 0 (.feed 1),.loop 0 .read,.loop 0 .escape] = some t ∧ ¬s.Live ∧ ¬t.Live := by
  have hs := Option.some_get (show (run BaseLayerClient.step (.init : BaseLayerClient ℕ ℕ ℕ)
    [.connect 0 none,.opened 0 0,.loop 0 (.feed 1),.loop 0 .read,.loop 0 .escape]).isSome by decide)
  have ht := Option.some_get (show (run (BaseLayerNode.step ⟨id,10,4⟩) (.init : BaseLayerNode ℕ ℕ ℕ)
    [.start 0 true,.loop 0 (.feed 1),.loop 0 .read,.loop 0 .escape]).isSome by decide)
  exact ⟨_,_,hs.symm,ht.symm,fun h => h 0 (by decide) (by decide) (by decide),
    fun h => h 0 (by decide) (by decide) (by decide)⟩

end SoftwareBus
