import SoftwareBus.BaseLayerClient

/-! Whether a client keeps track of its connection, and what it reports. -/
namespace SoftwareBus

open Transition

namespace BaseLayerClient

variable {C K D : Type}

/-- A connection that a `connect` has returned, and that has been neither lost nor closed. -/
def IsOpen (s : BaseLayerClient C K D) (c : C) : Prop :=
  s.returned c = true ∧ s.lost c = false ∧ s.closed c = false

def closing (s : BaseLayerClient C K D) (k : K) : Option C :=
  match s.calls k with
  | some (.closing c,_) => some c
  | _ => none

def sending (s : BaseLayerClient C K D) (k : K) : Option C :=
  match s.calls k with
  | some (.sending c,_) => some c
  | _ => none

section

variable [DecidableEq C]

/-- A `close` that has waited ends while the client has another connection than the one
it has closed. -/
def forgetsOther (s : BaseLayerClient C K D) : ClientAction C K D → Bool
  | .closed k => (s.closing k).any fun c => s.connection.any fun d => decide (d ≠ c)
  | _ => false

/-- A send or the receive loop fails on the connection of the client after a `close` has
started to close it. -/
def failsClosed (s : BaseLayerClient C K D) : ClientAction C K D → Bool
  | .sendFailed k => (s.sending k).any fun c => decide (s.connection = some c) && s.closed c
  | .loopFailed c => decide (s.connection = some c) && s.closed c
  | _ => false

end

end BaseLayerClient

structure ClientRecord.Known {C : Type} (r : ClientRecord C) : Prop where
  connected : ∀ c, r.connection = some c → r.returned c = true ∧ r.lost c = false
  lost : ∀ c, r.lost c = true → r.returned c = true
  closed : ∀ c, r.closed c = true → r.returned c = true
  reports : ∀ d ∈ r.reports, r.lost d.1 = true
  once : (r.reports.map Prod.fst).Nodup

namespace BaseLayerClient

structure Known (s : BaseLayerClient C K D) : Prop extends s.toClientRecord.Known where
  made : ∀ c, s.returned c = true → (s.conn c).made = true
  waits : ∀ k c task, s.calls k = some (.closing c,task) → s.closed c = true

theorem init_known : (init : BaseLayerClient C K D).Known :=
  ⟨⟨by simp [init],by simp [init],by simp [init],by simp [init],by simp [init]⟩,by simp [init],
    by simp [init]⟩

variable [DecidableEq C] [DecidableEq K] {s t : BaseLayerClient C K D} {a : ClientAction C K D}

theorem step_made (h : s.step a = some t) {c : C} (hc : (s.conn c).made = true) :
    (t.conn c).made = true := by
  generalize hx : t.conn c = x
  have hs := hx ▸ step_conn h c
  cases hs with
  | loop ev x hx => exact (Connection.loopStep_kept hx).1.trans hc
  | opened | discarded => rfl
  | _ => exact hc

/-- A call that waits for a connection to close was there before, or has just started
to close it. -/
theorem step_waits (h : s.step a = some t) {k : K} {c : C} {task : Option C}
    (hk : t.calls k = some (.closing c,task)) :
    s.calls k = some (.closing c,task) ∨ t.closed c = true := by
  -- a step that sets one call to another wait
  have set {j : K} {w : Option (ClientCall C × Option C)} (hw : ∀ task, w ≠ some (.closing c,task))
      (hj : Function.update s.calls j w k = some (.closing c,task)) :
      s.calls k = some (.closing c,task) := by
    by_cases hkj : k = j
    · subst j
      exact absurd (by simpa using hj) (hw task)
    · simpa [hkj] using hj
  cases step_outcome h with
  | connected | unconnected | loop | loopFailed | loopGone | loopReported | loopReportedAgain | loopClosed =>
    exact .inl hk
  | reported | raised =>
    unfold BaseLayerClient.closeLost at hk
    split at hk <;> exact .inl (set (by simp) hk)
  | close j task' d =>
    by_cases hkj : k = j
    · subst j
      have hdc : d = c := by simpa [setCall] using congrArg (Option.map Prod.fst) hk
      exact .inr (by simp [setCall,shut,hdc])
    · exact .inl (by simpa [setCall,shut,setConn,hkj] using hk)
  | _ => exact .inl (set (by simp) hk)

omit [DecidableEq K] in
theorem Records.known {r : ClientRecord C} (hs : s.Known) (h : s.Records a r) : r.Known := by
  cases h with
  | same => exact hs.toKnown
  | opened k c hc hnew =>
    have hc' : s.returned c = false := by
      by_contra hne
      simp [hs.made c (by simpa using hne)] at hnew
    have hnot {d : C} (hd : s.returned d = true) : d ≠ c := by
      rintro rfl
      simp [hc'] at hd
    refine ⟨fun d hd => ?_,fun d hd => ?_,fun d hd => ?_,hs.reports,hs.once⟩
    · obtain rfl := Option.some.inj hd
      refine ⟨by simp,?_⟩
      by_contra hne
      simp [hs.lost c (by simpa using hne)] at hc'
    · simp [hnot (hs.lost d hd),hs.lost d hd]
    · simp [hnot (hs.closed d hd),hs.closed d hd]
  | lose _ c hc ha =>
    obtain ⟨hret,hlost⟩ := hs.connected c hc
    refine ⟨by simp [BaseLayerClient.lose],fun d hd => ?_,hs.closed,fun d hd => ?_,?_⟩
    · by_cases hdc : d = c
      · exact hdc ▸ hret
      · exact hs.lost d (by simpa [BaseLayerClient.lose,hdc] using hd)
    · rcases List.mem_append.mp hd with hd | hd
      · by_cases hdc : d.1 = c <;> simp [BaseLayerClient.lose,hdc,hs.reports d hd]
      · simp [BaseLayerClient.lose,List.mem_singleton.mp hd]
    · simp only [BaseLayerClient.lose,List.map_append,List.nodup_append,List.map_cons,List.map_nil]
      refine ⟨hs.once,by simp,fun d hd e he hde => ?_⟩
      obtain ⟨x,hx,rfl⟩ := List.mem_map.mp hd
      obtain rfl := List.mem_singleton.mp he
      simp [hde ▸ hs.reports x hx] at hlost
  | close k task c hc =>
    refine ⟨hs.connected,hs.lost,fun d hd => ?_,hs.reports,hs.once⟩
    by_cases hdc : d = c
    · exact hdc ▸ (hs.connected c hc).1
    · exact hs.closed d (by simpa [hdc] using hd)
  | closeAgain k task c hc =>
    refine ⟨by simp,hs.lost,fun d hd => ?_,hs.reports,hs.once⟩
    by_cases hdc : d = c
    · exact hdc ▸ (hs.connected c hc).1
    · exact hs.closed d (by simpa [hdc] using hd)
  | forget k c task hcall => exact ⟨by simp,hs.lost,hs.closed,hs.reports,hs.once⟩

theorem step_opened {k : K} {c : C} (h : s.step (.opened k c) = some t) :
    (t.conn c).made = true := by
  cases step_outcome h with
  | discarded | opened => simp [setCall,endCall,setConn,Connection.new]

omit [DecidableEq K] in
theorem Records.mono {r : ClientRecord C} (h : s.Records a r) {c : C} :
    (s.lost c = true → r.lost c = true) ∧ (s.closed c = true → r.closed c = true) ∧
      (s.returned c = true → r.returned c = true) ∧
      (r.returned c = true → s.returned c = true ∨ ∃ k, a = .opened k c) := by
  have update {f : C → Bool} {d : C} (hf : f c = true) : Function.update f d true c = true := by
    by_cases hcd : c = d <;> simp [hcd,hf]
  cases h with
  | same => exact ⟨id,id,id,.inl⟩
  | opened k d hc hnew =>
    refine ⟨id,id,update,fun hr => ?_⟩
    by_cases hcd : c = d
    · exact .inr ⟨k,hcd ▸ rfl⟩
    · exact .inl (by simpa [hcd] using hr)
  | lose _ d hc ha => exact ⟨update,id,id,.inl⟩
  | close k task d hc => exact ⟨id,update,id,.inl⟩
  | closeAgain k task d hc => exact ⟨id,update,id,.inl⟩
  | forget k d task hcall => exact ⟨id,id,id,.inl⟩

theorem step_known (hs : s.Known) (h : s.step a = some t) : t.Known := by
  have hrec := step_record h
  refine ⟨hrec.known hs,fun c hc => ?_,fun k c task hk => ?_⟩
  · rcases hrec.mono.2.2.2 hc with hc | ⟨k,rfl⟩
    · exact step_made h (hs.made c hc)
    · exact step_opened h
  · rcases step_waits h hk with hk | hc
    · exact hrec.mono.2.1 (hs.waits k c task hk)
    · exact hc

/-- What a client does not forget as long as each `close` keeps other connections. -/
structure Tracked (s : BaseLayerClient C K D) : Prop where
  known : s.Known
  current : ∀ c, s.IsOpen c → s.connection = some c

omit [DecidableEq C] [DecidableEq K] in
theorem init_tracked : (init : BaseLayerClient C K D).Tracked :=
  ⟨init_known,fun c h => by simp [IsOpen,init] at h⟩

theorem step_tracked (hs : s.Tracked) (hok : s.forgetsOther a = false) (h : s.step a = some t) :
    t.Tracked := by
  refine ⟨step_known hs.known h,fun c hopen => ?_⟩
  have hrec := step_record h
  obtain ⟨hret,hlost,hclosed⟩ := hopen
  have hold (hret : s.returned c = true) : s.connection = some c := by
    refine hs.current c ⟨hret,?_,?_⟩
    · by_contra hne
      simp [hrec.mono.1 (by simpa using hne)] at hlost
    · by_contra hne
      simp [hrec.mono.2.1 (by simpa using hne)] at hclosed
  generalize hr : t.toClientRecord = r at hret hlost hclosed hrec ⊢
  cases hrec with
  | same => exact hold hret
  | opened k d hc hnew =>
    by_cases hcd : c = d
    · exact congrArg some hcd.symm
    · simp [hold (by simpa [hcd] using hret)] at hc
  | lose _ d hc ha =>
    obtain rfl : d = c := Option.some.inj (hc.symm.trans (hold hret))
    simp [BaseLayerClient.lose] at hlost
  | close k task d hc => exact hold hret
  | closeAgain k task d hc =>
    obtain rfl : d = c := Option.some.inj (hc.symm.trans (hold hret))
    simp at hclosed
  | forget k d task hcall =>
    obtain rfl : c = d := by simpa [forgetsOther,closing,hcall,hold hret] using hok
    simp [hs.known.waits k c task hcall] at hclosed

/-- As long as no `close` forgets a connection made while it waited, a client knows the
connection that is open. -/
theorem connection_tracked {as : List (ClientAction C K D)}
    (hrun : run step (init : BaseLayerClient C K D) as = some s)
    (hok : Guarded step (fun s a => s.forgetsOther a = false) (init : BaseLayerClient C K D) as) :
    (∀ c, s.IsOpen c → s.connection = some c) ∧ (∀ c d, s.IsOpen c → s.IsOpen d → c = d) ∧
      (∀ k t, s.forgetsOther (.closed k) = false → s.step (.closed k) = some t →
        ∀ c ∈ s.connection, c ∉ t.connection → s.closing k = some c) ∧
      (s.connection = none → ∀ c, s.returned c = true → s.lost c = true ∨ s.closed c = true) := by
  have h : s.Tracked := run_invariant (fun s a t h hok ht => step_tracked h hok ht) init_tracked hok hrun
  refine ⟨h.current,fun c d hc hd => ?_,fun k t hk ht c hc hn => ?_,fun hnone c hc => ?_⟩
  · exact Option.some.inj ((h.current c hc).symm.trans (h.current d hd))
  · have hrec := step_record ht
    generalize hr : t.toClientRecord = r at hrec hn
    cases hrec with
    | same => exact absurd hc hn
    | lose _ d hd ha => simp at ha
    | forget _ d task hcall =>
      obtain rfl : c = d := by simpa [forgetsOther,closing,hcall,Option.mem_def.mp hc] using hk
      simp [closing,hcall]
  · by_contra hne
    rw [not_or] at hne
    simp [h.current c ⟨hc,by simpa using hne.1,by simpa using hne.2⟩] at hnone

theorem connection_tracked_again : ∃ s : BaseLayerClient ℕ ℕ Unit,
    run step init [.connect 0 none,.opened 0 0,.close 0 none,.closed 0,.connect 0 none,.opened 0 1] =
      some s ∧ s.IsOpen 1 ∧ s.connection = some 1 := by
  have hrun := Option.some_get (show (run step (init : BaseLayerClient ℕ ℕ Unit)
    [.connect 0 none,.opened 0 0,.close 0 none,.closed 0,.connect 0 none,.opened 0 1]).isSome
      by decide)
  have hopen : BaseLayerClient.IsOpen (Option.get _ (show (run step (init : BaseLayerClient ℕ ℕ Unit)
    [.connect 0 none,.opened 0 0,.close 0 none,.closed 0,.connect 0 none,.opened 0 1]).isSome
      by decide)) 1 := by unfold IsOpen; decide
  exact ⟨_,hrun.symm,hopen,(connection_tracked hrun.symm (by decide)).1 1 hopen⟩

/-- A send fails while `close` waits, and the client connects again: the `close` then forgets
the new connection. -/
def forgottenRun : List (ClientAction ℕ ℕ Unit) :=
  [.connect 0 none,.opened 0 0,.send 1 none,.close 2 none,.sendFailed 1,.reported 1,
    .connect 0 none,.opened 0 1,.closed 2]

theorem not_connection_tracked : ∃ s : BaseLayerClient ℕ ℕ Unit,
    run step init forgottenRun = some s ∧ s.IsOpen 1 ∧ s.connection ≠ some 1 := by
  have hrun := Option.some_get (show (run step (init : BaseLayerClient ℕ ℕ Unit)
    forgottenRun).isSome by decide)
  exact ⟨_,hrun.symm,by unfold IsOpen; decide,by decide⟩

theorem step_reports (h : s.step a = some t) :
    (∀ r ∈ t.reports, r.2 = false) ↔ (∀ r ∈ s.reports, r.2 = false) ∧ s.failsClosed a = false := by
  have lose {c : C} : (∀ r ∈ (s.lose c).reports, r.2 = false) ↔
      (∀ r ∈ s.reports, r.2 = false) ∧ s.closed c = false := by
    simp only [BaseLayerClient.lose,List.mem_append,List.mem_singleton,or_imp,forall_and,forall_eq]
  -- a step that reports nothing
  have quiet (hf : s.failsClosed a = false) (hr : t.reports = s.reports) :
      (∀ r ∈ t.reports, r.2 = false) ↔ (∀ r ∈ s.reports, r.2 = false) ∧ s.failsClosed a = false := by
    simp [hf,hr]
  cases step_outcome h with
  | sendFailed k c task hk hc =>
    have hf : s.failsClosed (.sendFailed k) = s.closed c := by simp [failsClosed,sending,hk,hc]
    rw [hf]
    exact lose
  | sendGone k c task hk hc => exact quiet (by simp [failsClosed,sending,hk,hc]) rfl
  | loopFailed c hl hn hc =>
    have hf : s.failsClosed (.loopFailed c) = s.closed c := by simp [failsClosed,hc]
    rw [hf]
    exact lose
  | loopGone c hl hn hc => exact quiet (by simp [failsClosed,hc]) rfl
  | reported k c task | raised k c task =>
    exact quiet rfl (congrArg ClientRecord.reports (closeLost_record s k c task))
  | _ => exact quiet rfl rfl

/-- The connection error callback is called once for a connection, and not after a `close` has
started to close it unless a send or the receive loop fails on it meanwhile. -/
theorem reports_iff {as : List (ClientAction C K D)}
    (hrun : run step (init : BaseLayerClient C K D) as = some s) :
    ((s.reports.map Prod.fst).Nodup ∧ ∀ r ∈ s.reports, r.2 = false) ↔
      Guarded step (fun s a => s.failsClosed a = false) (init : BaseLayerClient C K D) as := by
  have hknown : s.Known := run_invariant_always (fun s a t h ht => step_known h ht) init_known hrun
  have hiff := good_iff_guarded (I := fun _ => True) (P := fun s => ∀ r ∈ s.reports, r.2 = false)
    (fun s a t _ ht => ⟨trivial,step_reports ht⟩) trivial hrun
  rw [hiff]
  simp [hknown.once,init]

/-- A send fails, and the client connects again and closes. -/
theorem reports_iff_closed : ∃ s : BaseLayerClient ℕ ℕ Unit,
    run step init [.connect 0 none,.opened 0 0,.send 1 none,.sendFailed 1,.reported 1,.closed 1,
      .connect 0 none,.opened 0 1,.close 2 none,.closed 2] = some s ∧
    s.reports = [(0,false)] ∧ (s.reports.map Prod.fst).Nodup ∧ ∀ r ∈ s.reports, r.2 = false := by
  have hrun := Option.some_get (show (run step (init : BaseLayerClient ℕ ℕ Unit)
    [.connect 0 none,.opened 0 0,.send 1 none,.sendFailed 1,.reported 1,.closed 1,
      .connect 0 none,.opened 0 1,.close 2 none,.closed 2]).isSome by decide)
  exact ⟨_,hrun.symm,by decide,(reports_iff hrun.symm).mpr (by decide)⟩

/-- A send that is still in progress fails while `close` waits. -/
theorem not_reports_once : ∃ s : BaseLayerClient ℕ ℕ Unit,
    run step init [.connect 0 none,.opened 0 0,.send 1 none,.close 2 none,.sendFailed 1] = some s ∧
      (0,true) ∈ s.reports := by
  have hrun := Option.some_get (show (run step (init : BaseLayerClient ℕ ℕ Unit)
    [.connect 0 none,.opened 0 0,.send 1 none,.close 2 none,.sendFailed 1]).isSome by decide)
  exact ⟨_,hrun.symm,by decide⟩

end BaseLayerClient
end SoftwareBus
