import SoftwareBus.BaseNodeSteps

/-! Which connections a base layer node calls its connection error callbacks for. -/
namespace SoftwareBus
namespace BaseLayerNode

open Transition

variable {C K D : Type}

/-- A connection is listed once, and one that has been reported is not listed any more. -/
structure Listed (s : BaseLayerNode C K D) : Prop where
  nodup : s.allConnections.Nodup
  made : ∀ c ∈ s.allConnections, (s.conn c).made = true
  reports : ∀ r ∈ s.reports, r.1 ∉ s.allConnections ∧ (s.conn r.1).made = true ∧ r.2.1 = true
  once : (s.reports.map Prod.fst).Nodup

theorem init_listed : (init : BaseLayerNode C K D).Listed :=
  ⟨by simp [init,NodeRecord.allConnections],by simp [init,NodeRecord.allConnections],by simp [init],
    by simp [init]⟩

variable [DecidableEq C] [DecidableEq K] {lim : NodeLimits D} {s t : BaseLayerNode C K D}
  {a : BaseAction C K D}

/-- A step starts to handle an error of a connection that has been closed on purpose. -/
def dropsClosed (lim : NodeLimits D) (s : BaseLayerNode C K D) (a : BaseAction C K D) : Bool :=
  (s.dropped lim a).any s.closed

omit [DecidableEq K] in
theorem mem_unlist (hs : s.Listed) {c d : C} :
    d ∈ (s.unlist c).allConnections ↔ d ∈ s.allConnections ∧ d ≠ c := by
  have hnodup := List.nodup_append.mp hs.nodup
  simp only [unlist,NodeRecord.allConnections,List.mem_append,hnodup.1.mem_erase_iff,
    hnodup.2.1.mem_erase_iff]
  tauto

omit [DecidableEq K] in
theorem unlist_nodup (hs : s.Listed) (c : C) : (s.unlist c).allConnections.Nodup :=
  hs.nodup.sublist ((List.erase_sublist (a := c)).append List.erase_sublist)

theorem Listed.insert (hs : s.Listed) (h : s.step lim a = some t) {c : C}
    (hnew : (s.conn c).made = false) (hmade : (t.conn c).made = true)
    (hperm : t.allConnections.Perm (c::s.allConnections)) (hr : t.reports = s.reports) :
    t.Listed := by
  have hc (d : C) (hd : (s.conn d).made = true) : d ≠ c := by
    rintro rfl
    simp [hd] at hnew
  have hmem (d : C) : d ∈ t.allConnections ↔ d = c ∨ d ∈ s.allConnections := by
    rw [hperm.mem_iff,List.mem_cons]
  refine ⟨hperm.nodup_iff.mpr ?_,fun d hd => ?_,fun r hrep => ?_,hr ▸ hs.once⟩
  · exact List.nodup_cons.mpr ⟨fun hl => hc c (hs.made c hl) rfl,hs.nodup⟩
  · rcases (hmem d).mp hd with rfl | hd
    · exact hmade
    · exact step_made h (hs.made d hd)
  · obtain ⟨hl,hm,hf⟩ := hs.reports r (hr ▸ hrep)
    exact ⟨fun hin => ((hmem r.1).mp hin).elim (hc r.1 hm) hl,step_made h hm,hf⟩

theorem Listed.shrink (hs : s.Listed) (h : s.step lim a = some t) (hnodup : t.allConnections.Nodup)
    (hmem : ∀ d ∈ t.allConnections, d ∈ s.allConnections) (hr : t.reports = s.reports) : t.Listed := by
  refine ⟨hnodup,fun d hd => step_made h (hs.made d (hmem d hd)),fun r hrep => ?_,hr ▸ hs.once⟩
  obtain ⟨hl,hm,hf⟩ := hs.reports r (hr ▸ hrep)
  exact ⟨fun hin => hl (hmem r.1 hin),step_made h hm,hf⟩

theorem step_listed (hs : s.Listed) (h : s.step lim a = some t) : t.Listed := by
  have hrec := step_record h
  generalize hr : t.toNodeRecord = r at hrec
  have hall : t.allConnections = r.allConnections := congrArg _ hr
  have hrep : t.reports = r.reports := congrArg _ hr
  cases hrec with
  | same => exact hs.shrink h (hall ▸ hs.nodup) (fun d hd => hall ▸ hd) hrep
  | startUpstream c ha hnew =>
    subst ha
    rcases step_start h with rfl | hmade
    · simpa using congrArg NodeRecord.upstreamConnections hr
    · refine hs.insert h hnew hmade ?_ hrep
      have hlast : t.allConnections = s.allConnections++[c] := hall.trans (List.append_assoc _ _ _).symm
      exact hlast ▸ List.perm_append_singleton c s.allConnections
  | startDownstream c ha hnew =>
    subst ha
    rcases step_start h with rfl | hmade
    · simpa using congrArg NodeRecord.downstreamConnections hr
    · refine hs.insert h hnew hmade ?_ hrep
      rw [hall]
      exact (List.perm_append_singleton c _).append_right _
  | lose c hd hc =>
    have hmem {d : C} := mem_unlist hs (c := c) (d := d)
    refine ⟨hall ▸ unlist_nodup hs c,fun d hd => ?_,fun r hrep' => ?_,?_⟩
    · exact step_made h (hs.made d (hmem.mp (hall ▸ hd)).1)
    · rw [hrep] at hrep'
      rcases List.mem_append.mp hrep' with hr' | hr'
      · obtain ⟨hl,hm,hf⟩ := hs.reports r hr'
        exact ⟨fun hin => hl (hmem.mp (hall ▸ hin)).1,step_made h hm,hf⟩
      · obtain rfl := List.mem_singleton.mp hr'
        exact ⟨fun hin => (hmem.mp (hall ▸ hin)).2 rfl,step_made h (hs.made c hc),by simpa using hc⟩
    · rw [hrep]
      simp only [lose,unlist,List.map_append,List.nodup_append,List.map_cons,List.map_nil]
      refine ⟨hs.once,by simp,fun d hd e he hde => ?_⟩
      obtain ⟨x,hx,rfl⟩ := List.mem_map.mp hd
      obtain rfl := List.mem_singleton.mp he
      exact (hs.reports x hx).1 (hde ▸ hc)
  | closeConnection c hd hc =>
    refine hs.shrink h (hall ▸ unlist_nodup hs c) (fun d hd => ?_) hrep
    exact ((mem_unlist hs).mp (hall ▸ hd)).1
  | close hd f hf => exact hs.shrink h (hall ▸ hs.nodup) (fun d hd => hall ▸ hd) hrep
  | clear hd f hf =>
    have hnil : t.allConnections = [] := hall
    exact hs.shrink h (by simp [hnil]) (by simp [hnil]) hrep

theorem step_reports (h : s.step lim a = some t) :
    (∀ r ∈ t.reports, r.2.2 = false) ↔
      (∀ r ∈ s.reports, r.2.2 = false) ∧ s.dropsClosed lim a = false := by
  have hrec := step_record h
  generalize hr : t.toNodeRecord = r at hrec ⊢
  unfold dropsClosed
  cases hrec with
  | lose c hd hc =>
    simp only [hd,lose,unlist,List.mem_append,List.mem_singleton,or_imp,forall_and,forall_eq,
      Option.any_some]
  | startUpstream c ha | startDownstream c ha => simp [ha,dropped]
  | same hd | close hd | clear hd => simp [hd]
  | closeConnection c hd => simp [hd,unlist]

/-- A connection error callback is called once for a connection, only while it is listed, and not
after it has been closed on purpose unless a step starts to handle an error of it later. -/
theorem drops_reported {as : List (BaseAction C K D)}
    (hrun : run (step lim) (init : BaseLayerNode C K D) as = some s) :
    ((s.reports.map Prod.fst).Nodup ∧ ∀ r ∈ s.reports, r.2 = (true,false)) ↔
      Guarded (step lim) (fun s a => s.dropsClosed lim a = false) (init : BaseLayerNode C K D) as := by
  have hlisted : s.Listed := run_invariant_always (fun s a t h ht => step_listed h ht) init_listed hrun
  have hiff := good_iff_guarded (I := fun _ => True) (P := fun s => ∀ r ∈ s.reports, r.2.2 = false)
    (fun s a t _ ht => ⟨trivial,step_reports ht⟩) trivial hrun
  have hgood : (∀ r ∈ s.reports, r.2 = (true,false)) ↔ ∀ r ∈ s.reports, r.2.2 = false := by
    refine forall₂_congr fun r hr => ?_
    simp [Prod.ext_iff,(hlisted.reports r hr).2.2]
  rw [hgood,hiff]
  simp [hlisted.once,init]

def smallLimits : NodeLimits ℕ := ⟨id,10,4⟩

theorem drops_reported_failed : ∃ s : BaseLayerNode ℕ ℕ ℕ,
    run (step smallLimits) init [.start 0 true,.start 1 false,.loopFailed 0,.close 0 none,.closed 0] =
      some s ∧ ∀ r ∈ s.reports, r.2 = (true,false) := by
  have hrun := Option.some_get (show (run (step smallLimits) (init : BaseLayerNode ℕ ℕ ℕ)
    [.start 0 true,.start 1 false,.loopFailed 0,.close 0 none,.closed 0]).isSome by decide)
  exact ⟨_,hrun.symm,((drops_reported hrun.symm).mpr (by decide)).2⟩

/-- While `close` waits for its first connection, what comes over the third one is relayed, and
sending it on the first one fails while `close` waits for the second. -/
def closedRun : List (BaseAction ℕ ℕ ℕ) :=
  [.start 0 false,.start 1 false,.start 2 false,.loop 2 (.feed 3),.close 0 none,.loop 2 .read,
    .relay 1 (some (.loop 2)) [0,1] 3,.send 0,.closed 0,.sendFailed 0]

theorem not_drops_reported : ∃ s : BaseLayerNode ℕ ℕ ℕ,
    run (step smallLimits) init closedRun = some s ∧ (0,true,true) ∈ s.reports := by
  have hrun := Option.some_get (show (run (step smallLimits) (init : BaseLayerNode ℕ ℕ ℕ)
    closedRun).isSome by decide)
  exact ⟨_,hrun.symm,by decide⟩

end BaseLayerNode
end SoftwareBus
