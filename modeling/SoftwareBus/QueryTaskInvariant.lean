import SoftwareBus.PendingQuiet
import SoftwareBus.Transition

/-! Over every run of a node's tasks with its queries and its `close`, a pending connection is
sent only what introduces the node, and is neither tagged nor a target of an open query; and so is
one that was dropped while it was pending, as long as it is not subscribed after that. -/
namespace SoftwareBus

open Transition

variable {C K I Q P : Type}

namespace WiredNode

variable [DecidableEq C] {n : WiredNode C I Q P}

omit [DecidableEq C] in
theorem endQuery_calm [DecidableEq Q] (n : WiredNode C I Q P) (w : Collecting C Q)
    (same : Bool) : n.Calm (n.endQuery w same) := by
  have hclose : n.Calm (n.setNode {n.toPubSubNode with toCheckState := n.closeQuery w.queryId}) := by
    refine ⟨{Shrinks.refl n with},rfl,rfl,fun _ => id,?_,fun _ _ => id⟩
    intro q o ho
    have hopen : Function.update n.queries w.queryId none q = some o := ho
    by_cases hq : q = w.queryId
    · subst q
      rw [Function.update_self] at hopen
      cases hopen
    · rw [Function.update_of_ne hq] at hopen
      exact ⟨o,hopen,rfl⟩
  unfold endQuery
  cases same with
  | false => cases w.source <;> exact {Calm.refl n with}
  | true => cases w.source <;> exact {hclose with}

theorem forgetAll (all : List C) (n : WiredNode C I Q P)
    (h : ∀ c ∈ all, c ∉ n.upstreamConnections) :
    n.Calm (all.foldl (fun n c =>
      n.setNode {n.toPubSubNode with toCheckState := n.forgetConnection c}) n) := by
  induction all generalizing n with
  | nil => exact .refl n
  | cons c cs ih =>
    obtain ⟨hc,hcs⟩ := List.forall_mem_cons.mp h
    exact (forget_calm hc).trans
      (ih (n.setNode {n.toPubSubNode with toCheckState := n.forgetConnection c}) hcs)

theorem closeRest_calm {all : List C} (h : ∀ c ∈ all, c ∉ n.upstreamConnections) :
    n.Calm (n.closeRest all) := by
  refine (forgetAll all n h).trans
    ⟨⟨fun _ => id,fun _ => id,?_,?_,fun _ => id,?_,fun _ => id,rfl⟩,rfl,rfl,fun _ => id,?_,
      fun _ _ => id⟩
  · intro s c hc
    simp [closeRest] at hc
  · intro s c hc
    simp [closeRest] at hc
  · intro c hc
    cases hc
  · intro q o ho
    cases ho

end WiredNode

namespace QueryTasks

variable {cfg : TaskSettings C I Q P} {up : C → Bool} {watch : C → Prop} {i : I}
  {s t : QueryTasks C K I Q P}

/-- What a query task will do names connections that have been made. -/
structure Invariant (up : C → Bool) (watch : C → Prop) (i : I) (s : QueryTasks C K I Q P) :
    Prop where
  wired : s.tasks.Wired up
  reserved : s.tasks.Reserved watch i
  forwarding : ∀ w ∈ s.forwarding, s.tasks.node.made w.source = true ∧
    ∀ c ∈ w.targets, s.tasks.node.Settled watch c
  collecting : ∀ k w c, s.collecting k = some w → w.source = some c →
    s.tasks.node.made c = true
  closing : ∀ k rest all, s.closing k = some (.sockets rest all) →
    ∀ c ∈ all, s.tasks.node.made c = true
  closed : ∀ k all, s.closing k = some (.servers all) →
    ∀ c ∈ all, s.tasks.node.made c = true ∧ c ∉ s.tasks.node.allConnections

theorem Invariant.advance (h : s.Invariant up watch i) {tasks : NodeTasks C K I Q P}
    (hw : tasks.Wired up) (hr : tasks.Reserved watch i) (ha : s.tasks.Advances watch tasks) :
    ({s with tasks := tasks} : QueryTasks C K I Q P).Invariant up watch i := by
  refine ⟨hw,hr,?_,?_,?_,?_⟩
  · intro w hm
    obtain ⟨hsource,htargets⟩ := h.forwarding w hm
    exact ⟨ha.settles.made _ hsource,fun c hc => ha.settles.settled (htargets c hc)⟩
  · intro k w c hk hc
    exact ha.settles.made c (h.collecting k w c hk hc)
  · intro k rest all hk c hc
    exact ha.settles.made c (h.closing k rest all hk c hc)
  · intro k all hk c hc
    obtain ⟨hmade,hl⟩ := h.closed k all hk c hc
    exact ⟨ha.settles.made c hmade,fun hm => hl (ha.keeps.listed c hmade hm)⟩

theorem Invariant.setNode (h : s.Invariant up watch i) {n : WiredNode C I Q P}
    (hcalm : s.tasks.node.Calm n) : (s.setNode n).Invariant up watch i :=
  h.advance (h.wired.of_shrinks hcalm.toShrinks) (h.reserved.of_calm hcalm)
    ⟨hcalm.settles,hcalm.toShrinks.keeps⟩

theorem Invariant.collect [DecidableEq K] (h : s.Invariant up watch i) (k : K)
    {w : Option (Collecting C Q)}
    (hw : ∀ v c, w = some v → v.source = some c → s.tasks.node.made c = true) :
    ({s with collecting := Function.update s.collecting k w} : QueryTasks C K I Q P).Invariant
      up watch i := by
  refine {h with collecting := ?_}
  intro j v c hj hc
  by_cases hjk : j = k
  · subst j
    have hself : Function.update s.collecting k w k = some v := hj
    rw [Function.update_self] at hself
    exact hw v c hself hc
  · have hother : Function.update s.collecting k w j = some v := hj
    rw [Function.update_of_ne hjk] at hother
    exact h.collecting j v c hother hc

theorem Invariant.closes [DecidableEq K] (h : s.Invariant up watch i) {k : K} {x : Option (Closing C)}
    (hsockets : ∀ rest all, x = some (.sockets rest all) →
      ∀ c ∈ all, s.tasks.node.made c = true)
    (hservers : ∀ all, x = some (.servers all) →
      ∀ c ∈ all, s.tasks.node.made c = true ∧ c ∉ s.tasks.node.allConnections) :
    ({s with closing := Function.update s.closing k x} : QueryTasks C K I Q P).Invariant
      up watch i := by
  refine {h with closing := ?_,closed := ?_}
  · intro j rest all hj
    by_cases hjk : j = k
    · subst j
      have hself : Function.update s.closing k x k = some (.sockets rest all) := hj
      rw [Function.update_self] at hself
      exact hsockets rest all hself
    · have hother : Function.update s.closing k x j = some (.sockets rest all) := hj
      rw [Function.update_of_ne hjk] at hother
      exact h.closing j rest all hother
  · intro j all hj
    by_cases hjk : j = k
    · subst j
      have hself : Function.update s.closing k x k = some (.servers all) := hj
      rw [Function.update_self] at hself
      exact hservers all hself
    · have hother : Function.update s.closing k x j = some (.servers all) := hj
      rw [Function.update_of_ne hjk] at hother
      exact h.closed j all hother

variable [DecidableEq C] [DecidableEq K] [DecidableEq I] [DecidableEq Q]

omit [DecidableEq I] [DecidableEq Q] in
theorem Invariant.send (h : s.Invariant up watch i) {k : K} {n : WiredNode C I Q P} {targets : List C}
    {m : Message I Q P} (hshrinks : s.tasks.node.Shrinks n) (hn : n.Reserved watch i)
    (hsettles : s.tasks.node.Settles watch n) (hm : n.Shields watch i (.send targets m))
    (ht : s.send k n targets m = some t) : t.Invariant up watch i := by
  unfold QueryTasks.send at ht
  split_ifs at ht with hidle
  obtain ⟨tasks,hstart,rfl⟩ := Option.map_eq_some_iff.mp ht
  obtain ⟨hnode,hswaps⟩ := NodeTasks.start_swaps hstart
  have hnode' : tasks.node = n := hnode
  have hold {f : Frame C I Q P} (hf : tasks.Has f) : s.tasks.Has f ∨ f = .send targets m :=
    (hswaps.old f hf).imp_right List.mem_singleton.mp
  refine h.advance ?_ ?_ ⟨hnode' ▸ hsettles,hnode' ▸ hshrinks.keeps⟩
  · refine ⟨hnode' ▸ h.wired.node.shrinks hshrinks,?_,?_⟩
    · intro f hf
      rcases hold hf with hf | rfl
      · exact h.wired.frames f hf
      · trivial
    · intro c b hf
      obtain ⟨hmade,hl⟩ := h.wired.forgets c b ((hold hf).resolve_right fun hne => nomatch hne)
      rw [hnode']
      exact ⟨hshrinks.made ▸ hmade,fun hc => hl (hshrinks.listed hc)⟩
  · refine ⟨hnode' ▸ hn,?_⟩
    intro f hf
    rw [hnode']
    rcases hold hf with hf | rfl
    · exact hsettles.shields (h.reserved.frames f hf)
    · exact hm

omit [DecidableEq I] [DecidableEq Q] in
theorem Invariant.start (h : s.Invariant up watch i) {k : K} {w : Collecting C Q}
    {n : WiredNode C I Q P} {targets : List C} {targetNodeId : I}
    (hsource : ∀ c, w.source = some c → s.tasks.node.made c = true)
    (hshrinks : s.tasks.node.Shrinks n) (hn : n.Reserved watch i) (hsettles : s.tasks.node.Settles watch n)
    (htargets : ∀ c ∈ targets, s.tasks.node.Settled watch c)
    (ht : s.start k w n targets targetNodeId = some t) : t.Invariant up watch i := by
  unfold QueryTasks.start at ht
  split_ifs at ht with hfree
  have hcollect := h.collect k (w := some w) fun v c hv hc => by
    cases hv
    exact hsource c hc
  refine hcollect.send hshrinks hn hsettles ?_ ht
  intro c hc
  obtain ⟨hmade,hp⟩ := hsettles.settled (htargets c hc)
  exact ⟨hmade,.inr hp⟩

theorem opened_settled {a : TaskAction C K I Q P} {s t : NodeTasks C K I Q P}
    (hstep : s.step cfg a = some t) (hs : s.Wired up) (ha : s.Advances watch t) (ht : t.Reserved watch i) :
    ∀ w ∈ opened s t a, t.node.made w.source = true ∧ ∀ c ∈ w.targets, t.node.Settled watch c := by
  intro w hw
  unfold opened at hw
  split at hw
  · rename_i c queryId target
    split at hw
    · rename_i o hnone ho
      cases List.mem_singleton.mp hw
      refine ⟨ha.settles.made c ?_,ht.node.targets queryId o ho⟩
      unfold NodeTasks.step at hstep
      cases hrun : s.running with
      | some j => rw [hrun] at hstep; cases hstep
      | none =>
        rw [hrun] at hstep
        simp only [NodeTasks.event] at hstep
        split_ifs at hstep with hread
        exact hs.node.reading c hread
    · cases hw
  · cases hw

theorem task_invariant {a : TaskAction C K I Q P} {tasks : NodeTasks C K I Q P}
    (h : s.Invariant cfg.fromUpstream watch i) (hup : ∀ c, watch c → cfg.fromUpstream c = true)
    (hok : s.tasks.KeepsOut watch a) (ha : a.ofQueries = false)
    (hstep : s.tasks.step cfg a = some tasks) :
    ({s with tasks := tasks, forwarding := s.forwarding++opened s.tasks tasks a} :
      QueryTasks C K I Q P).Invariant cfg.fromUpstream watch i := by
  obtain ⟨hr,hadv⟩ := NodeTasks.step_reserved hstep ha hup hok h.wired h.reserved
  have hinv := h.advance (NodeTasks.step_wired hstep h.wired) hr hadv
  refine {hinv with forwarding := ?_}
  intro w hw
  rcases List.mem_append.mp hw with hw | hw
  · exact hinv.forwarding w hw
  · exact opened_settled hstep h.wired hadv hr w hw

theorem ask_invariant {k : K} {queryId : Q} {target : I} (h : s.Invariant cfg.fromUpstream watch i)
    (ht : s.step cfg (.ask k queryId target) = some t) : t.Invariant cfg.fromUpstream watch i := by
  have hrefl : s.tasks.node.Shrinks s.tasks.node := .refl _
  simp only [step] at ht
  split at ht
  · cases ht
  · rename_i c cs hactive
    split_ifs at ht with hfresh
    have htargets : ∀ d ∈ c::cs, s.tasks.node.Settled watch d := by
      intro d hd
      rw [← hactive] at hd
      exact h.wired.node.settled_active h.reserved.node hd
    have hopen := WiredNode.openQuery_reserved (q := queryId)
      (o := ⟨.new (c::cs),target,none,true⟩) h.reserved.node htargets
    refine h.start ?_ ?_ ?_ ?_ htargets ht
    · intro d hd
      cases hd
    · exact {hrefl with}
    · exact {hopen with}
    · exact ⟨fun _ => id,fun _ _ => id⟩

theorem forward_invariant {k : K} {j : ℕ} (h : s.Invariant cfg.fromUpstream watch i)
    (ht : s.step cfg (.forward k j) = some t) : t.Invariant cfg.fromUpstream watch i := by
  simp only [step] at ht
  split at ht
  · rename_i w hw
    obtain ⟨hsource,htargets⟩ := h.forwarding w (List.mem_of_getElem? hw)
    have herase : ({s with forwarding := s.forwarding.eraseIdx j} :
        QueryTasks C K I Q P).Invariant cfg.fromUpstream watch i :=
      {h with forwarding := fun w hw => h.forwarding w (List.mem_of_mem_eraseIdx hw)}
    refine herase.start ?_ (.refl _) h.reserved.node (.refl _) htargets ht
    intro c hc
    cases hc
    exact hsource
  · cases ht

theorem collected_invariant {k : K} {r : ReachabilityResult} {same : Bool}
    (h : s.Invariant cfg.fromUpstream watch i) (ht : s.step cfg (.collected k r same) = some t) :
    t.Invariant cfg.fromUpstream watch i := by
  simp only [step] at ht
  split at ht
  · rename_i w hready
    split_ifs at ht with hresult
    have hcalm := WiredNode.endQuery_calm s.tasks.node w same
    have hdone := h.collect k (w := none) fun v c hv => nomatch hv
    split at ht
    · rename_i c hsource
      split_ifs at ht with hlisted
      · refine hdone.send hcalm.toShrinks (hcalm.reserved h.reserved.node) hcalm.settles ?_ ht
        intro d hd
        cases List.mem_singleton.mp hd
        refine ⟨?_,.inl (.inr ⟨_,_,rfl⟩)⟩
        exact hcalm.made ▸ h.wired.node.listed c (hcalm.listed hlisted)
      · cases ht
        exact hdone.setNode hcalm
    · cases ht
      exact hdone.setNode hcalm
  · cases ht

theorem uncollected_invariant {k : K} {same : Bool} (h : s.Invariant cfg.fromUpstream watch i)
    (ht : s.step cfg (.uncollected k same) = some t) : t.Invariant cfg.fromUpstream watch i := by
  simp only [step] at ht
  split at ht
  · rename_i w hready
    cases ht
    have hdone := h.collect k (w := none) fun v c hv => nomatch hv
    exact hdone.setNode (WiredNode.endQuery_calm s.tasks.node w same)
  · cases ht

theorem closeSocket_invariant {k : K} (h : s.Invariant cfg.fromUpstream watch i)
    (ht : s.step cfg (.closeSocket k) = some t) : t.Invariant cfg.fromUpstream watch i := by
  simp only [step] at ht
  split at ht
  · rename_i c cs all hk
    split_ifs at ht with hidle
    cases ht
    have hrests := s.tasks.discard_rests (.call k) c
    have hcheck := s.tasks.discard_check (.call k) c
    have hp : s.tasks.Pauses [] ((s.tasks.cancelTasks (.call k) c).discard c) :=
      .of_node hrests rfl
    have hcalm := hp.calm hcheck
    have hr : ((s.tasks.cancelTasks (.call k) c).discard c).Reserved watch i :=
      ⟨hcalm.reserved h.reserved.node,fun f hf => hcalm.settles.shields (h.reserved.frames f hf)⟩
    have hinv := h.advance (hp.wired h.wired) hr ⟨hcalm.settles,hrests.shrinks.keeps⟩
    exact hinv.closes (fun rest all' heq => by cases heq; exact hinv.closing k _ _ hk)
      fun all' heq => nomatch heq
  · cases ht

theorem closeLists_invariant {k : K} (h : s.Invariant cfg.fromUpstream watch i)
    (ht : s.step cfg (.closeLists k) = some t) : t.Invariant cfg.fromUpstream watch i := by
  simp only [step] at ht
  split at ht
  · rename_i all hk
    split_ifs at ht with hidle
    cases ht
    have hshrinks : s.tasks.node.Shrinks {s.tasks.node with
        upstreamConnections := []
        downstreamConnections := []} :=
      {WiredNode.Shrinks.refl s.tasks.node with
        upstream := fun c hc => absurd hc List.not_mem_nil
        downstream := fun c hc => absurd hc List.not_mem_nil}
    have hinv := h.setNode ⟨hshrinks,rfl,rfl,fun _ => id,fun _ o ho => ⟨o,ho,rfl⟩,
      fun c hc => absurd hc List.not_mem_nil⟩
    refine hinv.closes (fun rest all' heq => nomatch heq) ?_
    intro all' heq c hc
    cases heq
    exact ⟨h.closing k [] all hk c hc,List.not_mem_nil⟩
  · cases ht

theorem closeRest_invariant {k : K} (h : s.Invariant cfg.fromUpstream watch i)
    (ht : s.step cfg (.closeRest k) = some t) : t.Invariant cfg.fromUpstream watch i := by
  simp only [step] at ht
  split at ht
  · rename_i all hk
    split_ifs at ht with hidle
    cases ht
    have hgone : ∀ c ∈ all, c ∉ s.tasks.node.upstreamConnections := by
      intro c hc hup
      exact (h.closed k all hk c hc).2 (CheckState.mem_allConnections.mpr (.inr hup))
    have hinv := h.setNode (WiredNode.closeRest_calm hgone)
    exact hinv.closes (fun rest all' heq => nomatch heq) fun all' heq => nomatch heq
  · cases ht

/-- A subscribe is read from the connection after it has been dropped, and `_activate` has not
accepted it before. -/
def strays (c : C) (s : QueryTasks C K I Q P) : QueryAction C K I Q P → Bool
  | .task (.receive d (.subscription _ true)) =>
    decide (d = c ∧ s.tasks.node.verdict c ≠ some true) && (s.tasks.node.pending c).isNone
  | _ => false

theorem step_invariant {a : QueryAction C K I Q P} (h : s.Invariant cfg.fromUpstream watch i)
    (hup : ∀ c, watch c → cfg.fromUpstream c = true) (hok : ∀ c, watch c → s.strays c a = false)
    (ht : s.step cfg a = some t) : t.Invariant cfg.fromUpstream watch i := by
  cases a with
  | task a =>
    simp only [step] at ht
    split_ifs at ht with ha
    obtain ⟨tasks,hstep,rfl⟩ := Option.map_eq_some_iff.mp ht
    refine task_invariant h hup ?_ ha hstep
    rintro c u rfl hwatch hv
    have hin := hok c hwatch
    simp only [strays,hv,ne_eq,not_false_eq_true,and_self,decide_true,Bool.true_and] at hin
    simpa using hin
  | ask k queryId target => exact ask_invariant h ht
  | forward k j => exact forward_invariant h ht
  | unscheduled j =>
    cases ht
    exact {h with forwarding := fun w hw => h.forwarding w (List.mem_of_mem_eraseIdx hw)}
  | collected k r same => exact collected_invariant h ht
  | uncollected k same => exact uncollected_invariant h ht
  | close k =>
    simp only [step] at ht
    split_ifs at ht with hidle
    cases ht
    refine h.closes ?_ fun all heq => nomatch heq
    intro rest all heq c hc
    cases heq
    exact h.wired.node.listed c hc
  | closeSocket k => exact closeSocket_invariant h ht
  | closeLists k => exact closeLists_invariant h ht
  | closeRest k => exact closeRest_invariant h ht
  | closeFailed k =>
    cases ht
    exact h.closes (fun rest all heq => nomatch heq) fun all heq => nomatch heq

omit [DecidableEq C] [DecidableEq K] [DecidableEq I] [DecidableEq Q] in
theorem init_invariant (up : C → Bool) (watch : C → Prop) (i : I) :
    (init i : QueryTasks C K I Q P).Invariant up watch i := by
  refine ⟨NodeTasks.init_wired up i,⟨WiredNode.new_reserved watch i,?_⟩,?_,?_,?_,?_⟩
  · rintro f ⟨k,hk⟩
    cases hk
  · intro w hw
    cases hw
  · intro k w c hk
    cases hk
  · intro k rest all hk
    cases hk
  · intro k all hk
    cases hk

/-- What has been queued on a connection introduces the node, and the connection is neither tagged
nor a target of an open query. -/
def Quiet (i : I) (s : QueryTasks C K I Q P) (c : C) : Prop :=
  (∀ m ∈ s.tasks.node.queued c, m = .hello i ∨ ∃ q r, m = .reply q r) ∧
    (∀ subject, c ∉ s.tasks.node.subscribers subject) ∧
    ∀ q o, s.tasks.node.queries q = some o → c ∉ o.query.targets

omit [DecidableEq C] [DecidableEq K] [DecidableEq I] [DecidableEq Q] in
theorem Invariant.quiet (h : s.Invariant up watch i) {c : C} (hc : ¬s.tasks.node.Passed watch c) :
    s.Quiet i c := by
  have hnode := h.reserved.node
  refine ⟨hnode.queued c hc,fun u hu => hc (h.wired.node.settled_tagged hnode hu).2,?_⟩
  exact fun q o ho hm => hc (hnode.targets q o ho c hm).2

/-- A connection is pending from when it is established until `_activate` accepts it, as long as
it is one of the node's, and is left alone while it is pending. So is one that has been dropped
before `_activate` has accepted it, as long as no subscribe is read from it after that. -/
theorem pending_quiet {as : List (QueryAction C K I Q P)}
    (hrun : run (step cfg) (init i) as = some s) :
    (∀ c ∈ s.tasks.node.upstreamConnections, s.tasks.node.verdict c ≠ some true →
      (s.tasks.node.pending c).isSome) ∧
    (∀ c, (s.tasks.node.pending c).isSome → s.Quiet i c) ∧
    ∀ c, cfg.fromUpstream c = true → s.tasks.node.verdict c ≠ some true →
      Guarded (step cfg) (fun s a => s.strays c a = false) (init i) as → s.Quiet i c := by
  have hinv : s.Invariant cfg.fromUpstream (fun _ => False) i :=
    run_invariant (fun s a t h _ ht => step_invariant h (fun _ => False.elim) (fun _ => False.elim) ht)
      (init_invariant ..) (guarded_true ..) hrun
  refine ⟨hinv.reserved.node.checked,fun c hc => hinv.quiet fun hp => ?_,fun c hup hv hok => ?_⟩
  · simp [hp.1] at hc
  · have hinv : s.Invariant cfg.fromUpstream (fun d => d = c) i :=
      run_invariant (fun s a t h ha ht => step_invariant h (fun d hd => hd ▸ hup)
        (fun d hd => hd ▸ ha) ht) (init_invariant ..) hok hrun
    exact hinv.quiet fun hp => hv (hp.2 rfl)

/-- A pending connection asks whether the node can be reached, and is told that it cannot; it
subscribes, which is held, and is dropped for its next message. -/
theorem pending_quiet_asked :
    ∃ s : QueryTasks (Fin 2) (Fin 1) (Fin 1) (Fin 1) (Fin 1),
      run (step ⟨⟨⟨5,1,fun _ => 1⟩,fun c => decide (c = 0)⟩,9⟩) (init 0) [.task (.establish 0),
        .task .run,.task .run,.task .run,.task (.receive 0 (.query 0 0)),.task .run,.task .run,
        .task .run,.task (.receive 0 (.subscription [97] true)),.task .run,
        .task (.receive 0 (.publish [98] 0)),.task .run,.task .run] = some s ∧
      (s.tasks.node.pending 0).isNone ∧ s.tasks.node.queued 0 = [.hello 0,.reply 0 .notFound] ∧
      s.Quiet 0 0 := by
  refine ⟨_,rfl,rfl,rfl,(pending_quiet (C := Fin 2) (K := Fin 1) (I := Fin 1) (Q := Fin 1)
    (P := Fin 1) (show run (step ⟨⟨⟨5,1,fun _ => 1⟩,fun c => decide (c = 0)⟩,9⟩) (init 0)
      [.task (.establish 0),.task .run,.task .run,.task .run,.task (.receive 0 (.query 0 0)),
        .task .run,.task .run,.task .run,.task (.receive 0 (.subscription [97] true)),.task .run,
        .task (.receive 0 (.publish [98] 0)),.task .run,.task .run] = some _ from rfl)).2.2 0 rfl
    (by decide) (by decide)⟩

/-- A pending connection sends more than is held for it, and is dropped by its own relay loop, which
reads its next message, a subscribe, all the same; a publish is then queued on the connection. -/
theorem not_pending_quiet :
    ∃ s : QueryTasks (Fin 2) (Fin 1) (Fin 1) (Fin 1) (Fin 1),
      run (step ⟨⟨⟨5,0,fun _ => 1⟩,fun c => decide (c = 0)⟩,9⟩) (init 0) [.task (.establish 0),
        .task .run,.task .run,.task .run,.task (.accept 1),.task .run,.task .run,.task .run,
        .task (.receive 0 (.publish [97] 0)),.task .run,.task .run,.task (.wake (.loop 0)),
        .task .run,.task (.receive 0 (.subscription [98] true)),.task .run,.task .run,.task .run,
        .task (.receive 1 (.publish [98] 0)),.task .run] = some s ∧
      s.tasks.node.made 0 = true ∧ s.tasks.node.verdict 0 = none ∧
      s.tasks.node.queued 0 = [.hello 0,.publish [98] 0] := ⟨_,rfl,rfl,rfl,rfl⟩

end QueryTasks
end SoftwareBus
