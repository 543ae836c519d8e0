import SoftwareBus.NodeTasks

/-! What a step of a node's tasks does: it rests the node, or it takes a frame off a
stack and puts others there. -/
namespace SoftwareBus

variable {C K I Q P : Type}

namespace Frame

def plain : Frame C I Q P → Bool
  | .send _ _ | .drop _ _ _ | .forget _ _ => true
  | _ => false

theorem mem_caught {b : Bool} {f : Frame C I Q P} {fs : List (Frame C I Q P)} (hf : f.plain = true)
    (h : f ∈ caught b fs) : f ∈ fs := by
  induction fs with
  | nil => simp [caught] at h
  | cons g fs ih =>
    cases hg : g.catches with
    | false =>
      refine List.mem_cons_of_mem g (ih ?_)
      simpa [caught,List.dropWhile_cons,hg] using h
    | true =>
      cases g <;> simp [catches] at hg <;> cases f <;>
        simp_all [caught,catches,plain]

theorem lost_or_caught {b : Bool} {f : Frame C I Q P} {fs : List (Frame C I Q P)}
    (hf : f.plain = true) (h : f ∈ fs) : f ∈ lost fs ∨ f ∈ caught b fs := by
  induction fs with
  | nil => simp at h
  | cons g fs ih =>
    cases hg : g.catches with
    | false =>
      rcases List.mem_cons.mp h with rfl | h
      · exact .inl (by simp [lost,hg])
      · refine (ih h).imp (fun h => ?_) fun h => ?_
        · simpa [lost,hg] using .inr h
        · simpa [caught,List.dropWhile_cons,hg] using h
    | true =>
      have hne : f ≠ g := by rintro rfl; cases f <;> simp [catches,plain] at hg hf
      have hfs : f ∈ fs := (List.mem_cons.mp h).resolve_left hne
      refine .inr ?_
      cases g <;> simp [catches] at hg <;> simp [caught,catches,hfs]

end Frame

/-- Only what no message, no subscription and no check depends on is different: the sockets, the
loops that have ended, and what the check answers with. -/
structure WiredNode.Rests (n m : WiredNode C I Q P) : Prop where
  upstream : m.upstreamConnections = n.upstreamConnections
  downstream : m.downstreamConnections = n.downstreamConnections
  peerNodeIds : m.peerNodeIds = n.peerNodeIds
  pending : m.pending = n.pending
  draining : m.draining = n.draining
  upstreamSubscriptions : m.upstreamSubscriptions = n.upstreamSubscriptions
  downstreamSubscriptions : m.downstreamSubscriptions = n.downstreamSubscriptions
  made : m.made = n.made
  queued : m.queued = n.queued
  received : m.received = n.received
  processed : m.processed = n.processed
  verdict : m.verdict = n.verdict
  reading : ∀ c, m.reading c = true → n.reading c = true

namespace WiredNode

variable {n m l : WiredNode C I Q P}

theorem Rests.refl (n : WiredNode C I Q P) : n.Rests n :=
  ⟨rfl,rfl,rfl,rfl,rfl,rfl,rfl,rfl,rfl,rfl,rfl,rfl,fun _ => id⟩

theorem Rests.trans (h : n.Rests m) (g : m.Rests l) : n.Rests l :=
  ⟨g.upstream.trans h.upstream,g.downstream.trans h.downstream,g.peerNodeIds.trans h.peerNodeIds,
    g.pending.trans h.pending,g.draining.trans h.draining,
    g.upstreamSubscriptions.trans h.upstreamSubscriptions,
    g.downstreamSubscriptions.trans h.downstreamSubscriptions,g.made.trans h.made,
    g.queued.trans h.queued,g.received.trans h.received,g.processed.trans h.processed,
    g.verdict.trans h.verdict,fun c hc => h.reading c (g.reading c hc)⟩

variable [DecidableEq C]

theorem Rests.endLoop (n : WiredNode C I Q P) (c : C) : n.Rests (n.setNode (n.endLoop c)) := by
  refine ⟨rfl,rfl,rfl,rfl,rfl,rfl,rfl,rfl,rfl,rfl,rfl,rfl,fun d hd => ?_⟩
  by_cases hdc : d = c <;> simp_all [setNode,PubSubNode.endLoop]

end WiredNode

namespace NodeTasks

def Has (s : NodeTasks C K I Q P) (f : Frame C I Q P) : Prop := ∃ k, f ∈ s.stack k

variable [DecidableEq C] [DecidableEq K]

def top (s : NodeTasks C K I Q P) : Option (Frame C I Q P) :=
  s.running.bind fun k => (s.stack k).head?

/-- The frames that an exception makes a task skip in a step. -/
def thrown (s : NodeTasks C K I Q P) (a : TaskAction C K I Q P) : List (Frame C I Q P) :=
  match s.running,a with
  | some k,.run =>
    match s.stack k with
    | .shut c true::fs => if s.node.shut c then Frame.lost fs else []
    | _ => []
  | none,.wake k =>
    match s.stack k with
    | .wait _ true::fs => Frame.lost fs
    | _ => []
  | none,.cancel k | none,.fail k =>
    match s.stack k with
    | .wait _ _::fs => Frame.lost fs
    | _ => []
  | _,_ => []

variable {cfg : TaskSettings C I Q P} {s t : NodeTasks C K I Q P} {a : TaskAction C K I Q P}

theorem has_update {k : HandlerTask C K} {fs : List (Frame C I Q P)}
    (h : t.stack = Function.update s.stack k fs) {f : Frame C I Q P} :
    t.Has f ↔ f ∈ fs ∨ ∃ j, j ≠ k ∧ f ∈ s.stack j := by
  constructor
  · rintro ⟨j,hj⟩
    by_cases hjk : j = k
    · exact .inl (by simpa [h,hjk] using hj)
    · exact .inr ⟨j,hjk,by simpa [h,hjk] using hj⟩
  · rintro (hf | ⟨j,hjk,hj⟩)
    · exact ⟨k,by simpa [h] using hf⟩
    · exact ⟨j,by simpa [h,hjk] using hj⟩

theorem has_iff (s : NodeTasks C K I Q P) (k : HandlerTask C K) {f : Frame C I Q P} :
    s.Has f ↔ f ∈ s.stack k ∨ ∃ j, j ≠ k ∧ f ∈ s.stack j :=
  has_update (Function.update_eq_self k s.stack).symm

/-- A step in which no frame runs: frames only go with an exception. -/
structure Pauses (s : NodeTasks C K I Q P) (lost : List (Frame C I Q P))
    (t : NodeTasks C K I Q P) : Prop where
  rests : s.node.Rests t.node
  old : ∀ f, f.plain = true → t.Has f → s.Has f
  left : ∀ f, f.plain = true → s.Has f → t.Has f ∨ f ∈ lost

omit [DecidableEq C] [DecidableEq K] in
theorem Pauses.of_node (h : s.node.Rests t.node) (hs : t.stack = s.stack) : s.Pauses [] t :=
  ⟨h,fun _ _ ⟨k,hk⟩ => ⟨k,hs ▸ hk⟩,fun _ _ ⟨k,hk⟩ => .inl ⟨k,hs ▸ hk⟩⟩

omit [DecidableEq C] [DecidableEq K] in
theorem Pauses.after {u : NodeTasks C K I Q P} {lost : List (Frame C I Q P)}
    (h : s.Pauses [] t) (g : t.Pauses lost u) : s.Pauses lost u :=
  ⟨h.rests.trans g.rests,fun f hf hu => h.old f hf (g.old f hf hu),
    fun f hf hs => g.left f hf ((h.left f hf hs).resolve_right (by simp))⟩

theorem Pauses.of_stack (h : s.node.Rests t.node) {k : HandlerTask C K}
    {fs gs lost : List (Frame C I Q P)} (hs : s.stack k = fs)
    (ht : t.stack = Function.update s.stack k gs)
    (hold : ∀ f, f.plain = true → f ∈ gs → f ∈ fs)
    (hleft : ∀ f, f.plain = true → f ∈ fs → f ∈ gs ∨ f ∈ lost) : s.Pauses lost t := by
  refine ⟨h,fun f hf h => ?_,fun f hf h => ?_⟩
  · rw [has_update ht] at h
    rw [has_iff s k,hs]
    exact h.imp_left (hold f hf)
  · rw [has_iff s k,hs] at h
    rw [has_update ht]
    rcases h with h | h
    · exact (hleft f hf h).imp_left .inl
    · exact .inl (.inr h)

theorem raise_pauses {k : HandlerTask C K} {g : Frame C I Q P} {fs : List (Frame C I Q P)}
    (hs : s.stack k = g::fs) (hg : g.plain = false) (b : Bool) :
    s.Pauses (Frame.lost fs) (s.raise k b fs) := by
  have hne {f : Frame C I Q P} (hf : f.plain = true) : f ≠ g := by rintro rfl; simp [hf] at hg
  refine .of_stack ?_ hs rfl (fun f hf h => ?_) fun f hf h => ?_
  · unfold raise
    dsimp only
    split
    · split
      · exact .endLoop s.node _
      · exact .refl s.node
    · exact .refl s.node
  · exact List.mem_cons_of_mem g (Frame.mem_caught hf h)
  · exact (Frame.lost_or_caught hf ((List.mem_cons.mp h).resolve_left (hne hf))).symm

theorem closed_pauses {k : HandlerTask C K} {g : Frame C I Q P} {fs : List (Frame C I Q P)}
    (hs : s.stack k = g::fs) (hg : g.plain = false) (b : Bool) :
    s.Pauses (if b = true then Frame.lost fs else []) (s.closed k b fs) := by
  have hne {f : Frame C I Q P} (hf : f.plain = true) : f ≠ g := by rintro rfl; simp [hf] at hg
  cases b with
  | true => exact raise_pauses hs hg true
  | false =>
    refine .of_stack (t := s.closed k false fs) (.refl s.node) hs rfl
      (fun f hf h => List.mem_cons_of_mem g h) fun f hf h => ?_
    exact .inl ((List.mem_cons.mp h).resolve_left (hne hf))

theorem discard_rests (s : NodeTasks C K I Q P) (k : HandlerTask C K) (c : C) :
    s.node.Rests ((s.cancelTasks k c).discard c).node := by
  have hcancel : s.node.Rests (s.cancelTasks k c).node := by
    unfold cancelTasks
    dsimp only
    split
    · exact .endLoop s.node c
    · exact .refl s.node
  exact {hcancel with}

theorem close_pauses {k : HandlerTask C K} {c : C} {b : Bool} {fs : List (Frame C I Q P)}
    (hs : s.stack k = .shut c b::fs) :
    s.Pauses (if b = true ∧ s.node.shut c = true then Frame.lost fs else []) (s.close k c b fs) := by
  have hdiscard : s.Pauses [] ((s.cancelTasks k c).discard c) := .of_node (s.discard_rests k c) rfl
  have hclose : s.close k c b fs = if s.node.shut c then ((s.cancelTasks k c).discard c).closed k b fs
      else {(s.cancelTasks k c).discard c with
        stack := Function.update ((s.cancelTasks k c).discard c).stack k (.wait c b::fs)
        running := none} := rfl
  rw [hclose]
  by_cases hshut : s.node.shut c = true
  · rw [if_pos hshut]
    simp only [hshut,and_true]
    exact hdiscard.after (closed_pauses (s := (s.cancelTasks k c).discard c) hs rfl b)
  · rw [if_neg hshut,if_neg fun h => hshut h.2]
    have hne {f : Frame C I Q P} {b : Bool} (hf : f.plain = true) :
        f ≠ .shut c b ∧ f ≠ .wait c b := by
      constructor <;> rintro rfl <;> simp [Frame.plain] at hf
    refine .of_stack (t := {(s.cancelTasks k c).discard c with
      stack := Function.update ((s.cancelTasks k c).discard c).stack k (.wait c b::fs)
      running := none}) (s.discard_rests k c) hs rfl (fun f hf h => ?_) fun f hf h => .inl ?_
    · exact List.mem_cons_of_mem _ ((List.mem_cons.mp h).resolve_left (hne hf).2)
    · exact List.mem_cons_of_mem _ ((List.mem_cons.mp h).resolve_left (hne hf).1)

variable [DecidableEq I] [DecidableEq Q]

/-- What a task does to the node: it starts a handler, or goes on with the frame given. -/
inductive Work (cfg : TaskSettings C I Q P) (s : NodeTasks C K I Q P) : TaskAction C K I Q P →
    Option (Frame C I Q P) → WiredNode C I Q P × List (Frame C I Q P) → Prop
  | establish (c : C) : s.node.made c = false → cfg.fromUpstream c = true →
      Work cfg s (.establish c) none (s.node.establish c)
  | accept (c : C) : s.node.made c = false → cfg.fromUpstream c = false →
      Work cfg s (.accept c) none (s.node.accept c)
  | receive (c : C) (m : Message I Q P) : s.node.reading c = true →
      Work cfg s (.receive c m) none (s.node.onReceive cfg c m)
  | loopFailed (c : C) : s.node.reading c = true → Work cfg s (.loopFailed c) none
      ((s.node.setNode (s.node.endLoop c)).connectionError c (cfg.fromUpstream c))
  | sendFailed (c : C) : Work cfg s (.sendFailed c) none
      (s.node.connectionError c (c ∈ s.node.upstreamConnections))
  | activate (c : C) (p : PendingConnection I Q P) : s.node.pending c = some p →
      s.node.verdict c = none → Work cfg s (.activate c) none (s.node.activate c p.held)
  | abandon (c : C) : cfg.fromUpstream c = true → s.node.verdict c = none →
      Work cfg s (.abandon c) none (s.node.refuse c)
  | closeConnection (k : K) (c : C) : c ∈ s.node.allConnections →
      Work cfg s (.closeConnection k c) none
        (s.node.unlisted c (c ∈ s.node.upstreamConnections))
  | send (k : K) (targets : List C) (m : Message I Q P) : isRouted m = false →
      Work cfg s (.send k targets m) none (s.node,[.send targets m])
  | exec (f : Frame C I Q P) : s.top = some f → Work cfg s .run (some f) (s.node.exec cfg f)

/-- The frames of a state once one is taken off a stack and others are put there. -/
structure Swaps (s : NodeTasks C K I Q P) (out : Option (Frame C I Q P))
    (put : List (Frame C I Q P)) (t : NodeTasks C K I Q P) : Prop where
  old : ∀ f, t.Has f → s.Has f ∨ f ∈ put
  new : ∀ f ∈ put, t.Has f
  left : ∀ f, s.Has f → t.Has f ∨ out = some f
  out : ∀ f, out = some f → s.Has f

omit [DecidableEq I] [DecidableEq Q] in
theorem Swaps.of_stack {k : HandlerTask C K} {out : Option (Frame C I Q P)}
    {put fs : List (Frame C I Q P)} (hs : s.stack k = out.toList++fs)
    (ht : t.stack = Function.update s.stack k (put++fs)) : s.Swaps out put t := by
  refine ⟨fun f hf => ?_,fun f hf => ?_,fun f hf => ?_,fun f hf => ?_⟩
  · rw [has_update ht,List.mem_append] at hf
    rw [has_iff s k,hs,List.mem_append]
    exact hf.elim (fun hf => hf.elim .inr fun hf => .inl (.inl (.inr hf))) fun hf => .inl (.inr hf)
  · exact (has_update ht).mpr (.inl (List.mem_append_left _ hf))
  · rw [has_iff s k,hs,List.mem_append,Option.mem_toList] at hf
    rw [has_update ht,List.mem_append]
    exact hf.elim (fun hf => hf.elim .inr fun hf => .inl (.inl (.inr hf))) fun hf => .inl (.inr hf)
  · exact (has_iff s k).mpr (.inl (by simp [hs,hf]))

omit [DecidableEq I] [DecidableEq Q] in
theorem start_swaps {k : HandlerTask C K} {r : WiredNode C I Q P × List (Frame C I Q P)}
    (h : s.start k r = some t) : t.node = r.1 ∧ s.Swaps none r.2 t := by
  unfold start at h
  split at h
  · rename_i hs
    obtain rfl := Option.some.inj h
    have hs' : s.stack k = (none : Option (Frame C I Q P)).toList++[] := by simpa using hs
    exact ⟨rfl,.of_stack hs' (by simp)⟩
  · cases h

omit [DecidableEq I] [DecidableEq Q] in
theorem raise_check (s : NodeTasks C K I Q P) (k : HandlerTask C K) (b : Bool)
    (fs : List (Frame C I Q P)) :
    (s.raise k b fs).node.toCheckState = s.node.toCheckState := by
  unfold raise
  dsimp only
  split
  · split <;> rfl
  · rfl

omit [DecidableEq I] [DecidableEq Q] in
theorem closed_check (s : NodeTasks C K I Q P) (k : HandlerTask C K) (b : Bool)
    (fs : List (Frame C I Q P)) :
    (s.closed k b fs).node.toCheckState = s.node.toCheckState := by
  cases b with
  | true => exact s.raise_check k true fs
  | false => rfl

omit [DecidableEq I] [DecidableEq Q] in
theorem discard_check (s : NodeTasks C K I Q P) (k : HandlerTask C K) (c : C) :
    ((s.cancelTasks k c).discard c).node.toCheckState = s.node.toCheckState := by
  unfold discard cancelTasks
  dsimp only
  split <;> rfl

omit [DecidableEq I] [DecidableEq Q] in
theorem close_check (s : NodeTasks C K I Q P) (k : HandlerTask C K) (c : C) (b : Bool)
    (fs : List (Frame C I Q P)) :
    (s.close k c b fs).node.toCheckState = s.node.toCheckState := by
  unfold close
  dsimp only
  split
  · exact (closed_check _ k b fs).trans (s.discard_check k c)
  · exact s.discard_check k c

theorem resume_cases (s : NodeTasks C K I Q P) (k : HandlerTask C K) (hk : s.running = some k) :
    s.Pauses (s.thrown .run) (s.resume cfg k) ∧
        (s.resume cfg k).node.toCheckState = s.node.toCheckState ∨
      ∃ out r, s.Work cfg .run out r ∧ (s.resume cfg k).node = r.1 ∧
        s.Swaps out r.2 (s.resume cfg k) := by
  have hthrown : s.thrown .run = match s.stack k with
      | .shut c true::fs => if s.node.shut c then Frame.lost fs else []
      | _ => [] := by unfold thrown; rw [hk]
  unfold resume
  split
  · rename_i hs
    rw [hthrown,hs]
    exact .inl ⟨.of_node (.refl s.node) rfl,rfl⟩
  · rename_i c b fs hs
    have h := close_pauses hs
    rw [hthrown,hs]
    refine .inl ⟨?_,s.close_check k c b fs⟩
    cases b <;> simpa using h
  · rename_i f fs _ hs
    have htop : s.top = some f := by simp [top,hk,hs]
    exact .inr ⟨some f,_,.exec f htop,rfl,.of_stack (by simpa using hs) rfl⟩

section Turns

variable {k : HandlerTask C K}

theorem taken_turns {c : C} (hk : s.running = none) (h : event cfg s (.taken c) = some t) :
    s.Pauses (s.thrown (.taken c)) t ∧ t.node.toCheckState = s.node.toCheckState := by
  simp only [event] at h
  split at h
  · cases h
  · rename_i m ms hq
    obtain rfl := Option.some.inj h
    have hp : s.Pauses [] {s with node := {s.node with
        sendQueue := Function.update s.node.sendQueue c ms}} :=
      .of_node {WiredNode.Rests.refl s.node with} rfl
    exact ⟨by simpa [thrown,hk] using hp,rfl⟩

theorem wake_turns (hk : s.running = none) (h : event cfg s (.wake k) = some t) :
    s.Pauses (s.thrown (.wake k)) t ∧ t.node.toCheckState = s.node.toCheckState := by
  simp only [event] at h
  split at h
  · rename_i c b fs hs
    split_ifs at h
    obtain rfl := Option.some.inj h
    have hp := closed_pauses hs rfl b
    refine ⟨?_,s.closed_check k b fs⟩
    cases b <;> simpa [thrown,hk,hs] using hp
  · cases h

theorem cancel_turns (hk : s.running = none) (h : event cfg s (.cancel k) = some t) :
    s.Pauses (s.thrown (.cancel k)) t ∧ t.node.toCheckState = s.node.toCheckState := by
  simp only [event] at h
  split at h
  · rename_i c b fs hs
    split_ifs at h
    obtain rfl := Option.some.inj h
    have hp := raise_pauses (s := {s with cancelled := Function.update s.cancelled k false})
      (show _ = _ from hs) rfl true
    refine ⟨?_,raise_check _ k true fs⟩
    simp only [thrown,hk,hs]
    exact ⟨hp.rests,hp.old,hp.left⟩
  · cases h

theorem fail_turns (hk : s.running = none) (h : event cfg s (.fail k) = some t) :
    s.Pauses (s.thrown (.fail k)) t ∧ t.node.toCheckState = s.node.toCheckState := by
  simp only [event] at h
  split at h
  · rename_i c b fs hs
    split_ifs at h
    obtain rfl := Option.some.inj h
    exact ⟨by simpa [thrown,hk,hs] using raise_pauses hs rfl false,s.raise_check k false fs⟩
  · cases h

end Turns

/-- Where no frame runs, what the cycle check reads only changes with the check itself. -/
theorem step_turns (h : step cfg s a = some t) : s.Pauses (s.thrown a) t ∧
      ((∀ b qs, a ≠ .check b qs) → t.node.toCheckState = s.node.toCheckState) ∨
    ∃ out r, s.Work cfg a out r ∧ t.node = r.1 ∧ s.Swaps out r.2 t := by
  have started {k : HandlerTask C K} {r : WiredNode C I Q P × List (Frame C I Q P)}
      (hw : s.Work cfg a none r) (h : s.start k r = some t) :
      ∃ out r, s.Work cfg a out r ∧ t.node = r.1 ∧ s.Swaps out r.2 t :=
    ⟨none,r,hw,start_swaps h⟩
  have paused (h : s.Pauses (s.thrown a) t ∧ t.node.toCheckState = s.node.toCheckState) :
      s.Pauses (s.thrown a) t ∧
        ((∀ b qs, a ≠ .check b qs) → t.node.toCheckState = s.node.toCheckState) :=
    ⟨h.1,fun _ => h.2⟩
  unfold step at h
  cases hk : s.running with
  | some k =>
    rw [hk] at h
    cases a with
    | run =>
      obtain rfl := Option.some.inj h
      exact (resume_cases s k hk).imp_left paused
    | _ => simp at h
  | none =>
    rw [hk] at h
    cases a with
    | taken c => exact .inl (paused (taken_turns hk h))
    | wake k => exact .inl (paused (wake_turns hk h))
    | cancel k => exact .inl (paused (cancel_turns hk h))
    | fail k => exact .inl (paused (fail_turns hk h))
    | run => cases h
    | check b qs =>
      obtain rfl := Option.some.inj h
      have hp : s.Pauses [] {s with node := {s.node with checking := b, queries := qs}} :=
        .of_node {WiredNode.Rests.refl s.node with} rfl
      exact .inl ⟨by simpa [thrown,hk] using hp,fun hne => absurd rfl (hne b qs)⟩
    | establish c =>
      simp only [event] at h
      split_ifs at h with hc
      exact .inr (started (.establish c hc.1 hc.2) h)
    | accept c =>
      simp only [event] at h
      split_ifs at h with hc
      exact .inr (started (.accept c hc.1 hc.2) h)
    | receive c m =>
      simp only [event] at h
      split_ifs at h with hc
      exact .inr (started (.receive c m hc) h)
    | loopFailed c =>
      simp only [event] at h
      split_ifs at h with hc
      exact .inr (started (.loopFailed c hc) h)
    | sendFailed c =>
      simp only [event] at h
      split_ifs at h with hc
      exact .inr (started (.sendFailed c) h)
    | activate c =>
      simp only [event] at h
      split at h
      · rename_i p hp
        split_ifs at h with hv
        exact .inr (started (.activate c p hp hv) h)
      · cases h
    | abandon c =>
      simp only [event] at h
      split_ifs at h with hc
      exact .inr (started (.abandon c hc.2.1 hc.2.2) h)
    | closeConnection k c =>
      simp only [event] at h
      split_ifs at h with hc
      exact .inr (started (.closeConnection k c hc) h)
    | send k ts m =>
      simp only [event] at h
      split_ifs at h with hm
      exact .inr (started (.send k ts m hm) h)

theorem step_cases (h : step cfg s a = some t) : s.Pauses (s.thrown a) t ∨
    ∃ out r, s.Work cfg a out r ∧ t.node = r.1 ∧ s.Swaps out r.2 t :=
  (step_turns h).imp_left And.left

end NodeTasks
end SoftwareBus
