import SoftwareBus.NodeTaskInvariant

/-! Whether a node forgets a connection it has dropped: what is left of it in the tables
is what some task has still to clear. -/
namespace SoftwareBus

open Transition

variable {C K I Q P : Type}

def Frame.Clears (c : C) (s : Str) : Frame C I Q P → Prop
  | .drop d _ ss => d = c ∧ s ∈ ss
  | .forget d _ => d = c
  | _ => False

theorem Frame.drop_clears {c : C} {b : Bool} {s : Str} {ss : List Str} (h : s ∈ ss) :
    (Frame.drop c b ss : Frame C I Q P).Clears c s := ⟨rfl,h⟩

theorem Frame.forget_clears (c : C) (b : Bool) (s : Str) :
    (Frame.forget c b : Frame C I Q P).Clears c s := rfl

def Frame.ends [DecidableEq C] (c : C) : Frame C I Q P → Bool
  | .drop d _ _ | .shut d _ | .wait d _ | .forget d _ => decide (d = c)
  | _ => false

namespace WiredNode

/-- The connection is a key of what a node keeps to prevent cycles. -/
def Remembers (n : WiredNode C I Q P) (c : C) : Prop :=
  (n.peerNodeIds c).isSome ∨ (n.pending c).isSome ∨ (n.draining c).isSome

/-- The connection is listed where it is tagged or remembered. -/
structure Alive (c : C) (n : WiredNode C I Q P) : Prop where
  downstream : ∀ s, c ∈ n.downstreamSubscriptions.get s → c ∈ n.downstreamConnections
  upstream : ∀ s, c ∈ n.upstreamSubscriptions.get s → c ∈ n.upstreamConnections
  listed : n.Remembers c → c ∈ n.allConnections

/-- What is left of a connection that is gone is cleared by one of the frames `F`. -/
structure Clean (c : C) (F : Frame C I Q P → Prop) (n : WiredNode C I Q P) : Prop where
  tags : c ∉ n.allConnections → ∀ s, c ∈ n.subscribers s → ∃ f, F f ∧ f.Clears c s
  remembered : c ∉ n.allConnections → n.Remembers c → ∃ b, F (.forget c b)

/-- No more is left of the connection, if it is gone. -/
structure NoMore (c : C) (n m : WiredNode C I Q P) : Prop where
  gone : c ∉ m.allConnections → c ∉ n.allConnections
  tags : c ∉ m.allConnections → ∀ s, c ∈ m.subscribers s → c ∈ n.subscribers s
  remembered : c ∉ m.allConnections → m.Remembers c → n.Remembers c

variable {up : C → Bool} {n m : WiredNode C I Q P} {c : C} {F F' : Frame C I Q P → Prop}

theorem Clean.alive (h : n.Clean c F) (hw : n.Wired up) (hF : ∀ s f, F f → ¬f.Clears c s) :
    n.Alive c := by
  have hlisted (s : Str) (hs : c ∈ n.subscribers s) : c ∈ n.connections (up c) := by
    rw [hw.mem_connections]
    by_contra hl
    obtain ⟨f,hf,hclears⟩ := h.tags hl s hs
    exact hF s f hf hclears
  refine ⟨fun s hs => ?_,fun s hs => ?_,fun hr => ?_⟩
  · have hc := hlisted s (PubSubNode.mem_subscribers.mpr (.inl hs))
    rwa [hw.directed.downstream s c hs] at hc
  · have hc := hlisted s (PubSubNode.mem_subscribers.mpr (.inr hs))
    rwa [hw.directed.upstream s c hs] at hc
  · by_contra hl
    obtain ⟨b,hf⟩ := h.remembered hl hr
    exact hF [] _ hf rfl

theorem Clean.noMore (h : n.Clean c F) (hm : n.NoMore c m)
    (hF : ∀ s f, f.Clears c s → F f → F' f) : m.Clean c F' := by
  refine ⟨fun hl s hs => ?_,fun hl hr => ?_⟩
  · obtain ⟨f,hf,hclears⟩ := h.tags (hm.gone hl) s (hm.tags hl s hs)
    exact ⟨f,hF s f hclears hf,hclears⟩
  · obtain ⟨b,hf⟩ := h.remembered (hm.gone hl) (hm.remembered hl hr)
    exact ⟨b,hF [] _ rfl hf⟩

theorem NoMore.of_shrinks (h : n.Shrinks m) (hl : c ∈ n.allConnections → c ∈ m.allConnections)
    (hp : m.peerNodeIds c = n.peerNodeIds c) : n.NoMore c m := by
  refine ⟨fun hm hn => hm (hl hn),fun _ s hs => h.subscribers hs,fun _ hr => ?_⟩
  unfold Remembers at hr ⊢
  rw [hp] at hr
  exact hr.imp_right fun hr => hr.imp (h.pending c) (h.draining c)

theorem NoMore.of_listed (h : c ∈ m.allConnections) : n.NoMore c m :=
  ⟨fun hm => absurd h hm,fun hm => absurd h hm,fun hm => absurd h hm⟩

theorem new_clean (i : I) : (WiredNode.new i : WiredNode C I Q P).Clean c F := by
  constructor <;>
    simp [new,PubSubNode.new,PubSubNode.subscribers,Remembers]

variable [DecidableEq C]

theorem mem_taggedSubjects (h : n.Directed up) {s : Str} (hs : c ∈ n.subscribers s) :
    s ∈ n.taggedSubjects c (up c) := by
  rw [← h.mem_subscriptions] at hs
  refine List.mem_filter.mpr ⟨?_,decide_eq_true hs⟩
  exact (Subscriptions.mem_subjects _ s).mpr (List.ne_nil_of_mem hs)

theorem connectionError_clean (hw : n.Wired up) (h : n.Clean c F) (d : C) (b : Bool)
    (hF : ∀ s f, f.Clears c s → F f → F' f) (hput : ∀ f ∈ (n.connectionError d b).2, F' f) :
    (n.connectionError d b).1.Clean c F' := by
  by_cases hd : d ∈ n.connections b
  · have hshrinks := connectionError_shrinks n d b
    unfold connectionError at hput hshrinks ⊢
    rw [if_pos hd] at hput hshrinks ⊢
    by_cases hdc : d = c
    · subst d
      have hb := hw.connections hd
      refine ⟨fun _ s hs => ⟨_,hput (.drop c b (n.taggedSubjects c b)) (by simp),
        Frame.drop_clears ?_⟩,fun _ hr => ?_⟩
      · exact hb ▸ mem_taggedSubjects hw.directed hs
      · simp [Remembers,setNode,CheckState.forgetConnection] at hr
    · refine h.noMore (.of_shrinks hshrinks (fun hl => ?_) ?_) hF
      · change c ∈ (n.unlist d b).allConnections
        exact (CheckState.mem_unlist_of_ne _ _ _ (Ne.symm hdc)).mpr hl
      · simp [setNode,CheckState.forgetConnection,Ne.symm hdc]
  · unfold connectionError
    rw [if_neg hd]
    exact h.noMore (.of_shrinks (.refl n) id rfl) hF

theorem unlisted_clean (h : n.Clean c F) (d : C) (b : Bool)
    (hF : ∀ s f, f.Clears c s → F f → F' f) (hput : ∀ f ∈ (n.unlisted d b).2, F' f) :
    (n.unlisted d b).1.Clean c F' := by
  have hforget : F' (.forget d b) := hput _ (by simp [unlisted])
  by_cases hdc : d = c
  · subst d
    exact ⟨fun _ s _ => ⟨_,hforget,Frame.forget_clears c b s⟩,fun _ _ => ⟨b,hforget⟩⟩
  · refine h.noMore (.of_shrinks (unlist_shrinks n d b) (fun hl => ?_) ?_) hF
    · change c ∈ (n.unlist d b).allConnections
      exact (CheckState.mem_unlist_of_ne _ _ _ (Ne.symm hdc)).mpr hl
    · simp [unlisted,setNode]

theorem forget_clean (hw : n.Wired up) (h : n.Clean c F) (d : C)
    (hF : ∀ s f, f.Clears c s → F f → F' f ∨ f = .forget d (up d))
    (hput : F' (.drop d (up d) (n.taggedSubjects d (up d)))) :
    (n.setNode {n.toPubSubNode with toCheckState := n.forgetConnection d}).Clean c F' := by
  by_cases hdc : d = c
  · subst d
    refine ⟨fun _ s hs => ⟨_,hput,Frame.drop_clears (mem_taggedSubjects hw.directed hs)⟩,fun _ hr => ?_⟩
    simp [Remembers,setNode,CheckState.forgetConnection] at hr
  · refine h.noMore (.of_shrinks (forget_shrinks n d) id ?_) fun s f hc hf =>
      (hF s f hc hf).resolve_right ?_
    · simp [setNode,CheckState.forgetConnection,Ne.symm hdc]
    · rintro rfl
      exact hdc hc

theorem unsubscribe_clean (hw : n.Wired up) (h : n.Clean c F) (d : C) (s : Str) (ss : List Str)
    (hF : ∀ t f, f.Clears c t → F f → F' f ∨ f = .drop d (up d) (s::ss))
    (hput : F' (.drop d (up d) ss)) : (n.setNode (n.unsubscribe (up d) s d).1).Clean c F' := by
  have hcheck := (PubSubNode.unsubscribe_routes n.toPubSubNode (up d) s d).check
  have hlist : (n.setNode (n.unsubscribe (up d) s d).1).allConnections = n.allConnections :=
    congrArg CheckState.allConnections hcheck
  have hmore : n.NoMore c (n.setNode (n.unsubscribe (up d) s d).1) :=
    .of_shrinks (unsubscribe_shrinks n d (up d) s) (fun hl => by rw [hlist]; exact hl)
      (congrArg (fun x => x.peerNodeIds c) hcheck)
  refine ⟨fun hl t ht => ?_,fun hl hr => ?_⟩
  · obtain ⟨f,hf,hclears⟩ := h.tags (hmore.gone hl) t (hmore.tags hl t ht)
    rcases hF t f hclears hf with hf | rfl
    · exact ⟨f,hf,hclears⟩
    · obtain ⟨rfl,hts⟩ := hclears
      have hne : t ≠ s := ((PubSubNode.unsubscribe_tag hw.directed s t d).mp ht).2
      exact ⟨_,hput,Frame.drop_clears ((List.mem_cons.mp hts).resolve_left hne)⟩
  · obtain ⟨b,hf⟩ := h.remembered (hmore.gone hl) (hmore.remembered hl hr)
    exact ⟨b,(hF [] _ (Frame.forget_clears c b []) hf).resolve_right (by simp)⟩

theorem establish_noMore (n : WiredNode C I Q P) (c d : C) : n.NoMore c (n.establish d).1 := by
  have hlist : (n.establish d).1.allConnections = n.allConnections++[d] := by
    simp [establish,setNode,PubSubNode.establish,CheckState.allConnections]
  by_cases hcd : c = d
  · exact .of_listed (by simp [hlist,hcd])
  · refine ⟨fun hl hn => hl (by simp [hlist,hn]),fun _ s hs => hs,fun _ hr => ?_⟩
    simpa [Remembers,establish,setNode,PubSubNode.establish,hcd] using hr

theorem accept_noMore (n : WiredNode C I Q P) (c d : C) : n.NoMore c (n.accept d).1 := by
  refine ⟨fun hl hn => hl ?_,fun _ s hs => hs,fun _ hr => hr⟩
  refine CheckState.mem_allConnections.mpr ((CheckState.mem_allConnections.mp hn).imp_left ?_)
  exact List.mem_append_left _

def Welcomes (c : C) (F : Frame C I Q P → Prop) (n : WiredNode C I Q P) (m : Message I Q P) : Prop :=
  c ∈ n.allConnections ∨ match m with
    | .hello _ => ∃ b, F (.forget c b)
    | .subscription t true => (n.heldMessages c).isSome ∨ ∃ f, F f ∧ f.Clears c t
    | _ => True

variable [DecidableEq I] [DecidableEq Q]

theorem process_clean (hw : n.Wired up) (h : n.Clean c F) {d : C} {m : Message I Q P}
    (hm : isRouted m = true) (hF : ∀ s f, f.Clears c s → F f → F' f)
    (hnew : ∀ t, m = .subscription t true → d = c →
      c ∈ n.allConnections ∨ ∃ f, F f ∧ f.Clears c t) :
    (n.process d m (up d)).1.Clean c F' := by
  obtain ⟨hr,htag⟩ := PubSubNode.handleMessage_reroutes hw.directed (c := d) hm
  have hcheck := (PubSubNode.handleMessage_routes n.toPubSubNode d hm (up d)).check
  have hlist : (n.process d m (up d)).1.allConnections = n.allConnections :=
    congrArg CheckState.allConnections hcheck
  have hsame : (n.process d m (up d)).1.Remembers c ↔ n.Remembers c := by
    have he : (n.process d m (up d)).1.toCheckState = n.toCheckState := hcheck
    rw [Remembers,he]
    rfl
  -- the tag is an old one, or the message is the subscription
  have hold (t : Str) (ht : c ∈ (n.process d m (up d)).1.subscribers t) :
      c ∈ n.subscribers t ∨ m = .subscription t true ∧ d = c := by
    by_cases hdc : d = c
    · subst d
      have hsaid := (htag t).mp ht
      rw [Message.lastSaid_cons,Message.lastSaid_nil] at hsaid
      cases m with
      | subscription u b =>
        by_cases hut : u = t
        · subst u
          obtain rfl : b = true := by simpa [Message.about] using hsaid
          exact .inr ⟨rfl,rfl⟩
        · exact .inl (by simpa [Message.about,hut] using hsaid)
      | _ => exact .inl (by simpa [Message.about] using hsaid)
    · exact .inl ((hr.tags t c (Ne.symm hdc)).mp ht)
  refine ⟨fun hl t ht => ?_,fun hl hrem => ?_⟩
  · rw [hlist] at hl
    rcases hold t ht with ht | ⟨rfl,hdc⟩
    · obtain ⟨f,hf,hclears⟩ := h.tags hl t ht
      exact ⟨f,hF t f hclears hf,hclears⟩
    · obtain ⟨f,hf,hclears⟩ := (hnew t rfl hdc).resolve_left hl
      exact ⟨f,hF t f hclears hf,hclears⟩
  · rw [hlist] at hl
    obtain ⟨b,hf⟩ := h.remembered hl (hsame.mp hrem)
    exact ⟨b,hF [] _ (Frame.forget_clears c b []) hf⟩

theorem control_clean (h : n.Clean c F) {d : C} {m : Message I Q P} (hm : isRouted m = false)
    (b : Bool) (hF : ∀ s f, f.Clears c s → F f → F' f) (hok : d = c → n.Welcomes c F m) :
    (n.handleMessage d m b).1.Clean c F' := by
  have hshrinks := handleMessage_shrinks n d hm b
  obtain ⟨ids,pending,queries,he,-,hids⟩ := handleMessage_eq n d hm b
  rw [he] at hshrinks ⊢
  rcases hids c with hpeer | ⟨hdc,i,rfl⟩
  · exact h.noMore (.of_shrinks hshrinks id hpeer) hF
  · rcases hok hdc.symm with hl | ⟨b',hf⟩
    · exact h.noMore (.of_listed hl) hF
    · refine ⟨fun hl s hs => ?_,fun _ _ => ⟨b',hF [] _ (Frame.forget_clears c b' []) hf⟩⟩
      exact ⟨_,hF s _ (Frame.forget_clears c b' s) hf,Frame.forget_clears c b' s⟩

theorem onReceive_clean {cfg : TaskSettings C I Q P} (hw : n.Wired cfg.fromUpstream)
    (h : n.Clean c F) (d : C) (m : Message I Q P) (hF : ∀ s f, f.Clears c s → F f → F' f)
    (hput : ∀ f ∈ (n.onReceive cfg d m).2, F' f) (hok : d = c → n.Welcomes c F m) :
    (n.onReceive cfg d m).1.Clean c F' := by
  unfold onReceive at hput ⊢
  split at hput
  · rename_i hm
    rw [dif_pos hm]
    let n' : WiredNode C I Q P :=
      {n with received := Function.update n.received d (n.received d++[m])}
    have hw' : n'.Wired cfg.fromUpstream := hw.shrinks {Shrinks.refl n with}
    have h' : n'.Clean c F := h.noMore (.of_shrinks {Shrinks.refl n with} id rfl) fun _ _ _ => id
    split at hput
    · rename_i hheld
      refine process_clean hw' h' hm hF ?_
      rintro t rfl rfl
      refine (hok rfl).imp_right fun hc => hc.resolve_left ?_
      simp [hheld]
    · rename_i held hheld
      dsimp only at hput ⊢
      split at hput
      · rename_i hover
        rw [if_pos hover]
        exact connectionError_clean hw' h' d _ hF hput
      · rename_i hfits
        rw [if_neg hfits]
        have hsame : (n.hold d ⟨m,hm⟩ (cfg.length m)).peerNodeIds = n.peerNodeIds ∧
            (n.hold d ⟨m,hm⟩ (cfg.length m)).allConnections = n.allConnections := by
          unfold CheckState.hold
          split <;> exact ⟨rfl,rfl⟩
        exact h'.noMore (.of_shrinks (hold_shrinks n' d ⟨m,hm⟩ (cfg.length m))
          (fun hl => hsame.2 ▸ hl) (congrFun hsame.1 c)) hF
  · rename_i hm
    rw [dif_neg hm]
    exact control_clean h (by simpa using hm) _ hF hok

theorem exec_clean {cfg : TaskSettings C I Q P} (hw : n.Wired up) (h : n.Clean c F)
    {f : Frame C I Q P} (hdir : f.Directed up) (hF : ∀ g, F g → F' g ∨ g = f)
    (hput : ∀ g ∈ (n.exec cfg f).2, F' g) : (n.exec cfg f).1.Clean c F' := by
  have hkeep (hf : ∀ s, ¬f.Clears c s) (s : Str) (g : Frame C I Q P) (hg : g.Clears c s)
      (hFg : F g) : F' g := (hF g hFg).resolve_right fun he => hf s (he ▸ hg)
  have hsame : n.NoMore c n := .of_shrinks (.refl n) id rfl
  unfold exec at hput ⊢
  split at hput
  · rename_i d ds m
    have hkeep := hkeep fun _ => id
    unfold sendNext at hput ⊢
    split at hput
    · rename_i hover
      rw [if_pos hover]
      refine connectionError_clean hw h d _ hkeep fun g hg => hput g ?_
      exact List.mem_append_left _ hg
    · rename_i hfits
      rw [if_neg hfits]
      exact h.noMore (.of_shrinks {Shrinks.refl n with} id rfl) hkeep
  · rename_i d b s ss
    obtain rfl : b = up d := hdir
    exact unsubscribe_clean hw h d s ss (fun _ g _ => hF g) (hput _ (by simp))
  · rename_i d
    have hkeep := hkeep fun _ => id
    unfold drainNext at hput ⊢
    split at hput
    · rename_i m length ms size hd
      let n' : WiredNode C I Q P :=
        {n with draining := Function.update n.draining d (some ⟨ms,size-length⟩)}
      have hpop : n.Shrinks n' := by
        refine {Shrinks.refl n with draining := fun e he => ?_}
        by_cases hed : e = d
        · simp [hed,hd]
        · simpa [n',hed] using he
      have h' : n'.Clean c F := h.noMore (.of_shrinks hpop id rfl) fun _ _ _ => id
      have hp := process_clean (hw.shrinks hpop) h' (d := d) m.2 hkeep fun t _ hdc => by
        by_cases hl : c ∈ n.allConnections
        · exact .inl hl
        · subst d
          obtain ⟨b,hf⟩ := h.remembered hl (.inr (.inr (by simp [hd])))
          exact .inr ⟨_,hf,Frame.forget_clears c b t⟩
      rwa [(hw.draining d (by simp [hd])).2] at hp
    · exact h.noMore (.of_shrinks (endDrain_shrinks n d) id rfl) hkeep
  · rename_i d
    have hkeep := hkeep fun _ => id
    have h' : (n.endDrain d).Clean c F :=
      h.noMore (.of_shrinks (endDrain_shrinks n d) id rfl) fun _ _ _ => id
    exact connectionError_clean (hw.shrinks (endDrain_shrinks n d)) h' d true hkeep hput
  · rename_i d b
    obtain rfl : b = up d := hdir
    exact forget_clean hw h d (fun _ g _ => hF g) (hput _ (by simp))
  · exact h.noMore hsame (hkeep fun _ => id)
  · rename_i d b
    refine h.noMore hsame (hkeep ?_)
    rintro s ⟨-,hs⟩
    simp at hs
  · exact h.noMore hsame (hkeep fun _ => id)
  · exact h.noMore hsame (hkeep fun _ => id)

end WiredNode

namespace NodeTasks

variable [DecidableEq C] [DecidableEq K] [DecidableEq I] [DecidableEq Q]
variable {cfg : TaskSettings C I Q P} {s t : NodeTasks C K I Q P} {a : TaskAction C K I Q P}
  {c : C}

/-- No exception makes a task skip what is to be cleared of the connection, and nothing is read
from the connection, once it is not listed any more, that is not cleared. -/
def ClearsUp (c : C) (s : NodeTasks C K I Q P) (a : TaskAction C K I Q P) : Prop :=
  (∀ f ∈ s.thrown a, (∀ u, f.Clears c u → c ∉ s.node.subscribers u) ∧
    ∀ b, f = .forget c b → ¬s.node.Remembers c) ∧
  ∀ m, a = .receive c m → s.node.Welcomes c s.Has m

omit [DecidableEq C] [DecidableEq K] [DecidableEq I] [DecidableEq Q] in
theorem clearsUp_of (ht : s.thrown a = [])
    (ha : (∀ m, a ≠ .receive c m) ∨ c ∈ s.node.allConnections) : s.ClearsUp c a :=
  ⟨by simp [ht],fun m hm => ha.elim (fun hr => absurd hm (hr m)) .inl⟩

omit [DecidableEq K] in
theorem Work.clean {out : Option (Frame C I Q P)} {r : WiredNode C I Q P × List (Frame C I Q P)}
    (h : s.Work cfg a out r) (hs : s.Wired cfg.fromUpstream) (hf : s.Swaps out r.2 t)
    (hok : ∀ m, a = .receive c m → s.node.Welcomes c s.Has m) (hn : s.node.Clean c s.Has) :
    r.1.Clean c t.Has := by
  have hw := hs.node
  have hleft (hout : out = none) (u : Str) (f : Frame C I Q P) (_ : f.Clears c u) (hf' : s.Has f) :
      t.Has f := (hf.left f hf').resolve_right (by simp [hout])
  cases h with
  | establish d hd hu => exact hn.noMore (WiredNode.establish_noMore s.node c d) (hleft rfl)
  | accept d hd hu => exact hn.noMore (WiredNode.accept_noMore s.node c d) (hleft rfl)
  | receive d m hr =>
    refine WiredNode.onReceive_clean hw hn d m (hleft rfl) hf.new ?_
    rintro rfl
    exact hok m rfl
  | loopFailed d hr =>
    have hrest := (WiredNode.Rests.endLoop s.node d).shrinks
    have hn' := hn.noMore (.of_shrinks hrest id rfl) fun _ _ _ => id
    exact WiredNode.connectionError_clean (hw.shrinks hrest) hn' d _ (hleft rfl) hf.new
  | sendFailed d => exact WiredNode.connectionError_clean hw hn d _ (hleft rfl) hf.new
  | activate d p hp hv =>
    refine hn.noMore ⟨fun hl => hl,fun _ u hu => hu,fun _ hr => ?_⟩ (hleft rfl)
    by_cases hcd : c = d
    · exact .inr (.inl (by simp [hcd,hp]))
    · simpa [WiredNode.Remembers,WiredNode.activate,hcd] using hr
  | abandon d hu hv =>
    have hrest : s.node.Shrinks
        {s.node with verdict := Function.update s.node.verdict d (some false)} :=
      {WiredNode.Shrinks.refl s.node with}
    have hn' := hn.noMore (.of_shrinks hrest id rfl) fun _ _ _ => id
    exact WiredNode.connectionError_clean (hw.shrinks hrest) hn' d true (hleft rfl) hf.new
  | closeConnection k d hd => exact WiredNode.unlisted_clean hn d _ (hleft rfl) hf.new
  | send k ts m hm => exact hn.noMore (.of_shrinks (.refl s.node) id rfl) (hleft rfl)
  | exec f _ =>
    refine WiredNode.exec_clean hw hn (hs.frames f (hf.out f rfl)) (fun g hg => ?_) hf.new
    exact (hf.left g hg).imp_right fun he => (Option.some.inj he).symm

theorem step_clean (h : step cfg s a = some t) (hs : s.Wired cfg.fromUpstream)
    (hok : s.ClearsUp c a) (hn : s.node.Clean c s.Has) : t.node.Clean c t.Has := by
  have hplain {f : Frame C I Q P} {u : Str} (hf : f.Clears c u) : f.plain = true := by
    cases f <;> first | rfl | exact hf.elim
  rcases step_cases h with h | ⟨out,r,hw,hr,hf⟩
  · have hsub (u : Str) : t.node.subscribers u = s.node.subscribers u := by
      rw [PubSubNode.subscribers,h.rests.downstreamSubscriptions,h.rests.upstreamSubscriptions]
      rfl
    have hlist : t.node.allConnections = s.node.allConnections := by
      rw [CheckState.allConnections,h.rests.downstream,h.rests.upstream]
      rfl
    have hrem (hr : t.node.Remembers c) : s.node.Remembers c := by
      rw [WiredNode.Remembers,h.rests.peerNodeIds,h.rests.pending,h.rests.draining] at hr
      exact hr
    refine ⟨fun hl u hu => ?_,fun hl hr => ?_⟩
    · rw [hlist] at hl
      rw [hsub] at hu
      obtain ⟨f,hf,hclears⟩ := hn.tags hl u hu
      refine ⟨f,(h.left f (hplain hclears) hf).resolve_right fun hlost => ?_,hclears⟩
      exact (hok.1 f hlost).1 u hclears hu
    · rw [hlist] at hl
      obtain ⟨b,hf⟩ := hn.remembered hl (hrem hr)
      refine ⟨b,(h.left _ rfl hf).resolve_right fun hlost => ?_⟩
      exact (hok.1 _ hlost).2 b rfl (hrem hr)
  · exact hr ▸ hw.clean hs hf hok.2 hn

/-- A connection that no task is ending is listed where it is tagged or remembered, as long as
what is left of it is cleared. -/
theorem refers_to_listed {as : List (TaskAction C K I Q P)} {i : I} {t : NodeTasks C K I Q P}
    (hrun : run (step cfg) (init i) as = some t)
    (hok : Guarded (step cfg) (ClearsUp c) (init i) as)
    (hidle : ∀ f, t.Has f → f.ends c = false) : t.node.Alive c := by
  have hinv := run_invariant (I := fun s => s.Wired cfg.fromUpstream ∧ s.node.Clean c s.Has)
    (fun s a t hs ha h => ⟨step_wired h hs.1,step_clean h hs.1 ha hs.2⟩)
    ⟨init_wired cfg.fromUpstream i,WiredNode.new_clean i⟩ hok hrun
  refine hinv.2.alive hinv.1.node fun u f hf hclears => ?_
  have hends := hidle f hf
  cases f with
  | drop d b ss => exact absurd hclears.1 (by simpa [Frame.ends] using hends)
  | forget d b =>
    exact absurd (show d = c from hclears) (by simpa [Frame.ends] using hends)
  | _ => exact hclears

/-- A connection that has told its Node ID and has subscribed is dropped. -/
theorem refers_to_listed_hello : ∃ s t : NodeTasks (Fin 1) (Fin 1) (Fin 1) (Fin 1) (Fin 1),
    run (step ⟨⟨⟨5,9,fun _ => 1⟩,fun _ => false⟩,9⟩) (init 0) [.accept 0,.run,.run,.run,
      .receive 0 (.hello 0),.run,.receive 0 (.subscription [97] true),.run,.run] = some s ∧
    s.node.Remembers 0 ∧ s.node.subscribers [97] = [0] ∧
    run (step ⟨⟨⟨5,9,fun _ => 1⟩,fun _ => false⟩,9⟩) (init 0) [.accept 0,.run,.run,.run,
      .receive 0 (.hello 0),.run,.receive 0 (.subscription [97] true),.run,.run,
      .loopFailed 0,.run,.run,.run,.run,.wake (.loop 0),.run] = some t ∧
    0 ∉ t.node.allConnections ∧ t.node.Alive 0 := by
  refine ⟨_,_,rfl,.inl rfl,rfl,rfl,by decide,refers_to_listed (C := Fin 1) (K := Fin 1) (I := Fin 1)
    (Q := Fin 1) (P := Fin 1)
    (show run (step ⟨⟨⟨5,9,fun _ => 1⟩,fun _ => false⟩,9⟩) (init 0) [.accept 0,.run,.run,.run,
      .receive 0 (.hello 0),.run,.receive 0 (.subscription [97] true),.run,.run,
      .loopFailed 0,.run,.run,.run,.run,.wake (.loop 0),.run] = some _ from rfl) ?_ ?_⟩
  · have hstep (s : NodeTasks (Fin 1) (Fin 1) (Fin 1) (Fin 1) (Fin 1))
        (a : TaskAction (Fin 1) (Fin 1) (Fin 1) (Fin 1) (Fin 1)) (ht : s.thrown a = [])
        (ha : ∀ m, a ≠ .receive 0 m) : s.ClearsUp 0 a := clearsUp_of ht (.inl ha)
    have hread (s : NodeTasks (Fin 1) (Fin 1) (Fin 1) (Fin 1) (Fin 1))
        (a : TaskAction (Fin 1) (Fin 1) (Fin 1) (Fin 1) (Fin 1)) (ht : s.thrown a = [])
        (hl : 0 ∈ s.node.allConnections) : s.ClearsUp 0 a := clearsUp_of ht (.inr hl)
    exact ⟨hstep _ _ rfl (by simp),hstep _ _ rfl (by simp),hstep _ _ rfl (by simp),
      hstep _ _ rfl (by simp),hread _ _ rfl (by decide),hstep _ _ rfl (by simp),
      hread _ _ rfl (by decide),hstep _ _ rfl (by simp),hstep _ _ rfl (by simp),
      hstep _ _ rfl (by simp),hstep _ _ rfl (by simp),hstep _ _ rfl (by simp),
      hstep _ _ rfl (by simp),hstep _ _ rfl (by simp),hstep _ _ rfl (by simp),
      hstep _ _ rfl (by simp),trivial⟩
  · rintro f ⟨k,hk⟩
    cases k with
    | loop c | sender c | setup c | call c =>
      obtain rfl := Subsingleton.elim c 0
      exact nomatch (show f ∈ ([] : List (Frame _ _ _ _)) from hk)

/-- The relay loop of a connection drops it, and goes on with the messages left in its reader. -/
theorem not_refers_to_listed : ∃ t : NodeTasks (Fin 1) (Fin 1) (Fin 1) (Fin 1) (Fin 1),
    run (step ⟨⟨⟨5,0,fun _ => 1⟩,fun _ => true⟩,9⟩) (init 0) [.establish 0,.run,.run,.run,
      .receive 0 (.publish [97] 0),.run,.run,.wake (.loop 0),.run,
      .receive 0 (.subscription [98] true),.run,.run] = some t ∧
    (∀ f, t.Has f → f.ends 0 = false) ∧ t.node.upstreamSubscriptions.get [98] = [0] ∧
    ¬t.node.Alive 0 := by
  refine ⟨_,rfl,?_,rfl,fun h => ?_⟩
  · rintro f ⟨k,hk⟩
    cases k with
    | loop c | sender c | setup c | call c =>
      obtain rfl := Subsingleton.elim c 0
      exact nomatch (show f ∈ ([] : List (Frame _ _ _ _)) from hk)
  · exact absurd (h.upstream [98] (by decide)) (by decide)

end NodeTasks
end SoftwareBus
