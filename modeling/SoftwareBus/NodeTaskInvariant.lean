import SoftwareBus.NodeTaskSteps
import SoftwareBus.CheckInvariant

/-! What holds of a node between any two frames of its tasks: its lists, its tables and
the frames agree on the direction of a connection, and name only connections it has made. -/
namespace SoftwareBus

variable {C K I Q P : Type}

/-- A frame that unsubscribes a connection does it in the table of the connection's direction. -/
def Frame.Directed (up : C → Bool) : Frame C I Q P → Prop
  | .drop c b _ | .forget c b => b = up c
  | _ => True

namespace WiredNode

structure Wired (up : C → Bool) (n : WiredNode C I Q P) : Prop where
  upstream : ∀ c ∈ n.upstreamConnections, up c = true
  downstream : ∀ c ∈ n.downstreamConnections, up c = false
  directed : n.Directed up
  listed : ∀ c ∈ n.allConnections, n.made c = true
  reading : ∀ c, n.reading c = true → n.made c = true
  tagged : ∀ s, ∀ c ∈ n.subscribers s, n.made c = true
  pending : ∀ c, (n.pending c).isSome → n.made c = true ∧ up c = true ∧ n.draining c = none ∧
    ∀ s, c ∉ n.subscribers s
  draining : ∀ c, (n.draining c).isSome → n.made c = true ∧ up c = true

/-- A node with no more connections, tags and held messages than another one. -/
structure Shrinks (n m : WiredNode C I Q P) : Prop where
  upstream : ∀ c ∈ m.upstreamConnections, c ∈ n.upstreamConnections
  downstream : ∀ c ∈ m.downstreamConnections, c ∈ n.downstreamConnections
  upTags : ∀ s, ∀ c ∈ m.upstreamSubscriptions.get s, c ∈ n.upstreamSubscriptions.get s
  downTags : ∀ s, ∀ c ∈ m.downstreamSubscriptions.get s, c ∈ n.downstreamSubscriptions.get s
  pending : ∀ c, (m.pending c).isSome → (n.pending c).isSome
  draining : ∀ c, (m.draining c).isSome → (n.draining c).isSome
  reading : ∀ c, m.reading c = true → n.reading c = true
  made : m.made = n.made

variable {up : C → Bool} {n m l : WiredNode C I Q P}

theorem Shrinks.refl (n : WiredNode C I Q P) : n.Shrinks n :=
  ⟨fun _ => id,fun _ => id,fun _ _ => id,fun _ _ => id,fun _ => id,fun _ => id,fun _ => id,rfl⟩

theorem Shrinks.trans (h : n.Shrinks m) (g : m.Shrinks l) : n.Shrinks l :=
  ⟨fun c hc => h.upstream c (g.upstream c hc),fun c hc => h.downstream c (g.downstream c hc),
    fun s c hc => h.upTags s c (g.upTags s c hc),fun s c hc => h.downTags s c (g.downTags s c hc),
    fun c hc => h.pending c (g.pending c hc),fun c hc => h.draining c (g.draining c hc),
    fun c hc => h.reading c (g.reading c hc),g.made.trans h.made⟩

theorem Rests.shrinks (h : n.Rests m) : n.Shrinks m where
  upstream := by simp [h.upstream]
  downstream := by simp [h.downstream]
  upTags := by simp [h.upstreamSubscriptions]
  downTags := by simp [h.downstreamSubscriptions]
  pending := by simp [h.pending]
  draining := by simp [h.draining]
  reading := h.reading
  made := h.made

theorem Shrinks.subscribers (h : n.Shrinks m) {s : Str} {c : C} (hc : c ∈ m.subscribers s) :
    c ∈ n.subscribers s :=
  PubSubNode.mem_subscribers.mpr
    ((PubSubNode.mem_subscribers.mp hc).imp (h.downTags s c) (h.upTags s c))

theorem Shrinks.listed (h : n.Shrinks m) {c : C} (hc : c ∈ m.allConnections) :
    c ∈ n.allConnections :=
  CheckState.mem_allConnections.mpr
    ((CheckState.mem_allConnections.mp hc).imp (h.downstream c) (h.upstream c))

theorem Wired.shrinks (hn : n.Wired up) (h : n.Shrinks m) : m.Wired up := by
  refine ⟨fun c hc => hn.upstream c (h.upstream c hc),fun c hc => hn.downstream c (h.downstream c hc),
    ⟨fun s c hc => hn.directed.upstream s c (h.upTags s c hc),
      fun s c hc => hn.directed.downstream s c (h.downTags s c hc)⟩,fun c hc => ?_,fun c hc => ?_,
    fun s c hc => ?_,fun c hc => ?_,fun c hc => ?_⟩
  · exact h.made ▸ hn.listed c (h.listed hc)
  · exact h.made ▸ hn.reading c (h.reading c hc)
  · exact h.made ▸ hn.tagged s c (h.subscribers hc)
  · obtain ⟨hm,hu,hd,hs⟩ := hn.pending c (h.pending c hc)
    refine ⟨h.made ▸ hm,hu,?_,fun s hcs => hs s (h.subscribers hcs)⟩
    by_contra hne
    simpa [hd] using h.draining c (Option.isSome_iff_ne_none.mpr hne)
  · exact h.made ▸ hn.draining c (h.draining c hc)

theorem new_wired (i : I) : (WiredNode.new i : WiredNode C I Q P).Wired up := by
  constructor <;> simp [new,PubSubNode.new,CheckState.allConnections,PubSubNode.subscribers]
  constructor <;> simp

theorem Wired.connections (h : n.Wired up) {c : C} {b : Bool} (hc : c ∈ n.connections b) :
    up c = b := by
  cases b
  · exact h.downstream c hc
  · exact h.upstream c hc

theorem Wired.mem_connections (h : n.Wired up) {c : C} :
    c ∈ n.connections (up c) ↔ c ∈ n.allConnections := by
  rw [CheckState.mem_allConnections]
  cases hc : up c
  · exact ⟨.inl,fun hm => hm.resolve_right fun hm => by simp [h.upstream c hm] at hc⟩
  · exact ⟨.inr,fun hm => hm.resolve_left fun hm => by simp [h.downstream c hm] at hc⟩

variable [DecidableEq C]

theorem Wired.not_mem_unlist (h : n.Wired up) {c : C} {b : Bool} (hc : c ∈ n.connections b) :
    c ∉ (n.unlist c b).allConnections := by
  have hb := h.connections hc
  rw [CheckState.mem_allConnections,CheckState.mem_unlist_downstream,
    CheckState.mem_unlist_upstream]
  rintro (⟨hm,hne⟩ | ⟨hm,hne⟩)
  · exact hne (hb ▸ h.downstream c hm) rfl
  · exact hne (hb ▸ h.upstream c hm) rfl

/-- `_connections` for a connection that is taken to be downstream unless it is listed upstream. -/
theorem Wired.direction (h : n.Wired up) {c : C} (hc : c ∈ n.allConnections) :
    up c = decide (c ∈ n.upstreamConnections) := by
  rcases CheckState.mem_allConnections.mp hc with hd | hu
  · have hn : c ∉ n.upstreamConnections := fun hu => by simpa [h.upstream c hu] using h.downstream c hd
    rw [h.downstream c hd,decide_eq_false hn]
  · rw [h.upstream c hu,decide_eq_true hu]

theorem unlist_shrinks (n : WiredNode C I Q P) (c : C) (b : Bool) :
    n.Shrinks (n.setNode {n.toPubSubNode with toCheckState := n.unlist c b}) := by
  cases b <;>
  · refine {Shrinks.refl n with upstream := fun d hd => ?_,downstream := fun d hd => ?_} <;>
    simp_all [setNode,CheckState.unlist]

theorem forget_shrinks (n : WiredNode C I Q P) (c : C) :
    n.Shrinks (n.setNode {n.toPubSubNode with toCheckState := n.forgetConnection c}) := by
  refine {Shrinks.refl n with pending := fun d hd => ?_,draining := fun d hd => ?_} <;>
  by_cases hdc : d = c <;> simp_all [setNode,CheckState.forgetConnection]

theorem endDrain_shrinks (n : WiredNode C I Q P) (c : C) : n.Shrinks (n.endDrain c) := by
  refine {Shrinks.refl n with draining := fun d hd => ?_}
  by_cases hdc : d = c <;> simp_all [endDrain]

theorem draining_shrinks {c : C} (hc : (n.draining c).isSome) (held : HeldMessages I Q P) :
    n.Shrinks {n with draining := Function.update n.draining c (some held)} := by
  refine {Shrinks.refl n with draining := fun d hd => ?_}
  by_cases hdc : d = c
  · rwa [hdc]
  · simpa [hdc] using hd

theorem unsubscribe_shrinks (n : WiredNode C I Q P) (c : C) (b : Bool) (s : Str) :
    n.Shrinks (n.setNode (n.unsubscribe b s c).1) := by
  unfold PubSubNode.unsubscribe
  split
  · cases b
    · exact {Shrinks.refl n with downTags := fun t d hd => (Subscriptions.mem_get_discard.mp hd).1}
    · exact {Shrinks.refl n with upTags := fun t d hd => (Subscriptions.mem_get_discard.mp hd).1}
  · exact .refl n

theorem connectionError_shrinks (n : WiredNode C I Q P) (c : C) (b : Bool) :
    n.Shrinks (n.connectionError c b).1 := by
  unfold connectionError
  split
  · exact (unlist_shrinks n c b).trans (forget_shrinks _ c)
  · exact .refl n

theorem hold_shrinks (n : WiredNode C I Q P) (c : C) (m : {m : Message I Q P // isRouted m = true})
    (length : ℕ) :
    n.Shrinks (n.setNode {n.toPubSubNode with toCheckState := n.hold c m length}) := by
  unfold CheckState.hold
  split
  · rename_i p hp
    refine {Shrinks.refl n with pending := fun d hd => ?_}
    by_cases hdc : d = c
    · simp [hdc,hp]
    · simpa [setNode,hdc] using hd
  · refine {Shrinks.refl n with draining := fun d hd => ?_}
    by_cases hdc : d = c
    · subst d
      simpa [setNode] using hd
    · simpa [setNode,hdc] using hd

theorem connectionError_wired (h : n.Wired up) (c : C) (b : Bool) :
    (n.connectionError c b).1.Wired up ∧ ∀ f ∈ (n.connectionError c b).2, f.Directed up := by
  refine ⟨h.shrinks (connectionError_shrinks n c b),?_⟩
  unfold connectionError
  split
  · rename_i hc
    simp [Frame.Directed,h.connections hc]
  · simp

omit [DecidableEq C] in
theorem sends_directed (ds : List (PubSubNode.Send C I Q P)) : ∀ f ∈ sends ds, f.Directed up := by
  intro f hf
  obtain ⟨d,-,rfl⟩ := List.mem_map.mp hf
  trivial

theorem establish_wired (h : n.Wired up) {c : C} (hc : n.made c = false) (hu : up c = true) :
    (n.establish c).1.Wired up := by
  have hne {d : C} (hd : n.made d = true) : d ≠ c := by rintro rfl; simp [hc] at hd
  have hmade {d : C} (hd : n.made d = true) : (n.establish c).1.made d = true := by
    simpa [establish,hne hd] using hd
  have hself : (n.establish c).1.made c = true := by simp [establish]
  refine ⟨fun d hd => ?_,h.downstream,⟨h.directed.upstream,h.directed.downstream⟩,fun d hd => ?_,
    fun d hd => ?_,fun s d hd => hmade (h.tagged s d hd),fun d hd => ?_,fun d hd => ?_⟩
  · rcases List.mem_append.mp hd with hd | hd
    · exact h.upstream d hd
    · exact List.mem_singleton.mp hd ▸ hu
  · rcases CheckState.mem_allConnections.mp hd with hd | hd
    · exact hmade (h.listed d (CheckState.mem_allConnections.mpr (.inl hd)))
    · rcases List.mem_append.mp hd with hd | hd
      · exact hmade (h.listed d (CheckState.mem_allConnections.mpr (.inr hd)))
      · exact List.mem_singleton.mp hd ▸ hself
  · by_cases hdc : d = c
    · exact hdc ▸ hself
    · exact hmade (h.reading d (by simpa [establish,setNode,PubSubNode.establish,hdc] using hd))
  · by_cases hdc : d = c
    · subst d
      refine ⟨hself,hu,?_,fun s hm => hne (h.tagged s c hm) rfl⟩
      by_contra hdr
      exact hne (h.draining c (Option.isSome_iff_ne_none.mpr hdr)).1 rfl
    · obtain ⟨hm,hrest⟩ :=
        h.pending d (by simpa [establish,setNode,PubSubNode.establish,hdc] using hd)
      exact ⟨hmade hm,hrest⟩
  · obtain ⟨hm,hud⟩ := h.draining d hd
    exact ⟨hmade hm,hud⟩

theorem accept_wired (h : n.Wired up) {c : C} (hc : n.made c = false) (hu : up c = false) :
    (n.accept c).1.Wired up := by
  have hne {d : C} (hd : n.made d = true) : d ≠ c := by rintro rfl; simp [hc] at hd
  have hmade {d : C} (hd : n.made d = true) : (n.accept c).1.made d = true := by
    simpa [accept,hne hd] using hd
  have hself : (n.accept c).1.made c = true := by simp [accept]
  refine ⟨h.upstream,fun d hd => ?_,⟨h.directed.upstream,h.directed.downstream⟩,fun d hd => ?_,
    fun d hd => ?_,fun s d hd => hmade (h.tagged s d hd),fun d hd => ?_,fun d hd => ?_⟩
  · rcases List.mem_append.mp hd with hd | hd
    · exact h.downstream d hd
    · exact List.mem_singleton.mp hd ▸ hu
  · rcases CheckState.mem_allConnections.mp hd with hd | hd
    · rcases List.mem_append.mp hd with hd | hd
      · exact hmade (h.listed d (CheckState.mem_allConnections.mpr (.inl hd)))
      · exact List.mem_singleton.mp hd ▸ hself
    · exact hmade (h.listed d (CheckState.mem_allConnections.mpr (.inr hd)))
  · by_cases hdc : d = c
    · exact hdc ▸ hself
    · exact hmade (h.reading d (by simpa [accept,setNode,PubSubNode.accept,hdc] using hd))
  · obtain ⟨hm,hrest⟩ := h.pending d hd
    exact ⟨hmade hm,hrest⟩
  · obtain ⟨hm,hud⟩ := h.draining d hd
    exact ⟨hmade hm,hud⟩

theorem activate_wired (h : n.Wired up) {c : C} {p : PendingConnection I Q P}
    (hp : n.pending c = some p) : (n.activate c p.held).1.Wired up := by
  obtain ⟨hm,hu,-⟩ := h.pending c (by simp [hp])
  refine ⟨h.upstream,h.downstream,⟨h.directed.upstream,h.directed.downstream⟩,h.listed,h.reading,
    h.tagged,fun d hd => ?_,fun d hd => ?_⟩
  · have hdc : d ≠ c := by rintro rfl; simp [activate] at hd
    obtain ⟨hmd,hud,hdn,hs⟩ := h.pending d (by simpa [activate,hdc] using hd)
    exact ⟨hmd,hud,by simpa [activate,hdc] using hdn,hs⟩
  · by_cases hdc : d = c
    · subst d
      exact ⟨hm,hu⟩
    · exact h.draining d (by simpa [activate,hdc] using hd)

variable [DecidableEq I] [DecidableEq Q]

theorem handleMessage_eq (n : WiredNode C I Q P) (c : C) {m : Message I Q P}
    (hm : isRouted m = false) (b : Bool) : ∃ ids pending queries,
      (n.handleMessage c m b).1 =
        {n with peerNodeIds := ids, pending := pending, queries := queries} ∧
      (∀ d, (pending d).map (·.held) = (n.pending d).map (·.held)) ∧
      ∀ d, ids d = n.peerNodeIds d ∨ d = c ∧ ∃ i, m = .hello i := by
  cases m with
  | subscription s b => simp [isRouted] at hm
  | publish s p => simp [isRouted] at hm
  | hello i =>
    refine ⟨_,_,n.queries,rfl,fun d => ?_,fun d => ?_⟩
    · change ((n.handleHello c i).pending d).map (·.held) = _
      unfold CheckState.handleHello
      split
      · rename_i held hp
        by_cases hdc : d = c <;> simp [hdc,hp]
      · rfl
    · by_cases hdc : d = c
      · exact .inr ⟨hdc,i,rfl⟩
      · exact .inl (Function.update_of_ne hdc _ _)
  | query q i =>
    simp only [handleMessage,PubSubNode.handleMessage,PubSubNode.handleQuery]
    split
    · exact ⟨_,_,_,rfl,fun _ => rfl,fun _ => .inl rfl⟩
    · split <;> exact ⟨_,_,_,rfl,fun _ => rfl,fun _ => .inl rfl⟩
  | reply q r =>
    simp only [handleMessage,PubSubNode.handleMessage,CheckState.handleReply]
    split <;> exact ⟨_,_,_,rfl,fun _ => rfl,fun _ => .inl rfl⟩

theorem handleMessage_shrinks (n : WiredNode C I Q P) (c : C) {m : Message I Q P}
    (hm : isRouted m = false) (b : Bool) : n.Shrinks (n.handleMessage c m b).1 := by
  obtain ⟨ids,pending,queries,he,hp,-⟩ := handleMessage_eq n c hm b
  rw [he]
  refine {Shrinks.refl n with pending := fun d hd => ?_}
  have hd' : (pending d).isSome := hd
  rwa [← Option.isSome_map,hp d,Option.isSome_map] at hd'

theorem Wired.process (h : n.Wired up) {c : C} {m : Message I Q P} (hm : isRouted m = true)
    (hmade : n.made c = true) (hp : n.pending c = none) : (n.process c m (up c)).1.Wired up := by
  obtain ⟨hr,-⟩ := PubSubNode.handleMessage_reroutes h.directed (c := c) hm
  have hcheck := hr.routes.check
  have hreading := hr.routes.reading
  change WiredNode.Wired up {n with
    toPubSubNode := (n.toPubSubNode.handleMessage c m (up c)).1, processed := _}
  generalize n.toPubSubNode.handleMessage c m (up c) = r at hr hcheck hreading
  have hpend : r.1.pending = n.pending := congrArg CheckState.pending hcheck
  have hdrain : r.1.draining = n.draining := congrArg CheckState.draining hcheck
  refine ⟨fun d hd => h.upstream d ?_,fun d hd => h.downstream d ?_,
    ⟨hr.directed.upstream,hr.directed.downstream⟩,fun d hd => h.listed d ?_,
    fun d hd => h.reading d (hreading ▸ hd),fun s d hd => ?_,fun d hd => ?_,
    fun d hd => h.draining d (hdrain ▸ hd)⟩
  · exact congrArg CheckState.upstreamConnections hcheck ▸ hd
  · exact congrArg CheckState.downstreamConnections hcheck ▸ hd
  · exact congrArg CheckState.allConnections hcheck ▸ hd
  · by_cases hdc : d = c
    · exact hdc ▸ hmade
    · exact h.tagged s d ((hr.tags s d hdc).mp hd)
  · have hd' : (n.pending d).isSome := hpend ▸ hd
    have hdc : d ≠ c := by rintro rfl; simp [hp] at hd'
    obtain ⟨hmd,hu,hdn,hs⟩ := h.pending d hd'
    exact ⟨hmd,hu,congrFun hdrain d ▸ hdn,fun s hds => hs s ((hr.tags s d hdc).mp hds)⟩

theorem onReceive_wired {cfg : TaskSettings C I Q P} (h : n.Wired cfg.fromUpstream) {c : C}
    (hc : n.reading c = true) (m : Message I Q P) : (n.onReceive cfg c m).1.Wired cfg.fromUpstream ∧
      ∀ f ∈ (n.onReceive cfg c m).2, f.Directed cfg.fromUpstream := by
  unfold onReceive
  split
  · rename_i hm
    let n' : WiredNode C I Q P :=
      {n with received := Function.update n.received c (n.received c++[m])}
    have h' : n'.Wired cfg.fromUpstream := h.shrinks {Shrinks.refl n with}
    split
    · rename_i hheld
      have hp : n.pending c = none := by
        cases hp : n.pending c with
        | none => rfl
        | some p => simp [CheckState.heldMessages,hp] at hheld
      exact ⟨h'.process hm (h.reading c hc) hp,sends_directed _⟩
    · split
      · exact connectionError_wired h' c (cfg.fromUpstream c)
      · exact ⟨h'.shrinks (hold_shrinks n' c ⟨m,hm⟩ (cfg.length m)),by simp⟩
  · rename_i hm
    exact ⟨h.shrinks (handleMessage_shrinks n c (by simpa using hm) _),sends_directed _⟩

theorem exec_wired {cfg : TaskSettings C I Q P} (h : n.Wired up) {f : Frame C I Q P}
    (hf : f.Directed up) : (n.exec cfg f).1.Wired up ∧ ∀ g ∈ (n.exec cfg f).2, g.Directed up := by
  unfold exec
  split
  · rename_i c cs m
    unfold sendNext
    split
    · obtain ⟨hn,hfs⟩ := connectionError_wired h c (c ∈ n.upstreamConnections)
      refine ⟨hn,fun g hg => ?_⟩
      rcases List.mem_append.mp hg with hg | hg
      · exact hfs g hg
      · obtain rfl := List.mem_singleton.mp hg
        trivial
    · exact ⟨h.shrinks {Shrinks.refl n with},by simp [Frame.Directed]⟩
  · rename_i c b s ss
    refine ⟨h.shrinks (unsubscribe_shrinks n c b s),fun g hg => ?_⟩
    rcases List.mem_append.mp hg with hg | hg
    · exact sends_directed _ g hg
    · obtain rfl := List.mem_singleton.mp hg
      exact hf
  · rename_i c
    unfold drainNext
    split
    · rename_i m length ms size hd
      obtain ⟨hm,hu⟩ := h.draining c (by simp [hd])
      have hp : n.pending c = none := by
        by_contra hp
        simpa [hd] using (h.pending c (Option.isSome_iff_ne_none.mpr hp)).2.2.1
      have hpop : n.Shrinks {n with
          draining := Function.update n.draining c (some ⟨ms,size-length⟩)} :=
        draining_shrinks (by rw [hd]; rfl) _
      have hproc := (h.shrinks hpop).process (c := c) m.2 hm hp
      rw [hu] at hproc
      refine ⟨hproc,fun g hg => ?_⟩
      rcases List.mem_append.mp hg with hg | hg
      · exact sends_directed _ g hg
      · obtain rfl := List.mem_singleton.mp hg
        trivial
    · exact ⟨h.shrinks (endDrain_shrinks n c),by simp⟩
  · rename_i c
    exact connectionError_wired (h.shrinks (endDrain_shrinks n c)) c true
  · rename_i c b
    exact ⟨h.shrinks (forget_shrinks n c),by simpa [Frame.Directed] using hf⟩
  all_goals exact ⟨h,by simp⟩

end WiredNode

/-- Every connection made stays made, and is listed again never. -/
structure WiredNode.Keeps (n m : WiredNode C I Q P) : Prop where
  made : ∀ c, n.made c = true → m.made c = true
  listed : ∀ c, n.made c = true → c ∈ m.allConnections → c ∈ n.allConnections

namespace WiredNode

variable {n m l : WiredNode C I Q P}

theorem Shrinks.keeps (h : n.Shrinks m) : n.Keeps m :=
  ⟨fun _ hc => h.made ▸ hc,fun _ _ hc => h.listed hc⟩

theorem Keeps.trans (h : n.Keeps m) (g : m.Keeps l) : n.Keeps l :=
  ⟨fun c hc => g.made c (h.made c hc),fun c hc hl => h.listed c hc (g.listed c (h.made c hc) hl)⟩

/-- No frame of `close_connection` is put on a stack. -/
def Forgetful (fs : List (Frame C I Q P)) : Prop := ∀ c b, Frame.forget c b ∉ fs

theorem sends_forgetful (ds : List (PubSubNode.Send C I Q P)) : Forgetful (sends ds) := by
  simp [Forgetful,sends]

variable [DecidableEq C] [DecidableEq I] [DecidableEq Q]

omit [DecidableEq I] [DecidableEq Q] in
theorem connectionError_keeps (n : WiredNode C I Q P) (c : C) (b : Bool) :
    n.Keeps (n.connectionError c b).1 ∧ Forgetful (n.connectionError c b).2 := by
  refine ⟨(connectionError_shrinks n c b).keeps,?_⟩
  unfold connectionError
  split <;> simp [Forgetful]

theorem process_keeps (n : WiredNode C I Q P) (c : C) {m : Message I Q P} (hm : isRouted m = true)
    (b : Bool) : n.Keeps (n.process c m b).1 ∧ Forgetful (n.process c m b).2 := by
  have hcheck := (PubSubNode.handleMessage_routes n.toPubSubNode c hm b).check
  refine ⟨⟨fun d hd => hd,fun d _ hd => ?_⟩,sends_forgetful _⟩
  exact congrArg CheckState.allConnections hcheck ▸ hd

theorem onReceive_keeps (cfg : TaskSettings C I Q P) (n : WiredNode C I Q P) (c : C)
    (m : Message I Q P) :
    n.Keeps (n.onReceive cfg c m).1 ∧ Forgetful (n.onReceive cfg c m).2 := by
  unfold onReceive
  split
  · rename_i hm
    let n' : WiredNode C I Q P :=
      {n with received := Function.update n.received c (n.received c++[m])}
    have hlog : n.Keeps n' := ⟨fun _ => id,fun _ _ => id⟩
    split
    · have h := process_keeps n' c hm (cfg.fromUpstream c)
      exact ⟨hlog.trans h.1,h.2⟩
    · split
      · have h := connectionError_keeps n' c (cfg.fromUpstream c)
        exact ⟨hlog.trans h.1,h.2⟩
      · exact ⟨hlog.trans (hold_shrinks n' c ⟨m,hm⟩ (cfg.length m)).keeps,by simp [Forgetful]⟩
  · rename_i hm
    exact ⟨(handleMessage_shrinks n c (by simpa using hm) _).keeps,sends_forgetful _⟩

theorem exec_keeps (cfg : TaskSettings C I Q P) (n : WiredNode C I Q P) (f : Frame C I Q P) :
    n.Keeps (n.exec cfg f).1 ∧ Forgetful (n.exec cfg f).2 := by
  have happend {fs gs : List (Frame C I Q P)} (hf : Forgetful fs) (hg : Forgetful gs) :
      Forgetful (fs++gs) := fun c b hm => (List.mem_append.mp hm).elim (hf c b) (hg c b)
  unfold exec
  split
  · rename_i c cs m
    unfold sendNext
    split
    · have h := connectionError_keeps n c (c ∈ n.upstreamConnections)
      exact ⟨h.1,happend h.2 (by simp [Forgetful])⟩
    · exact ⟨⟨fun _ => id,fun _ _ => id⟩,by simp [Forgetful]⟩
  · rename_i c b s ss
    exact ⟨(unsubscribe_shrinks n c b s).keeps,happend (sends_forgetful _) (by simp [Forgetful])⟩
  · rename_i c
    unfold drainNext
    split
    · rename_i m length ms size hd
      have h := process_keeps {n with
        draining := Function.update n.draining c (some ⟨ms,size-length⟩)} c m.2 true
      exact ⟨⟨h.1.made,h.1.listed⟩,happend h.2 (by simp [Forgetful])⟩
    · exact ⟨(endDrain_shrinks n c).keeps,by simp [Forgetful]⟩
  · rename_i c
    have h := connectionError_keeps (n.endDrain c) c true
    exact ⟨(endDrain_shrinks n c).keeps.trans h.1,h.2⟩
  · rename_i c b
    exact ⟨(forget_shrinks n c).keeps,by simp [Forgetful]⟩
  all_goals exact ⟨⟨fun _ => id,fun _ _ => id⟩,by simp [Forgetful]⟩

omit [DecidableEq I] [DecidableEq Q] in
theorem establish_keeps {c : C} (hc : n.made c = false) : n.Keeps (n.establish c).1 := by
  have hne {d : C} (hd : n.made d = true) : d ≠ c := by rintro rfl; simp [hc] at hd
  refine ⟨fun d hd => by simpa [establish,hne hd] using hd,fun d hd hl => ?_⟩
  refine CheckState.mem_allConnections.mpr ((CheckState.mem_allConnections.mp hl).imp_right fun h => ?_)
  exact (List.mem_append.mp h).resolve_right fun h => hne hd (List.mem_singleton.mp h)

omit [DecidableEq I] [DecidableEq Q] in
theorem accept_keeps {c : C} (hc : n.made c = false) : n.Keeps (n.accept c).1 := by
  have hne {d : C} (hd : n.made d = true) : d ≠ c := by rintro rfl; simp [hc] at hd
  refine ⟨fun d hd => by simpa [accept,hne hd] using hd,fun d hd hl => ?_⟩
  refine CheckState.mem_allConnections.mpr ((CheckState.mem_allConnections.mp hl).imp_left fun h => ?_)
  exact (List.mem_append.mp h).resolve_right fun h => hne hd (List.mem_singleton.mp h)

omit [DecidableEq I] [DecidableEq Q] in
theorem Wired.unlisted {up : C → Bool} (h : n.Wired up) {c : C} (hc : c ∈ n.allConnections) :
    c ∉ (n.unlisted c (c ∈ n.upstreamConnections)).1.allConnections := by
  refine h.not_mem_unlist ?_
  rw [← h.direction hc,h.mem_connections]
  exact hc

end WiredNode

namespace NodeTasks

variable {cfg : TaskSettings C I Q P} {s t : NodeTasks C K I Q P} {a : TaskAction C K I Q P}

structure Wired (up : C → Bool) (s : NodeTasks C K I Q P) : Prop where
  node : s.node.Wired up
  frames : ∀ f, s.Has f → f.Directed up
  forgets : ∀ c b, s.Has (.forget c b) → s.node.made c = true ∧ c ∉ s.node.allConnections

theorem init_wired (up : C → Bool) (i : I) : (init i : NodeTasks C K I Q P).Wired up :=
  ⟨WiredNode.new_wired i,by simp [Has,init],by simp [Has,init]⟩

/-- What `close_connection` has left to do stays about a connection that is gone. -/
theorem Wired.forgets_of_keeps {up : C → Bool} (hs : s.Wired up) (hk : s.node.Keeps t.node)
    {c : C} {b : Bool} (h : s.Has (.forget c b)) :
    t.node.made c = true ∧ c ∉ t.node.allConnections := by
  obtain ⟨hm,hl⟩ := hs.forgets c b h
  exact ⟨hk.made c hm,fun hc => hl (hk.listed c hm hc)⟩

theorem Pauses.wired {up : C → Bool} {lost : List (Frame C I Q P)} (h : s.Pauses lost t)
    (hs : s.Wired up) : t.Wired up := by
  refine ⟨hs.node.shrinks h.rests.shrinks,fun f hf => ?_,fun c b hf =>
    hs.forgets_of_keeps h.rests.shrinks.keeps (h.old _ rfl hf)⟩
  cases f with
  | drop c b ss => exact hs.frames _ (h.old _ rfl hf)
  | forget c b => exact hs.frames _ (h.old _ rfl hf)
  | _ => trivial

variable [DecidableEq C] [DecidableEq K] [DecidableEq I] [DecidableEq Q]

omit [DecidableEq K] in
theorem Work.wired {out : Option (Frame C I Q P)} {r : WiredNode C I Q P × List (Frame C I Q P)}
    (h : s.Work cfg a out r) (hs : s.Wired cfg.fromUpstream) (hout : ∀ f, out = some f → s.Has f) :
    r.1.Wired cfg.fromUpstream ∧ ∀ f ∈ r.2, f.Directed cfg.fromUpstream := by
  have hn := hs.node
  cases h with
  | establish c hm hu => exact ⟨WiredNode.establish_wired hn hm hu,WiredNode.sends_directed _⟩
  | accept c hm hu => exact ⟨WiredNode.accept_wired hn hm hu,WiredNode.sends_directed _⟩
  | receive c m hr => exact WiredNode.onReceive_wired hn hr m
  | loopFailed c hr =>
    exact WiredNode.connectionError_wired (hn.shrinks (WiredNode.Rests.endLoop s.node c).shrinks) c _
  | sendFailed c => exact WiredNode.connectionError_wired hn c _
  | activate c p hp hv =>
    refine ⟨WiredNode.activate_wired hn hp,fun f hf => ?_⟩
    rcases List.mem_append.mp hf with hf | hf
    · exact WiredNode.sends_directed _ f hf
    · obtain rfl := List.mem_singleton.mp hf
      trivial
  | abandon c hu hv =>
    refine WiredNode.connectionError_wired ?_ c true
    exact hn.shrinks {WiredNode.Shrinks.refl s.node with}
  | closeConnection k c hc =>
    refine ⟨hn.shrinks (WiredNode.unlist_shrinks s.node c _),?_⟩
    simp [WiredNode.unlisted,Frame.Directed,hn.direction hc]
  | send k ts m hm => exact ⟨hn,by simp [Frame.Directed]⟩
  | exec f _ => exact WiredNode.exec_wired hn (hs.frames f (hout f rfl))

omit [DecidableEq K] in
/-- Only `close_connection` leaves something for itself to do. -/
theorem Work.keeps {out : Option (Frame C I Q P)} {r : WiredNode C I Q P × List (Frame C I Q P)}
    (h : s.Work cfg a out r) (hs : s.Wired cfg.fromUpstream) : s.node.Keeps r.1 ∧
      ∀ c b, .forget c b ∈ r.2 → r.1.made c = true ∧ c ∉ r.1.allConnections := by
  have forgetful {n : WiredNode C I Q P} {fs : List (Frame C I Q P)}
      (h : s.node.Keeps n ∧ WiredNode.Forgetful fs) : s.node.Keeps n ∧
        ∀ c b, .forget c b ∈ fs → n.made c = true ∧ c ∉ n.allConnections :=
    ⟨h.1,fun c b hm => absurd hm (h.2 c b)⟩
  cases h with
  | establish c hm hu =>
    exact forgetful ⟨WiredNode.establish_keeps hm,WiredNode.sends_forgetful _⟩
  | accept c hm hu => exact forgetful ⟨WiredNode.accept_keeps hm,WiredNode.sends_forgetful _⟩
  | receive c m hr => exact forgetful (WiredNode.onReceive_keeps cfg s.node c m)
  | loopFailed c hr =>
    have h := WiredNode.connectionError_keeps (s.node.setNode (s.node.endLoop c)) c (cfg.fromUpstream c)
    exact forgetful ⟨(WiredNode.Rests.endLoop s.node c).shrinks.keeps.trans h.1,h.2⟩
  | sendFailed c => exact forgetful (WiredNode.connectionError_keeps s.node c _)
  | activate c p hp hv =>
    refine forgetful ⟨⟨fun _ => id,fun _ _ => id⟩,?_⟩
    simp [WiredNode.activate,WiredNode.Forgetful,WiredNode.sends]
  | abandon c hu hv =>
    let n : WiredNode C I Q P :=
      {s.node with verdict := Function.update s.node.verdict c (some false)}
    have h := WiredNode.connectionError_keeps n c true
    exact forgetful ⟨⟨h.1.made,h.1.listed⟩,h.2⟩
  | closeConnection k c hc =>
    refine ⟨(WiredNode.unlist_shrinks s.node c _).keeps,fun d b hm => ?_⟩
    obtain ⟨rfl,-⟩ : d = c ∧ b = _ := by simpa [WiredNode.unlisted] using hm
    exact ⟨hs.node.listed d hc,hs.node.unlisted hc⟩
  | send k ts m hm => exact forgetful ⟨⟨fun _ => id,fun _ _ => id⟩,by simp [WiredNode.Forgetful]⟩
  | exec f _ => exact forgetful (WiredNode.exec_keeps cfg s.node f)

theorem step_wired (h : step cfg s a = some t) (hs : s.Wired cfg.fromUpstream) :
    t.Wired cfg.fromUpstream := by
  rcases step_cases h with h | ⟨out,r,hw,hn,hf⟩
  · exact h.wired hs
  · obtain ⟨hr,hput⟩ := hw.wired hs hf.out
    obtain ⟨hk,hnew⟩ := hw.keeps hs
    refine ⟨hn ▸ hr,fun f hft => (hf.old f hft).elim (hs.frames f) (hput f),fun c b hft => ?_⟩
    rcases hf.old _ hft with hold | hm
    · exact hs.forgets_of_keeps (hn ▸ hk) hold
    · exact hn ▸ hnew c b hm

end NodeTasks
end SoftwareBus
