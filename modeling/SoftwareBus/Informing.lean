import SoftwareBus.NodeTaskInvariant

/-! What a node last tells its neighbours about a subject while its handlers take turns:
what is true, or what some handler has still to say. -/
namespace SoftwareBus

open Transition Interest Message

variable {C K I Q P : Type}

def Frame.Says (c : C) (s : Str) (b : Bool) : Frame C I Q P → Prop
  | .send ts m => c ∈ ts ∧ about s m = some b
  | _ => False

def Frame.Puts (fs : List (Frame C I Q P)) (c : C) (s : Str) (b : Bool) : Prop :=
  ∃ f ∈ fs, f.Says c s b

theorem Frame.puts_append {fs gs : List (Frame C I Q P)} {c : C} {s : Str} {b : Bool} :
    Frame.Puts (fs++gs) c s b ↔ Frame.Puts fs c s b ∨ Frame.Puts gs c s b := by
  simp [Frame.Puts,or_and_right,exists_or]

theorem Frame.puts_singleton {f : Frame C I Q P} {c : C} {s : Str} {b : Bool} :
    Frame.Puts [f] c s b ↔ f.Says c s b := by
  simp [Frame.Puts]

theorem Frame.not_puts {fs : List (Frame C I Q P)} (h : ∀ f ∈ fs, ∀ ts x, f ≠ .send ts x) (c : C)
    (s : Str) (b : Bool) : ¬Frame.Puts fs c s b := by
  rintro ⟨f,hf,hs⟩
  cases f with
  | send ts x => exact h _ hf ts x rfl
  | _ => exact hs

namespace PubSubNode

variable [DecidableEq C] {up : C → Bool} {n : PubSubNode C I Q P} {c : C}
  {r : PubSubNode C I Q P × List (Send C I Q P)}

/-- A handler that makes one `_send_to` call at most tells a neighbour what has changed for it. -/
theorem Reroutes.told_once (hr : Reroutes up c n r) (hone : r.2 = [] ∨ ∃ d, r.2 = [d]) {m : C}
    (hm : m ∈ n.active n.allConnections) (s : Str) :
    (∀ d ∈ r.2, ∀ b, m ∈ d.1 → about s d.2 = some b → b = r.1.wants m s) ∧
      (r.1.wants m s = n.wants m s ∨ ∃ d ∈ r.2, m ∈ d.1 ∧ about s d.2 = some (r.1.wants m s)) := by
  have htold := hr.told m hm s
  rcases hone with hnil | ⟨⟨ts,l⟩,hd⟩
  · rw [hnil] at htold ⊢
    exact ⟨by simp,.inl htold.symm⟩
  · rw [hd] at htold ⊢
    rw [lastSaid_queuedOn_cons,queuedOn_nil,lastSaid_nil] at htold
    by_cases hts : m ∈ ts
    · rw [if_pos hts] at htold
      cases ha : about s l with
      | none => exact ⟨by simp [ha],.inl (by simpa [ha] using htold.symm)⟩
      | some b =>
        have hb : b = r.1.wants m s := by simpa [ha] using htold
        exact ⟨by simp [ha,hb],.inr ⟨_,List.mem_singleton_self _,hts,by rw [← hb]; exact ha⟩⟩
    · rw [if_neg hts] at htold
      exact ⟨by simp [hts],.inl htold.symm⟩

/-- It tells nobody but its neighbours, and those that are tagged. -/
theorem Reroutes.told_only (hr : Reroutes up c n r) (hone : r.2 = [] ∨ ∃ d, r.2 = [d])
    {d : Send C I Q P} (hd : d ∈ r.2) {m : C} (hm : m ∈ d.1) {s : Str} {b : Bool}
    (hb : about s d.2 = some b) :
    m ∈ n.active n.allConnections ∨ (∃ t, m ∈ n.subscribers t) ∨ m = c := by
  by_contra hno
  simp only [not_or,not_exists] at hno
  have hsilent := hr.silent m hno.1 hno.2.1 hno.2.2 s (!b)
  obtain ⟨e,he⟩ : ∃ e, r.2 = [e] := hone.resolve_left (List.ne_nil_of_mem hd)
  rw [he] at hsilent hd
  obtain rfl := List.mem_singleton.mp hd
  obtain ⟨ts,l⟩ := d
  rw [lastSaid_queuedOn_cons,queuedOn_nil,lastSaid_nil,if_pos hm,hb] at hsilent
  simp at hsilent

theorem unsubscribe_once (n : PubSubNode C I Q P) (up : Bool) (s : Str) (c : C) :
    (n.unsubscribe up s c).2 = [] ∨ ∃ d, (n.unsubscribe up s c).2 = [d] := by
  unfold unsubscribe
  split
  · dsimp only
    split
    · exact .inr ⟨_,rfl⟩
    · exact .inr ⟨_,rfl⟩
    · exact .inl rfl
  · exact .inl rfl

theorem handleMessage_once [DecidableEq I] [DecidableEq Q] (n : PubSubNode C I Q P) (c : C)
    {m : Message I Q P} (hm : isRouted m = true) (up : Bool) :
    (n.handleMessage c m up).2 = [] ∨ ∃ d, (n.handleMessage c m up).2 = [d] := by
  cases m with
  | subscription s b =>
    cases b
    · exact unsubscribe_once n up s c
    · exact .inr ⟨_,rfl⟩
  | publish s p => exact .inr ⟨_,rfl⟩
  | hello i => simp [isRouted] at hm
  | query q i => simp [isRouted] at hm
  | reply q r => simp [isRouted] at hm

theorem handleMessage_silent [DecidableEq I] [DecidableEq Q] (n : PubSubNode C I Q P) (c : C)
    {m : Message I Q P} (hm : isRouted m = false) (up : Bool) :
    ∀ d ∈ (n.handleMessage c m up).2, ∀ s, about s d.2 = none := by
  cases m with
  | subscription s b => simp [isRouted] at hm
  | publish s p => simp [isRouted] at hm
  | hello i => simp [handleMessage]
  | reply q r => simp [handleMessage]
  | query q i =>
    simp only [handleMessage,handleQuery]
    split
    · simp [about]
    · split <;> simp [about]

/-- The subscribers of a subject once a connection is, or is not, one of them. -/
def retagged (n : PubSubNode C I Q P) (s : Str) (c : C) (subscribe : Bool) : List C :=
  if subscribe then c::n.subscribers s else (n.subscribers s).filter (· ≠ c)

theorem Reroutes.wants_retagged (hr : Reroutes up c n r) {s : Str} {b : Bool}
    (htag : ∀ t, c ∈ r.1.subscribers t ↔ if t = s then b = true else c ∈ n.subscribers t)
    (m : C) (t : Str) :
    r.1.wants m t = if t = s then others (n.retagged s c b) m else n.wants m t := by
  split
  · rename_i hts
    subst t
    refine others_congr m fun d _ => ?_
    by_cases hdc : d = c
    · subst d
      rw [htag,if_pos rfl]
      cases b <;> simp [retagged]
    · rw [hr.tags s d hdc]
      cases b <;> simp [retagged,hdc]
  · rename_i hts
    refine others_congr m fun d _ => ?_
    by_cases hdc : d = c
    · subst d
      rw [htag,if_neg hts]
    · exact hr.tags t d hdc

end PubSubNode

namespace WiredNode

/-- What every active neighbour has been told, given what is waiting to be said to it. -/
structure Told [DecidableEq C] (W : C → Str → Bool → Prop) (n : WiredNode C I Q P) : Prop where
  agree : ∀ m ∈ n.allConnections, n.pending m = none → ∀ s b, W m s b → b = n.wants m s
  said : ∀ m ∈ n.allConnections, n.pending m = none → ∀ s,
    lastSaid false s (n.queued m) = n.wants m s ∨ W m s (n.wants m s)
  targets : ∀ m s b, W m s b → n.made m = true ∧ n.pending m = none

/-- A step that says nothing, changes no tag and makes no connection active. -/
structure Mute (n l : WiredNode C I Q P) : Prop where
  tags : ∀ s, l.subscribers s = n.subscribers s
  queued : l.queued = n.queued
  active : ∀ m ∈ l.allConnections, l.pending m = none → m ∈ n.allConnections ∧ n.pending m = none
  targets : ∀ m, n.made m = true → n.pending m = none → l.made m = true ∧ l.pending m = none

variable {up : C → Bool} {n l k : WiredNode C I Q P} {W W' : C → Str → Bool → Prop}

theorem Mute.trans (h : n.Mute l) (g : l.Mute k) : n.Mute k := by
  refine ⟨fun s => (g.tags s).trans (h.tags s),g.queued.trans h.queued,fun m hm hp => ?_,
    fun m hm hp => ?_⟩
  · obtain ⟨hm,hp⟩ := g.active m hm hp
    exact h.active m hm hp
  · obtain ⟨hm,hp⟩ := h.targets m hm hp
    exact g.targets m hm hp

theorem Mute.of_shrinks (h : n.Shrinks l) (ht : ∀ s, l.subscribers s = n.subscribers s)
    (hq : l.queued = n.queued)
    (hp : ∀ m ∈ l.allConnections, l.pending m = none → n.pending m = none) : n.Mute l := by
  refine ⟨ht,hq,fun m hm hpm => ⟨h.listed hm,hp m hm hpm⟩,fun m hm hpm => ⟨h.made ▸ hm,?_⟩⟩
  by_contra hne
  simpa [hpm] using h.pending m (Option.isSome_iff_ne_none.mpr hne)

theorem Mute.refl (n : WiredNode C I Q P) : n.Mute n :=
  .of_shrinks (.refl n) (fun _ => rfl) rfl fun _ _ => id

theorem Rests.mute (h : n.Rests l) : n.Mute l := by
  refine .of_shrinks h.shrinks (fun s => ?_) h.queued fun m _ hp => h.pending ▸ hp
  rw [PubSubNode.subscribers,h.downstreamSubscriptions,h.upstreamSubscriptions]
  rfl

variable [DecidableEq C] {c : C}

theorem new_told (i : I) (hW : ∀ m s b, ¬W m s b) : (WiredNode.new i : WiredNode C I Q P).Told W :=
  ⟨fun m _ _ s b hw => absurd hw (hW m s b),
    by simp [new,PubSubNode.new,CheckState.allConnections],fun m s b hw => absurd hw (hW m s b)⟩

theorem Told.mute (h : n.Told W) (hl : n.Mute l) (hold : ∀ m s b, W' m s b → W m s b)
    (hleft : ∀ m ∈ l.allConnections, l.pending m = none → ∀ s b, W m s b → W' m s b) :
    l.Told W' := by
  have hwants (m : C) (s : Str) : l.wants m s = n.wants m s := by
    rw [PubSubNode.wants,hl.tags]
    rfl
  refine ⟨fun m hm hp s b hw => ?_,fun m hm hp s => ?_,fun m s b hw => ?_⟩
  · obtain ⟨hm',hp'⟩ := hl.active m hm hp
    rw [hwants]
    exact h.agree m hm' hp' s b (hold m s b hw)
  · obtain ⟨hm',hp'⟩ := hl.active m hm hp
    rw [hwants,hl.queued]
    exact (h.said m hm' hp' s).imp_right (hleft m hm hp s _)
  · obtain ⟨hmade,hpend⟩ := h.targets m s b (hold m s b hw)
    exact hl.targets m hmade hpend

theorem unlist_mute (n : WiredNode C I Q P) (c : C) (b : Bool) :
    n.Mute (n.setNode {n.toPubSubNode with toCheckState := n.unlist c b}) := by
  refine .of_shrinks (unlist_shrinks n c b) (fun _ => rfl) rfl fun m _ hp => ?_
  simpa [setNode] using hp

theorem forget_mute (n : WiredNode C I Q P) (hc : c ∉ n.allConnections) :
    n.Mute (n.setNode {n.toPubSubNode with toCheckState := n.forgetConnection c}) := by
  refine .of_shrinks (forget_shrinks n c) (fun _ => rfl) rfl fun m hm hp => ?_
  have hmc : m ≠ c := by rintro rfl; exact hc hm
  simpa [setNode,CheckState.forgetConnection,hmc] using hp

theorem connectionError_mute (hw : n.Wired up) (c : C) (b : Bool) :
    n.Mute (n.connectionError c b).1 := by
  unfold connectionError
  split
  · rename_i hc
    exact (unlist_mute n c b).trans (forget_mute _ (hw.not_mem_unlist hc))
  · exact .refl n

theorem endDrain_mute (n : WiredNode C I Q P) (c : C) : n.Mute (n.endDrain c) :=
  .of_shrinks (endDrain_shrinks n c) (fun _ => rfl) rfl fun _ _ => id

theorem hold_mute (n : WiredNode C I Q P) (c : C) (m : {m : Message I Q P // isRouted m = true})
    (length : ℕ) : n.Mute (n.setNode {n.toPubSubNode with toCheckState := n.hold c m length}) := by
  have hs := hold_shrinks n c m length
  refine .of_shrinks hs (fun _ => rfl) rfl fun d _ hp => ?_
  revert hp
  unfold CheckState.hold
  split
  · by_cases hdc : d = c <;> simp [setNode,hdc]
  · exact id

theorem establish_mute (hc : n.made c = false) : n.Mute (n.establish c).1 := by
  have hlist : (n.establish c).1.allConnections = n.allConnections++[c] := by
    simp [establish,setNode,PubSubNode.establish,CheckState.allConnections]
  refine ⟨fun _ => rfl,rfl,fun m hm hp => ?_,fun m hm hp => ?_⟩
  · have hmc : m ≠ c := by rintro rfl; simp [establish,setNode,PubSubNode.establish] at hp
    refine ⟨by simpa [hlist,hmc] using hm,?_⟩
    simpa [establish,setNode,PubSubNode.establish,hmc] using hp
  · have hmc : m ≠ c := by rintro rfl; simp [hc] at hm
    simpa [establish,setNode,PubSubNode.establish,hmc] using ⟨hm,hp⟩

theorem handleMessage_mute [DecidableEq I] [DecidableEq Q] (n : WiredNode C I Q P) (c : C)
    {m : Message I Q P} (hm : isRouted m = false) (b : Bool) : n.Mute (n.handleMessage c m b).1 := by
  have hs := handleMessage_shrinks n c hm b
  obtain ⟨ids,pending,queries,he,hp,-⟩ := handleMessage_eq n c hm b
  rw [he] at hs ⊢
  refine .of_shrinks hs (fun _ => rfl) rfl fun d _ hd => ?_
  have hd' : pending d = none := hd
  simpa [hd'] using (hp d).symm

/-- A handler sets a tag and tells the neighbours. -/
theorem Told.reroutes {r : PubSubNode C I Q P × List (PubSubNode.Send C I Q P)} {c : C}
    (hw : n.Wired up) (h : n.Told W) (hr : PubSubNode.Reroutes up c n.toPubSubNode r)
    (hone : r.2 = [] ∨ ∃ d, r.2 = [d]) (hc : r.2 ≠ [] → n.made c = true ∧ n.pending c = none)
    (hl : l.toPubSubNode = r.1 ∧ l.made = n.made ∧ l.queued = n.queued)
    (hcond : ∀ m ∈ n.allConnections, n.pending m = none → ∀ s b, W m s b →
      r.1.wants m s = n.wants m s)
    (hold : ∀ m s b, W' m s b → W m s b ∨ ∃ d ∈ r.2, m ∈ d.1 ∧ about s d.2 = some b)
    (hleft : ∀ m s b, W m s b → W' m s b)
    (hput : ∀ d ∈ r.2, ∀ m ∈ d.1, ∀ s b, about s d.2 = some b → W' m s b) : l.Told W' := by
  have hcheck : l.toCheckState = n.toCheckState := by rw [hl.1,hr.routes.check]
  have hwants (m : C) (s : Str) : l.wants m s = r.1.wants m s := by rw [hl.1]
  have hpend : l.pending = n.pending := congrArg CheckState.pending hcheck
  have hlist : l.allConnections = n.allConnections := congrArg CheckState.allConnections hcheck
  refine ⟨fun m hm hp s b hwait => ?_,fun m hm hp s => ?_,fun m s b hwait => ?_⟩
  · rw [hlist] at hm
    rw [hpend] at hp
    rw [hwants]
    rcases hold m s b hwait with hwait | ⟨d,hd,hmd,hb⟩
    · rw [hcond m hm hp s b hwait]
      exact h.agree m hm hp s b hwait
    · exact (hr.told_once hone (PubSubNode.mem_active.mpr ⟨hm,hp⟩) s).1 d hd b hmd hb
  · rw [hlist] at hm
    rw [hpend] at hp
    rw [hwants,hl.2.2]
    rcases (hr.told_once hone (PubSubNode.mem_active.mpr ⟨hm,hp⟩) s).2 with hsame | ⟨d,hd,hmd,hb⟩
    · rw [hsame]
      exact (h.said m hm hp s).imp_right (hleft m s _)
    · exact .inr (hput d hd m hmd s _ hb)
  · rw [hl.2.1,hpend]
    rcases hold m s b hwait with hwait | ⟨d,hd,hmd,hb⟩
    · exact h.targets m s b hwait
    · rcases hr.told_only hone hd hmd hb with ha | ⟨t,ht⟩ | rfl
      · obtain ⟨hm,hp⟩ := PubSubNode.mem_active.mp ha
        exact ⟨hw.listed m hm,hp⟩
      · refine ⟨hw.tagged t m ht,?_⟩
        by_contra hp
        exact (hw.pending m (Option.isSome_iff_ne_none.mpr hp)).2.2.2 t ht
      · exact hc (List.ne_nil_of_mem hd)

theorem Told.enqueue (h : n.Told W) {c : C} {x : Message I Q P}
    (hsay : ∀ s b, about s x = some b → W c s b) (hold : ∀ m s b, W' m s b → W m s b)
    (hleft : ∀ m s b, W m s b → W' m s b ∨ m = c ∧ about s x = some b) :
    (n.enqueue c x).Told W' := by
  refine ⟨fun m hm hp s b hw => h.agree m hm hp s b (hold m s b hw),fun m hm hp s => ?_,
    fun m s b hw => h.targets m s b (hold m s b hw)⟩
  change lastSaid false s (Function.update n.queued c (n.queued c++[x]) m) = n.wants m s ∨
    W' m s (n.wants m s)
  by_cases hmc : m = c
  · subst m
    rw [Function.update_self,lastSaid_append,lastSaid_cons,lastSaid_nil]
    cases ha : about s x with
    | some b => exact .inl (h.agree c hm hp s b (hsay s b ha))
    | none => exact (h.said c hm hp s).imp id fun hw => (hleft c s _ hw).resolve_right (by simp [ha])
  · rw [Function.update_of_ne hmc]
    exact (h.said m hm hp s).imp id fun hw => (hleft m s _ hw).resolve_right fun he => hmc he.1

structure Joins (c : C) (n l : WiredNode C I Q P) : Prop where
  tags : ∀ s, l.subscribers s = n.subscribers s
  queued : l.queued = Function.update n.queued c []
  active : ∀ m, m ≠ c → m ∈ l.allConnections → l.pending m = none →
    m ∈ n.allConnections ∧ n.pending m = none
  targets : ∀ m, n.made m = true → n.pending m = none →
    m ≠ c ∧ l.made m = true ∧ l.pending m = none
  untagged : ∀ s, c ∉ n.subscribers s
  joined : l.made c = true ∧ l.pending c = none

theorem Told.joins {c : C} (h : n.Told W) (hl : n.Joins c l)
    (hold : ∀ m s b, W' m s b → W m s b ∨ m = c ∧ b = true ∧ n.subscribers s ≠ [])
    (hleft : ∀ m s b, W m s b → W' m s b) (hput : ∀ s, n.subscribers s ≠ [] → W' c s true) :
    l.Told W' := by
  have hwants (m : C) (s : Str) : l.wants m s = n.wants m s := by
    rw [PubSubNode.wants,hl.tags]
    rfl
  have hself (s : Str) : n.wants c s = decide (n.subscribers s ≠ []) :=
    others_of_not_mem (hl.untagged s)
  refine ⟨fun m hm hp s b hw => ?_,fun m hm hp s => ?_,fun m s b hw => ?_⟩
  · rw [hwants]
    rcases hold m s b hw with hw | ⟨rfl,rfl,hs⟩
    · obtain ⟨hmade,hpend⟩ := h.targets m s b hw
      obtain ⟨hm',hp'⟩ := hl.active m (hl.targets m hmade hpend).1 hm hp
      exact h.agree m hm' hp' s b hw
    · simp [hself,hs]
  · rw [hwants,hl.queued]
    by_cases hmc : m = c
    · subst m
      rw [Function.update_self,lastSaid_nil,hself]
      by_cases hs : n.subscribers s = []
      · simp [hs]
      · exact .inr (by simpa [hs] using hput s hs)
    · obtain ⟨hm',hp'⟩ := hl.active m hmc hm hp
      rw [Function.update_of_ne hmc]
      exact (h.said m hm' hp' s).imp_right (hleft m s _)
  · rcases hold m s b hw with hw | ⟨rfl,-⟩
    · obtain ⟨hmade,hpend⟩ := h.targets m s b hw
      exact (hl.targets m hmade hpend).2
    · exact hl.joined

theorem activate_joins (hw : n.Wired up) {c : C} {p : PendingConnection I Q P}
    (hp : n.pending c = some p) : n.Joins c (n.activate c p.held).1 := by
  obtain ⟨hmade,-,-,hs⟩ := hw.pending c (by simp [hp])
  refine ⟨fun _ => rfl,rfl,fun m hmc hm hpm => ⟨hm,?_⟩,fun m hm hpm => ?_,hs,hmade,
    by simp [activate]⟩
  · simpa [activate,hmc] using hpm
  · have hmc : m ≠ c := by rintro rfl; simp [hp] at hpm
    exact ⟨hmc,hm,by simpa [activate,hmc] using hpm⟩

theorem accept_joins (hw : n.Wired up) {c : C} (hc : n.made c = false) :
    n.Joins c (n.accept c).1 := by
  have hne {d : C} (hd : n.made d = true) : d ≠ c := by rintro rfl; simp [hc] at hd
  refine ⟨fun _ => rfl,rfl,fun m hmc hm hpm => ⟨?_,hpm⟩,fun m hm hpm => ⟨hne hm,?_,hpm⟩,
    fun s hs => hne (hw.tagged s c hs) rfl,by simp [accept],?_⟩
  · rw [CheckState.mem_allConnections] at hm ⊢
    refine hm.imp_left fun h => (List.mem_append.mp h).resolve_right fun h => ?_
    exact hmc (List.mem_singleton.mp h)
  · simpa [accept,hne hm] using hm
  · change n.pending c = none
    by_contra hp
    exact hne (hw.pending c (Option.isSome_iff_ne_none.mpr hp)).1 rfl

omit [DecidableEq C] in
theorem puts_sends (ds : List (PubSubNode.Send C I Q P)) {m : C} {s : Str} {b : Bool} :
    Frame.Puts (sends ds) m s b ↔ ∃ d ∈ ds, m ∈ d.1 ∧ about s d.2 = some b := by
  constructor
  · rintro ⟨f,hf,hs⟩
    obtain ⟨d,hd,rfl⟩ := List.mem_map.mp hf
    exact ⟨d,hd,hs⟩
  · rintro ⟨d,hd,hs⟩
    exact ⟨_,List.mem_map_of_mem hd,hs⟩

omit [DecidableEq C] in
theorem puts_sendSubscriptions (p : PubSubNode C I Q P) {c m : C} {s : Str} {b : Bool} :
    Frame.Puts (sends (p.sendSubscriptions c)) m s b ↔ m = c ∧ b = true ∧ p.subscribers s ≠ [] := by
  rw [puts_sends]
  constructor
  · rintro ⟨d,hd,hm,hb⟩
    obtain ⟨t,ht,rfl⟩ := List.mem_map.mp hd
    obtain ⟨rfl,hv⟩ : t = s ∧ true = b := by simpa [about] using hb
    refine ⟨List.mem_singleton.mp hm,hv.symm,?_⟩
    simpa [PubSubNode.subscribers,Subscriptions.mem_subjects,← not_and_or] using ht
  · rintro ⟨rfl,rfl,hs⟩
    refine ⟨([m],.subscription s true),List.mem_map.mpr ⟨s,?_,rfl⟩,by simp,by simp [about]⟩
    simpa [PubSubNode.subscribers,Subscriptions.mem_subjects,← not_and_or] using hs

theorem puts_accept (n : WiredNode C I Q P) {c m : C} {s : Str} {b : Bool} :
    Frame.Puts (n.accept c).2 m s b ↔ m = c ∧ b = true ∧ n.subscribers s ≠ [] := by
  have hhello : Frame.Puts (n.accept c).2 m s b ↔ Frame.Puts (sends
      ((n.toPubSubNode.accept c).1.sendSubscriptions c)) m s b := by
    simp [puts_sends,accept,PubSubNode.accept,about]
  rw [hhello,puts_sendSubscriptions]
  exact Iff.rfl

theorem puts_activate (n : WiredNode C I Q P) {c m : C} (held : HeldMessages I Q P) {s : Str}
    {b : Bool} :
    Frame.Puts (n.activate c held).2 m s b ↔ m = c ∧ b = true ∧ n.subscribers s ≠ [] := by
  rw [← puts_sendSubscriptions n.toPubSubNode]
  refine Frame.puts_append.trans (or_iff_left ?_)
  exact Frame.not_puts (by simp) m s b

theorem connectionError_silent (n : WiredNode C I Q P) (c : C) (b : Bool) (m : C) (s : Str)
    (v : Bool) : ¬Frame.Puts (n.connectionError c b).2 m s v := by
  refine Frame.not_puts ?_ m s v
  unfold connectionError
  split <;> simp

/-- What a handler of `c` is about to change: the tag of a connection under a subject. -/
def tag (c : C) : Message I Q P → Option (C × Str × Bool)
  | .subscription s b => some (c,s,b)
  | _ => none

/-- A change of a tag, and for whom it changes whether another connection is tagged. -/
def Spares (W : C → Str → Bool → Prop) (n : WiredNode C I Q P) : Option (C × Str × Bool) → Prop
  | some (c,s,v) => ∀ m ∈ n.allConnections, n.pending m = none → ∀ b, W m s b →
    others (n.retagged s c v) m = n.wants m s
  | none => True

variable [DecidableEq I] [DecidableEq Q]

theorem process_told (hw : n.Wired up) (h : n.Told W) {c : C} (hc : n.made c = true)
    (hp : n.pending c = none) {x : Message I Q P} (hx : isRouted x = true)
    (hcond : n.Spares W (tag c x))
    (hold : ∀ m s b, W' m s b → W m s b ∨ Frame.Puts (n.process c x (up c)).2 m s b)
    (hleft : ∀ m s b, W m s b → W' m s b)
    (hput : ∀ m s b, Frame.Puts (n.process c x (up c)).2 m s b → W' m s b) :
    (n.process c x (up c)).1.Told W' := by
  obtain ⟨hr,-⟩ := PubSubNode.handleMessage_reroutes hw.directed (c := c) hx
  have hwants : ∀ m ∈ n.allConnections, n.pending m = none → ∀ s b, W m s b →
      (n.toPubSubNode.handleMessage c x (up c)).1.wants m s = n.wants m s := by
    intro m hm hpm s b hwait
    cases x with
    | subscription t v =>
      rw [hr.wants_retagged fun u => PubSubNode.handleSubscription_tag hw.directed t u v c]
      split
      · rename_i hst
        exact hst ▸ hcond m hm hpm b (hst ▸ hwait)
      · rfl
    | publish t y => rfl
    | hello i => simp [isRouted] at hx
    | query q i => simp [isRouted] at hx
    | reply q r => simp [isRouted] at hx
  refine h.reroutes hw hr (PubSubNode.handleMessage_once _ c hx _) (fun _ => ⟨hc,hp⟩) ⟨rfl,rfl,rfl⟩ hwants
    (fun m s b hwait => (hold m s b hwait).imp_right (puts_sends _).mp) hleft ?_
  intro d hd m hm s b hb
  exact hput m s b ((puts_sends _).mpr ⟨d,hd,hm,hb⟩)

theorem onReceive_told {cfg : TaskSettings C I Q P} (hw : n.Wired cfg.fromUpstream) (h : n.Told W)
    {c : C} (hc : n.reading c = true) (x : Message I Q P)
    (hcond : n.heldMessages c = none → n.Spares W (tag c x))
    (hold : ∀ m s b, W' m s b → W m s b ∨ Frame.Puts (n.onReceive cfg c x).2 m s b)
    (hleft : ∀ m s b, W m s b → W' m s b)
    (hput : ∀ m s b, Frame.Puts (n.onReceive cfg c x).2 m s b → W' m s b) :
    (n.onReceive cfg c x).1.Told W' := by
  have hmade := hw.reading c hc
  unfold onReceive at hold hput ⊢
  split
  · rename_i hx
    rw [dif_pos hx] at hold hput
    let n' : WiredNode C I Q P :=
      {n with received := Function.update n.received c (n.received c++[x])}
    have hw' : n'.Wired cfg.fromUpstream := hw.shrinks {Shrinks.refl n with}
    have h' : n'.Told W := ⟨h.agree,h.said,h.targets⟩
    split
    · rename_i hheld
      rw [hheld] at hold hput
      have hp : n.pending c = none := by
        cases hp : n.pending c with
        | none => rfl
        | some p => simp [CheckState.heldMessages,hp] at hheld
      have hcond' : n'.Spares W (tag c x) := by
        have hcond := hcond hheld
        cases x <;> exact hcond
      exact process_told hw' h' hmade hp hx hcond' hold hleft hput
    · rename_i held hheld
      rw [hheld] at hold hput
      dsimp only at hold hput ⊢
      split
      · rename_i hover
        rw [if_pos hover] at hold
        refine h'.mute (connectionError_mute hw' c _) (fun m s b hwait => ?_) fun m _ _ => hleft m
        exact (hold m s b hwait).resolve_right (connectionError_silent n' c _ m s b)
      · rename_i hfits
        rw [if_neg hfits] at hold
        refine h'.mute (hold_mute n' c ⟨x,hx⟩ (cfg.length x)) (fun m s b hwait => ?_)
          fun m _ _ => hleft m
        exact (hold m s b hwait).resolve_right (Frame.not_puts (by simp) m s b)
  · rename_i hx
    rw [dif_neg hx] at hold hput
    have hxf : isRouted x = false := by simpa using hx
    refine h.mute (handleMessage_mute n c hxf _) (fun m s b hwait => ?_) fun m _ _ => hleft m
    refine (hold m s b hwait).resolve_right fun hputs => ?_
    obtain ⟨d,hd,-,hb⟩ := (puts_sends _).mp hputs
    exact absurd (PubSubNode.handleMessage_silent n.toPubSubNode c hxf _ d hd s) (by simp [hb])

omit [DecidableEq I] [DecidableEq Q] in
theorem unsubscribe_told (hw : n.Wired up) (h : n.Told W) {c : C} {s : Str}
    (hcond : n.Spares W (some (c,s,false)))
    (hold : ∀ m t b, W' m t b → W m t b ∨ Frame.Puts (sends (n.unsubscribe (up c) s c).2) m t b)
    (hleft : ∀ m t b, W m t b → W' m t b)
    (hput : ∀ m t b, Frame.Puts (sends (n.unsubscribe (up c) s c).2) m t b → W' m t b) :
    (n.setNode (n.unsubscribe (up c) s c).1).Told W' := by
  have hr := PubSubNode.unsubscribe_reroutes hw.directed s c
  have htag (t : Str) : c ∈ (n.unsubscribe (up c) s c).1.subscribers t ↔
      if t = s then false = true else c ∈ n.subscribers t := by
    rw [PubSubNode.unsubscribe_tag hw.directed]
    by_cases hts : t = s <;> simp [hts]
  refine h.reroutes hw hr (PubSubNode.unsubscribe_once n.toPubSubNode _ s c) (fun hne => ?_)
    ⟨rfl,rfl,rfl⟩ (fun m hm hpm t b hwait => ?_)
    (fun m t b hwait => (hold m t b hwait).imp_right (puts_sends _).mp) hleft fun d hd m hm t b hb =>
      hput m t b ((puts_sends _).mpr ⟨d,hd,hm,hb⟩)
  · have hc : c ∈ n.subscribers s := by
      by_contra hc
      rw [← hw.directed.mem_subscriptions] at hc
      exact hne (by rw [PubSubNode.unsubscribe,if_neg hc])
    refine ⟨hw.tagged s c hc,?_⟩
    by_contra hp
    exact (hw.pending c (Option.isSome_iff_ne_none.mpr hp)).2.2.2 s hc
  · rw [hr.wants_retagged htag]
    split
    · rename_i hts
      exact hts ▸ hcond m hm hpm b (hts ▸ hwait)
    · rfl

/-- What a frame is about to change. -/
def change (n : WiredNode C I Q P) : Frame C I Q P → Option (C × Str × Bool)
  | .drop c _ (s::_) => some (c,s,false)
  | .drain c =>
    match n.draining c with
    | some ⟨(m,_)::_,_⟩ => tag c m.1
    | _ => none
  | _ => none

theorem drainNext_told (hw : n.Wired up) (h : n.Told W) (c : C)
    (hcond : n.Spares W (n.change (.drain c)))
    (hold : ∀ m s b, W' m s b → W m s b ∨ Frame.Puts (n.drainNext c).2 m s b)
    (hleft : ∀ m s b, W m s b → W' m s b)
    (hput : ∀ m s b, Frame.Puts (n.drainNext c).2 m s b → W' m s b) :
    (n.drainNext c).1.Told W' := by
  unfold drainNext at hold hput ⊢
  split
  · rename_i x length xs size hd
    rw [hd] at hold hput
    obtain ⟨hmade,hu⟩ := hw.draining c (by simp [hd])
    have hp : n.pending c = none := by
      by_contra hp
      simpa [hd] using (hw.pending c (Option.isSome_iff_ne_none.mpr hp)).2.2.1
    let n' : WiredNode C I Q P :=
      {n with draining := Function.update n.draining c (some ⟨xs,size-length⟩)}
    have hpop : n.Shrinks n' := by
      refine {Shrinks.refl n with draining := fun e he => ?_}
      by_cases hec : e = c
      · simp [hec,hd]
      · simpa [n',hec] using he
    have h' : n'.Told W := ⟨h.agree,h.said,h.targets⟩
    have hcond' : n'.Spares W (tag c x.1) := by
      have hx : n.change (.drain c) = tag c x.1 := by simp [change,hd]
      rw [hx] at hcond
      cases x with
      | mk x hx => cases x <;> exact hcond
    have hdrain (m : C) (s : Str) (b : Bool) :
        ¬Frame.Puts [(Frame.drain c : Frame C I Q P)] m s b := Frame.not_puts (by simp) m s b
    have hproc := @process_told _ _ _ _ _ _ W W' _ _ _ (hw.shrinks hpop) h' _ hmade hp _ x.2 hcond'
    rw [hu] at hproc
    refine hproc (fun m s b hwait => ?_) hleft fun m s b hputs => ?_
    · refine (hold m s b hwait).imp_right fun hputs => ?_
      exact (Frame.puts_append.mp hputs).resolve_right (hdrain m s b)
    · exact hput m s b (Frame.puts_append.mpr (.inl hputs))
  · rename_i hno
    refine h.mute (endDrain_mute n c) (fun m s b hwait => ?_) fun m _ _ => hleft m
    refine (hold m s b hwait).resolve_right ?_
    split
    · rename_i x length xs size hd
      exact absurd hd (hno x length xs size)
    · exact Frame.not_puts (by simp) m s b

omit [DecidableEq I] [DecidableEq Q] in
theorem sendNext_told {cfg : TaskSettings C I Q P} (hw : n.Wired up) (h : n.Told W) {c : C}
    {cs : List C} {x : Message I Q P} (hout : ∀ m ∈ c::cs, ∀ s b, about s x = some b → W m s b)
    (hold : ∀ m s b, W' m s b → W m s b ∨ Frame.Puts (n.sendNext cfg c cs x).2 m s b)
    (hleft : ∀ m s b, W m s b → W' m s b ∨ m ∈ c::cs ∧ about s x = some b)
    (hput : ∀ m s b, Frame.Puts (n.sendNext cfg c cs x).2 m s b → W' m s b) :
    (n.sendNext cfg c cs x).1.Told W' := by
  have hrest (m : C) (s : Str) (b : Bool)
      (hp : Frame.Puts [(Frame.send cs x : Frame C I Q P)] m s b) : W m s b := by
    obtain ⟨hm,hb⟩ := Frame.puts_singleton.mp hp
    exact hout m (List.mem_cons_of_mem c hm) s b hb
  unfold sendNext at hold hput ⊢
  split
  · rename_i hover
    rw [if_pos hover] at hold hput
    dsimp only at hold hput ⊢
    have hgone : c ∉ (n.connectionError c (c ∈ n.upstreamConnections)).1.allConnections := by
      by_cases hl : c ∈ n.allConnections
      · have hc : c ∈ n.connections (decide (c ∈ n.upstreamConnections)) := by
          rw [← hw.direction hl]
          exact hw.mem_connections.mpr hl
        unfold connectionError
        rw [if_pos hc]
        exact hw.not_mem_unlist hc
      · exact fun hm => hl ((connectionError_shrinks n c _).listed hm)
    refine h.mute (connectionError_mute hw c _) (fun m s b hwait => ?_) fun m hm _ s b hwait => ?_
    · refine (hold m s b hwait).elim id fun hp => hrest m s b ?_
      exact (Frame.puts_append.mp hp).resolve_left (connectionError_silent n c _ m s b)
    · refine (hleft m s b hwait).elim id fun ⟨hmc,hb⟩ => hput m s b ?_
      have hne : m ≠ c := by rintro rfl; exact hgone hm
      refine Frame.puts_append.mpr (.inr (Frame.puts_singleton.mpr ⟨?_,hb⟩))
      exact (List.mem_cons.mp hmc).resolve_left hne
  · rename_i hfits
    rw [if_neg hfits] at hold hput
    refine h.enqueue (fun s b hb => hout c List.mem_cons_self s b hb)
      (fun m s b hwait => (hold m s b hwait).elim id (hrest m s b)) fun m s b hwait => ?_
    rcases hleft m s b hwait with hwait | ⟨hm,hb⟩
    · exact .inl hwait
    · rcases List.mem_cons.mp hm with rfl | hm
      · exact .inr ⟨rfl,hb⟩
      · exact .inl (hput m s b (Frame.puts_singleton.mpr ⟨hm,hb⟩))

theorem exec_told {cfg : TaskSettings C I Q P} (hw : n.Wired up) (h : n.Told W)
    {f : Frame C I Q P} (hdir : f.Directed up)
    (hforget : ∀ c b, f = .forget c b → c ∉ n.allConnections)
    (hcond : n.Spares W (n.change f)) (hout : ∀ m s b, f.Says m s b → W m s b)
    (hold : ∀ m s b, W' m s b → W m s b ∨ Frame.Puts (n.exec cfg f).2 m s b)
    (hleft : ∀ m s b, W m s b → W' m s b ∨ f.Says m s b)
    (hput : ∀ m s b, Frame.Puts (n.exec cfg f).2 m s b → W' m s b) :
    (n.exec cfg f).1.Told W' := by
  have hmute {l : WiredNode C I Q P} {fs : List (Frame C I Q P)} (hl : n.Mute l)
      (hf : ∀ m s b, ¬f.Says m s b) (hfs : ∀ g ∈ fs, ∀ ts x, g ≠ .send ts x)
      (hold : ∀ m s b, W' m s b → W m s b ∨ Frame.Puts fs m s b) : l.Told W' :=
    h.mute hl (fun m s b hw => (hold m s b hw).resolve_right (Frame.not_puts hfs m s b))
      fun m _ _ s b hw => (hleft m s b hw).resolve_right (hf m s b)
  cases f with
  | send ts x =>
    cases ts with
    | nil => exact hmute (.refl n) (by simp [Frame.Says]) (by simp [exec]) hold
    | cons c cs =>
      exact sendNext_told hw h (fun m hm s b hb => hout m s b ⟨hm,hb⟩) hold hleft hput
  | drop c b ss =>
    cases ss with
    | nil => exact hmute (.refl n) (fun _ _ _ => id) (by simp [exec]) hold
    | cons s ss =>
      obtain rfl : b = up c := hdir
      have hdrop (m : C) (t : Str) (v : Bool) :
          ¬Frame.Puts [(Frame.drop c (up c) ss : Frame C I Q P)] m t v :=
        Frame.not_puts (by simp) m t v
      refine unsubscribe_told hw h hcond (fun m t v hwait => ?_)
        (fun m t v hwait => (hleft m t v hwait).resolve_right id) fun m t v hp => ?_
      · refine (hold m t v hwait).imp_right fun hp => ?_
        exact (Frame.puts_append.mp hp).resolve_right (hdrop m t v)
      · exact hput m t v (Frame.puts_append.mpr (.inl hp))
  | drain c =>
    exact drainNext_told hw h c hcond hold
      (fun m s b hwait => (hleft m s b hwait).resolve_right id) hput
  | undrain c =>
    have hl := (endDrain_mute n c).trans
      (connectionError_mute (hw.shrinks (endDrain_shrinks n c)) c true)
    refine h.mute hl (fun m s b hwait => ?_) fun m _ _ s b hwait =>
      (hleft m s b hwait).resolve_right id
    exact (hold m s b hwait).resolve_right (connectionError_silent (n.endDrain c) c true m s b)
  | forget c b =>
    exact hmute (forget_mute n (hforget c b rfl)) (fun _ _ _ => id) (by simp [exec]) hold
  | shut c b => exact hmute (.refl n) (fun _ _ _ => id) (by simp [exec]) hold
  | wait c b => exact hmute (.refl n) (fun _ _ _ => id) (by simp [exec]) hold

end WiredNode

namespace NodeTasks

variable [DecidableEq C] [DecidableEq K] [DecidableEq I] [DecidableEq Q]
variable {cfg : TaskSettings C I Q P} {s t : NodeTasks C K I Q P} {a : TaskAction C K I Q P}

def Waits (s : NodeTasks C K I Q P) (m : C) (u : Str) (b : Bool) : Prop := ∃ f, s.Has f ∧ f.Says m u b

def change (s : NodeTasks C K I Q P) : TaskAction C K I Q P → Option (C × Str × Bool)
  | .receive c m => if (s.node.heldMessages c).isNone then WiredNode.tag c m else none
  | .run => s.top.bind s.node.change
  | _ => none

/-- As long as a connection waits to be told something about a subject, no step changes what it is
to be told, and no exception makes a task skip it. -/
def KeepsWord (s : NodeTasks C K I Q P) (a : TaskAction C K I Q P) : Prop :=
  (∀ f ∈ s.thrown a, ∀ m ∈ s.node.allConnections, s.node.pending m = none → ∀ u b,
    ¬f.Says m u b) ∧
  s.node.Spares s.Waits (s.change a)

omit [DecidableEq K] in
theorem Work.told {out : Option (Frame C I Q P)} {r : WiredNode C I Q P × List (Frame C I Q P)}
    (h : s.Work cfg a out r) (hs : s.Wired cfg.fromUpstream) (hf : s.Swaps out r.2 t)
    (hok : s.node.Spares s.Waits (s.change a)) (hn : s.node.Told s.Waits) : r.1.Told t.Waits := by
  have hw := hs.node
  have hold (m : C) (u : Str) (b : Bool) (hwait : t.Waits m u b) :
      s.Waits m u b ∨ Frame.Puts r.2 m u b := by
    obtain ⟨f,hft,hsay⟩ := hwait
    exact (hf.old f hft).imp (fun h => ⟨f,h,hsay⟩) fun h => ⟨f,h,hsay⟩
  have hput (m : C) (u : Str) (b : Bool) (hputs : Frame.Puts r.2 m u b) : t.Waits m u b := by
    obtain ⟨f,hfr,hsay⟩ := hputs
    exact ⟨f,hf.new f hfr,hsay⟩
  have hleft (m : C) (u : Str) (b : Bool) (hwait : s.Waits m u b) :
      t.Waits m u b ∨ ∃ f, out = some f ∧ f.Says m u b := by
    obtain ⟨f,hfs,hsay⟩ := hwait
    exact (hf.left f hfs).imp (fun h => ⟨f,h,hsay⟩) fun h => ⟨f,h,hsay⟩
  have hstart (hout : out = none) (m : C) (u : Str) (b : Bool) (hwait : s.Waits m u b) :
      t.Waits m u b := (hleft m u b hwait).resolve_right (by simp [hout])
  have hmute (hout : out = none) (hl : s.node.Mute r.1)
      (hsilent : ∀ m u b, ¬Frame.Puts r.2 m u b) : r.1.Told t.Waits :=
    hn.mute hl (fun m u b hwait => (hold m u b hwait).resolve_right (hsilent m u b))
      fun m _ _ => hstart hout m
  cases h with
  | establish c hc hu =>
    refine hmute rfl (WiredNode.establish_mute hc) fun m u b hp => ?_
    obtain ⟨d,hd,-,hb⟩ := (WiredNode.puts_sends _).mp hp
    obtain rfl := List.mem_singleton.mp hd
    simp [about] at hb
  | accept c hc hu =>
    exact hn.joins (WiredNode.accept_joins hw hc)
      (fun m u b hwait => (hold m u b hwait).imp_right (WiredNode.puts_accept _).mp) (hstart rfl)
      fun u hu => hput c u true ((WiredNode.puts_accept _).mpr ⟨rfl,rfl,hu⟩)
  | receive c m hr =>
    refine WiredNode.onReceive_told hw hn hr m (fun hheld => ?_) hold (hstart rfl) hput
    simpa [change,hheld] using hok
  | loopFailed c hr =>
    have hrest := WiredNode.Rests.endLoop s.node c
    exact hmute rfl (hrest.mute.trans (WiredNode.connectionError_mute (hw.shrinks hrest.shrinks) c _))
      (WiredNode.connectionError_silent _ c _)
  | sendFailed c =>
    exact hmute rfl (WiredNode.connectionError_mute hw c _) (WiredNode.connectionError_silent _ c _)
  | activate c p hp hv =>
    exact hn.joins (WiredNode.activate_joins hw hp)
      (fun m u b hwait => (hold m u b hwait).imp_right (WiredNode.puts_activate _ _).mp)
      (hstart rfl) fun u hu => hput c u true ((WiredNode.puts_activate _ _).mpr ⟨rfl,rfl,hu⟩)
  | abandon c hu hv =>
    let n' : WiredNode C I Q P :=
      {s.node with verdict := Function.update s.node.verdict c (some false)}
    have hn' : s.node.Mute n' := .of_shrinks {WiredNode.Shrinks.refl s.node with} (fun _ => rfl) rfl
      fun _ _ => id
    have hw' : n'.Wired cfg.fromUpstream := hw.shrinks {WiredNode.Shrinks.refl s.node with}
    exact hmute rfl (hn'.trans (WiredNode.connectionError_mute hw' c true))
      (WiredNode.connectionError_silent n' c true)
  | closeConnection k c hc =>
    exact hmute rfl (WiredNode.unlist_mute s.node c _)
      (Frame.not_puts (by simp [WiredNode.unlisted]))
  | send k ts m hm =>
    refine hmute rfl (.refl s.node) fun m' u b hp => ?_
    obtain ⟨-,hb⟩ := Frame.puts_singleton.mp hp
    cases m <;> simp [isRouted,about] at hm hb
  | exec f htop =>
    refine WiredNode.exec_told hw hn (hs.frames f (hf.out f rfl))
      (fun c b he => (hs.forgets c b (hf.out _ (by rw [he]))).2) ?_
      (fun m u b hsay => ⟨f,hf.out f rfl,hsay⟩) hold (fun m u b hwait => ?_) hput
    · simpa [change,htop] using hok
    · refine (hleft m u b hwait).imp_right fun hsays => ?_
      obtain ⟨g,hg,hsay⟩ := hsays
      obtain rfl := Option.some.inj hg
      exact hsay

theorem step_told (h : step cfg s a = some t) (hs : s.Wired cfg.fromUpstream) (hok : s.KeepsWord a)
    (hn : s.node.Told s.Waits) : t.node.Told t.Waits := by
  rcases step_cases h with hp | ⟨out,r,hwork,hnode,hf⟩
  · have hplain {f : Frame C I Q P} {m : C} {u : Str} {b : Bool} (hf : f.Says m u b) :
        f.plain = true := by
      cases f with
      | send ts x => rfl
      | _ => exact hf.elim
    refine hn.mute hp.rests.mute (fun m u b ⟨f,hf,hsay⟩ => ⟨f,hp.old f (hplain hsay) hf,hsay⟩) ?_
    rintro m hm hpend u b ⟨f,hf,hsay⟩
    rcases hp.left f (hplain hsay) hf with hf | hf
    · exact ⟨f,hf,hsay⟩
    · obtain ⟨hm,hpend⟩ := hp.rests.mute.active m hm hpend
      exact absurd hsay (hok.1 f hf m hm hpend u b)
  · rw [hnode]
    exact hwork.told hs hf hok.2 hn

/-- Between its handlers a node has told every active connection what is true, as long as nothing
changes that while some handler has still to say it. -/
theorem last_said_iff {as : List (TaskAction C K I Q P)} {i : I} {t : NodeTasks C K I Q P}
    (hrun : run (step cfg) (init i) as = some t) (hok : Guarded (step cfg) KeepsWord (init i) as)
    (hidle : ∀ k, t.stack k = []) {m : C} (hm : m ∈ t.node.allConnections)
    (hp : t.node.pending m = none) (u : Str) :
    lastSaid false u (t.node.queued m) = true ↔ ∃ d ∈ t.node.subscribers u, d ≠ m := by
  have hinv := run_invariant (I := fun s => s.Wired cfg.fromUpstream ∧ s.node.Told s.Waits)
    (fun s a t hs ha h => ⟨step_wired h hs.1,step_told h hs.1 ha hs.2⟩)
    ⟨init_wired cfg.fromUpstream i,WiredNode.new_told i fun m s b ⟨_,⟨_,hk⟩,_⟩ => nomatch hk⟩ hok hrun
  have hsaid : lastSaid false u (t.node.queued m) = t.node.wants m u := by
    refine (hinv.2.said m hm hp u).resolve_right ?_
    rintro ⟨f,⟨k,hk⟩,-⟩
    simp [hidle k] at hk
  rw [hsaid]
  exact others_eq_true

/-- On the way of a subscription one of its targets is dropped; the handler waits for it to close,
and tells the other target then. -/
theorem last_said_iff_subscribe : ∃ s t : NodeTasks (Fin 3) (Fin 1) (Fin 1) (Fin 1) (Fin 1),
    run (step ⟨⟨⟨5,9,fun _ => 1⟩,fun _ => false⟩,1⟩) (init 0) [.accept 0,.run,.run,.run,
      .accept 1,.run,.run,.run,.accept 2,.run,.run,.run,.taken 2,
      .receive 0 (.subscription [97] true),.run,.run,.run] = some s ∧
    s.stack (.loop 0) = [.wait 1 false,.send [2] (.subscription [97] true)] ∧
    run (step ⟨⟨⟨5,9,fun _ => 1⟩,fun _ => false⟩,1⟩) (init 0) [.accept 0,.run,.run,.run,
      .accept 1,.run,.run,.run,.accept 2,.run,.run,.run,.taken 2,
      .receive 0 (.subscription [97] true),.run,.run,.run,.wake (.loop 0),.run,.run,.run] = some t ∧
    (lastSaid false [97] (t.node.queued 2) = true ↔ ∃ d ∈ t.node.subscribers [97], d ≠ 2) ∧
    t.node.subscribers [97] = [0] := by
  have silent (s : NodeTasks (Fin 3) (Fin 1) (Fin 1) (Fin 1) (Fin 1))
      (a : TaskAction (Fin 3) (Fin 1) (Fin 1) (Fin 1) (Fin 1)) (ht : s.thrown a = [])
      (hc : s.change a = none) : s.KeepsWord a := ⟨by simp [ht],by rw [hc]; trivial⟩
  refine ⟨_,_,rfl,rfl,rfl,last_said_iff (C := Fin 3) (K := Fin 1) (I := Fin 1) (Q := Fin 1)
    (P := Fin 1)
    (show run (step ⟨⟨⟨5,9,fun _ => 1⟩,fun _ => false⟩,1⟩) (init 0) [.accept 0,.run,.run,.run,
      .accept 1,.run,.run,.run,.accept 2,.run,.run,.run,.taken 2,
      .receive 0 (.subscription [97] true),.run,.run,.run,.wake (.loop 0),.run,.run,.run] = some _
      from rfl)
    ⟨silent _ _ rfl rfl,silent _ _ rfl rfl,silent _ _ rfl rfl,silent _ _ rfl rfl,
      silent _ _ rfl rfl,silent _ _ rfl rfl,silent _ _ rfl rfl,silent _ _ rfl rfl,
      silent _ _ rfl rfl,silent _ _ rfl rfl,silent _ _ rfl rfl,silent _ _ rfl rfl,
      silent _ _ rfl rfl,?_,silent _ _ rfl rfl,silent _ _ rfl rfl,silent _ _ rfl rfl,
      silent _ _ rfl rfl,silent _ _ rfl rfl,silent _ _ rfl rfl,silent _ _ rfl rfl,trivial⟩
    ?_ (by decide) rfl [97],rfl⟩
  · refine ⟨fun f hf => (nomatch hf),fun m _ _ b hw => ?_⟩
    obtain ⟨f,⟨k,hk⟩,-⟩ := hw
    refine (List.eq_nil_iff_forall_not_mem.mp ?_ f hk).elim
    clear hk
    cases k with
    | loop c | sender c | setup c | call c => revert c; decide
  · intro k
    cases k with
    | loop c | sender c | setup c | call c => revert c; decide

/-- While `_relay_to` waits for one of its targets to close, another connection subscribes. -/
theorem not_last_said_iff : ∃ t : NodeTasks (Fin 4) (Fin 1) (Fin 1) (Fin 1) (Fin 1),
    run (step ⟨⟨⟨5,9,fun _ => 1⟩,fun _ => false⟩,2⟩) (init 0) [.accept 0,.run,.run,.run,
      .accept 1,.run,.run,.run,.accept 2,.run,.run,.run,.accept 3,.run,.run,.run,
      .receive 0 (.subscription [97] true),.run,.run,.run,.run,.run,.taken 2,.taken 2,.taken 3,
      .receive 0 (.subscription [97] false),.run,.run,.run,
      .receive 3 (.subscription [97] true),.run,.run,.run,.run,
      .wake (.loop 0),.run,.run,.run,.run] = some t ∧
    (∀ k, t.stack k = []) ∧ 2 ∈ t.node.allConnections ∧ t.node.pending 2 = none ∧
    lastSaid false [97] (t.node.queued 2) = false ∧ 3 ∈ t.node.subscribers [97] ∧
    ¬(lastSaid false [97] (t.node.queued 2) = true ↔ ∃ d ∈ t.node.subscribers [97], d ≠ 2) := by
  refine ⟨_,rfl,fun k => ?_,by decide,rfl,rfl,by decide,fun h => ?_⟩
  · cases k with
    | loop c | sender c | setup c | call c => revert c; decide
  · exact absurd (h.mpr ⟨3,by decide,by decide⟩) (by decide)

end NodeTasks
end SoftwareBus
