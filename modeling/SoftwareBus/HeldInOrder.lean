import SoftwareBus.NodeTaskInvariant

/-! What a node does with the messages of a connection it has established, from the
cycle check on: it holds them, processes them in order, or never does. -/
namespace SoftwareBus

open Transition

variable {C K I Q P : Type}

def HeldMessages.Sized (limit : ℕ) (h : HeldMessages I Q P) : Prop :=
  h.size = (h.messages.map Prod.snd).sum ∧ h.size ≤ limit

instance heldSizedDecidable (limit : ℕ) (h : HeldMessages I Q P) : Decidable (h.Sized limit) :=
  inferInstanceAs (Decidable (_ ∧ _))

def HeldMessages.kept (h : HeldMessages I Q P) : List (Message I Q P) := h.messages.map (·.1.1)

theorem HeldMessages.empty_sized (limit : ℕ) : (HeldMessages.empty : HeldMessages I Q P).Sized limit :=
  ⟨rfl,Nat.zero_le limit⟩

theorem HeldMessages.append_sized {limit : ℕ} {h : HeldMessages I Q P} (hs : h.Sized limit)
    (m : {m : Message I Q P // isRouted m = true}) {length : ℕ} (hl : h.size+length ≤ limit) :
    (h.append m length).Sized limit :=
  ⟨by simp [HeldMessages.append,hs.1],hl⟩

namespace WiredNode

/-- The messages of a connection are processed in order, only once it is accepted, and held
within the limit. -/
structure InOrder [DecidableEq C] (limit : ℕ) (c : C) (n : WiredNode C I Q P) : Prop where
  order : n.processed c <+: n.received c
  gated : n.verdict c ≠ some true → n.processed c = []
  sized : ∀ h, n.heldMessages c = some h → h.Sized limit

/-- Where the messages of an established connection are. -/
structure Tracked (limit : ℕ) (c : C) (n : WiredNode C I Q P) : Prop where
  order : n.processed c <+: n.received c
  gated : n.verdict c ≠ some true → n.processed c = []
  pending : ∀ p, n.pending c = some p →
    n.processed c = [] ∧ n.received c = p.held.kept ∧ p.held.Sized limit
  draining : ∀ h, n.draining c = some h →
    n.verdict c = some true ∧ n.received c = n.processed c++h.kept ∧ h.Sized limit
  direct : c ∈ n.allConnections → n.pending c = none → n.draining c = none →
    n.verdict c = some true ∧ n.received c = n.processed c
  unmade : n.made c = false → n.received c = []

/-- Nothing that concerns the messages of a connection is different; it may be unlisted. -/
structure SameMessages (c : C) (n m : WiredNode C I Q P) : Prop where
  processed : m.processed c = n.processed c
  received : m.received c = n.received c
  verdict : m.verdict c = n.verdict c
  pending : (m.pending c).map (·.held) = (n.pending c).map (·.held)
  draining : m.draining c = n.draining c
  listed : c ∈ m.allConnections → c ∈ n.allConnections
  made : m.made c = n.made c

variable {limit : ℕ} {c : C} {n m l : WiredNode C I Q P}

theorem SameMessages.refl (c : C) (n : WiredNode C I Q P) : n.SameMessages c n :=
  ⟨rfl,rfl,rfl,rfl,rfl,id,rfl⟩

theorem SameMessages.trans (h : n.SameMessages c m) (g : m.SameMessages c l) :
    n.SameMessages c l :=
  ⟨g.processed.trans h.processed,g.received.trans h.received,g.verdict.trans h.verdict,
    g.pending.trans h.pending,g.draining.trans h.draining,fun hc => h.listed (g.listed hc),
    g.made.trans h.made⟩

theorem Rests.sameMessages (h : n.Rests m) (c : C) : n.SameMessages c m :=
  ⟨by rw [h.processed],by rw [h.received],by rw [h.verdict],by rw [h.pending],by rw [h.draining],
    h.shrinks.listed,by rw [h.made]⟩

theorem Tracked.same (hn : n.Tracked limit c) (h : n.SameMessages c m) : m.Tracked limit c := by
  refine ⟨?_,fun hv => ?_,fun p hp => ?_,fun x hx => ?_,fun hl hp hd => ?_,fun hm => ?_⟩
  · rw [h.processed,h.received]
    exact hn.order
  · rw [h.processed]
    exact hn.gated (h.verdict ▸ hv)
  · have he := h.pending
    rw [hp] at he
    obtain ⟨q,hq,hqp⟩ := Option.map_eq_some_iff.mp he.symm
    rw [h.processed,h.received,show p.held = q.held from hqp.symm]
    exact hn.pending q hq
  · rw [h.verdict,h.received,h.processed]
    exact hn.draining x (h.draining ▸ hx)
  · rw [h.verdict,h.received,h.processed]
    refine hn.direct (h.listed hl) ?_ (h.draining ▸ hd)
    have he := h.pending
    rw [hp] at he
    exact Option.map_eq_none_iff.mp he.symm
  · rw [h.received]
    exact hn.unmade (h.made ▸ hm)

structure LosesMessages (c : C) (n m : WiredNode C I Q P) : Prop where
  processed : m.processed c = n.processed c
  received : n.received c <+: m.received c
  verdict : m.verdict c = n.verdict c
  pending : m.pending c = none
  draining : m.draining c = none
  unlisted : c ∉ m.allConnections
  made : m.made c = true

theorem Tracked.loses (hn : n.Tracked limit c) (h : n.LosesMessages c m) : m.Tracked limit c := by
  refine ⟨?_,fun hv => ?_,by simp [h.pending],by simp [h.draining],fun hl => absurd hl h.unlisted,
    fun hm => absurd (h.made.symm.trans hm) (by simp)⟩
  · rw [h.processed]
    exact hn.order.trans h.received
  · rw [h.processed]
    exact hn.gated (h.verdict ▸ hv)

/-- The check of the connection has failed, or what there was to check is gone. -/
def Missed (c : C) (n : WiredNode C I Q P) : Prop :=
  n.made c = true ∧ (n.verdict c = some false ∨ n.pending c = none ∧ n.verdict c = none)

theorem Missed.mono (hn : n.Missed c) (hm : n.made c = true → m.made c = true)
    (hv : m.verdict = n.verdict) (hp : n.pending c = none → m.pending c = none) : m.Missed c :=
  ⟨hm hn.1,hn.2.imp (fun h => by rw [hv,h]) fun h => ⟨hp h.1,by rw [hv,h.2]⟩⟩

theorem Missed.shrinks (hn : n.Missed c) (h : n.Shrinks m) (hv : m.verdict = n.verdict) :
    m.Missed c := by
  refine hn.mono (fun hm => h.made ▸ hm) hv fun hp => ?_
  by_contra hne
  simpa [hp] using h.pending c (Option.isSome_iff_ne_none.mpr hne)

theorem Missed.processed (hm : n.Missed c) (hn : n.Tracked limit c) : n.processed c = [] :=
  hn.gated (by rcases hm.2 with hv | ⟨-,hv⟩ <;> simp [hv])

theorem new_tracked (i : I) : (WiredNode.new i : WiredNode C I Q P).Tracked limit c := by
  constructor <;> simp [new,PubSubNode.new,CheckState.allConnections]

variable [DecidableEq C]

theorem Tracked.inOrder (h : n.Tracked limit c) : n.InOrder limit c := by
  refine ⟨h.order,h.gated,fun x hx => ?_⟩
  unfold CheckState.heldMessages at hx
  split at hx
  · rename_i p hp
    obtain rfl := Option.some.inj hx
    exact (h.pending p hp).2.2
  · exact (h.draining x hx).2.2

variable {up : C → Bool}

theorem connectionError_loses (h : n.Wired up) {b : Bool} (hc : c ∈ n.connections b) :
    n.LosesMessages c (n.connectionError c b).1 := by
  have hl : c ∈ n.allConnections := h.mem_connections.mp (h.connections hc ▸ hc)
  unfold connectionError
  rw [if_pos hc]
  exact ⟨rfl,List.prefix_rfl,rfl,Function.update_self ..,Function.update_self ..,
    h.not_mem_unlist hc,h.listed c hl⟩

theorem connectionError_messages (h : n.Wired up) (c d : C) (b : Bool) :
    n.SameMessages c (n.connectionError d b).1 ∨ n.LosesMessages c (n.connectionError d b).1 := by
  by_cases hd : d ∈ n.connections b
  · by_cases hdc : d = c
    · exact .inr (hdc ▸ connectionError_loses h hd)
    · left
      have hlist := (connectionError_shrinks n d b).listed (c := c)
      unfold connectionError at hlist ⊢
      rw [if_pos hd] at hlist ⊢
      refine ⟨rfl,rfl,rfl,?_,?_,hlist,rfl⟩ <;>
        simp [setNode,CheckState.forgetConnection,Ne.symm hdc]
  · left
    unfold connectionError
    rw [if_neg hd]
    exact .refl c n

theorem forget_messages (c d : C) (hm : n.made d = true) (hd : d ∉ n.allConnections) :
    n.SameMessages c (n.setNode {n.toPubSubNode with toCheckState := n.forgetConnection d}) ∨
      n.LosesMessages c (n.setNode {n.toPubSubNode with toCheckState := n.forgetConnection d}) := by
  by_cases hdc : d = c
  · subst d
    exact .inr ⟨rfl,List.prefix_rfl,rfl,Function.update_self ..,Function.update_self ..,hd,hm⟩
  · refine .inl ⟨rfl,rfl,rfl,?_,?_,id,rfl⟩ <;>
      simp [setNode,CheckState.forgetConnection,Ne.symm hdc]

theorem unlist_messages (n : WiredNode C I Q P) (c d : C) (b : Bool) : n.SameMessages c
    (n.setNode {n.toPubSubNode with toCheckState := n.unlist d b}) := by
  refine ⟨rfl,rfl,rfl,?_,?_,(unlist_shrinks n d b).listed,rfl⟩ <;> simp [setNode]

theorem unsubscribe_messages (n : WiredNode C I Q P) (c d : C) (b : Bool) (s : Str) :
    n.SameMessages c (n.setNode (n.unsubscribe b s d).1) := by
  have hcheck := (PubSubNode.unsubscribe_routes n.toPubSubNode b s d).check
  refine ⟨rfl,rfl,rfl,?_,?_,fun hc => ?_,rfl⟩
  · exact congrArg (fun x => (x.pending c).map (·.held)) hcheck
  · exact congrArg (fun x => x.draining c) hcheck
  · exact congrArg CheckState.allConnections hcheck ▸ hc

theorem hold_messages (n : WiredNode C I Q P) {c d : C} (hdc : c ≠ d)
    (m : {m : Message I Q P // isRouted m = true}) (length : ℕ) : n.SameMessages c
      (n.setNode {n.toPubSubNode with toCheckState := n.hold d m length}) := by
  unfold CheckState.hold
  split <;> refine ⟨rfl,rfl,rfl,?_,?_,id,rfl⟩ <;> simp [setNode,hdc]

theorem enqueue_messages (n : WiredNode C I Q P) (c d : C) (m : Message I Q P) :
    n.SameMessages c (n.enqueue d m) := ⟨rfl,rfl,rfl,rfl,rfl,id,rfl⟩

theorem Tracked.endDrain (hn : n.Tracked limit c) (d : C)
    (hd : ∀ h, n.draining c = some h → d = c → h.messages = [] ∨ c ∉ n.allConnections) :
    (n.endDrain d).Tracked limit c := by
  by_cases hdc : d = c
  · subst d
    refine ⟨hn.order,hn.gated,hn.pending,by simp [WiredNode.endDrain],fun hl hp _ => ?_,hn.unmade⟩
    cases hx : n.draining c with
    | none => exact hn.direct hl hp hx
    | some h =>
      obtain ⟨hv,hr,-⟩ := hn.draining h hx
      have he := (hd h hx rfl).resolve_right (fun hno => hno hl)
      refine ⟨hv,(show n.received c = n.processed c from ?_)⟩
      simpa [HeldMessages.kept,he] using hr
  · refine hn.same ⟨rfl,rfl,rfl,rfl,?_,id,rfl⟩
    simp [WiredNode.endDrain,Ne.symm hdc]

theorem Tracked.refused (hn : n.Tracked limit c) (d : C) (hv : n.verdict d = none) :
    Tracked limit c {n with verdict := Function.update n.verdict d (some false)} := by
  by_cases hdc : d = c
  · subst d
    refine ⟨hn.order,fun _ => hn.gated (by simp [hv]),hn.pending,fun h hx => ?_,fun hl hp hx => ?_,
      hn.unmade⟩
    · simpa [hv] using (hn.draining h hx).1
    · simpa [hv] using (hn.direct hl hp hx).1
  · refine hn.same ⟨rfl,rfl,?_,rfl,rfl,id,rfl⟩
    simp [Ne.symm hdc]

theorem establish_tracked (hw : n.Wired up) (hn : n.Tracked limit c) {d : C}
    (hd : n.made d = false) : (n.establish d).1.Tracked limit c := by
  by_cases hdc : d = c
  · subst d
    have hr := hn.unmade hd
    have hp : n.processed c = [] := by simpa [hr] using hn.order
    have hdr : n.draining c = none := by
      by_contra hx
      simpa [hd] using (hw.draining c (Option.isSome_iff_ne_none.mpr hx)).1
    refine ⟨hn.order,hn.gated,fun p hpc => ?_,fun h hx => ?_,fun _ hpc => ?_,fun hm => ?_⟩
    · obtain rfl : _ = p := by simpa [establish,setNode,PubSubNode.establish] using hpc
      exact ⟨hp,hr,HeldMessages.empty_sized limit⟩
    · simp [establish,setNode,PubSubNode.establish,hdr] at hx
    · simp [establish,setNode,PubSubNode.establish] at hpc
    · simp [establish] at hm
  · refine hn.same ⟨rfl,rfl,rfl,?_,rfl,fun hl => ?_,?_⟩
    · simp [establish,setNode,PubSubNode.establish,Ne.symm hdc]
    · rw [CheckState.mem_allConnections] at hl ⊢
      refine hl.imp_right fun h => (List.mem_append.mp h).resolve_right fun h => ?_
      exact hdc (List.mem_singleton.mp h).symm
    · simp [establish,Ne.symm hdc]

theorem accept_messages (n : WiredNode C I Q P) {d : C} (hdc : c ≠ d) :
    n.SameMessages c (n.accept d).1 := by
  refine ⟨rfl,rfl,rfl,rfl,rfl,fun hl => ?_,?_⟩
  · rw [CheckState.mem_allConnections] at hl ⊢
    refine hl.imp_left fun h => (List.mem_append.mp h).resolve_right fun h => ?_
    exact hdc (List.mem_singleton.mp h)
  · simp [accept,hdc]

theorem activate_tracked (hn : n.Tracked limit c) {d : C} {p : PendingConnection I Q P}
    (hp : n.pending d = some p) : (n.activate d p.held).1.Tracked limit c := by
  by_cases hdc : d = c
  · subst d
    obtain ⟨hproc,hrecv,hsize⟩ := hn.pending p hp
    have hdr : (n.activate c p.held).1.draining c = some p.held := by simp [activate]
    refine ⟨hn.order,fun _ => hproc,by simp [activate],fun h hx => ?_,fun _ _ hx => ?_,hn.unmade⟩
    · obtain rfl := Option.some.inj (hdr.symm.trans hx)
      refine ⟨by simp [activate],?_,hsize⟩
      change n.received c = n.processed c++p.held.kept
      rw [hproc,hrecv,List.nil_append]
    · simp [hdr] at hx
  · refine hn.same ⟨rfl,rfl,?_,?_,?_,id,rfl⟩ <;> simp [activate,Ne.symm hdc]

variable [DecidableEq I] [DecidableEq Q]

theorem process_check (n : WiredNode C I Q P) (d : C) {m : Message I Q P} (hm : isRouted m = true)
    (b : Bool) : (n.process d m b).1.toCheckState = n.toCheckState :=
  (PubSubNode.handleMessage_routes n.toPubSubNode d hm b).check

theorem process_messages (n : WiredNode C I Q P) {d : C} (hdc : c ≠ d) {m : Message I Q P}
    (hm : isRouted m = true) (b : Bool) : n.SameMessages c (n.process d m b).1 := by
  have hcheck := n.process_check d hm b
  refine ⟨Function.update_of_ne hdc _ _,rfl,rfl,?_,?_,fun hl => ?_,rfl⟩
  · exact congrArg (fun x => (x.pending c).map (·.held)) hcheck
  · exact congrArg (fun x => x.draining c) hcheck
  · exact congrArg CheckState.allConnections hcheck ▸ hl

theorem control_messages (n : WiredNode C I Q P) (c d : C) {m : Message I Q P}
    (hm : isRouted m = false) (b : Bool) : n.SameMessages c (n.handleMessage d m b).1 := by
  obtain ⟨ids,pending,queries,he,hp,-⟩ := handleMessage_eq n d hm b
  rw [he]
  exact ⟨rfl,rfl,rfl,hp c,rfl,id,rfl⟩

theorem Tracked.direct_processed (hn : n.Tracked limit c) (hmade : n.made c = true)
    (hlast : c ∈ n.allConnections ∨ n.verdict c = some true ∧ n.received c = n.processed c)
    (hheld : n.heldMessages c = none) {m : Message I Q P} (hm : isRouted m = true) (b : Bool) :
    (WiredNode.process {n with received := Function.update n.received c (n.received c++[m])} c m
      b).1.Tracked limit c := by
  have hp : n.pending c = none := by
    cases hp : n.pending c with
    | none => rfl
    | some p => simp [CheckState.heldMessages,hp] at hheld
  have hd : n.draining c = none := by simpa [CheckState.heldMessages,hp] using hheld
  obtain ⟨hv,hr⟩ := hlast.elim (fun hl => hn.direct hl hp hd) id
  let n' : WiredNode C I Q P :=
    {n with received := Function.update n.received c (n.received c++[m])}
  have hcheck := n'.process_check c hm b
  have hrecv : (n'.process c m b).1.received c = n.received c++[m] := Function.update_self ..
  have hproc : (n'.process c m b).1.processed c = n.processed c++[m] := Function.update_self ..
  refine ⟨?_,fun h => absurd hv h,fun p hpc => ?_,fun h hx => ?_,fun _ _ _ => ⟨hv,?_⟩,fun hm => ?_⟩
  · have heq := hproc.trans (hr ▸ hrecv.symm)
    exact heq ▸ List.prefix_rfl
  · rw [hcheck] at hpc
    exact absurd (hp.symm.trans hpc) (by simp)
  · rw [hcheck] at hx
    exact absurd (hd.symm.trans hx) (by simp)
  · rw [hrecv,hproc,hr]
  · exact absurd (hmade.symm.trans hm) (by simp)

omit [DecidableEq I] [DecidableEq Q] in
theorem Tracked.held (hw : n.Wired up) (hn : n.Tracked limit c) (hmade : n.made c = true)
    {held : HeldMessages I Q P} (hheld : n.heldMessages c = some held)
    (m : {m : Message I Q P // isRouted m = true}) {length : ℕ} (hl : held.size+length ≤ limit) :
    Tracked limit c {n with
      toCheckState := n.hold c m length
      received := Function.update n.received c (n.received c++[m.1])} := by
  have hkept (h : HeldMessages I Q P) : (h.append m length).kept = h.kept++[m.1] := by
    simp [HeldMessages.kept,HeldMessages.append]
  have hprefix : n.processed c <+: n.received c++[m.1] := hn.order.trans (List.prefix_append _ _)
  have hunmade (h : n.made c = false) : n.received c++[m.1] = [] := by simp [hmade] at h
  unfold CheckState.hold
  cases hp : n.pending c with
  | some p =>
    obtain rfl : p.held = held := by simpa [CheckState.heldMessages,hp] using hheld
    obtain ⟨hproc,hrecv,hsize⟩ := hn.pending p hp
    have hdr := (hw.pending c (by simp [hp])).2.2.1
    refine ⟨by simpa using hprefix,hn.gated,fun q hq => ?_,fun h hx => ?_,fun _ hq => ?_,
      by simpa using hunmade⟩
    · obtain rfl : _ = q := by simpa using hq
      exact ⟨hproc,by simp [hrecv,hkept],HeldMessages.append_sized hsize m hl⟩
    · exact absurd (hdr.symm.trans hx) (by simp)
    · simp at hq
  | none =>
    have hdr : n.draining c = some held := by simpa [CheckState.heldMessages,hp] using hheld
    obtain ⟨hv,hrecv,hsize⟩ := hn.draining held hdr
    refine ⟨by simpa using hprefix,hn.gated,fun q hq => absurd (hp.symm.trans hq) (by simp),
      fun h hx => ?_,fun _ _ hx => ?_,by simpa using hunmade⟩
    · obtain rfl : _ = h := by simpa [hdr] using hx
      exact ⟨hv,by simp [hrecv,hkept],HeldMessages.append_sized hsize m hl⟩
    · simp [hdr] at hx

/-- A message read from the connection now is the next one to process, or to hold. -/
def NextOf (cfg : TaskSettings C I Q P) (n : WiredNode C I Q P) (c : C) (m : Message I Q P) : Prop :=
  c ∈ n.allConnections ∨ match n.heldMessages c with
    | some held => held.size+cfg.length m ≤ cfg.heldMessagesLimit
    | none => n.verdict c = some true ∧ n.received c = n.processed c

omit [DecidableEq C] [DecidableEq I] [DecidableEq Q] in
theorem NextOf.direct {cfg : TaskSettings C I Q P} {m : Message I Q P} (h : n.NextOf cfg c m)
    (hheld : n.heldMessages c = none) :
    c ∈ n.allConnections ∨ n.verdict c = some true ∧ n.received c = n.processed c :=
  h.imp_right fun h => by rwa [hheld] at h

omit [DecidableEq C] [DecidableEq I] [DecidableEq Q] in
theorem NextOf.listed {cfg : TaskSettings C I Q P} {m : Message I Q P} (h : n.NextOf cfg c m)
    {held : HeldMessages I Q P} (hheld : n.heldMessages c = some held)
    (hover : cfg.heldMessagesLimit < held.size+cfg.length m) : c ∈ n.allConnections := by
  refine h.resolve_right fun h => ?_
  rw [hheld] at h
  exact absurd h (not_le.mpr hover)

theorem onReceive_tracked {cfg : TaskSettings C I Q P} (hw : n.Wired cfg.fromUpstream)
    (hn : n.Tracked cfg.heldMessagesLimit c) {d : C} (hd : n.reading d = true) (m : Message I Q P)
    (hok : isRouted m = true → d = c → n.NextOf cfg c m) :
    (n.onReceive cfg d m).1.Tracked cfg.heldMessagesLimit c := by
  have hmade := hw.reading d hd
  unfold onReceive
  split
  · rename_i hm
    let n' : WiredNode C I Q P :=
      {n with received := Function.update n.received d (n.received d++[m])}
    have hw' : n'.Wired cfg.fromUpstream := hw.shrinks {Shrinks.refl n with}
    have hlog (hdc : c ≠ d) : n.SameMessages c n' :=
      ⟨rfl,Function.update_of_ne hdc _ _,rfl,rfl,rfl,id,rfl⟩
    split
    · rename_i hheld
      by_cases hdc : c = d
      · subst d
        exact hn.direct_processed hmade ((hok hm rfl).direct hheld) hheld hm _
      · exact hn.same ((hlog hdc).trans (process_messages n' hdc hm _))
    · rename_i held hheld
      split
      · rename_i hover
        have hlost := connectionError_messages hw' c d (cfg.fromUpstream d)
        by_cases hdc : c = d
        · subst d
          have hl : c ∈ n'.connections (cfg.fromUpstream c) :=
            hw'.mem_connections.mpr ((hok hm rfl).listed hheld hover)
          have h := connectionError_loses hw' hl
          have hprefix : n.received c <+: n'.received c := by simp [n']
          exact hn.loses {h with received := hprefix.trans h.received}
        · exact hlost.elim (fun h => hn.same ((hlog hdc).trans h)) (hn.same (hlog hdc)).loses
      · rename_i hfits
        by_cases hdc : c = d
        · subst d
          exact hn.held hw hmade hheld ⟨m,hm⟩ (not_lt.mp hfits)
        · exact hn.same ((hlog hdc).trans (hold_messages n' hdc ⟨m,hm⟩ (cfg.length m)))
  · rename_i hm
    exact hn.same (control_messages n c d (by simpa using hm) _)

theorem drainNext_tracked (hw : n.Wired up) (hn : n.Tracked limit c) (d : C) :
    (n.drainNext d).1.Tracked limit c := by
  unfold drainNext
  split
  · rename_i m length ms size hd
    let n' : WiredNode C I Q P :=
      {n with draining := Function.update n.draining d (some ⟨ms,size-length⟩)}
    have hcheck := n'.process_check d m.2 true
    by_cases hdc : c = d
    · subst d
      obtain ⟨hv,hr,hsize,hlimit⟩ := hn.draining _ hd
      simp only [List.map_cons,List.sum_cons] at hsize hlimit
      have hproc : (n'.process c m.1 true).1.processed c = n.processed c++[m.1] :=
        Function.update_self ..
      have hrecv : (n'.process c m.1 true).1.received c =
          (n.processed c++[m.1])++ms.map (·.1.1) := by
        change n.received c = _
        rw [hr]
        simp [HeldMessages.kept]
      have hdr : (n'.process c m.1 true).1.draining c = some ⟨ms,size-length⟩ := by
        rw [hcheck]
        exact Function.update_self ..
      refine ⟨?_,fun h => absurd hv h,fun p hp => ?_,fun h hx => ?_,fun _ _ hx => ?_,hn.unmade⟩
      · rw [hproc,hrecv]
        exact List.prefix_append _ _
      · rw [hcheck] at hp
        have hnone := (hw.pending c (show (n.pending c).isSome by rw [show n.pending c = _ from hp]; rfl)).2.2.1
        exact absurd (hnone.symm.trans hd) (by simp)
      · obtain rfl := Option.some.inj (hdr.symm.trans hx)
        refine ⟨hv,by rw [hrecv,hproc]; rfl,?_,by dsimp only; omega⟩
        dsimp only
        omega
      · exact absurd (hdr.symm.trans hx) (by simp)
    · refine hn.same (SameMessages.trans (m := n') ⟨rfl,rfl,rfl,rfl,?_,id,rfl⟩
        (process_messages n' hdc m.2 true))
      simp [n',hdc]
  · rename_i hno
    refine hn.endDrain d fun h hx hdc => .inl ?_
    subst d
    cases hms : h.messages with
    | nil => rfl
    | cons m ms =>
      obtain ⟨ms',size⟩ := h
      obtain ⟨x,length⟩ := m
      obtain rfl : ms' = _ := hms
      exact absurd hx (hno x length ms size)

theorem exec_tracked {cfg : TaskSettings C I Q P} (hw : n.Wired up) (hn : n.Tracked limit c)
    {f : Frame C I Q P} (hf : ∀ d b, f = .forget d b → n.made d = true ∧ d ∉ n.allConnections) :
    (n.exec cfg f).1.Tracked limit c := by
  unfold exec
  split
  · rename_i d cs m
    unfold sendNext
    split
    · exact (connectionError_messages hw c d _).elim hn.same hn.loses
    · exact hn.same (enqueue_messages n c d m)
  · rename_i d b s ss
    exact hn.same (unsubscribe_messages n c d b s)
  · rename_i d
    exact drainNext_tracked hw hn d
  · rename_i d
    have hwe := hw.shrinks (endDrain_shrinks n d)
    by_cases hdc : d = c
    · subst d
      by_cases hc : c ∈ (n.endDrain c).connections true
      · have h := connectionError_loses hwe hc
        exact hn.loses {h with}
      · have hend := hn.endDrain c fun h hx _ => .inr fun hl => hc ?_
        · unfold connectionError
          rw [if_neg hc]
          exact hend
        · rw [← hw.mem_connections,(hw.draining c (by simp [hx])).2] at hl
          exact hl
    · have hend := hn.endDrain d fun h _ he => absurd he hdc
      exact (connectionError_messages hwe c d true).elim hend.same hend.loses
  · rename_i d b
    obtain ⟨hm,hd⟩ := hf d b rfl
    exact (forget_messages c d hm hd).elim hn.same hn.loses
  all_goals exact hn

omit [DecidableEq I] [DecidableEq Q] in
theorem connectionError_missed (hn : n.Missed c) (d : C) (b : Bool) :
    (n.connectionError d b).1.Missed c := by
  refine hn.shrinks (connectionError_shrinks n d b) ?_
  unfold connectionError
  split <;> rfl

theorem process_missed (hn : n.Missed c) (d : C) {m : Message I Q P} (hm : isRouted m = true)
    (b : Bool) : (n.process d m b).1.Missed c :=
  hn.mono id rfl fun hp => by rw [n.process_check d hm b]; exact hp

theorem onReceive_missed (cfg : TaskSettings C I Q P) (hn : n.Missed c) (d : C)
    (m : Message I Q P) : (n.onReceive cfg d m).1.Missed c := by
  unfold onReceive
  split
  · rename_i hm
    have hlog : Missed c {n with received := Function.update n.received d (n.received d++[m])} := hn
    split
    · exact process_missed hlog d hm _
    · split
      · exact connectionError_missed hlog d _
      · exact hlog.shrinks (hold_shrinks _ d ⟨m,hm⟩ (cfg.length m)) rfl
  · rename_i hm
    exact hn.shrinks (handleMessage_shrinks n d (by simpa using hm) _) rfl

theorem exec_missed (cfg : TaskSettings C I Q P) (hn : n.Missed c) (f : Frame C I Q P) :
    (n.exec cfg f).1.Missed c := by
  unfold exec
  split
  · unfold sendNext
    split
    · exact connectionError_missed hn _ _
    · exact hn
  · rename_i d b s ss
    exact hn.shrinks (unsubscribe_shrinks n d b s) rfl
  · rename_i d
    unfold drainNext
    split
    · rename_i m length ms size hd
      have hpop : Missed c {n with
        draining := Function.update n.draining d (some ⟨ms,size-length⟩)} := hn
      exact process_missed hpop d m.2 true
    · exact hn
  · rename_i d
    have hend : (n.endDrain d).Missed c := hn
    exact connectionError_missed hend d true
  · rename_i d b
    exact hn.shrinks (forget_shrinks n d) rfl
  all_goals exact hn

end WiredNode

namespace NodeTasks

variable [DecidableEq C] [DecidableEq K] [DecidableEq I] [DecidableEq Q]
variable {cfg : TaskSettings C I Q P} {s t : NodeTasks C K I Q P} {a : TaskAction C K I Q P}
  {c : C}

/-- Nothing to be routed is read from the connection once it is not listed any more, unless it is
held like what was read before, or all of that has been processed. -/
def ReadsNext (cfg : TaskSettings C I Q P) (c : C) (s : NodeTasks C K I Q P) :
    TaskAction C K I Q P → Prop
  | .receive d m => isRouted m = true → d = c → s.node.NextOf cfg c m
  | _ => True

omit [DecidableEq K] in
theorem Work.tracked {out : Option (Frame C I Q P)} {r : WiredNode C I Q P × List (Frame C I Q P)}
    (h : s.Work cfg a out r) (hs : s.Wired cfg.fromUpstream) (hout : ∀ f, out = some f → s.Has f)
    (hc : cfg.fromUpstream c = true) (hok : s.ReadsNext cfg c a)
    (hn : s.node.Tracked cfg.heldMessagesLimit c) : r.1.Tracked cfg.heldMessagesLimit c := by
  have hw := hs.node
  cases h with
  | establish d hd hu => exact WiredNode.establish_tracked hw hn hd
  | accept d hd hu =>
    have hcd : c ≠ d := by rintro rfl; simp [hc] at hu
    exact hn.same (s.node.accept_messages hcd)
  | receive d m hr => exact WiredNode.onReceive_tracked hw hn hr m hok
  | loopFailed d hr =>
    have hrest := WiredNode.Rests.endLoop s.node d
    have hn' := hn.same (hrest.sameMessages c)
    exact (WiredNode.connectionError_messages (hw.shrinks hrest.shrinks) c d _).elim hn'.same hn'.loses
  | sendFailed d => exact (WiredNode.connectionError_messages hw c d _).elim hn.same hn.loses
  | activate d p hp hv => exact WiredNode.activate_tracked hn hp
  | abandon d hu hv =>
    have hn' := hn.refused d hv
    have hw' : WiredNode.Wired cfg.fromUpstream
        {s.node with verdict := Function.update s.node.verdict d (some false)} :=
      hw.shrinks {WiredNode.Shrinks.refl s.node with}
    exact (WiredNode.connectionError_messages hw' c d true).elim hn'.same hn'.loses
  | closeConnection k d hd => exact hn.same (WiredNode.unlist_messages s.node c d _)
  | send k ts m hm => exact hn
  | exec f _ =>
    refine WiredNode.exec_tracked hw hn fun d b hf => ?_
    exact hs.forgets d b (hout _ (by rw [hf]))

theorem step_tracked (h : step cfg s a = some t) (hs : s.Wired cfg.fromUpstream)
    (hc : cfg.fromUpstream c = true) (hok : s.ReadsNext cfg c a)
    (hn : s.node.Tracked cfg.heldMessagesLimit c) : t.node.Tracked cfg.heldMessagesLimit c := by
  rcases step_cases h with h | ⟨out,r,hw,hr,hf⟩
  · exact hn.same (h.rests.sameMessages c)
  · exact hr ▸ hw.tracked hs hf.out hc hok hn

omit [DecidableEq K] in
/-- A connection that its check has not accepted in time never is. -/
theorem Work.missed {out : Option (Frame C I Q P)} {r : WiredNode C I Q P × List (Frame C I Q P)}
    (h : s.Work cfg a out r) (hn : s.node.Missed c) : r.1.Missed c := by
  cases h with
  | establish d hd hu =>
    have hdc : c ≠ d := by rintro rfl; simp [hn.1] at hd
    refine hn.mono (fun hm => ?_) rfl fun hp => ?_
    · simpa [WiredNode.establish,hdc] using hm
    · simpa [WiredNode.establish,WiredNode.setNode,PubSubNode.establish,hdc] using hp
  | accept d hd hu =>
    have hdc : c ≠ d := by rintro rfl; simp [hn.1] at hd
    exact hn.mono (fun hm => by simpa [WiredNode.accept,hdc] using hm) rfl id
  | receive d m hr => exact WiredNode.onReceive_missed cfg hn d m
  | loopFailed d hr =>
    have hn' : (s.node.setNode (s.node.endLoop d)).Missed c := hn
    exact WiredNode.connectionError_missed hn' d _
  | sendFailed d => exact WiredNode.connectionError_missed hn d _
  | activate d p hp hv =>
    have hdc : c ≠ d := by
      rintro rfl
      rcases hn.2 with h | ⟨h,-⟩
      · simp [hv] at h
      · simp [hp] at h
    refine ⟨hn.1,?_⟩
    simpa [WiredNode.activate,hdc] using hn.2
  | abandon d hu hv =>
    have hn' : WiredNode.Missed c
        {s.node with verdict := Function.update s.node.verdict d (some false)} := by
      refine ⟨hn.1,?_⟩
      by_cases hdc : c = d
      · exact .inl (by simp [hdc])
      · simpa [hdc] using hn.2
    exact WiredNode.connectionError_missed hn' d true
  | closeConnection k d hd => exact hn.shrinks (WiredNode.unlist_shrinks s.node d _) rfl
  | send k ts m hm => exact hn
  | exec f _ => exact WiredNode.exec_missed cfg hn f

theorem step_missed (h : step cfg s a = some t) (hn : s.node.Missed c) : t.node.Missed c := by
  rcases step_cases h with h | ⟨out,r,hw,hr,-⟩
  · exact hn.shrinks h.rests.shrinks h.rests.verdict
  · exact hr ▸ hw.missed hn

/-- The messages of an established connection are processed in order, only once its check has
accepted it, and never if it has been refused or lost before, as long as what is read from it is
the next message to process or to hold. -/
theorem messages_in_order {as bs : List (TaskAction C K I Q P)} {i : I} {s t : NodeTasks C K I Q P}
    (hs : run (step cfg) (init i) as = some s) (ht : run (step cfg) s bs = some t)
    (hc : cfg.fromUpstream c = true) (hok : Guarded (step cfg) (ReadsNext cfg c) (init i) (as++bs)) :
    t.node.InOrder cfg.heldMessagesLimit c ∧ (s.node.Missed c → t.node.processed c = []) := by
  have hrun : run (step cfg) (init i) (as++bs) = some t := by rw [run_append,hs]; exact ht
  have hinv := run_invariant
    (I := fun s => s.Wired cfg.fromUpstream ∧ s.node.Tracked cfg.heldMessagesLimit c)
    (fun s a t hs ha h => ⟨step_wired h hs.1,step_tracked h hs.1 hc ha hs.2⟩)
    ⟨init_wired cfg.fromUpstream i,WiredNode.new_tracked i⟩ hok hrun
  refine ⟨hinv.2.inOrder,fun hm => ?_⟩
  exact (run_invariant_always (fun s a t hs h => step_missed h hs) hm ht).processed hinv.2

/-- A connection is accepted while it holds a message. -/
theorem messages_in_order_held :
    ∃ s t : NodeTasks (Fin 1) (Fin 1) (Fin 1) (Fin 1) (Fin 1),
      run (step ⟨⟨⟨5,9,fun _ => 1⟩,fun _ => true⟩,9⟩) (init 0) [.establish 0,.run,.run,.run,
        .receive 0 (.publish [97] 0),.run] = some s ∧
      run (step ⟨⟨⟨5,9,fun _ => 1⟩,fun _ => true⟩,9⟩) s [.activate 0,.run] = some t ∧
      (t.node.InOrder 9 0 ∧ (s.node.Missed 0 → t.node.processed 0 = [])) ∧
      t.node.processed 0 = [.publish [97] 0] := by
  refine ⟨_,_,rfl,rfl,?_,rfl⟩
  exact messages_in_order (C := Fin 1) (K := Fin 1) (I := Fin 1) (Q := Fin 1) (P := Fin 1)
    (show run (step ⟨⟨⟨5,9,fun _ => 1⟩,fun _ => true⟩,9⟩) (init 0) [.establish 0,.run,.run,.run,
      .receive 0 (.publish [97] 0),.run] = some _ from rfl)
    (show run (step ⟨⟨⟨5,9,fun _ => 1⟩,fun _ => true⟩,9⟩) _ [.activate 0,.run] = some _ from rfl)
    rfl ⟨trivial,trivial,trivial,trivial,fun _ _ => .inl (by decide),trivial,trivial,trivial,trivial⟩

/-- The relay loop of a connection drops it, and reads it on. -/
theorem not_messages_in_order :
    ∃ t : NodeTasks (Fin 1) (Fin 1) (Fin 1) (Fin 1) (Fin 1),
      run (step ⟨⟨⟨5,0,fun _ => 1⟩,fun _ => true⟩,9⟩) (init 0) [.establish 0,.run,.run,.run,
        .receive 0 (.publish [97] 0),.run,.run,.wake (.loop 0),.run,
        .receive 0 (.publish [98] 0)] = some t ∧
      t.node.received 0 = [.publish [97] 0,.publish [98] 0] ∧
      t.node.processed 0 = [.publish [98] 0] ∧ t.node.verdict 0 = none ∧ ¬t.node.InOrder 0 0 :=
  ⟨_,rfl,rfl,rfl,rfl,fun h => nomatch h.gated (by decide)⟩

end NodeTasks
end SoftwareBus
