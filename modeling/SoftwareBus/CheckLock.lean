import SoftwareBus.CheckTasks
import SoftwareBus.CheckInvariant

/-! The lock of the cycle check, and what a check leaves behind, while `establish_connection`
calls take turns, lose their connections and are cancelled. -/
namespace SoftwareBus

open Transition

variable {C I Q P : Type}

namespace CheckState

/-- No connection gets pending or draining, and no query of the node's own is opened. -/
structure Calm (n m : CheckState C I Q P) : Prop where
  checking : m.checking = n.checking
  pending : ∀ c, (m.pending c).isSome → (n.pending c).isSome
  draining : ∀ c, (m.draining c).isSome → (n.draining c).isSome
  own : ∀ q o, m.queries q = some o → o.source = none →
    ∃ o', n.queries q = some o' ∧ o'.source = none

variable {n m l : CheckState C I Q P}

theorem Calm.refl (n : CheckState C I Q P) : n.Calm n :=
  ⟨rfl,fun _ => id,fun _ => id,fun _ o hq ho => ⟨o,hq,ho⟩⟩

theorem Calm.trans (h : n.Calm m) (g : m.Calm l) : n.Calm l := by
  refine ⟨g.checking.trans h.checking,fun c hc => h.pending c (g.pending c hc),
    fun c hc => h.draining c (g.draining c hc),fun q o hq ho => ?_⟩
  obtain ⟨o',hq',ho'⟩ := g.own q o hq ho
  exact h.own q o' hq' ho'

theorem Calm.of_queries (hk : m.checking = n.checking)
    (hp : ∀ c, (m.pending c).isSome → (n.pending c).isSome)
    (hd : ∀ c, (m.draining c).isSome → (n.draining c).isSome) (hq : m.queries = n.queries) :
    n.Calm m := ⟨hk,hp,hd,fun _ o ho hs => ⟨o,hq ▸ ho,hs⟩⟩

variable [DecidableEq C]

theorem forgetConnection_calm (n : CheckState C I Q P) (c : C) : n.Calm (n.forgetConnection c) := by
  refine ⟨rfl,fun d hd => ?_,fun d hd => ?_,fun q o hq ho => ?_⟩
  · by_cases hdc : d = c <;> simp_all [forgetConnection]
  · by_cases hdc : d = c <;> simp_all [forgetConnection]
  · obtain ⟨o',hq',rfl⟩ := Option.map_eq_some_iff.mp hq
    exact ⟨o',hq',ho⟩

theorem unlist_calm (n : CheckState C I Q P) (c : C) (b : Bool) : n.Calm (n.unlist c b) :=
  .of_queries (by simp) (by simp) (by simp) (by simp)

theorem dropped_calm (n : CheckState C I Q P) (c : C) (b : Bool) : n.Calm (n.dropped c b) := by
  unfold dropped
  split
  · exact (unlist_calm n c b).trans (forgetConnection_calm _ c)
  · exact .refl n

theorem hold_calm (n : CheckState C I Q P) (c : C) (m : {m : Message I Q P // isRouted m = true})
    (length : ℕ) : n.Calm (n.hold c m length) := by
  unfold hold
  split
  · rename_i p hp
    refine .of_queries rfl (fun d => ?_) (fun _ => id) rfl
    by_cases hdc : d = c <;> simp [hdc,hp]
  · refine .of_queries rfl (fun _ => id) (fun d => ?_) rfl
    by_cases hdc : d = c <;> simp [hdc]

omit [DecidableEq C] in
theorem openQuery_calm [DecidableEq Q] {q : Q} {o : OpenQuery C I}
    (ho : o.source = none → ∃ o', n.queries q = some o' ∧ o'.source = none) :
    n.Calm (n.openQuery q o) := by
  refine ⟨rfl,fun _ => id,fun _ => id,fun q' o' hq' hs => ?_⟩
  by_cases hqq : q' = q
  · subst q'
    obtain rfl : o = o' := by simpa [openQuery] using hq'
    exact ho hs
  · exact ⟨o',by simpa [openQuery,hqq] using hq',hs⟩

omit [DecidableEq C] in
theorem closeQuery_calm [DecidableEq Q] (n : CheckState C I Q P) (q : Q) :
    n.Calm (n.closeQuery q) := by
  refine ⟨rfl,fun _ => id,fun _ => id,fun q' o' hq' hs => ?_⟩
  by_cases hqq : q' = q <;> simp [closeQuery,hqq] at hq'
  exact ⟨o',hq',hs⟩

variable [DecidableEq I] [DecidableEq Q] {up : C → Bool} {ev : NodeEvent C I Q P}
  {fs : List (C × Message I Q P)}

theorem Effect.calm (he : Effect up n ev m fs) (hev : ev.other = true) : n.Calm m := by
  cases he with
  | routed c x hx => exact .refl n
  | held c x length => exact hold_calm n c x length
  | overLimit c x hx => exact dropped_calm n c _
  | hello c i =>
    obtain ⟨pending,he,hp,-⟩ := handleHello_eq n c i
    rw [he]
    exact .of_queries rfl (fun d hd => hp d ▸ hd) (fun _ => id) rfl
  | answered c q i r hr => exact .refl n
  | noTargets c q i hr ht => exact .refl n
  | opened c q i hr ht => exact openQuery_calm (by simp)
  | replied c q r =>
    unfold handleReply
    split
    · exact .refl n
    · rename_i o ho
      exact openQuery_calm fun hs => ⟨o,ho,hs⟩
  | lost c goesOn => exact dropped_calm n c _
  | closeConnection c hc => exact {unlist_calm n c (up c) with}
  | closed c hc => exact {forgetConnection_calm n c with}
  | forwarded q query t source hq => exact openQuery_calm (by simp)
  | forwardEnded ev q query t source r hq hev => exact closeQuery_calm n q
  | refused ev c hev' =>
    simp only [List.mem_cons,List.not_mem_nil,or_false] at hev'
    rcases hev' with rfl | ⟨rfl | rfl,-⟩ <;> simp [NodeEvent.other] at hev
  | queryEnded ev c p k q r hc hev' =>
    rcases hev' with ⟨rfl,-⟩ | ⟨rfl,-⟩ <;> simp [NodeEvent.other] at hev
  | _ => simp [NodeEvent.other] at hev

end CheckState

namespace PubSubNode

variable [DecidableEq C] (n : PubSubNode C I Q P)

theorem connectionError_calm (c : C) (b : Bool) : n.Calm (n.connectionError c b).1.toCheckState := by
  rw [(connectionError_effect n c b).1]
  exact CheckState.dropped_calm n.toCheckState c b

theorem giveUp_calm (c : C) (r : Option Refusal) : n.Calm (n.giveUp c r).toCheckState := by
  unfold giveUp
  split
  · exact connectionError_calm {n with refused := Function.update n.refused c r} c true
  · exact .refl n.toCheckState

theorem connectionError_pending {c : C} (hc : c ∈ n.upstreamConnections) :
    (n.connectionError c true).1.pending c = none := by
  rw [(connectionError_effect n c true).1,CheckState.dropped,if_pos (by exact hc)]
  simp [CheckState.forgetConnection]

theorem giveUp_pending {c : C} (r : Option Refusal)
    (hc : (n.pending c).isSome → c ∈ n.upstreamConnections) : (n.giveUp c r).pending c = none := by
  unfold giveUp
  split
  · rename_i hl
    exact connectionError_pending {n with refused := Function.update n.refused c r} hl
  · rename_i hl
    simpa using fun h => hl (hc h)

theorem endDrain_calm (c : C) : n.Calm (n.endDrain c).toCheckState := by
  refine .of_queries rfl (fun _ => id) (fun d => ?_) rfl
  by_cases hdc : d = c <;> simp [endDrain,hdc]

end PubSubNode

/-- The call goes on with a check that has not accepted its connection. -/
def CheckCall.checks {I : Type} : CheckCall I → Bool
  | .acquiring | .awaitHello | .sleeping _ _ | .asking _ _ | .cleaning _ => true
  | .greeting | .activating | .leaving => false

namespace CheckTasks

/-- The check of the connection is between acquiring and releasing the lock. -/
def holds (s : CheckTasks C I Q P) (c : C) : Bool :=
  match s.call c,s.task c with
  | some .acquiring,some (.returned _) => true
  | some call,_ => call.holds
  | none,_ => false

/-- What is left of the checks once no `establish_connection` call is running. -/
structure AtRest (s : CheckTasks C I Q P) : Prop where
  unlocked : s.locked = false
  checking : s.node.checking = false
  pending : ∀ c, s.node.pending c = none
  draining : ∀ c, s.node.draining c = none
  own : ∀ q o, s.node.queries q = some o → o.source ≠ none

/-- The lock is held by one check, and whatever is kept for a check belongs to a call that will
clear it. -/
structure Kept (s : CheckTasks C I Q P) : Prop where
  locked : s.locked = true ↔ ∃ c, s.holds c = true
  one : ∀ c d, s.holds c = true → s.holds d = true → c = d
  asking : ∀ c q, s.task c = some (.asking q) →
    (∃ p k, s.call c = some (.asking p k)) ∨ s.call c = some (.cleaning true)
  checking : s.node.checking = true → ∃ c q, s.task c = some (.asking q)
  own : ∀ q o, s.node.queries q = some o → o.source = none → ∃ c, s.task c = some (.asking q)
  pending : ∀ c, (s.node.pending c).isSome → ∃ k, s.call c = some k ∧ k.checks = true
  draining : ∀ c, (s.node.draining c).isSome → s.call c = some .activating
  made : ∀ c, s.made c = false → s.call c = none

variable {s t : CheckTasks C I Q P}

theorem holds_none {c : C} (h : s.call c = none) : s.holds c = false := by
  simp [holds,h]

theorem Kept.atRest (h : s.Kept) (hc : ∀ c, s.call c = none) : s.AtRest := by
  have idle (c : C) (q : Q) (ht : s.task c = some (.asking q)) : False := by
    rcases h.asking c q ht with ⟨p,k,hk⟩ | hk <;> simp [hc] at hk
  refine ⟨?_,?_,fun c => ?_,fun c => ?_,fun q o hq ho => ?_⟩
  · rw [Bool.eq_false_iff,ne_eq,h.locked]
    rintro ⟨c,hh⟩
    simp [holds_none (hc c)] at hh
  · rw [Bool.eq_false_iff]
    intro hk
    obtain ⟨c,q,ht⟩ := h.checking hk
    exact idle c q ht
  · by_contra hp
    obtain ⟨k,hk,-⟩ := h.pending c (Option.isSome_iff_ne_none.mpr hp)
    simp [hc] at hk
  · by_contra hd
    have hk := h.draining c (Option.isSome_iff_ne_none.mpr hd)
    simp [hc] at hk
  · obtain ⟨c,ht⟩ := h.own q o hq ho
    exact idle c q ht

variable [DecidableEq C]

omit [DecidableEq C] in
theorem init_kept [DecidableEq I] [DecidableEq Q] (i : I) : (init i : CheckTasks C I Q P).Kept := by
  refine ⟨by simp [init,holds],?_,?_,?_,?_,?_,?_,fun _ _ => rfl⟩ <;> simp [init,holds,PubSubNode.new]

structure Only (c : C) (s t : CheckTasks C I Q P) : Prop where
  call : ∀ d, d ≠ c → t.call d = s.call d
  task : ∀ d, d ≠ c → t.task d = s.task d
  pending : ∀ d, d ≠ c → (t.node.pending d).isSome → (s.node.pending d).isSome
  draining : ∀ d, d ≠ c → (t.node.draining d).isSome → (s.node.draining d).isSome
  made : ∀ d, t.made d = false → s.made d = false

omit [DecidableEq C] in
theorem Only.holds {c d : C} (ho : Only c s t) (hd : d ≠ c) : t.holds d = s.holds d := by
  simp [CheckTasks.holds,ho.call d hd,ho.task d hd]

/-- What one call does keeps the invariant if it does so for its own connection. -/
theorem Kept.only (h : s.Kept) {c : C} (ho : Only c s t)
    (hlocked : t.locked = true ↔ t.holds c = true ∨ s.locked = true ∧ s.holds c = false)
    (hone : t.holds c = true → s.holds c = true ∨ s.locked = false)
    (hasking : ∀ q, t.task c = some (.asking q) →
      (∃ p k, t.call c = some (.asking p k)) ∨ t.call c = some (.cleaning true))
    (hchecking : t.node.checking = true → (∃ q, t.task c = some (.asking q)) ∨
      s.node.checking = true ∧ ∀ q, s.task c ≠ some (.asking q))
    (hown : ∀ q o, t.node.queries q = some o → o.source = none → t.task c = some (.asking q) ∨
      s.task c ≠ some (.asking q) ∧ ∃ o', s.node.queries q = some o' ∧ o'.source = none)
    (hpending : (t.node.pending c).isSome → ∃ k, t.call c = some k ∧ k.checks = true)
    (hdraining : (t.node.draining c).isSome → t.call c = some .activating)
    (hmade : t.made c = false → t.call c = none) : t.Kept := by
  have hother (d : C) (hd : d ≠ c) (hh : t.holds d = true) (hc : t.holds c = true) : False := by
    rw [ho.holds hd] at hh
    rcases hone hc with hc | hl
    · exact hd (h.one d c hh hc)
    · simp [h.locked.mpr ⟨d,hh⟩] at hl
  refine ⟨hlocked.trans ⟨?_,?_⟩,fun d e hd he => ?_,fun d q ht => ?_,fun hk => ?_,fun q o hq hs => ?_,
    fun d hp => ?_,fun d hp => ?_,fun d hm => ?_⟩
  · rintro (hc | ⟨hl,hc⟩)
    · exact ⟨c,hc⟩
    · obtain ⟨d,hd⟩ := h.locked.mp hl
      have hdc : d ≠ c := by rintro rfl; simp [hc] at hd
      exact ⟨d,by rw [ho.holds hdc]; exact hd⟩
  · rintro ⟨d,hd⟩
    by_cases hdc : d = c
    · exact .inl (hdc ▸ hd)
    · rw [ho.holds hdc] at hd
      refine .inr ⟨h.locked.mpr ⟨d,hd⟩,?_⟩
      rw [Bool.eq_false_iff]
      exact fun hc => hdc (h.one d c hd hc)
  · by_cases hdc : d = c
    · subst d
      by_contra hec
      exact hother e (Ne.symm hec) he hd
    · by_cases hec : e = c
      · subst e
        exact (hother d hdc hd he).elim
      · rw [ho.holds hdc] at hd
        rw [ho.holds hec] at he
        exact h.one d e hd he
  · by_cases hdc : d = c
    · subst d
      exact hasking q ht
    · rw [ho.call d hdc]
      exact h.asking d q (by rw [← ho.task d hdc]; exact ht)
  · rcases hchecking hk with ⟨q,hq⟩ | ⟨hk,hno⟩
    · exact ⟨c,q,hq⟩
    · obtain ⟨d,q,hd⟩ := h.checking hk
      have hdc : d ≠ c := by rintro rfl; exact hno q hd
      exact ⟨d,q,by rw [ho.task d hdc]; exact hd⟩
  · rcases hown q o hq hs with hc | ⟨hno,o',hq',hs'⟩
    · exact ⟨c,hc⟩
    · obtain ⟨d,hd⟩ := h.own q o' hq' hs'
      have hdc : d ≠ c := by rintro rfl; exact hno hd
      exact ⟨d,by rw [ho.task d hdc]; exact hd⟩
  · by_cases hdc : d = c
    · subst d
      exact hpending hp
    · rw [ho.call d hdc]
      exact h.pending d (ho.pending d hdc hp)
  · by_cases hdc : d = c
    · subst d
      exact hdraining hp
    · rw [ho.call d hdc]
      exact h.draining d (ho.draining d hdc hp)
  · by_cases hdc : d = c
    · subst d
      exact hmade hm
    · rw [ho.call d hdc]
      exact h.made d (ho.made d hm)

theorem Kept.quiet (h : s.Kept) {c : C} (ho : Only c s t)
    (hlocked : t.locked = true ↔ t.holds c = true ∨ s.locked = true ∧ s.holds c = false)
    (hone : t.holds c = true → s.holds c = true ∨ s.locked = false)
    (hask : ∀ q, t.task c = some (.asking q) ↔ s.task c = some (.asking q))
    (hcall : ∀ q, s.task c = some (.asking q) →
      (∃ p k, t.call c = some (.asking p k)) ∨ t.call c = some (.cleaning true))
    (hchecking : t.node.checking = s.node.checking)
    (hown : ∀ q o, t.node.queries q = some o → o.source = none →
      ∃ o', s.node.queries q = some o' ∧ o'.source = none)
    (hpending : (t.node.pending c).isSome → ∃ k, t.call c = some k ∧ k.checks = true)
    (hdraining : (t.node.draining c).isSome → t.call c = some .activating)
    (hmade : t.made c = false → t.call c = none) : t.Kept := by
  refine h.only ho hlocked hone (fun q hq => hcall q ((hask q).mp hq)) (fun hk => ?_)
    (fun q o hq hs => ?_) hpending hdraining hmade
  · by_cases hq : ∃ q, s.task c = some (.asking q)
    · exact .inl (hq.imp fun q => (hask q).mpr)
    · exact .inr ⟨hchecking ▸ hk,fun q hc => hq ⟨q,hc⟩⟩
  · by_cases hc : s.task c = some (.asking q)
    · exact .inl ((hask q).mpr hc)
    · exact .inr ⟨hc,hown q o hq hs⟩

omit [DecidableEq C] in
theorem holds_some {c : C} {k : CheckCall I} (hc : s.call c = some k)
    (hk : k = .acquiring → ∀ r, s.task c ≠ some (.returned r)) : s.holds c = k.holds := by
  unfold holds
  split
  · rename_i r hc' ht
    exact absurd ht (hk (Option.some.inj (hc.symm.trans hc')) r)
  · rename_i k' hc' _
    rw [Option.some.inj (hc.symm.trans hc')]
  · rename_i hc'
    simp [hc] at hc'

omit [DecidableEq C] in
theorem Kept.locked_iff (h : s.Kept) (c : C) :
    s.locked = true ↔ s.holds c = true ∨ s.locked = true ∧ s.holds c = false := by
  constructor
  · intro hl
    cases hc : s.holds c <;> simp [hl]
  · rintro (hc | ⟨hl,-⟩)
    · exact h.locked.mpr ⟨c,hc⟩
    · exact hl

omit [DecidableEq C] in
/-- Once a call has let go of the lock, it is free if the call held it. -/
theorem released {c : C} (release : Bool) (hr : s.holds c = release)
    (hc : t.holds c = false) (hl : t.locked = if release = true then false else s.locked) :
    t.locked = true ↔ t.holds c = true ∨ s.locked = true ∧ s.holds c = false := by
  rw [hl,hc,hr]
  cases release <;> simp

omit [DecidableEq C] in
theorem Kept.not_asking (h : s.Kept) {c : C} {k : CheckCall I} (hc : s.call c = some k)
    (hk : (∀ p j, k ≠ .asking p j) ∧ k ≠ .cleaning true) (q : Q) : s.task c ≠ some (.asking q) := by
  intro ht
  rcases h.asking c q ht with ⟨p,j,he⟩ | he
  · exact hk.1 p j (Option.some.inj (hc.symm.trans he))
  · exact hk.2 (Option.some.inj (hc.symm.trans he))

omit [DecidableEq C] in
theorem Kept.not_pending (h : s.Kept) {c : C} {k : CheckCall I} (hc : s.call c = some k)
    (hk : k.checks = false) : s.node.pending c = none := by
  by_contra hp
  obtain ⟨k',hc',hk'⟩ := h.pending c (Option.isSome_iff_ne_none.mpr hp)
  obtain rfl := Option.some.inj (hc.symm.trans hc')
  simp [hk] at hk'

omit [DecidableEq C] in
theorem Kept.not_draining (h : s.Kept) {c : C} (hc : s.call c ≠ some .activating) :
    s.node.draining c = none := by
  by_contra hd
  exact hc (h.draining c (Option.isSome_iff_ne_none.mpr hd))

omit [DecidableEq C] in
theorem Kept.made_true (h : s.Kept) {c : C} {k : CheckCall I} (hc : s.call c = some k) :
    s.made c = true := by
  by_contra hm
  simp [h.made c (by simpa using hm)] at hc

/-- A turn that keeps the lock with the call, or leaves nothing of the check behind. -/
def Allows (s : CheckTasks C I Q P) (c : C) (call : CheckCall I) : CheckTurn I Q P → Prop
  | .wait k => k.checks = true ∧ call ≠ .activating ∧ k ≠ .acquiring ∧ k.holds = s.holds c ∧
      ∀ q, s.task c = some (.asking q) → k = .cleaning true
  | .start k => k.checks = true ∧ call ≠ .activating ∧ s.holds c = true ∧ k.holds = true ∧
      ∀ q, s.task c ≠ some (.asking q)
  | .accept _ => s.holds c = true ∧ ∀ q, s.task c ≠ some (.asking q)
  | .drain => call = .activating
  | .fail _ release => s.holds c = release ∧ (∀ q, s.task c ≠ some (.asking q)) ∧
      ((s.node.pending c).isSome → c ∈ s.node.upstreamConnections)
  | .leave => call = .greeting ∨ call = .leaving

variable [DecidableEq I] [DecidableEq Q]

@[simp] theorem take_made (s : CheckTasks C I Q P) (c : C) (turn : CheckTurn I Q P) :
    (s.take c turn).made = s.made := by
  cases turn with
  | drain => simp only [take]; split <;> rfl
  | _ => rfl

section Turns

variable {c : C} {call k : CheckCall I}

theorem wait_kept (h : s.Kept) (hc : s.call c = some call) (ha : s.Allows c call (.wait k)) :
    (s.take c (.wait k)).Kept := by
  have hmade := h.made_true hc
  obtain ⟨hk,hact,hacq,hheld,hask⟩ := ha
  have hcall : (s.take c (.wait k)).call c = some k := by simp [take]
  have hholds : (s.take c (.wait k)).holds c = s.holds c := by
    rw [holds_some hcall fun he => absurd he hacq,hheld]
  refine h.quiet (c := c) ⟨fun d hd => by simp [take,hd],fun _ _ => rfl,fun _ _ => id,fun _ _ => id,
    fun _ => id⟩ ?_ ?_ (fun _ => Iff.rfl) (fun q hq => .inr (by rw [hcall,hask q hq])) rfl
    (fun q o hq hs => ⟨o,hq,hs⟩) (fun _ => ⟨k,hcall,hk⟩) (fun hd => ?_)
    (fun hm => by simp [hmade] at hm)
  · rw [hholds]
    exact h.locked_iff c
  · rw [hholds]
    exact .inl
  · have hno := h.not_draining (c := c) (by rw [hc]; simpa using hact)
    simp [take,hno] at hd

theorem start_kept (h : s.Kept) (hc : s.call c = some call) (ha : s.Allows c call (.start k)) :
    (s.take c (.start k)).Kept := by
  have hmade := h.made_true hc
  obtain ⟨hk,hact,hheld,hkh,hask⟩ := ha
  have hcall : (s.take c (.start k)).call c = some k := by simp [take]
  have hacq : k ≠ .acquiring := by rintro rfl; simp [CheckCall.holds] at hkh
  have hholds : (s.take c (.start k)).holds c = s.holds c := by
    rw [holds_some hcall fun he => absurd he hacq,hheld,hkh]
  refine h.quiet (c := c) ⟨fun d hd => by simp [take,hd],fun d hd => by simp [take,hd],fun _ _ => id,
    fun _ _ => id,fun _ => id⟩ ?_ ?_ (fun q => ?_) (fun q hq => absurd hq (hask q)) rfl
    (fun q o hq hs => ⟨o,hq,hs⟩) (fun _ => ⟨k,hcall,hk⟩) (fun hd => ?_)
    (fun hm => by simp [hmade] at hm)
  · rw [hholds]
    exact h.locked_iff c
  · rw [hholds]
    exact .inl
  · simp [take,hask q]
  · have hno := h.not_draining (c := c) (by rw [hc]; simpa using hact)
    simp [take,hno] at hd

theorem accept_kept {held : HeldMessages I Q P} (h : s.Kept) (hc : s.call c = some call)
    (ha : s.Allows c call (.accept held)) : (s.take c (.accept held)).Kept := by
  have hmade := h.made_true hc
  obtain ⟨hheld,hask⟩ := ha
  have hcall : (s.take c (.accept held)).call c = some .activating := by simp [take]
  have hholds : (s.take c (.accept held)).holds c = s.holds c := by
    rw [holds_some hcall (by simp),hheld]
    rfl
  refine h.quiet (c := c) ⟨fun d hd => by simp [take,hd],fun _ _ => rfl,
    fun d hd => by simp [take,hd],fun d hd => by simp [take,hd],fun _ => id⟩ ?_ ?_ (fun _ => Iff.rfl)
    (fun q hq => absurd hq (hask q)) rfl (fun q o hq hs => ⟨o,hq,hs⟩) (by simp [take])
    (fun _ => hcall) (fun hm => by simp [hmade] at hm)
  · rw [hholds]
    exact h.locked_iff c
  · rw [hholds]
    exact .inl

theorem drainNext_kept (h : s.Kept) (hc : s.call c = some .activating)
    (m : {m : Message I Q P // isRouted m = true}) (held : HeldMessages I Q P) :
    ({s with node := (PubSubNode.handleMessage
      {s.node with draining := Function.update s.node.draining c (some held)} c m.1 true).1} :
        CheckTasks C I Q P).Kept := by
  let n : PubSubNode C I Q P :=
    {s.node with draining := Function.update s.node.draining c (some held)}
  have hroutes := (PubSubNode.handleMessage_routes n c m.2 true).check
  have hpend := h.not_pending hc rfl
  refine h.quiet (c := c) (t := {s with node := (n.handleMessage c m.1 true).1})
    ⟨fun _ _ => rfl,fun _ _ => rfl,fun d hdc hp => ?_,fun d hdc hp => ?_,fun _ => id⟩
    (h.locked_iff c) .inl (fun _ => Iff.rfl) (fun q hq => absurd hq (h.not_asking hc (by simp) q))
    ?_ ?_ (fun hp => ?_) (fun _ => hc) fun hm => by simp [h.made_true hc] at hm
  · simpa [hroutes] using hp
  · simpa [hroutes,n,hdc] using hp
  · simp [hroutes,n]
  · rw [hroutes]
    exact fun q o hq hs => ⟨o,hq,hs⟩
  · simp [hroutes,n,hpend] at hp

omit [DecidableEq I] [DecidableEq Q] in
theorem drainEnd_kept (h : s.Kept) (hc : s.call c = some .activating) :
    ({s with node := s.node.endDrain c,locked := false,call := Function.update s.call c none} :
      CheckTasks C I Q P).Kept := by
  have hheld : s.holds c = true := holds_some hc (by simp)
  have hcalm := s.node.endDrain_calm c
  refine h.quiet (c := c) ⟨fun d hd => by simp [hd],fun _ _ => rfl,fun d _ => hcalm.pending d,
    fun d _ => hcalm.draining d,fun _ => id⟩ (released true hheld ?_ rfl) (fun _ => .inl hheld)
    (fun _ => Iff.rfl) (fun q hq => absurd hq (h.not_asking hc (by simp) q)) hcalm.checking
    hcalm.own (fun hp => ?_) (fun hd => ?_) fun _ => by simp
  · exact holds_none (by simp)
  · simpa [h.not_pending hc rfl] using hcalm.pending c hp
  · simp [PubSubNode.endDrain] at hd

theorem drain_kept (h : s.Kept) (hc : s.call c = some call) (ha : s.Allows c call .drain) :
    (s.take c .drain).Kept := by
  obtain rfl : call = .activating := ha
  simp only [take]
  split
  · exact drainNext_kept h hc _ _
  · exact drainEnd_kept h hc

omit [DecidableEq I] [DecidableEq Q] in
theorem Kept.leaveDrain (h : s.Kept) (c : C) :
    s.node.Calm (s.leaveDrain c).toCheckState ∧ (s.leaveDrain c).draining c = none ∧
      (s.leaveDrain c).pending = s.node.pending ∧
      (s.leaveDrain c).upstreamConnections = s.node.upstreamConnections := by
  unfold CheckTasks.leaveDrain
  split
  · exact ⟨s.node.endDrain_calm c,by simp [PubSubNode.endDrain],rfl,rfl⟩
  · rename_i hact
    exact ⟨.refl s.node.toCheckState,h.not_draining hact,rfl,rfl⟩

theorem fail_kept {r : Option Refusal} {release : Bool} (h : s.Kept) (hc : s.call c = some call)
    (ha : s.Allows c call (.fail r release)) : (s.take c (.fail r release)).Kept := by
  have hmade := h.made_true hc
  obtain ⟨hheld,hask,hlisted⟩ := ha
  obtain ⟨hleft,hdrain,hpending,hup⟩ := h.leaveDrain c
  have hgiven := (s.leaveDrain c).giveUp_calm c r
  have hcalm := hleft.trans hgiven
  have hpend : ((s.leaveDrain c).giveUp c r).pending c = none :=
    (s.leaveDrain c).giveUp_pending r (by rw [hpending,hup]; exact hlisted)
  have hnew : (s.take c (.fail r release)).holds c = false :=
    holds_some (k := .leaving) (by simp [take]) (by simp)
  refine h.quiet (c := c) ⟨fun d hd => by simp [take,hd],fun _ _ => rfl,fun d _ => hcalm.pending d,
    fun d _ => hcalm.draining d,fun _ => id⟩ (released _ hheld hnew rfl) (fun hh => ?_)
    (fun _ => Iff.rfl) (fun q hq => absurd hq (hask q)) hcalm.checking hcalm.own (fun hp => ?_)
    (fun hd => ?_) fun hm => by simp [hmade] at hm
  · simp [hnew] at hh
  · change (((s.leaveDrain c).giveUp c r).pending c).isSome at hp
    simp [hpend] at hp
  · simpa [hdrain] using hgiven.draining c hd

theorem leave_kept (h : s.Kept) (hc : s.call c = some call) (ha : s.Allows c call .leave) :
    (s.take c .leave).Kept := by
  have hchecks : call.checks = false := by rcases ha with rfl | rfl <;> rfl
  have hask := h.not_asking hc (by rcases ha with rfl | rfl <;> simp)
  have hheld : s.holds c = false := by
    rw [holds_some hc (by rcases ha with rfl | rfl <;> simp)]
    rcases ha with rfl | rfl <;> rfl
  have hnew : (s.take c .leave).holds c = false := holds_none (by simp [take])
  refine h.quiet (c := c) ⟨fun d hd => by simp [take,hd],fun _ _ => rfl,fun _ _ => id,fun _ _ => id,
    fun _ => id⟩ ?_ (fun hh => by simp [hnew] at hh) (fun _ => Iff.rfl)
    (fun q hq => absurd hq (hask q)) rfl (fun q o hq hs => ⟨o,hq,hs⟩) (fun hp => ?_) (fun hd => ?_)
    fun _ => by simp [take]
  · rw [hnew,hheld]
    simp [take]
  · simp [take,h.not_pending hc hchecks] at hp
  · have hact : s.call c ≠ some .activating := by
      rw [hc]
      rcases ha with rfl | rfl <;> simp
    simp [take,h.not_draining hact] at hd

theorem take_kept {turn : CheckTurn I Q P} (h : s.Kept) (hc : s.call c = some call)
    (ha : s.Allows c call turn) : (s.take c turn).Kept := by
  cases turn with
  | wait k => exact wait_kept h hc ha
  | start k => exact start_kept h hc ha
  | accept held => exact accept_kept h hc ha
  | drain => exact drain_kept h hc ha
  | fail r release => exact fail_kept h hc ha
  | leave => exact leave_kept h hc ha

end Turns

/-- No call is cancelled between the end of its `Lock.acquire` and where it goes on, or while its
own query is being cleaned up, and no check comes to an end without accepting its connection while
`close_connection` waits for the socket of that. -/
def GivesBack (cfg : Settings C I Q P) (s : CheckTasks C I Q P) (a : CheckAction C I Q P) : Prop :=
  (∀ c, a = .cancel c → (s.call c = some .acquiring → ∀ r, s.task c ≠ some (.returned r)) ∧
    ∀ b q, s.call c = some (.cleaning b) → s.task c ≠ some (.asking q)) ∧
  ∀ c r b, s.next cfg a = some (c,.fail r b) → (s.node.pending c).isSome →
    c ∈ s.node.upstreamConnections

omit [DecidableEq C] [DecidableEq I] [DecidableEq Q] in
theorem unlessLost_allows {c : C} {call k : CheckCall I} (hact : call ≠ .activating)
    (hheld : s.holds c = true) (hk : k.checks = true ∧ k.holds = true)
    (hask : ∀ q, s.task c ≠ some (.asking q)) : s.Allows c call (s.unlessLost c k) := by
  unfold unlessLost
  split
  · exact ⟨hk.1,hact,hheld,hk.2,hask⟩
  · rename_i hp
    exact ⟨hheld,hask,fun h => absurd h hp⟩

omit [DecidableEq C] [DecidableEq I] [DecidableEq Q] in
theorem attempt_allows {cfg : Settings C I Q P} {c : C} {call : CheckCall I} {p : I} {j : ℕ}
    (hact : call ≠ .activating) (hheld : s.holds c = true) (hask : ∀ q, s.task c ≠ some (.asking q))
    (hlisted : ∀ r b, s.attempt cfg c p j = .fail r b → (s.node.pending c).isSome →
      c ∈ s.node.upstreamConnections) : s.Allows c call (s.attempt cfg c p j) := by
  unfold attempt at hlisted ⊢
  split
  · refine unlessLost_allows hact hheld ?_ hask
    split <;> exact ⟨rfl,rfl⟩
  · rename_i hj
    exact ⟨hheld,hask,hlisted _ _ (if_neg hj)⟩

omit [DecidableEq C] [DecidableEq I] [DecidableEq Q] in
theorem lost_allows (h : s.Kept) {c : C} {call : CheckCall I} (hc : s.call c = some call)
    (hstep : call.stepping = true) {t : StepTask Q} (ht : s.task c = some t) (hdone : t.done = false) :
    s.Allows c call (.wait (.cleaning call.holds)) := by
  have hret (r : Option ReachabilityResult) : s.task c ≠ some (.returned r) := by
    rw [ht]
    rintro ⟨⟩
    simp [StepTask.done] at hdone
  refine ⟨rfl,by rintro rfl; simp [CheckCall.stepping] at hstep,by simp,
    (holds_some hc fun _ => hret).symm,fun q hq => ?_⟩
  rcases h.asking c q hq with ⟨p,k,hk⟩ | hk
  · obtain rfl := Option.some.inj (hc.symm.trans hk)
    rfl
  · obtain rfl := Option.some.inj (hc.symm.trans hk)
    simp [CheckCall.stepping] at hstep

section Turns

variable {cfg : Settings C I Q P} {c : C} {call : CheckCall I} {turn : CheckTurn I Q P}

omit [DecidableEq C] [DecidableEq I] [DecidableEq Q] in
theorem unfinished_allows (h : s.Kept) (hc : s.call c = some call) (hstep : call.stepping = true)
    {t : StepTask Q} (htask : s.task c = some t)
    (ht : (if call.stepping = true ∧ t.done = false ∧ s.node.pending c = none then
      some (CheckTurn.wait (.cleaning call.holds)) else none) = some turn) :
    s.Allows c call turn := by
  split_ifs at ht with hcond
  obtain rfl := Option.some.inj ht
  exact lost_allows h hc hstep htask hcond.2.1

omit [DecidableEq C] [DecidableEq Q] in
theorem acquiring_allows (h : s.Kept) (hc : s.call c = some .acquiring)
    (ht : s.turn cfg c = some turn) : s.Allows c .acquiring turn := by
  unfold CheckTasks.turn at ht
  cases htask : s.task c with
  | none => simp [hc,htask] at ht
  | some t =>
    rw [hc,htask] at ht
    cases t with
    | returned r =>
      obtain rfl := Option.some.inj ht
      have hheld : s.holds c = true := by simp [holds,hc,htask]
      split
      · refine ⟨rfl,by simp,by simp,hheld.symm,?_⟩
        simp [htask]
      · rename_i hp
        exact ⟨hheld,by simp [htask],fun h => absurd h hp⟩
    | _ => exact unfinished_allows h hc rfl htask ht

omit [DecidableEq C] [DecidableEq Q] in
theorem sleeping_allows (h : s.Kept) {p : I} {j : ℕ} (hc : s.call c = some (.sleeping p j))
    (ht : s.turn cfg c = some turn) : s.Allows c (.sleeping p j) turn := by
  unfold CheckTasks.turn at ht
  cases htask : s.task c with
  | none => simp [hc,htask] at ht
  | some t =>
    rw [hc,htask] at ht
    cases t with
    | returned r =>
      obtain rfl := Option.some.inj ht
      exact unlessLost_allows (by simp) (holds_some hc (by simp)) ⟨rfl,rfl⟩ (by simp [htask])
    | _ => exact unfinished_allows h hc rfl htask ht

variable (hlisted : ∀ r b, turn = .fail r b → (s.node.pending c).isSome →
  c ∈ s.node.upstreamConnections)

include hlisted

omit [DecidableEq C] [DecidableEq Q] in
theorem awaitHello_allows (h : s.Kept) (hc : s.call c = some .awaitHello)
    (ht : s.turn cfg c = some turn) : s.Allows c .awaitHello turn := by
  have hheld : s.holds c = true := holds_some hc (by simp)
  have hask := h.not_asking hc (by simp)
  simp only [CheckTasks.turn,hc] at ht
  split at ht
  · obtain rfl := Option.some.inj ht
    exact ⟨hheld,hask,hlisted _ _ rfl⟩
  · cases ht
  · split at ht
    · obtain rfl := Option.some.inj ht
      exact ⟨hheld,hask,hlisted _ _ rfl⟩
    · obtain rfl := Option.some.inj ht
      exact attempt_allows (by simp) hheld hask hlisted

omit [DecidableEq C] [DecidableEq Q] in
theorem asking_allows (h : s.Kept) {p : I} {j : ℕ} (hc : s.call c = some (.asking p j))
    (ht : s.turn cfg c = some turn) : s.Allows c (.asking p j) turn := by
  have hheld : s.holds c = true := holds_some hc (by simp)
  unfold CheckTasks.turn at ht
  cases htask : s.task c with
  | none => simp [hc,htask] at ht
  | some t =>
    rw [hc,htask] at ht
    cases t with
    | returned r =>
      have hask (q : Q) : s.task c ≠ some (.asking q) := by simp [htask]
      cases r with
      | none => exact unfinished_allows h hc rfl htask ht
      | some r =>
        dsimp only at ht
        split at ht
        · obtain rfl := Option.some.inj ht
          exact ⟨hheld,hask,hlisted _ _ rfl⟩
        · cases r with
          | found =>
            obtain rfl := Option.some.inj ht
            exact ⟨hheld,hask,hlisted _ _ rfl⟩
          | notFound =>
            obtain rfl := Option.some.inj ht
            exact ⟨hheld,hask⟩
          | unknown =>
            obtain rfl := Option.some.inj ht
            exact attempt_allows (by simp) hheld hask hlisted
    | raised =>
      obtain rfl := Option.some.inj ht
      exact ⟨hheld,by simp [htask],hlisted _ _ rfl⟩
    | _ => exact unfinished_allows h hc rfl htask ht

omit [DecidableEq C] [DecidableEq Q] in
theorem cleaning_allows {b : Bool} (hc : s.call c = some (.cleaning b))
    (ht : s.turn cfg c = some turn) : s.Allows c (.cleaning b) turn := by
  unfold CheckTasks.turn at ht
  cases htask : s.task c with
  | none => simp [hc,htask] at ht
  | some t =>
    rw [hc,htask] at ht
    dsimp only at ht
    split_ifs at ht with hdone
    obtain rfl := Option.some.inj ht
    refine ⟨holds_some hc (by simp),fun q hq => ?_,hlisted _ _ rfl⟩
    obtain rfl := Option.some.inj (htask.symm.trans hq)
    simp [StepTask.done] at hdone

omit [DecidableEq C] [DecidableEq Q] in
theorem turn_allows (h : s.Kept) (hc : s.call c = some call) (ht : s.turn cfg c = some turn) :
    s.Allows c call turn := by
  have hturn := ht
  simp only [CheckTasks.turn,hc] at hturn
  cases call with
  | greeting =>
    obtain rfl := Option.some.inj hturn
    exact ⟨holds_some hc (by simp),h.not_asking hc (by simp),hlisted _ _ rfl⟩
  | acquiring => exact acquiring_allows h hc ht
  | awaitHello => exact awaitHello_allows hlisted h hc ht
  | sleeping p j => exact sleeping_allows h hc ht
  | asking p j => exact asking_allows hlisted h hc ht
  | cleaning b => exact cleaning_allows hlisted hc ht
  | activating =>
    obtain rfl := Option.some.inj hturn
    rfl
  | leaving =>
    obtain rfl := Option.some.inj hturn
    exact .inr rfl

end Turns

omit [DecidableEq C] [DecidableEq I] [DecidableEq Q] in
theorem interrupt_allows {c : C} {call : CheckCall I} {turn : CheckTurn I Q P} (h : s.Kept)
    (hc : s.call c = some call) (ht : s.interrupt c = some turn)
    (hacq : s.call c = some .acquiring → ∀ r, s.task c ≠ some (.returned r))
    (hclean : ∀ b q, s.call c = some (.cleaning b) → s.task c ≠ some (.asking q))
    (hlisted : ∀ r b, turn = .fail r b → (s.node.pending c).isSome →
      c ∈ s.node.upstreamConnections) : s.Allows c call turn := by
  have hstep (hs : call.stepping = true) {t : StepTask Q} (htask : s.task c = some t)
      (ht : some (if t.done = true then CheckTurn.fail none call.holds
        else .wait (.cleaning call.holds)) = some turn) : s.Allows c call turn := by
    obtain rfl := Option.some.inj ht
    split
    · rename_i hdone
      refine ⟨holds_some hc fun he => hacq (he ▸ hc),fun q hq => ?_,hlisted _ _ (if_pos hdone)⟩
      obtain rfl := Option.some.inj (htask.symm.trans hq)
      simp [StepTask.done] at hdone
    · rename_i hdone
      exact lost_allows h hc hs htask (by simpa using hdone)
  unfold interrupt at ht
  rw [hc] at ht
  cases call with
  | greeting =>
    obtain rfl := Option.some.inj ht
    exact .inl rfl
  | leaving =>
    obtain rfl := Option.some.inj ht
    exact .inr rfl
  | awaitHello | activating =>
    obtain rfl := Option.some.inj ht
    exact ⟨holds_some hc (by simp),h.not_asking hc (by simp),hlisted _ _ rfl⟩
  | cleaning b =>
    obtain rfl := Option.some.inj ht
    exact ⟨holds_some hc (by simp),fun q => hclean b q hc,hlisted _ _ rfl⟩
  | acquiring | sleeping p j | asking p j =>
    cases htask : s.task c with
    | none => simp [htask] at ht
    | some t =>
      rw [htask] at ht
      exact hstep rfl htask ht

omit [DecidableEq C] [DecidableEq Q] in
theorem next_allows {cfg : Settings C I Q P} {a : CheckAction C I Q P} {c : C}
    {turn : CheckTurn I Q P} (h : s.Kept) (hn : s.next cfg a = some (c,turn))
    (hok : s.GivesBack cfg a) : ∃ call, s.call c = some call ∧ s.Allows c call turn := by
  have hlisted (r : Option Refusal) (b : Bool) (he : turn = .fail r b) := hok.2 c r b (he ▸ hn)
  cases a with
  | resume d =>
    obtain ⟨turn',ht,he⟩ := Option.map_eq_some_iff.mp hn
    obtain ⟨rfl,rfl⟩ := Prod.mk.inj he
    cases hc : s.call d with
    | none => simp [CheckTasks.turn,hc] at ht
    | some call => exact ⟨call,rfl,turn_allows hlisted h hc ht⟩
  | cancel d =>
    obtain ⟨turn',ht,he⟩ := Option.map_eq_some_iff.mp hn
    obtain ⟨rfl,rfl⟩ := Prod.mk.inj he
    obtain ⟨hacq,hclean⟩ := hok.1 d rfl
    cases hc : s.call d with
    | none => simp [interrupt,hc] at ht
    | some call => exact ⟨call,rfl,interrupt_allows h hc ht hacq hclean hlisted⟩
  | helloTimeout d =>
    simp only [next] at hn
    split at hn
    · rename_i hc hp
      obtain ⟨rfl,rfl⟩ := Prod.mk.inj (Option.some.inj hn)
      exact ⟨_,hc,holds_some hc (by simp),h.not_asking hc (by simp),hlisted _ _ rfl⟩
    · cases hn
  | _ => cases hn

omit [DecidableEq C] [DecidableEq I] [DecidableEq Q] in
theorem Kept.node (h : s.Kept) {n : PubSubNode C I Q P} {made : C → Bool}
    (hn : s.node.Calm n.toCheckState) (hm : ∀ c, made c = false → s.made c = false) :
    {s with node := n, made := made}.Kept :=
  ⟨h.locked,h.one,h.asking,fun hk => h.checking (hn.checking ▸ hk),
    fun q o hq hs => by
      obtain ⟨o',hq',hs'⟩ := hn.own q o hq hs
      exact h.own q o' hq' hs',
    fun c hp => h.pending c (hn.pending c hp),fun c hd => h.draining c (hn.draining c hd),
    fun c hc => h.made c (hm c hc)⟩

omit [DecidableEq C] [DecidableEq I] [DecidableEq Q] in
theorem Kept.asking_holds (h : s.Kept) {c : C} {q : Q} (hq : s.task c = some (.asking q)) :
    ∃ k, s.call c = some k ∧ k ≠ .acquiring ∧ k.checks = true ∧ s.holds c = true := by
  rcases h.asking c q hq with ⟨p,j,hc⟩ | hc
  · exact ⟨_,hc,by simp,rfl,holds_some hc (by simp)⟩
  · exact ⟨_,hc,by simp,rfl,holds_some hc (by simp)⟩

omit [DecidableEq I] in
theorem endQuery_kept (h : s.Kept) {c : C} {q : Q} {t : StepTask Q} (hq : s.task c = some (.asking q))
    (ht : t.done = true) : (s.endQuery c q t).Kept := by
  obtain ⟨k,hc,hacq,hk,hheld⟩ := h.asking_holds hq
  have htask : (s.endQuery c q t).task c = some t := by simp [endQuery]
  have hnew : (s.endQuery c q t).holds c = k.holds := holds_some hc fun he => absurd he hacq
  have hholds : (s.endQuery c q t).holds c = s.holds c :=
    hnew.trans (holds_some hc fun he => absurd he hacq).symm
  refine h.only (c := c) ⟨fun _ _ => rfl,fun d hd => by simp [endQuery,hd],fun _ _ => id,
    fun _ _ => id,fun _ => id⟩ ?_ ?_ (fun q' hq' => ?_) (fun hk => ?_) (fun q' o hq' hs => ?_)
    (fun _ => ⟨k,hc,hk⟩) (h.draining c) (h.made c)
  · rw [hholds]
    exact h.locked_iff c
  · rw [hholds]
    exact .inl
  · obtain rfl := Option.some.inj (htask.symm.trans hq')
    simp [StepTask.done] at ht
  · simp [endQuery,PubSubNode.endQuery] at hk
  · have hne : q' ≠ q := by
      rintro rfl
      simp [endQuery,PubSubNode.endQuery,CheckState.closeQuery] at hq'
    refine .inr ⟨by rw [hq]; simpa [eq_comm] using hne,o,?_,hs⟩
    simpa [endQuery,PubSubNode.endQuery,CheckState.closeQuery,hne] using hq'

omit [DecidableEq I] [DecidableEq Q] in
theorem setTask_kept (h : s.Kept) {c : C} {t : StepTask Q} (hno : ∀ q, s.task c ≠ some (.asking q))
    (ht : ∀ q, t ≠ .asking q) (hc : s.call c ≠ some .acquiring ∨ ∀ r, t ≠ .returned r ∧
      s.task c ≠ some (.returned r)) :
    {s with task := Function.update s.task c (some t)}.Kept := by
  let u := {s with task := Function.update s.task c (some t)}
  have hholds : u.holds c = s.holds c := by
    cases hk : s.call c with
    | none => rw [holds_none hk,holds_none (s := u) hk]
    | some k =>
      have hu : u.holds c = k.holds := by
        refine holds_some hk ?_
        rintro rfl r hr
        have hr' : t = .returned r := by simpa [u] using hr
        exact hc.elim (fun hc => hc hk) fun hc => (hc r).1 hr'
      rw [hu]
      refine (holds_some hk ?_).symm
      rintro rfl r hr
      exact hc.elim (fun hc => hc hk) fun hc => (hc r).2 hr
  refine h.quiet (c := c) (t := u) ⟨fun _ _ => rfl,fun d hd => by simp [u,hd],fun _ _ => id,
    fun _ _ => id,fun _ => id⟩ ?_ ?_ (fun q => ?_) (fun q hq => absurd hq (hno q)) rfl
    (fun q o hq hs => ⟨o,hq,hs⟩) (h.pending c) (h.draining c) (h.made c)
  · rw [hholds]
    exact h.locked_iff c
  · rw [hholds]
    exact .inl
  · simp [u,hno q,ht q]

omit [DecidableEq I] [DecidableEq Q] in
theorem acquire_kept (h : s.Kept) {c : C} (hc : s.call c = some .acquiring)
    (ht : s.task c = some .running) (hl : s.locked = false) :
    {s with locked := true, task := Function.update s.task c (some (.returned none))}.Kept := by
  let u := {s with locked := true, task := Function.update s.task c (some (.returned none))}
  have hu : u.holds c = true := by simp [holds,u,hc]
  exact h.quiet (c := c) (t := u) ⟨fun _ _ => rfl,fun d hd => by simp [u,hd],fun _ _ => id,
    fun _ _ => id,fun _ => id⟩ (by simp [hu,u]) (fun _ => .inr hl) (fun q => by simp [u,ht])
    (fun q hq => by simp [ht] at hq) rfl (fun q o hq hs => ⟨o,hq,hs⟩) (h.pending c) (h.draining c)
    (h.made c)

omit [DecidableEq I] in
theorem ask_kept (h : s.Kept) {c : C} {p : I} {j : ℕ} {q : Q} {o : OpenQuery C I}
    (hc : s.call c = some (.asking p j)) (ht : s.task c = some .running) :
    {s with
      node := {s.node with toCheckState := {s.node.openQuery q o with checking := true}}
      task := Function.update s.task c (some (.asking q))}.Kept := by
  let u : CheckTasks C I Q P := {s with
      node := {s.node with toCheckState := {s.node.openQuery q o with checking := true}}
      task := Function.update s.task c (some (.asking q))}
  have hnew : u.holds c = (CheckCall.asking p j).holds := holds_some hc (by simp)
  have hholds : u.holds c = s.holds c := hnew.trans (holds_some hc (by simp)).symm
  refine h.only (c := c) (t := u) ⟨fun _ _ => rfl,fun d hd => by simp [u,hd],fun _ _ => id,
    fun _ _ => id,fun _ => id⟩ ?_ ?_ (fun q' _ => .inl ⟨p,j,hc⟩) (fun _ => .inl ⟨q,by simp [u]⟩)
    (fun q' o' hq' hs => ?_) (h.pending c) (h.draining c) (h.made c)
  · rw [hholds]
    exact h.locked_iff c
  · rw [hholds]
    exact .inl
  · by_cases hqq : q' = q
    · exact .inl (by simp [u,hqq])
    · exact .inr ⟨by simp [ht],o',by simpa [u,CheckState.openQuery,hqq] using hq',hs⟩

omit [DecidableEq I] [DecidableEq Q] in
theorem establish_kept (cfg : TaskSettings C I Q P) (h : s.Kept) {c : C} (hm : s.made c = false) :
    (s.establish cfg c).Kept := by
  have hc := h.made c hm
  have hheld : s.holds c = false := holds_none hc
  have hask (q : Q) : s.task c ≠ some (.asking q) := by
    intro hq
    obtain ⟨k,hk,-⟩ := h.asking_holds hq
    simp [hc] at hk
  have hdrain := h.not_draining (c := c) (by simp [hc])
  have hmade (d : C) (hd : Function.update s.made c true d = false) : s.made d = false := by
    by_cases hdc : d = c <;> simp_all
  have hlocked {u : CheckTasks C I Q P} (hl : u.locked = s.locked) (hu : u.holds c = false) :
      u.locked = true ↔ u.holds c = true ∨ s.locked = true ∧ s.holds c = false := by
    simp [hl,hu,hheld]
  have hpending (d : C) (hd : d ≠ c) : ((s.node.establish c).1.pending d) = s.node.pending d := by
    simp [PubSubNode.establish,hd]
  unfold establish
  dsimp only
  split
  · let n := (s.node.establish c).1
    have hcalm := n.connectionError_calm c true
    have hnone : (n.connectionError c true).1.pending c = none :=
      n.connectionError_pending (by simp [n,PubSubNode.establish])
    have hdrop : (n.connectionError c true).1.draining c = none := by
      by_contra hd
      simpa [n,PubSubNode.establish,hdrain] using hcalm.draining c (Option.isSome_iff_ne_none.mpr hd)
    have hnew (u : CheckTasks C I Q P) (hu : u.call c = some .greeting) : u.holds c = false :=
      holds_some hu (by simp)
    refine h.quiet (c := c) ⟨fun d hd => by simp [hd],fun _ _ => rfl,
      fun d hd hp => hpending d hd ▸ hcalm.pending d hp,fun d hd => hcalm.draining d,hmade⟩
      (hlocked rfl (hnew _ (by simp))) (fun hu => ?_) (fun _ => Iff.rfl)
      (fun q hq => absurd hq (hask q)) hcalm.checking hcalm.own (fun hp => ?_) (fun hd => ?_)
      fun hm => by simp at hm
    · exact absurd hu (by rw [hnew _ (by simp)]; simp)
    · exact absurd hp (by simpa [PubSubNode.endLoop] using hnone)
    · exact absurd hd (by simpa [PubSubNode.endLoop] using hdrop)
  · have hnew (u : CheckTasks C I Q P) (hu : u.call c = some .acquiring)
        (ht : u.task c = some .running) : u.holds c = false := holds_some hu (by simp [ht])
    refine h.quiet (c := c) ⟨fun d hd => by simp [hd],fun d hd => by simp [hd],
      fun d hd hp => hpending d hd ▸ hp,fun d hd => id,hmade⟩
      (hlocked rfl (hnew _ (by simp) (by simp))) (fun hu => ?_) (fun q => ?_)
      (fun q hq => absurd hq (hask q)) rfl (fun q o hq hs => ⟨o,hq,hs⟩)
      (fun _ => ⟨.acquiring,by simp,rfl⟩) (fun hd => ?_) fun hm => by simp at hm
    · exact absurd hu (by rw [hnew _ (by simp) (by simp)]; simp)
    · simp [hask q]
    · exact absurd hd (by simpa [PubSubNode.establish] using hdrain)

theorem event_kept {cfg : TaskSettings C I Q P} {a : CheckAction C I Q P} (h : s.Kept)
    (ha : s.event cfg a = some t) : t.Kept := by
  cases a with
  | node ev =>
    simp only [event] at ha
    split_ifs at ha with hev
    obtain ⟨⟨n,ds⟩,hstep,rfl⟩ := Option.map_eq_some_iff.mp ha
    exact h.node ((PubSubNode.step_effect hstep).calm hev) fun _ => id
  | accept c =>
    simp only [event] at ha
    split_ifs at ha with hc
    obtain rfl := Option.some.inj ha
    refine h.node (.of_queries rfl (fun _ => id) (fun _ => id) rfl) fun d hd => ?_
    by_cases hdc : d = c <;> simp_all
  | closeFailed c =>
    simp only [event] at ha
    split_ifs at ha with hc
    obtain rfl := Option.some.inj ha
    exact h.node (.of_queries rfl (fun _ => id) (fun _ => id) rfl) fun _ => id
  | establish c =>
    simp only [event] at ha
    split_ifs at ha with hc
    obtain rfl := Option.some.inj ha
    exact establish_kept cfg h hc.1
  | acquire c =>
    simp only [event] at ha
    split at ha
    · rename_i hc ht
      split_ifs at ha with hl
      obtain rfl := Option.some.inj ha
      exact acquire_kept h hc ht hl
    · cases ha
  | slept c =>
    simp only [event] at ha
    split at ha
    · rename_i hc ht
      obtain rfl := Option.some.inj ha
      exact setTask_kept h (by simp [ht]) (by simp) (.inl (by simp [hc]))
    · cases ha
  | ask c q =>
    simp only [event] at ha
    split at ha
    · rename_i p j hc ht
      split at ha
      · obtain rfl := Option.some.inj ha
        exact setTask_kept h (by simp [ht]) (by simp) (.inl (by simp [hc]))
      · rename_i d ds hd
        split_ifs at ha with hq
        obtain rfl := Option.some.inj ha
        exact ask_kept h hc ht
    · cases ha
  | queryDone c =>
    simp only [event] at ha
    split at ha
    · rename_i q hq
      split at ha
      · obtain rfl := Option.some.inj ha
        exact endQuery_kept h hq rfl
      · cases ha
    · cases ha
  | queryTimeout c | queryFailed c =>
    simp only [event] at ha
    split at ha
    · rename_i q hq
      obtain rfl := Option.some.inj ha
      exact endQuery_kept h hq rfl
    · cases ha
  | taskCancelled c =>
    simp only [event] at ha
    split_ifs at ha with hstep
    split at ha
    · rename_i ht
      obtain rfl := Option.some.inj ha
      exact setTask_kept h (by simp [ht]) (by simp) (.inr (by simp [ht]))
    · rename_i q hq
      obtain rfl := Option.some.inj ha
      exact endQuery_kept h hq rfl
    · cases ha
  | _ => cases ha

theorem step_kept {cfg : TaskSettings C I Q P} {a : CheckAction C I Q P} (h : s.Kept)
    (hok : s.GivesBack cfg.toSettings a) (ha : step cfg s a = some t) : t.Kept := by
  unfold step at ha
  split at ha
  · rename_i c turn hn
    obtain rfl := Option.some.inj ha
    obtain ⟨call,hc,hallow⟩ := next_allows h hn hok
    exact take_kept h hc hallow
  · exact event_kept h ha

/-- One check at most is between acquiring and releasing the lock, and once no
`establish_connection` call is running nothing is left of the checks, as long as no call is
cancelled where it would leave the lock or its query behind, or ends while its connection is being
closed. -/
theorem gives_lock_back {cfg : TaskSettings C I Q P} {as : List (CheckAction C I Q P)} {i : I}
    {t : CheckTasks C I Q P} (hrun : run (step cfg) (init i) as = some t)
    (hok : Guarded (step cfg) (GivesBack cfg.toSettings) (init i) as) :
    (∀ c d, t.holds c = true → t.holds d = true → c = d) ∧
      ((∀ c, t.call c = none) → t.AtRest) := by
  have h : t.Kept := run_invariant (fun s a t hs ha h => step_kept hs ha h) (init_kept i) hok hrun
  exact ⟨h.one,h.atRest⟩

/-- A connection is accepted by a node that has no other. -/
theorem gives_lock_back_accepted : ∃ t : CheckTasks (Fin 1) (Fin 2) (Fin 1) (Fin 1),
    run (step ⟨⟨⟨5,9,fun _ => 1⟩,fun _ => true⟩,9⟩) (init 0) [.establish 0,.acquire 0,
      .node (.receive 0 (.hello 1)),.resume 0,.resume 0,.ask 0 0,.resume 0,.resume 0] = some t ∧
    t.node.upstreamConnections = [0] ∧ t.AtRest := by
  have fine (s : CheckTasks (Fin 1) (Fin 2) (Fin 1) (Fin 1))
      (a : CheckAction (Fin 1) (Fin 2) (Fin 1) (Fin 1)) (ha : ∀ c, a ≠ .cancel c)
      (hn : ∀ c r b, s.next ⟨⟨5,9,fun _ => 1⟩,fun _ => true⟩ a ≠ some (c,.fail r b)) :
      s.GivesBack ⟨⟨5,9,fun _ => 1⟩,fun _ => true⟩ a :=
    ⟨fun c hc => absurd hc (ha c),fun c r b h => absurd h (hn c r b)⟩
  refine ⟨_,rfl,rfl,(gives_lock_back (C := Fin 1) (I := Fin 2) (Q := Fin 1) (P := Fin 1)
    (show run (step ⟨⟨⟨5,9,fun _ => 1⟩,fun _ => true⟩,9⟩) (init 0) [.establish 0,.acquire 0,
      .node (.receive 0 (.hello 1)),.resume 0,.resume 0,.ask 0 0,.resume 0,.resume 0] = some _ from rfl)
    ⟨fine _ _ (by simp) ?_,fine _ _ (by simp) ?_,fine _ _ (by simp) ?_,fine _ _ (by simp) ?_,
      fine _ _ (by simp) ?_,fine _ _ (by simp) ?_,fine _ _ (by simp) ?_,fine _ _ (by simp) ?_,
      trivial⟩).2 (by decide)⟩ <;> exact fun c r b h => nomatch h

/-- A call is cancelled once its `Lock.acquire` has finished; it loses its connection while it asks
its own query, and is cancelled; its connection is being closed when the check refuses it. -/
theorem not_gives_lock_back :
    (∃ t : CheckTasks (Fin 2) (Fin 2) (Fin 1) (Fin 1),
      run (step ⟨⟨⟨5,9,fun _ => 1⟩,fun c => decide (c = 0)⟩,9⟩) (init 0)
        [.establish 0,.acquire 0,.cancel 0,.resume 0] = some t ∧
      (∀ c, t.call c = none) ∧ t.locked = true ∧ ¬t.AtRest) ∧
    (∃ t : CheckTasks (Fin 2) (Fin 3) (Fin 1) (Fin 1),
      run (step ⟨⟨⟨5,9,fun _ => 1⟩,fun c => decide (c = 0)⟩,9⟩) (init 0)
        [.accept 1,.node (.receive 1 (.hello 1)),.establish 0,.acquire 0,
          .node (.receive 0 (.hello 2)),.resume 0,.resume 0,.ask 0 0,
          .node (.connectionError 0 true),.resume 0,.cancel 0,.resume 0] = some t ∧
      (∀ c, t.call c = none) ∧ t.node.checking = true ∧ (t.node.queries 0).isSome ∧ ¬t.AtRest) ∧
    ∃ t : CheckTasks (Fin 2) (Fin 2) (Fin 1) (Fin 1),
      run (step ⟨⟨⟨5,9,fun _ => 1⟩,fun c => decide (c = 0)⟩,9⟩) (init 0)
        [.establish 0,.acquire 0,.resume 0,.node (.closeConnection 0),.helloTimeout 0,
          .resume 0] = some t ∧
      (∀ c, t.call c = none) ∧ (t.node.pending 0).isSome ∧ ¬t.AtRest := by
  refine ⟨⟨_,rfl,by decide,rfl,fun h => ?_⟩,⟨_,rfl,by decide,rfl,rfl,fun h => ?_⟩,
    ⟨_,rfl,by decide,rfl,fun h => ?_⟩⟩
  · exact nomatch h.unlocked
  · exact nomatch h.checking
  · exact nomatch h.pending 0

end CheckTasks
end SoftwareBus
