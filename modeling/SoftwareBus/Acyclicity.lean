import SoftwareBus.Expecting
import SoftwareBus.Transition
import Mathlib.Data.Fintype.Basic

/-! The accepted links of a network form a forest, as long as no query is passed
on or denied in one of the two windows in which the cycle check is blind: before
the taking node has processed the Hello of a link under check, and between the
end of a query and the activation of its connection. -/
namespace SoftwareBus

open LinkGraph

variable {V X L I Q P : Type}

/-- The query of the check has ended as "not found", and its connection is not activated yet. -/
def CheckState.passed {C : Type} (n : CheckState C I Q P) : Bool :=
  match n.check with
  | .answered c _ _ .notFound => (n.pending c).isSome
  | _ => false

/-- Where no query is open and none has passed, no connection is claimed while it is pending. -/
theorem CheckState.Sound.claimed {C : Type} {mine : C → Prop} {up : C → Bool}
    {peerId : C → I → Prop} {n : CheckState C I Q P} (h : n.Sound mine up peerId)
    (hk : n.checking = false) (hp : n.passed = false) {c : C} (hc : n.check.Claims c) :
    n.pending c = none := by
  rcases hc with ⟨i,k,q,hc⟩ | ⟨i,k,hc⟩
  · simp [h.checking.mpr ⟨c,i,k,q,hc⟩] at hk
  · simpa [CheckState.passed,hc] using hp

namespace Network

/-- A link that is accepted, or under a check that has asked its query and may
still accept it, and that is not lost. -/
def Live (b : Bus V X L) (s : Network V X L I Q P) (l : L) : Prop :=
  s.lost l = false ∧ ∃ v, b.source l = .inl v ∧ (s.node v).Passable ⟨l,.source⟩

/-- The node counts every live link it has taken among its active node
connections: it has processed the Hello that came over it. -/
def Greeted (b : Bus V X L) (s : Network V X L I Q P) (v : V) : Prop :=
  ∀ l, b.target l = v → s.Live b l → ⟨l,.target⟩ ∈ (s.node v).activeNodeConnections

variable {b : Bus V X L} {lim : Limits I Q P} {ids : V → I} {s t : Network V X L I Q P}

theorem Outside.live (ho : s.Outside t) {l : L} (h : t.Live b l) : s.Live b l := by
  obtain ⟨hl,w,hw,hp⟩ := h
  exact ⟨Bool.eq_false_iff.mpr fun hsl => absurd (ho.lost l hsl) (by simp [hl]),w,hw,ho.node ▸ hp⟩

theorem Sound.attempt_not_live (hs : s.Sound b ids) {v : V} {l : L} {i : I} {k : ℕ}
    (hv : b.source l = .inl v) (hc : (s.node v).check = .attempt ⟨l,.source⟩ i k) :
    ¬s.Live b l := by
  rintro ⟨-,w,hw,hu,hp⟩
  obtain rfl : v = w := Sum.inl.inj (hv.symm.trans hw)
  have hpend := (hs.node v).underCheck _ hu (by simp [hc,Check.connection])
  rcases hp with hp | hp
  · simp [hp] at hpend
  · simp [hc,Check.Claims] at hp

/-- A node outside the two windows counts all its live links as active. -/
theorem Sound.live_active (hs : s.Sound b ids) {v : V} (hg : s.Greeted b v)
    (hk : ∀ c, (s.node v).check.Claims c → (s.node v).pending c = none) {d : End L}
    (hd : b.owner d = .inl v) (hl : s.Live b d.link) : d ∈ (s.node v).activeNodeConnections := by
  obtain ⟨l,side⟩ := d
  cases side with
  | target => exact hg l (Sum.inl.inj hd) hl
  | source =>
    obtain ⟨-,w,hw,hu,hp⟩ := hl
    obtain rfl : v = w := Sum.inl.inj (hd.symm.trans hw)
    have hnone := hp.elim id (hk _)
    have hid := (hs.node v).accepted _ hu hnone
    simp only [CheckState.activeNodeConnections,CheckState.active,List.mem_filter,
      CheckState.mem_allConnections]
    exact ⟨⟨.inr hu,by simp [hnone]⟩,hid⟩

variable [DecidableEq V] [DecidableEq X] [DecidableEq L] [DecidableEq I] [DecidableEq Q]

/-- A node asks a query, passes one on, or denies one, in neither of the two windows. -/
def SafeAt (b : Bus V X L) (s : Network V X L I Q P) (v : V) : NodeEvent (End L) I Q P → Prop
  | .ask _ => s.Greeted b v
  | .receive e (.query q i) =>
    ((s.node v).answerNow e q i = none → s.Greeted b v ∧ (s.node v).passed = false) ∧
      ((s.node v).answerNow e q i = some .notFound → (s.node v).passed = false)
  | _ => True

def CheckSafe (b : Bus V X L) (s : Network V X L I Q P) : Action V X L I Q P → Prop
  | .node v ev => s.SafeAt b v ev
  | .deliver e =>
    match b.owner e with
    | .inl v => ∀ m ∈ (s.inFlight e).head?, s.SafeAt b v (.receive e m)
    | .inr _ => True
  | _ => True

section Decidable

variable [Fintype L]

instance liveDecidable (b : Bus V X L) (s : Network V X L I Q P) (l : L) :
    Decidable (s.Live b l) :=
  match hb : b.source l with
  | .inl v => decidable_of_iff (s.lost l = false ∧ (s.node v).Passable ⟨l,.source⟩)
      (by simp [Live,hb])
  | .inr x => .isFalse (by simp [Live,hb])

instance greetedDecidable (b : Bus V X L) (s : Network V X L I Q P) (v : V) :
    Decidable (s.Greeted b v) := inferInstanceAs (Decidable (∀ _, _))

instance safeAtDecidable (b : Bus V X L) (s : Network V X L I Q P) (v : V) :
    ∀ ev, Decidable (s.SafeAt b v ev)
  | .ask _ => inferInstanceAs (Decidable (s.Greeted b v))
  | .receive _ (.query _ _) => inferInstanceAs (Decidable ((_ → _) ∧ (_ → _)))
  | .receive _ (.subscription _ _) | .receive _ (.publish _ _) | .receive _ (.hello _)
  | .receive _ (.reply _ _) | .establish _ | .accept _ | .connectionError _ _
  | .closeConnection _ | .closed _ | .beginCheck _ | .helloTimeout | .helloDone | .queryDone
  | .queryTimeout | .resume | .abandon | .forward _ | .forwardDone _ | .forwardTimeout _ =>
    .isTrue trivial

instance checkSafeDecidable (b : Bus V X L) (s : Network V X L I Q P) :
    ∀ a, Decidable (s.CheckSafe b a)
  | .node v ev => inferInstanceAs (Decidable (s.SafeAt b v ev))
  | .deliver e =>
    match hb : b.owner e with
    | .inl v => decidable_of_iff (∀ m ∈ (s.inFlight e).head?, s.SafeAt b v (.receive e m))
        (by simp [CheckSafe,hb])
    | .inr _ => .isTrue (by simp [CheckSafe,hb])
  | .breakLink _ | .connect _ _ | .disconnect _ | .subscription _ _ _ | .publish _ _ _ =>
    .isTrue trivial

end Decidable

theorem NodeTakes.live {v : V} {ev : NodeEvent (End L) I Q P}
    {sends : List (PubSubNode.Send (End L) I Q P)} (hn : s.NodeTakes b lim v ev sends t)
    (hs : s.Sound b ids) {l : L} (h : t.Live b l) : s.Live b l ∨
      b.source l = .inl v ∧ ∃ q i k, ev = .ask q ∧ (s.node v).check = .attempt ⟨l,.source⟩ i k := by
  obtain ⟨hl,w,hw,hp⟩ := h
  have hsl : s.lost l = false :=
    Bool.eq_false_iff.mpr fun hsl => absurd ((hn.lost l).mpr (.inl hsl)) (by simp [hl])
  by_cases hwv : w = v
  · subst w
    rcases hn.effect.passable (hs.node v) (hs.fits hn.occurs) hp with hp | hask
    · exact .inl ⟨hsl,v,hw,hp⟩
    · exact .inr ⟨hw,hask⟩
  · exact .inl ⟨hsl,w,hw,hn.others w hwv ▸ hp⟩

def Older (b : Bus V X L) (s : Network V X L I Q P) (rank : L → ℕ) (l m : L) : Prop :=
  s.Live b m ∧ rank m < rank l

/-- The links are ranked by when their checks last asked. A link that may be
accepted closes no walk over older links, or its query is going to find the walk. -/
structure Ranked (b : Bus V X L) (ids : V → I) (rank : L → ℕ) (clock : ℕ)
    (s : Network V X L I Q P) : Prop where
  sound : s.Sound b ids
  below : ∀ l, s.Live b l → rank l < clock
  inj : ∀ l m, s.Live b l → s.Live b m → rank l = rank m → l = m
  apart : ∀ l v, s.Live b l → b.source l = .inl v → v ≠ b.target l
  asking : ∀ l v i k q, s.Live b l → b.source l = .inl v →
    (s.node v).check = .asking ⟨l,.source⟩ i k q →
    s.Expecting b ids (s.Older b rank l) (b.target l) q
  closed : ∀ l v, s.Live b l → b.source l = .inl v →
    (∀ i k q, (s.node v).check ≠ .asking ⟨l,.source⟩ i k q) → ∀ e, b.owner e = .inl v →
    ¬b.topology.Reach (s.Older b rank l) (.inl (b.target l)) e

/-- A link that was live stays as it was: its query still expects an answer, or
it still closes no walk, or its query has ended without finding one. -/
theorem NodeTakes.ranked_keep {v : V} {ev : NodeEvent (End L) I Q P}
    {sends : List (PubSubNode.Send (End L) I Q P)} (hn : s.NodeTakes b lim v ev sends t)
    (hsafe : s.SafeAt b v ev) {rank rank' : L → ℕ} {clock : ℕ} (h : s.Ranked b ids rank clock)
    {l : L} {w : V} (hl : s.Live b l) (hl' : t.Live b l) (hw : b.source l = .inl w)
    (hold : ∀ m, t.Older b rank' l m → s.Older b rank l m) :
    (∀ i k q, (t.node w).check = .asking ⟨l,.source⟩ i k q →
        t.Expecting b ids (t.Older b rank' l) (b.target l) q) ∧
      ((∀ i k q, (t.node w).check ≠ .asking ⟨l,.source⟩ i k q) → ∀ e, b.owner e = .inl w →
        ¬b.topology.Reach (t.Older b rank' l) (.inl (b.target l)) e) := by
  have hgood : ∀ m, t.Older b rank' l m → s.Live b m := fun m hm => (hold m hm).1
  have hown (i k q) (hc : (s.node w).check = .asking ⟨l,.source⟩ i k q) :
      ∃ query, (s.node w).queries q = some ⟨query,i,none,true⟩ := (h.sound.node w).own _ i k q hc
  constructor
  · intro i k q hc
    have hc : (s.node w).check = .asking ⟨l,.source⟩ i k q := by
      by_cases hwv : w = v
      · subst w
        refine (hn.effect.asking_starts hc).resolve_right fun ha => ?_
        exact h.sound.attempt_not_live hw ha.2 hl
      · exact hn.others w hwv ▸ hc
    obtain ⟨query,hq⟩ := hown i k q hc
    refine hn.expecting h.sound (h.asking l w i k q hl hw hc) hold (fun m hm => hm.1.1) ?_ ?_ ?_
    · rintro c j rfl hnow d hd hm
      obtain ⟨hg,hp⟩ := hsafe.1 hnow
      have hk := (CheckState.answerNow_eq_none hnow).2.2.1
      exact h.sound.live_active hg (fun c => (h.sound.node v).claimed hk hp) hd (hgood _ hm)
    · rintro c j rfl hnow hm
      obtain ⟨hpend,hk⟩ := CheckState.answerNow_eq_notFound hnow
      obtain ⟨-,u,hu,hpass⟩ := hgood _ hm
      have hside : c = ⟨c.link,.source⟩ := by
        rw [← of_decide_eq_true ((h.sound.node v).pendingUp c hpend)]
      have hcv : b.owner c = .inl v := hn.occurs.1
      obtain rfl : v = u := Sum.inl.inj (hcv.symm.trans (hside ▸ hu))
      rw [← hside] at hpass
      have hnone := hpass.2.elim id ((h.sound.node v).claimed hk (hsafe.2 hnow))
      simp [hnone] at hpend
    · rintro rfl
      have hnew := hn.asked_new
      simp [h.sound.asked q (.inl ⟨w,by simp [hq]⟩)] at hnew
  · intro hc e he hr
    have hr := hr.mono _ hold
    by_cases hs : ∃ i k q, (s.node w).check = .asking ⟨l,.source⟩ i k q
    · obtain ⟨i,k,q,hs⟩ := hs
      by_cases hwv : w = v
      · subst w
        obtain ⟨-,u,hu,hpass⟩ := hl'
        obtain rfl : v = u := Sum.inl.inj (hw.symm.trans hu)
        obtain ⟨o,ho,hres⟩ := hn.effect.asking_ends (h.sound.node v) hs (hc i k q) hpass
        obtain ⟨query,hq⟩ := hown i k q hs
        obtain rfl : _ = o := Option.some.inj (hq.symm.trans ho)
        exact ((h.asking l v i k q hl hw hs).expects v _ hq e ⟨he,hr⟩ (by simp)).notEnded hres
      · exact hc i k q (hn.others w hwv ▸ hs)
    · exact h.closed l w hl hw (fun i k q hs' => hs ⟨i,k,q,hs'⟩) e he hr

/-- A link whose check asks its query becomes the youngest. -/
theorem NodeTakes.ranked_ask {v : V} {q : Q} {sends : List (PubSubNode.Send (End L) I Q P)}
    (hn : s.NodeTakes b lim v (.ask q) sends t) (hsafe : s.SafeAt b v (.ask q)) {rank : L → ℕ}
    {clock : ℕ} (h : s.Ranked b ids rank clock) {l : L} {i : I} {k : ℕ} (hl : t.Live b l)
    (hsl : ¬s.Live b l) (hv : b.source l = .inl v)
    (hc : (s.node v).check = .attempt ⟨l,.source⟩ i k) :
    t.Ranked b ids (Function.update rank l clock) (clock+1) := by
  have hlive : ∀ m, t.Live b m → m ≠ l → s.Live b m := by
    intro m hm hml
    refine (hn.live h.sound hm).resolve_right ?_
    rintro ⟨_,_,_,_,_,hc'⟩
    rw [hc] at hc'
    simp only [Check.attempt.injEq,End.mk.injEq,and_true] at hc'
    exact hml hc'.1.symm
  have holder : ∀ m m', t.Live b m → m ≠ l → t.Older b (Function.update rank l clock) m m' →
      s.Older b rank m m' := by
    intro m m' hm hml ho
    have hb := h.below m (hlive m hm hml)
    have hne : m' ≠ l := by
      rintro rfl
      have ho := ho.2
      simp [hml] at ho
      omega
    exact ⟨hlive m' ho.1 hne,by simpa [hml,hne] using ho.2⟩
  have hactive : ∀ e, b.owner e = .inl v → t.Older b (Function.update rank l clock) l e.link →
      e ∈ (s.node v).activeNodeConnections := by
    intro e he ho
    have hne : e.link ≠ l := fun hel => absurd ho.2 (by simp [hel])
    refine h.sound.live_active hsafe (fun c hk => ?_) he (hlive _ ho.1 hne)
    simp [hc,Check.Claims] at hk
  have hfresh := hn.asked_new
  have hunasked {p : Prop} (ha : s.asked q = true) : p := by simp [hfresh] at ha
  obtain ⟨c,j,m,hcj,hup,hcase⟩ := hn.effect.asks
  obtain ⟨rfl,rfl,rfl⟩ : ⟨l,.source⟩ = c ∧ i = j ∧ k = m := by simpa [hc] using hcj
  obtain ⟨hself,⟨w,hw,rfl⟩,-⟩ := (h.sound.node v).checked _ i (by rw [hc,Check.peer])
  obtain rfl : b.target l = w := Sum.inl.inj hw
  have hkeep : ∀ m u, t.Live b m → b.source m = .inl u → m ≠ l → _ := fun m u hm hmu hml =>
    hn.ranked_keep hsafe h (hlive m hm hml) hm hmu fun m' => holder m m' hm hml
  refine ⟨hn.sound h.sound,fun m hm => ?_,fun m m' hm hm' => ?_,fun m u hm hmu => ?_,
    fun m u i k q' hm hmu => ?_,fun m u hm hmu => ?_⟩
  · by_cases hml : m = l
    · simp [hml]
    · simpa [hml] using (h.below m (hlive m hm hml)).trans (Nat.lt_succ_self clock)
  · by_cases hml : m = l <;> by_cases hml' : m' = l
    · exact fun _ => hml.trans hml'.symm
    · simpa [hml,hml'] using fun he => absurd (h.below m' (hlive m' hm' hml')) (by omega)
    · simpa [hml,hml'] using fun he => absurd (h.below m (hlive m hm hml)) (by omega)
    · simpa [hml,hml'] using h.inj m m' (hlive m hm hml) (hlive m' hm' hml')
  · by_cases hml : m = l
    · subst m
      obtain rfl : v = u := Sum.inl.inj (hv.symm.trans hmu)
      intro hloop
      exact hself (by rw [h.sound.nodeId,← hloop])
    · exact h.apart m u (hlive m hm hml) hmu
  · by_cases hml : m = l
    · subst m
      obtain rfl : v = u := Sum.inl.inj (hv.symm.trans hmu)
      rcases hcase with ⟨-,hck,-⟩ | ⟨hck,-⟩
      · simp [hck]
      · intro hask
        obtain ⟨-,-,rfl⟩ : _ ∧ _ ∧ q = q' := by simpa [hck] using hask
        exact hn.expecting_asked h.sound hc hactive
    · exact (hkeep m u hm hmu hml).1 i k q'
  · by_cases hml : m = l
    · subst m
      obtain rfl : v = u := Sum.inl.inj (hv.symm.trans hmu)
      rcases hcase with ⟨hnone,-⟩ | ⟨hck,-⟩
      · intro _ e he hr
        simpa [hnone] using hactive e he hr.good
      · exact fun hnot => absurd hck (hnot _ _ _)
    · exact (hkeep m u hm hmu hml).2

theorem NodeTakes.ranked {v : V} {ev : NodeEvent (End L) I Q P}
    {sends : List (PubSubNode.Send (End L) I Q P)} (hn : s.NodeTakes b lim v ev sends t)
    (hsafe : s.SafeAt b v ev) {rank : L → ℕ} {clock : ℕ} (h : s.Ranked b ids rank clock) :
    ∃ rank' clock', t.Ranked b ids rank' clock' := by
  have hold {l : L} (hl : t.Live b l) : s.Live b l ∨ b.source l = .inl v ∧
      ∃ q i k, ev = .ask q ∧ (s.node v).check = .attempt ⟨l,.source⟩ i k := hn.live h.sound hl
  by_cases hnew : ∃ l, t.Live b l ∧ ¬s.Live b l
  · obtain ⟨l,hl,hsl⟩ := hnew
    obtain ⟨hv,q,i,k,rfl,hc⟩ := (hold hl).resolve_left hsl
    exact ⟨_,_,hn.ranked_ask hsafe h hl hsl hv hc⟩
  · have hlive : ∀ l, t.Live b l → s.Live b l := fun l hl => by_contra fun hsl => hnew ⟨l,hl,hsl⟩
    have holder (l m : L) (hm : t.Older b rank l m) : s.Older b rank l m := ⟨hlive m hm.1,hm.2⟩
    refine ⟨rank,clock,hn.sound h.sound,fun l hl => h.below l (hlive l hl),
      fun l m hl hm => h.inj l m (hlive l hl) (hlive m hm),fun l w hl => h.apart l w (hlive l hl),
      fun l w i k q hl hw => ?_,fun l w hl hw => ?_⟩
    · exact (hn.ranked_keep hsafe h (hlive l hl) hl hw (holder l)).1 i k q
    · exact (hn.ranked_keep hsafe h (hlive l hl) hl hw (holder l)).2

omit [DecidableEq V] [DecidableEq X] [DecidableEq L] [DecidableEq I] [DecidableEq Q] in
theorem Outside.ranked (ho : s.Outside t) {rank : L → ℕ} {clock : ℕ}
    (h : s.Ranked b ids rank clock) : t.Ranked b ids rank clock := by
  have hold (l m : L) (hm : t.Older b rank l m) : s.Older b rank l m := ⟨ho.live hm.1,hm.2⟩
  refine ⟨ho.sound h.sound,fun l hl => h.below l (ho.live hl),
    fun l m hl hm => h.inj l m (ho.live hl) (ho.live hm),
    fun l v hl => h.apart l v (ho.live hl),fun l v i k q hl hv hc => ?_,fun l v hl hv hc e he hr => ?_⟩
  · exact ho.expecting (h.asking l v i k q (ho.live hl) hv (ho.node ▸ hc)) (hold l)
  · exact h.closed l v (ho.live hl) hv (fun i k q hs => hc i k q (ho.node ▸ hs)) e he
      (hr.mono _ (hold l))

theorem step_ranked {a : Action V X L I Q P} (hsafe : s.CheckSafe b a)
    (h : ∃ rank clock, s.Ranked b ids rank clock) (ht : s.step b lim a = some t) :
    ∃ rank clock, t.Ranked b ids rank clock := by
  obtain ⟨rank,clock,h⟩ := h
  rcases step_cases ht with ⟨v,ev,sends,ha,hn⟩ | ho
  · refine hn.ranked ?_ h
    rcases ha with rfl | ⟨e,m,rfl,rfl⟩
    · exact hsafe
    · rw [CheckSafe,hn.occurs.1] at hsafe
      exact hsafe m hn.occurs.2
  · exact ⟨rank,clock,ho.ranked h⟩

omit [DecidableEq V] [DecidableEq X] [DecidableEq L] [DecidableEq I] [DecidableEq Q] in
theorem Ranked.acyclic {rank : L → ℕ} {clock : ℕ} (h : s.Ranked b ids rank clock) :
    b.topology.Acyclic (s.Accepted b) := by
  have hlive (l : L) (hl : s.Accepted b l) : s.Live b l := by
    obtain ⟨v,hv,hu,hp,hs⟩ := hl
    exact ⟨hs,v,hv,hu,.inl hp⟩
  refine b.topology.acyclic_of_ranking rank (fun l m hl hm => h.inj l m (hlive l hl) (hlive m hm))
    (fun l hl => ?_) fun l hl e he hr => ?_
  · obtain ⟨v,hv,-⟩ := id hl
    intro hloop
    exact h.apart l v (hlive l hl) hv (Sum.inl.inj (hv.symm.trans hloop))
  · have hl' := hlive l hl
    obtain ⟨v,hv,hu,hp,-⟩ := hl
    refine h.closed l v hl' hv (fun i k q hc => ?_) e (he.trans hv)
      (hr.mono _ fun m hm => ⟨hlive m hm.1,hm.2⟩)
    have hpend := (h.sound.node v).underCheck _ hu (by simp [hc,Check.connection])
    simp [hp] at hpend

/-- In every run that stays clear of the two windows, no state has a cycle of accepted links. -/
theorem accepted_acyclic (b : Bus V X L) (lim : Limits I Q P) (ids : V → I)
    {as : List (Action V X L I Q P)}
    (hsafe : Transition.Guarded (step b lim) (CheckSafe b) (init ids) as)
    (hrun : Transition.run (step b lim) (init ids) as = some s) :
    b.topology.Acyclic (s.Accepted b) := by
  have hinit : (init ids : Network V X L I Q P).Ranked b ids (fun _ => 0) 0 := by
    have hno (l : L) : ¬(init ids : Network V X L I Q P).Live b l := by
      rintro ⟨-,v,-,hu,-⟩
      simp [init,PubSubNode.new] at hu
    exact ⟨init_sound b ids,fun l hl => absurd hl (hno l),fun l _ hl => absurd hl (hno l),
      fun l _ hl => absurd hl (hno l),fun l _ _ _ _ hl => absurd hl (hno l),
      fun l _ hl => absurd hl (hno l)⟩
  obtain ⟨rank,clock,h⟩ := Transition.run_invariant
    (fun s a t (h : ∃ rank clock, s.Ranked b ids rank clock) hsafe => step_ranked hsafe h)
    ⟨_,_,hinit⟩ hsafe hrun
  exact h.acyclic

/-- Three nodes in a row, each of which makes a link to the next. -/
def chain : Bus (Fin 3) Empty (Fin 2) := ⟨fun l => .inl l.castSucc,fun l => l.succ⟩

def smallLimits (I : Type) : Limits I ℕ Unit := ⟨5,100,fun _ => 1⟩

/-- Both links of the chain are made, checked and accepted, the second one after
the first has been asked about its target. -/
def chainRun : List (Action (Fin 3) Empty (Fin 2) (Fin 3) ℕ Unit) :=
  [.node 0 (.establish ⟨0,.source⟩),.node 1 (.accept ⟨0,.target⟩),
    .deliver ⟨0,.source⟩,.deliver ⟨0,.target⟩,.node 0 (.beginCheck ⟨0,.source⟩),
    .node 0 .helloDone,.node 0 (.ask 0),.node 0 .resume,
    .node 1 (.establish ⟨1,.source⟩),.node 2 (.accept ⟨1,.target⟩),
    .deliver ⟨1,.source⟩,.deliver ⟨1,.target⟩,.node 1 (.beginCheck ⟨1,.source⟩),
    .node 1 .helloDone,.node 1 (.ask 1),.deliver ⟨0,.source⟩,.deliver ⟨0,.target⟩,
    .node 1 .queryDone,.node 1 .resume]

theorem accepted_acyclic_chain :
    ∃ s, Transition.run (step chain (smallLimits (Fin 3))) (init id) chainRun = some s ∧
      ((s.node 0).pending ⟨0,.source⟩).isNone ∧ ((s.node 1).pending ⟨1,.source⟩).isNone ∧
      chain.topology.Acyclic (s.Accepted chain) := by
  have hrun := Option.some_get (show (Transition.run (step chain (smallLimits (Fin 3))) (init id)
    chainRun).isSome by decide)
  exact ⟨_,hrun.symm,by decide,by decide,accepted_acyclic chain _ id (by decide) hrun.symm⟩

def pair : Bus (Fin 2) Empty (Fin 2) := ⟨fun l => .inl l,fun l => 1-l⟩

/-- Node 1 checks its link before it has processed the Hello on the link that
node 0 has accepted meanwhile. -/
def unheardRun : List (Action (Fin 2) Empty (Fin 2) (Fin 2) ℕ Unit) :=
  [.node 0 (.establish ⟨0,.source⟩),.node 1 (.accept ⟨0,.target⟩),.deliver ⟨0,.source⟩,
    .node 0 (.beginCheck ⟨0,.source⟩),.node 0 .helloDone,.node 0 (.ask 0),.node 0 .resume,
    .node 1 (.establish ⟨1,.source⟩),.node 0 (.accept ⟨1,.target⟩),.deliver ⟨1,.source⟩,
    .node 1 (.beginCheck ⟨1,.source⟩),.node 1 .helloDone,.node 1 (.ask 1),.node 1 .resume]

/-- Node 0 denies the query of node 1 between its own query and its activation. -/
def unresumedRun : List (Action (Fin 2) Empty (Fin 2) (Fin 2) ℕ Unit) :=
  [.node 0 (.establish ⟨0,.source⟩),.node 1 (.accept ⟨0,.target⟩),.deliver ⟨0,.source⟩,
    .node 0 (.beginCheck ⟨0,.source⟩),.node 0 .helloDone,
    .node 1 (.establish ⟨1,.source⟩),.node 0 (.accept ⟨1,.target⟩),.deliver ⟨1,.source⟩,
    .node 1 (.beginCheck ⟨1,.source⟩),.node 1 .helloDone,.deliver ⟨0,.target⟩,
    .node 0 (.ask 0),.node 1 (.ask 1),.deliver ⟨0,.source⟩,.deliver ⟨0,.target⟩,
    .node 1 .queryDone,.node 1 .resume,.node 0 .resume]

theorem pair_cycle {s : Network (Fin 2) Empty (Fin 2) (Fin 2) ℕ Unit}
    (h : ∀ l : Fin 2, ⟨l,.source⟩ ∈ (s.node l).upstreamConnections ∧
      ((s.node l).pending ⟨l,.source⟩).isNone ∧ s.lost l = false) :
    ¬pair.topology.Acyclic (s.Accepted pair) := by
  intro ha
  refine ha [⟨0,.source⟩,⟨1,.source⟩] ⟨by simp,?_,rfl,by decide⟩ fun e _ => ?_
  · simpa using show pair.topology.owner ⟨1,.source⟩ = pair.topology.peer ⟨0,.source⟩ from rfl
  · obtain ⟨hu,hp,hl⟩ := h e.link
    exact ⟨e.link,rfl,hu,by simpa using hp,hl⟩

/-- Without the condition either window is enough for two nodes that connect to
each other to end up with two accepted links between them. -/
theorem not_accepted_acyclic :
    (¬∀ s, Transition.run (step pair (smallLimits (Fin 2))) (init id) unheardRun = some s →
      pair.topology.Acyclic (s.Accepted pair)) ∧
    ¬∀ s, Transition.run (step pair (smallLimits (Fin 2))) (init id) unresumedRun = some s →
      pair.topology.Acyclic (s.Accepted pair) := by
  constructor <;> intro h
  · have hrun := Option.some_get (show (Transition.run (step pair (smallLimits (Fin 2)))
      (init id) unheardRun).isSome by decide)
    exact pair_cycle (by decide) (h _ hrun.symm)
  · have hrun := Option.some_get (show (Transition.run (step pair (smallLimits (Fin 2)))
      (init id) unresumedRun).isSome by decide)
    exact pair_cycle (by decide) (h _ hrun.symm)

end Network
end SoftwareBus
