import SoftwareBus.Traffic

/-! How a publish spreads over a network whose connections stay as they are: from
the client it comes from along the walks of the forest, and never back. -/
namespace SoftwareBus

open LinkGraph Transition LinkGraph.Topology

variable {V X L I Q P : Type}

theorem pair_sublist_append {A : Type} {a c : A} {xs ys : List A} (h : [a,c].Sublist (xs++ys)) :
    [a,c].Sublist xs ∨ [a,c].Sublist ys ∨ a ∈ xs ∧ c ∈ ys := by
  obtain ⟨l₁,l₂,hl,h₁,h₂⟩ := List.sublist_append_iff.mp h
  match l₁,hl with
  | [],hl => exact .inr (.inl (by simpa [← show l₂ = [a,c] by simpa using hl.symm] using h₂))
  | [u],hl =>
    obtain ⟨rfl,rfl⟩ : a = u ∧ [c] = l₂ := by simpa using hl
    exact .inr (.inr ⟨List.singleton_sublist.mp h₁,List.singleton_sublist.mp h₂⟩)
  | u::v::l₁,hl =>
    obtain ⟨rfl,rfl,hnil⟩ : a = u ∧ c = v ∧ [] = l₁++l₂ := by simpa using hl
    obtain ⟨rfl,-⟩ := List.append_eq_nil_iff.mp hnil.symm
    exact .inl h₁

namespace Network

variable {b : Bus V X L} {lim : Limits I Q P} {ids : V → I} {s₀ s t : Network V X L I Q P}

/-- The copies of a publish of a client are on walks from it, and a node has sent
one only if it has received one. -/
structure Carried (b : Bus V X L) (s₀ s : Network V X L I Q P) (x : X) (p : Str) (q : P) : Prop where
  walk : ∀ e, .publish p q ∈ s.sent e → ∃ es,
    b.topology.IsWalkBetween (s₀.Linked b) (.inr x) (b.owner e) (es++[e.flip])
  relayed : ∀ e v, .publish p q ∈ s.sent e → b.owner e.flip = .inl v →
    ∃ d, b.owner d = .inl v ∧ .publish p q ∈ s.delivered d

theorem mem_sent_of_delivered {e : End L} {m : Message I Q P} (h : m ∈ s.delivered e) :
    m ∈ s.sent e := List.mem_of_mem_take h

/-- What comes from a client comes to a vertex of a forest over one end only. -/
theorem Carried.same_end (ha : b.topology.Acyclic (s₀.Linked b)) {x : X} {p p' : Str} {q q' : P}
    (h : s₀.Carried b s x p q) (h' : s₀.Carried b s x p' q') {d d' : End L}
    (hd : .publish p q ∈ s.sent d) (hd' : .publish p' q' ∈ s.sent d')
    (ho : b.owner d = b.owner d') : d = d' := by
  obtain ⟨es,hw⟩ := h.walk d hd
  obtain ⟨es',hw'⟩ := h'.walk d' hd'
  have hu := hw.unique b.topology ha (ho ▸ hw')
  exact End.flip_inj.mp (List.append_singleton_inj.mp hu).2

theorem Carried.not_back (ha : b.topology.Acyclic (s₀.Linked b)) {x : X} {p : Str} {q : P}
    (h : s₀.Carried b s x p q) {e : End L} (he : b.owner e = .inr x) : .publish p q ∉ s.sent e := by
  intro hm
  obtain ⟨es,hw⟩ := h.walk e hm
  have hnil := (he ▸ hw).closed b.topology ha
  simp at hnil

variable [DecidableEq V] [DecidableEq X] [DecidableEq L] [DecidableEq I] [DecidableEq Q]

theorem Carried.step {a : Action V X L I Q P} (hf : s.Wired b) (hstill : s₀.Still s) (hta : a.isTraffic = true)
    (ht : s.step b lim a = some t) {x : X} {p : Str} {q : P} (h : s₀.Carried b s x p q)
    (hx : ∀ y, a = .publish y p q → y = x) : s₀.Carried b t x p q := by
  have hdel {e : End L} {m : Message I Q P} (hm : m ∈ s.delivered e) : m ∈ t.delivered e := by
    rcases step_delivered hf ht e with ⟨-,he⟩ | ⟨m',-,-,he⟩ <;> simp [he,hm]
  have hlinked {l : L} : s.Linked b l → s₀.Linked b l := (hstill.linked l).mp
  refine ⟨fun e hm => ?_,fun e v hm hv => ?_⟩ <;> obtain ⟨ms,hs,hnew⟩ := step_sent hf hta ht e <;>
    rcases List.mem_append.mp (hs ▸ hm) with hm | hm
  · exact h.walk e hm
  · obtain ⟨-,hsends⟩ := hnew p q hm
    cases hsends with
    | client y hsrc hcur hside =>
      obtain rfl := hx y rfl
      have hown : b.topology.owner e.flip = .inr y := by
        rw [← hsrc]
        exact b.owner_source (by simp [End.flip,hside,Side.flip])
      have hw := IsWalkBetween.snoc b.topology (.nil b.topology (s₀.Linked b) _)
        (hlinked (.inr ⟨y,hcur⟩) : s₀.Linked b e.flip.link) (by simp)
      rw [hown,b.topology.peer_flip] at hw
      exact ⟨[],hw⟩
    | node v d hd hv hev hmatch =>
      obtain ⟨es,hw⟩ := h.walk d (List.mem_of_mem_drop (List.mem_of_mem_head? hd))
      obtain ⟨u,-,htag⟩ := hmatch.2
      have hsnoc := IsWalkBetween.snoc b.topology (x := e.flip) (hv.trans hev.symm ▸ hw)
        (hlinked (hf.tagged v _ u htag).2) (by simpa using fun he => hmatch.1 (by rw [← he,End.flip_flip]))
      rw [b.topology.peer_flip] at hsnoc
      exact ⟨_,hsnoc⟩
  · obtain ⟨d,hd,hmd⟩ := h.relayed e v hm hv
    exact ⟨d,hd,hdel hmd⟩
  · obtain ⟨-,hsends⟩ := hnew p q hm
    cases hsends with
    | client y hsrc hcur hside =>
      have hown := b.owner_source (e := e.flip) (by simp [End.flip,hside,Side.flip])
      rw [hv,End.flip_link,hsrc] at hown
      simp at hown
    | node w d hd hw hew hmatch =>
      obtain rfl : v = w := Sum.inl.inj (hv.symm.trans hew)
      refine ⟨d,hw,?_⟩
      rcases step_delivered hf ht d with ⟨hne,-⟩ | ⟨m,-,hm',he⟩
      · exact absurd rfl hne
      · obtain rfl := Option.some.inj (hd.symm.trans hm')
        simp [he]

/-- Nowhere has one publish been sent after another. -/
def NeverAfter (s : Network V X L I Q P) (p' : Str) (q' : P) (p : Str) (q : P) : Prop :=
  ∀ e, ¬[.publish p' q',.publish p q].Sublist (s.sent e)

/-- Two publishes of a client take the same walk, in the order they are sent. -/
theorem NeverAfter.step {a : Action V X L I Q P} (hf : s.Wired b) (hta : a.isTraffic = true)
    (ht : s.step b lim a = some t) (hforest : b.topology.Acyclic (s₀.Linked b)) {x : X}
    {p p' : Str} {q q' : P} (h : s₀.Carried b s x p q) (h' : s₀.Carried b s x p' q')
    (hn : s.NeverAfter p' q' p q)
    (hnew : ∀ y, a = .publish y p q → ∀ e, .publish p' q' ∉ s.sent e) :
    t.NeverAfter p' q' p q := by
  intro e hsub
  obtain ⟨ms,hs,hms⟩ := step_sent hf hta ht e
  rw [hs] at hsub
  rcases pair_sublist_append hsub with hsub | hsub | ⟨hm',hm⟩
  · exact hn e hsub
  · have hmem : .publish p q ∈ ms := hsub.subset (by simp)
    have hlen := hsub.length_le
    simp [(hms p q hmem).1] at hlen
  · obtain ⟨-,hsends⟩ := hms p q hm
    cases hsends with
    | client y => exact hnew y rfl e hm'
    | node v d hd hv hev hmatch =>
      obtain ⟨d',hd',hdel⟩ := h'.relayed e v hm' hev
      have hmd : .publish p q ∈ s.inFlight d := List.mem_of_mem_head? hd
      obtain rfl := h'.same_end hforest h (mem_sent_of_delivered hdel) (List.mem_of_mem_drop hmd)
        (hd'.trans hv.symm)
      refine hn d' ?_
      have hsplit : s.sent d' = s.delivered d'++s.inFlight d' := (List.take_append_drop _ _).symm
      rw [hsplit]
      exact (List.singleton_sublist.mpr hdel).append (List.singleton_sublist.mpr hmd)

/-- A publish spreads over exact tables that nobody changes: a node that has read it
has passed it on to every connection it has to go to, and it goes to no other. -/
structure Spreads (b : Bus V X L) (s₁ s : Network V X L I Q P) (l : L) (p : Str) (q : P) : Prop where
  tables : ∀ v u, (s.node v).subscribers u = (s₁.node v).subscribers u
  said : s.said = s₁.said
  quiet : ∀ e u f, .subscription u f ∉ s.inFlight e
  origin : .publish p q ∈ s.sent ⟨l,.target⟩
  matched : ∀ e v, .publish p q ∈ s.sent e → b.owner e.flip = .inl v →
    ∃ u, SubjectMatcher.patternMatch p u = true ∧ e.flip ∈ (s₁.node v).subscribers u
  passed : ∀ d v, b.owner d = .inl v → .publish p q ∈ s.delivered d →
    ∀ e, (s₁.node v).Matched d p e → .publish p q ∈ s.sent e.flip

variable {s₁ : Network V X L I Q P}

theorem Spreads.step {a : Action V X L I Q P} (hf : s.Wired b) (hta : a.isTraffic = true)
    (ht : s.step b lim a = some t) {l : L} {p : Str} {q : P} (h : s₁.Spreads b s l p q)
    (hsub : ∀ x u f, a ≠ .subscription x u f) (hpub : ∀ x, a ≠ .publish x p q) :
    s₁.Spreads b t l p q := by
  obtain ⟨htab,hsaid,hquiet⟩ := step_tables hf hta hsub h.quiet ht
  have hmono {e : End L} {m : Message I Q P} (hm : m ∈ s.sent e) : m ∈ t.sent e := by
    obtain ⟨ms,hs,-⟩ := step_sent hf hta ht e
    simp [hs,hm]
  have hmatch {v : V} {d e : End L} : (s.node v).Matched d p e ↔ (s₁.node v).Matched d p e := by
    simp only [PubSubNode.Matched,h.tables]
  refine ⟨fun v u => (htab v u).trans (h.tables v u),hsaid.trans h.said,hquiet,hmono h.origin,
    fun e v hm hv => ?_,fun d v hd hm e he => ?_⟩
  · obtain ⟨ms,hs,hms⟩ := step_sent hf hta ht e
    rcases List.mem_append.mp (hs ▸ hm) with hm | hm
    · exact h.matched e v hm hv
    · obtain ⟨-,hsends⟩ := hms p q hm
      cases hsends with
      | client y => exact absurd rfl (hpub y)
      | node w d hd hw hew hmat =>
        obtain rfl : v = w := Sum.inl.inj (hv.symm.trans hew)
        exact (hmatch.mp hmat).2
  · rcases step_delivered hf ht d with ⟨-,hsame⟩ | ⟨m,rfl,hhead,hnew⟩
    · exact hmono (h.passed d v hd (hsame ▸ hm) e he)
    · rw [hnew,List.mem_append,List.mem_singleton] at hm
      rcases hm with hm | rfl
      · exact hmono (h.passed d v hd hm e he)
      · exact step_passes_on hf ht hhead hd (hmatch.mpr he)

omit [DecidableEq V] [DecidableEq X] [DecidableEq L] [DecidableEq I] [DecidableEq Q] in
theorem mem_delivered_of_sent {e : End L} {m : Message I Q P} (hm : m ∈ s.sent e)
    (hno : m ∉ s.inFlight e) : m ∈ s.delivered e := by
  have hsplit : s.sent e = s.delivered e++s.inFlight e := (List.take_append_drop _ _).symm
  rw [hsplit,List.mem_append] at hm
  exact hm.resolve_right hno

omit [DecidableEq V] [DecidableEq X] [DecidableEq L] [DecidableEq I] [DecidableEq Q] in
/-- Once no copy is on its way, it has reached the end of every walk to a subscriber. -/
theorem Spreads.reaches (hc : s₁.Leaves b) {l : L} {p : Str} {q : P} (h : s₁.Spreads b s l p q)
    (hexact : s₁.Exact b) (hno : ∀ e, .publish p q ∉ s.inFlight e) {y : X} {u : Str}
    (hy : s₁.said y u = true) (hu : SubjectMatcher.patternMatch p u = true) {e : End L}
    (hr : b.topology.Reach (s₁.Linked b) (.inr y) e) (hm : .publish p q ∈ s.sent e.flip) :
    ∃ f, b.owner f = .inr y ∧ .publish p q ∈ s.delivered f := by
  induction hr with
  | @here e hl hp => exact ⟨e.flip,hp,mem_delivered_of_sent hm (hno _)⟩
  | @step e f hl hf hr ih =>
    cases hp : b.owner e.flip with
    | inl v =>
      have htag := (hexact v f u).mpr ⟨hf.1.trans hp,y,hy,hr⟩
      exact ih (h.passed e.flip v hp (mem_delivered_of_sent hm (hno _)) f ⟨hf.2,u,hu,htag⟩)
    | inr z => exact absurd hf (hc.leaf hl hr.good hp)

omit [DecidableEq V] [DecidableEq X] [DecidableEq L] [DecidableEq I] [DecidableEq Q] in
/-- Then exactly the other clients that the walks of the forest lead to and that have a
subject the publish matches have received it. -/
theorem Spreads.exact (hc : s₁.Leaves b) {l : L} {x : X} {p : Str} {q : P}
    (h : s₁.Spreads b s l p q) (hexact : s₁.Exact b) (hx : s₁.current x = some l)
    (hstill : s₀.Still s₁) (hforest : b.topology.Acyclic (s₀.Linked b))
    (hcar : s₀.Carried b s x p q) (hno : ∀ e, .publish p q ∉ s.inFlight e) (y : X) :
    (∃ e, b.owner e = .inr y ∧ .publish p q ∈ s.delivered e) ↔
      y ≠ x ∧ (∃ es, b.topology.IsWalkBetween (s₀.Linked b) (.inr x) (.inr y) es) ∧
        ∃ u, s₁.said y u = true ∧ SubjectMatcher.patternMatch p u = true := by
  have hlinked : s₁.Linked b = s₀.Linked b := funext fun l => propext (hstill.linked l)
  constructor
  · rintro ⟨e,he,hm⟩
    have hsent := mem_sent_of_delivered hm
    refine ⟨?_,?_,?_⟩
    · rintro rfl
      exact hcar.not_back hforest he hsent
    · obtain ⟨es,hw⟩ := hcar.walk e hsent
      exact ⟨_,he ▸ hw⟩
    · obtain ⟨hside,hsrc⟩ := Bus.source_of_owner he
      have hv := b.owner_target (e := e.flip) (by simp [End.flip,hside,Side.flip])
      obtain ⟨u,hu,htag⟩ := h.matched e _ hsent hv
      obtain ⟨-,z,hz,hr⟩ := (hexact _ _ u).mp htag
      have hpeer : b.owner e.flip.flip = .inr y := by rw [End.flip_flip,he]
      cases hr with
      | here hl hp =>
        obtain rfl : y = z := Sum.inr.inj (hpeer.symm.trans hp)
        exact ⟨u,hz,hu⟩
      | step hl hf hr => exact absurd hf (hc.leaf hl hr.good hpeer)
  · rintro ⟨hyx,⟨es,hw⟩,u,hy,hu⟩
    obtain ⟨e,he,hr⟩ := hw.reach b.topology (by simpa using fun h => hyx h.symm)
    rw [← hlinked] at hr
    obtain ⟨hside,hsrc⟩ := Bus.source_of_owner he
    have hl := Option.some.inj ((hc.current_of_linked hr.good hsrc).symm.trans hx)
    obtain ⟨m,side⟩ := e
    obtain rfl : m = l := hl
    obtain rfl : side = .source := hside
    exact h.reaches hc hexact hno hy hu hr h.origin

end Network
end SoftwareBus
