import SoftwareBus.Expecting
import SoftwareBus.Replies

/-! What an own query of a node finds out while the links of a forest of nodes
stay as they are: whether its target can be reached over accepted links. -/
namespace SoftwareBus

open LinkGraph

variable {V X L I Q P : Type}

/-- A link that is made by a node, not by a client. -/
def Bus.Between (b : Bus V X L) (l : L) : Prop := ∃ v, b.source l = .inl v

def Bus.Connected (b : Bus V X L) (good : L → Prop) (v w : V) : Prop :=
  ∃ es, b.topology.IsWalkBetween good (.inl v) (.inl w) es

namespace Network

structure SameLinks (b : Bus V X L) (s t : Network V X L I Q P) : Prop where
  listed : ∀ v e, b.Between e.link →
    (e ∈ (t.node v).allConnections ↔ e ∈ (s.node v).allConnections)
  pending : ∀ v e, ((t.node v).pending e).isSome = ((s.node v).pending e).isSome
  lost : ∀ l, b.Between l → t.lost l = s.lost l

/-- The accepted links form a forest, their Hellos have been processed, and no
node still lists or reads a link that is lost. -/
structure Settled (b : Bus V X L) (s : Network V X L I Q P) : Prop where
  forest : b.topology.Acyclic (s.Accepted b)
  greeted : ∀ l, s.Accepted b l → ⟨l,.target⟩ ∈ (s.node (b.target l)).activeNodeConnections
  listed : ∀ v e, b.Between e.link → e ∈ (s.node v).allConnections → s.lost e.link = false
  reading : ∀ v e, b.Between e.link → (s.node v).reading e = true →
    e ∈ (s.node v).allConnections

variable {b : Bus V X L} {lim : Limits I Q P} {ids : V → I} {s₀ s t : Network V X L I Q P}

theorem SameLinks.accepted (h : s₀.SameLinks b s) (h₀ : s₀.Sound b ids) (hs : s.Sound b ids)
    (l : L) : s.Accepted b l ↔ s₀.Accepted b l := by
  have hup {u : Network V X L I Q P} (hu : u.Sound b ids) (v : V) :
      ⟨l,.source⟩ ∈ (u.node v).upstreamConnections ↔ ⟨l,.source⟩ ∈ (u.node v).allConnections := by
    rw [CheckState.mem_allConnections]
    refine ⟨.inr,fun h => h.resolve_left fun hd => ?_⟩
    simpa using ((hu.node v).downstream _ hd).2
  have hpend (v : V) : (s.node v).pending ⟨l,.source⟩ = none ↔
      (s₀.node v).pending ⟨l,.source⟩ = none := by
    rw [← Option.not_isSome_iff_eq_none,← Option.not_isSome_iff_eq_none,h.pending]
  refine exists_congr fun v => and_congr_right fun hv => ?_
  rw [hup hs,hup h₀,h.listed v _ ⟨v,hv⟩,hpend,h.lost l ⟨v,hv⟩]

/-- What holds between the steps while the links stay as they were. -/
structure Steady (b : Bus V X L) (ids : V → I) (s₀ s : Network V X L I Q P) : Prop where
  sound : s.Sound b ids
  same : s₀.SameLinks b s
  accepted : ∀ l, s.Accepted b l ↔ s₀.Accepted b l
  greeted : ∀ l, s₀.Accepted b l → ⟨l,.target⟩ ∈ (s.node (b.target l)).activeNodeConnections
  listed : ∀ v e, b.Between e.link → e ∈ (s.node v).allConnections → s.lost e.link = false
  reading : ∀ v e, b.Between e.link → (s.node v).reading e = true →
    e ∈ (s.node v).allConnections

theorem Settled.steady (h : s₀.Settled b) (h₀ : s₀.Sound b ids) : s₀.Steady b ids s₀ :=
  ⟨h₀,⟨fun _ _ _ => Iff.rfl,fun _ _ => rfl,fun _ _ => rfl⟩,fun _ => Iff.rfl,h.greeted,h.listed,
    h.reading⟩

theorem mem_activeNodeConnections {n : CheckState (End L) I Q P} {e : End L} :
    e ∈ n.activeNodeConnections ↔
      e ∈ n.allConnections ∧ n.pending e = none ∧ (n.peerNodeIds e).isSome := by
  simp [CheckState.activeNodeConnections,CheckState.active,and_comm]

theorem Steady.active (h : s₀.Steady b ids s) {v : V} {d : End L} (hd : b.owner d = .inl v)
    (hl : s₀.Accepted b d.link) : d ∈ (s.node v).activeNodeConnections := by
  obtain ⟨l,side⟩ := d
  cases side with
  | target =>
    obtain rfl : b.target l = v := Sum.inl.inj hd
    exact h.greeted l hl
  | source =>
    obtain ⟨w,hw,hu,hp,-⟩ := (h.accepted l).mpr hl
    obtain rfl : v = w := Sum.inl.inj (hd.symm.trans hw)
    exact mem_activeNodeConnections.mpr ⟨CheckState.mem_allConnections.mpr (.inr hu),hp,
      (h.sound.node v).accepted _ hu hp⟩

/-- A connection of a node that is not pending there and that the node made is accepted. -/
theorem Steady.accepted_of_listed (h : s₀.Steady b ids s) {v : V} {d : End L}
    (hd : d ∈ (s.node v).allConnections) (hp : (s.node v).pending d = none) :
    b.owner d = .inl v ∧ (d.side = .source → s₀.Accepted b d.link) := by
  have hown : b.owner d = .inl v := by
    rcases CheckState.mem_allConnections.mp hd with hd | hd
    · exact ((h.sound.node v).downstream d hd).1
    · exact ((h.sound.node v).upstream d hd).1
  refine ⟨hown,fun hs => (h.accepted _).mp ?_⟩
  have hsrc : b.source d.link = .inl v := by rw [← b.owner_source hs,hown]
  obtain ⟨l,side⟩ := d
  obtain rfl : side = .source := hs
  refine ⟨v,hsrc,?_,hp,h.listed v _ ⟨v,hsrc⟩ hd⟩
  refine (CheckState.mem_allConnections.mp hd).resolve_left fun hdown => ?_
  simpa using ((h.sound.node v).downstream _ hdown).2

variable [DecidableEq V] [DecidableEq X] [DecidableEq L] [DecidableEq I] [DecidableEq Q]

theorem NodeTakes.steady {v : V} {ev : NodeEvent (End L) I Q P}
    {sends : List (PubSubNode.Send (End L) I Q P)} (hn : s.NodeTakes b lim v ev sends t)
    (h₀ : s₀.Steady b ids s₀) (h : s₀.Steady b ids s) (hsame : s₀.SameLinks b t) :
    s₀.Steady b ids t := by
  have ht := hn.sound h.sound
  refine ⟨ht,hsame,hsame.accepted h₀.sound ht,fun l hl => ?_,fun w e he hl => ?_,fun w e he hr => ?_⟩
  · have hold := h.greeted l hl
    by_cases hw : b.target l = v
    · rw [hw] at hold ⊢
      obtain ⟨hlist,hp,hi⟩ := mem_activeNodeConnections.mp hold
      obtain ⟨u,hu,-⟩ := id hl
      have hlist' := (hsame.listed v ⟨l,.target⟩ ⟨u,hu⟩).mpr ((h.same.listed v _ ⟨u,hu⟩).mp hlist)
      have hpend := (hsame.pending v ⟨l,.target⟩).trans (h.same.pending v _).symm
      refine mem_activeNodeConnections.mpr ⟨hlist',by simpa [hp] using hpend,?_⟩
      refine hn.effect.identity_kept (h.sound.node v) hi hlist' (Bool.eq_false_iff.mpr fun hc => ?_)
      simpa [h.listed v _ ⟨u,hu⟩ hlist] using h.sound.closing v _ hc
    · rwa [hn.others _ hw]
  · rw [hsame.lost _ he]
    exact h₀.listed w e he ((hsame.listed w e he).mp hl)
  · by_cases hw : w = v
    · subst w
      rcases PubSubNode.step_reading hn.step hr with hr | hev
      · exact (hsame.listed v e he).mpr ((h.same.listed v e he).mp (h.reading v e he hr))
      · exact hn.effect.lists hev
    · exact hn.others w hw ▸ h.reading w e he (hn.others w hw ▸ hr)

omit [DecidableEq V] [DecidableEq X] [DecidableEq L] [DecidableEq I] [DecidableEq Q] in
theorem Outside.steady (ho : s.Outside t) (h₀ : s₀.Steady b ids s₀) (h : s₀.Steady b ids s)
    (hsame : s₀.SameLinks b t) : s₀.Steady b ids t := by
  have ht := ho.sound h.sound
  refine ⟨ht,hsame,hsame.accepted h₀.sound ht,fun l hl => ?_,fun w e he hl => ?_,fun w e he hr => ?_⟩
  · exact ho.node ▸ h.greeted l hl
  · rw [hsame.lost _ he]
    exact h₀.listed w e he ((hsame.listed w e he).mp hl)
  · exact ho.node ▸ h.reading w e he (ho.node ▸ hr)

/-- How far a query for the node `target` has come from the node that asks it:
along walks over good links, and from there over links that are pending at their
other end. It is found only at the target. -/
structure Spread (b : Bus V X L) (ids : V → I) (good : L → Prop) (asker target : V) (q : Q)
    (s : Network V X L I Q P) : Prop where
  sent : ∀ e i, .query q i ∈ s.sent e → i = ids target ∧ (e.side = .target → good e.link) ∧
    ∃ u es, b.owner e.flip = .inl u ∧ u ≠ target ∧
      b.topology.IsWalkBetween good (.inl asker) (.inl u) es ∧ e ∉ es.getLast?
  entry : ∀ v o, (s.node v).queries q = some o → o.targetNodeId = ids target ∧ v ≠ target ∧
    (∃ es, b.topology.IsWalkBetween good (.inl asker) (.inl v) es ∧
      es.getLast? = o.source.map End.flip) ∧
    ∀ d ∈ o.query.targets, b.owner d = .inl v ∧ (d.side = .source → good d.link) ∧
      o.source ≠ some d
  nodup : ∀ v o, (s.node v).queries q = some o → o.query.targets.Nodup
  found : ∀ v o, (s.node v).queries q = some o → o.query.result = some .found →
    b.Connected good asker target
  replied : ∀ e, .reply q .found ∈ s.sent e → b.Connected good asker target

variable {asker target : V} {q : Q}

omit [DecidableEq V] [DecidableEq X] [DecidableEq L] [DecidableEq I] [DecidableEq Q] in
theorem Outside.spread {good : L → Prop} (ho : s.Outside t)
    (h : s.Spread b ids good asker target q) : t.Spread b ids good asker target q := by
  refine ⟨fun e i hm => h.sent e i (ho.mem_sent hm rfl),?_,?_,?_,
    fun e hm => h.replied e (ho.mem_sent hm rfl)⟩
  · exact ho.node ▸ h.entry
  · exact ho.node ▸ h.nodup
  · exact ho.node ▸ h.found

/-- A query that is not stopped by a pending connection came over an accepted link. -/
theorem NodeTakes.walk_of_query {v : V} {c : End L} {i : I}
    {sends : List (PubSubNode.Send (End L) I Q P)}
    (hn : s.NodeTakes b lim v (.receive c (.query q i)) sends t) (hs : s₀.Steady b ids s)
    (h : s.Spread b ids (s₀.Accepted b) asker target q) (hp : (s.node v).pending c = none) :
    ∃ es, b.topology.IsWalkBetween (s₀.Accepted b) (.inl asker) (.inl v) (es++[c.flip]) := by
  obtain ⟨-,hside,u,es,hu,-,hw,hj⟩ := h.sent c i (head_mem_sent hn.occurs.2)
  have hown : b.owner c = .inl v := hn.occurs.1
  have hgood : s₀.Accepted b c.link := by
    cases hs' : c.side with
    | target => exact hside hs'
    | source =>
      have hl := hs.reading v c ⟨v,by rw [← b.owner_source hs',hown]⟩ hn.reading
      exact (hs.accepted_of_listed hl hp).2 hs'
  refine ⟨es,?_⟩
  have hwalk := Topology.IsWalkBetween.snoc b.topology (show b.topology.IsWalkBetween _ _
    (b.topology.owner c.flip) es from hu ▸ hw) hgood (by simpa using hj)
  rwa [show b.topology.peer c.flip = .inl v from by simpa [Bus.owner] using hown] at hwalk

theorem NodeTakes.spread {v : V} {ev : NodeEvent (End L) I Q P}
    {sends : List (PubSubNode.Send (End L) I Q P)} (hn : s.NodeTakes b lim v ev sends t)
    (hids : Function.Injective ids) (hs : s₀.Steady b ids s)
    (h : s.Spread b ids (s₀.Accepted b) asker target q) (hask : ev ≠ .ask q) :
    t.Spread b ids (s₀.Accepted b) asker target q := by
  have hx := hn.onQuery hs.sound q
  refine ⟨fun e i hm => ?_,fun w o ho => ?_,fun w o ho => ?_,fun w o ho hf => ?_,fun e hm => ?_⟩
  · rcases hn.mem_ofQuery hm rfl with hm | hf
    · exact h.sent e i hm
    · rcases hx.query_sent hf with ⟨o,ho,rfl,hd⟩ | ⟨rfl,-⟩
      · obtain ⟨hi,hv,⟨es,hw,hlast⟩,htargets⟩ := h.entry v o ho
        obtain ⟨hown,hside,hsrc⟩ := htargets _ hd
        refine ⟨hi,fun ht => hside (by simp [End.flip,ht,Side.flip]),v,es,hown,hv,hw,fun he => ?_⟩
        rw [hlast,Option.mem_map] at he
        obtain ⟨a,ha,rfl⟩ := he
        exact hsrc (by simpa using ha)
      · exact absurd rfl hask
  · by_cases hw : w = v
    · subst w
      rcases hx.entry ho with ⟨p,hp,hc⟩ | ⟨c,i,rfl,hnow,rfl⟩ | ⟨rfl,-⟩
      · rw [hc.targetNodeId,hc.source,hc.targets]
        exact h.entry v p hp
      · obtain ⟨hpend,hself,-⟩ := CheckState.answerNow_eq_none hnow
        have hi := (h.sent c i (head_mem_sent hn.occurs.2)).1
        obtain ⟨es,hwalk⟩ := hn.walk_of_query hs h hpend
        refine ⟨hi,?_,⟨_,hwalk,by simp⟩,fun d hd => ?_⟩
        · rintro rfl
          exact hself (hi.trans (hs.sound.nodeId v).symm)
        · obtain ⟨hd,hdc⟩ : d ∈ (s.node v).activeNodeConnections ∧ d ≠ c := by
            simpa [Query.new] using hd
          obtain ⟨hl,hp,-⟩ := mem_activeNodeConnections.mp hd
          obtain ⟨hown,hside⟩ := hs.accepted_of_listed hl hp
          exact ⟨hown,hside,by simpa using Ne.symm hdc⟩
      · exact absurd rfl hask
    · exact h.entry w o (hn.others w hw ▸ ho)
  · by_cases hw : w = v
    · subst w
      rcases hx.entry ho with ⟨p,hp,hc⟩ | ⟨c,i,rfl,hnow,rfl⟩ | ⟨rfl,-⟩
      · exact hc.targets ▸ h.nodup v p hp
      · exact (((hs.sound.node v).nodup.filter _).filter _).filter _
      · exact absurd rfl hask
    · exact h.nodup w o (hn.others w hw ▸ ho)
  · by_cases hw : w = v
    · subst w
      rcases hx.entry ho with ⟨p,hp,hc⟩ | ⟨c,i,rfl,hnow,rfl⟩ | ⟨rfl,-⟩
      · rcases hc.found hf with hf | ⟨c,rfl⟩
        · exact h.found v p hp hf
        · exact h.replied c (head_mem_sent hn.occurs.2)
      · simp [Query.new] at hf
      · exact absurd rfl hask
    · exact h.found w o (hn.others w hw ▸ ho) hf
  · rcases hn.mem_ofQuery hm rfl with hm | hf
    · exact h.replied e hm
    · rcases hx.reply_sent hf with ⟨i,rfl,hnow⟩ | ⟨i,rfl,-,hr,-⟩ | ⟨o,ho,hsrc,hr | ⟨-,hr⟩⟩
      · obtain ⟨hpend,hi⟩ := CheckState.answerNow_eq_found hnow
        obtain ⟨es,hw⟩ := hn.walk_of_query hs h hpend
        obtain rfl : target = v := hids
          ((h.sent _ i (head_mem_sent hn.occurs.2)).1.symm.trans (hi.trans (hs.sound.nodeId v)))
        exact ⟨_,hw⟩
      · simp at hr
      · exact h.found v o ho hr
      · simp at hr

theorem NodeTakes.spread_asked {v : V} {sends : List (PubSubNode.Send (End L) I Q P)}
    (hn : s.NodeTakes b lim v (.ask q) sends t) (hs : s₀.Steady b ids s) {c : End L} {k : ℕ}
    (hc : (s.node v).check = .attempt c (ids target) k) :
    t.Spread b ids (s₀.Accepted b) v target q := by
  obtain ⟨hnone,hunsent⟩ := hn.unasked hs.sound
  have hv : v ≠ target := by
    rintro rfl
    exact ((hs.sound.node v).checked c _ (by simp [hc,Check.peer])).1 (hs.sound.nodeId v).symm
  have hactive {d : End L} (hd : d ∈ (s.node v).activeNodeConnections) :=
    hs.accepted_of_listed (mem_activeNodeConnections.mp hd).1 (mem_activeNodeConnections.mp hd).2.1
  refine ⟨fun e i hm => ?_,fun w o ho => ?_,fun w o ho => ?_,fun w o ho hf => ?_,fun e hm => ?_⟩
  · rcases hn.mem_ofQuery hm rfl with hm | hf
    · exact absurd rfl (hunsent e _ hm)
    · rcases (hn.onQuery hs.sound q).query_sent hf with ⟨o,ho,-⟩ | ⟨-,hd,d,m,hdm⟩
      · simp [hnone v] at ho
      · obtain ⟨-,rfl,-⟩ : c = d ∧ ids target = i ∧ k = m := by simpa [hc] using hdm
        exact ⟨rfl,fun ht => (hactive hd).2 (by simp [End.flip,ht,Side.flip]),v,[],(hactive hd).1,hv,
          .nil b.topology _ _,by simp⟩
  · obtain ⟨rfl,rfl⟩ := hn.asked_entry hs.sound hc ho
    refine ⟨rfl,hv,⟨[],.nil b.topology _ _,rfl⟩,fun d hd => ?_⟩
    exact ⟨(hactive hd).1,(hactive hd).2,by simp⟩
  · obtain ⟨-,rfl⟩ := hn.asked_entry hs.sound hc ho
    exact ((hs.sound.node v).nodup.filter _).filter _
  · obtain ⟨-,rfl⟩ := hn.asked_entry hs.sound hc ho
    simp [Query.new] at hf
  · exact absurd hm (hn.unreplied hs.sound e _)

/-- Nothing has made the query uncertain. It is sent at most once over each link
that leads away from the node that asks it, and at most as often as it arrived. -/
structure Certain (b : Bus V X L) (good : L → Prop) (asker : V) (q : Q)
    (s : Network V X L I Q P) : Prop where
  unsure : ∀ v o, (s.node v).queries q = some o → ¬o.query.Unsure
  replied : ∀ e, .reply q .unknown ∉ s.sent e
  own : ∀ d, b.owner d = .inl asker → (s.sent d.flip).countP (Message.isQuery q) ≤ 1
  passed : ∀ v es a d, v ≠ asker →
    b.topology.IsWalkBetween good (.inl asker) (.inl v) (es++[a.flip]) → b.owner d = .inl v →
    (s.sent d.flip).countP (Message.isQuery q)+
        (CheckState.unsent ((s.node v).queries q)).toNat ≤
      (s.delivered a).countP (Message.isQuery q)

omit [DecidableEq V] [DecidableEq X] [DecidableEq L] [DecidableEq I] in
/-- The query arrives at most once over each link of a walk from the node that asks it. -/
theorem Certain.once {good : L → Prop} (h : s.Certain b good asker q)
    (hgood : ∀ l, good l → b.Between l) {es : List (End L)} {e : End L}
    (hw : b.topology.IsWalkBetween good (.inl asker) (b.owner e) (es++[e.flip])) :
    (s.sent e).countP (Message.isQuery q) ≤ 1 := by
  induction es using List.reverseRecOn generalizing e with
  | nil => simpa using h.own e.flip (hw.start _ (by simp))
  | append_singleton es x ih =>
    have hinit := Topology.IsWalkBetween.init b.topology hw
    obtain ⟨u,hu⟩ : ∃ u, b.owner e.flip = .inl u := by
      obtain ⟨l,side⟩ := e
      cases side with
      | target => exact hgood l (hw.walk.good ⟨l,.source⟩ (by simp [End.flip,Side.flip]))
      | source => exact ⟨_,rfl⟩
    by_cases hua : u = asker
    · simpa using h.own e.flip (hua ▸ hu)
    · have hinit : b.topology.IsWalkBetween good (.inl asker) (.inl u) (es++[x.flip.flip]) := by
        rw [← hu]
        simpa [Bus.owner] using hinit
      have hstep := h.passed u es x.flip e.flip hua hinit hu
      have hprev := ih (e := x.flip) (by
        rwa [show b.owner x.flip = .inl u from hinit.peer_last b.topology ▸ by simp [Bus.owner]])
      have hle := s.countP_delivered_le (Message.isQuery q) x.flip
      simp only [End.flip_flip] at hstep
      omega

omit [DecidableEq V] [DecidableEq X] [DecidableEq L] [DecidableEq I] in
theorem Outside.certain {good : L → Prop} (ho : s.Outside t) (h : s.Certain b good asker q) :
    t.Certain b good asker q := by
  have hsent (e : End L) : (t.sent e).countP (Message.isQuery q) =
      (s.sent e).countP (Message.isQuery q) :=
    ho.countP_sent (by intro m hm; cases m <;> simp_all [isRouted,Message.isQuery]) e
  refine ⟨?_,fun e hm => h.replied e (ho.mem_sent hm rfl),fun d hd => ?_,fun v es a d hv hw hd => ?_⟩
  · exact ho.node ▸ h.unsure
  · rw [hsent]
    exact h.own d hd
  · rw [hsent,ho.node]
    exact (h.passed v es a d hv hw hd).trans (ho.countP_delivered _ a)

/-- A query comes to a node over one link only, and not back to the node that asks it. -/
theorem NodeTakes.walk_unique {v : V} {c : End L} {i : I}
    {sends : List (PubSubNode.Send (End L) I Q P)}
    (hn : s.NodeTakes b lim v (.receive c (.query q i)) sends t) (hs : s₀.Steady b ids s)
    (hforest : b.topology.Acyclic (s₀.Accepted b))
    (h : s.Spread b ids (s₀.Accepted b) asker target q) (hp : (s.node v).pending c = none) :
    v ≠ asker ∧ ∀ es a, b.topology.IsWalkBetween (s₀.Accepted b) (.inl asker) (.inl v)
      (es++[a.flip]) → a = c := by
  obtain ⟨fs,hw⟩ := hn.walk_of_query hs h hp
  refine ⟨?_,fun es a hw' => ?_⟩
  · rintro rfl
    simpa using hw.closed b.topology hforest
  · have hu := hw'.unique b.topology hforest hw
    simpa using (List.append_inj' hu rfl).2

/-- Nobody else is checking, and no other pending link leads a query for the
target back to the node that asks it. -/
structure Undisturbed (b : Bus V X L) (good : L → Prop) (asker target : V)
    (s : Network V X L I Q P) : Prop where
  checking : ∀ v, v ≠ asker → (s.node v).checking = false
  back : ∀ l, b.source l = .inl asker → ((s.node asker).pending ⟨l,.source⟩).isSome →
    b.target l ≠ target → ¬b.Connected good asker (b.target l)

omit [DecidableEq V] [DecidableEq X] [DecidableEq I] in
theorem countP_ofQuery_eq_zero {sends : List (PubSubNode.Send (End L) I Q P)} {d : End L}
    (h : ∀ i, (d,.query q i) ∉ PubSubNode.ofQuery q sends) :
    ((PubSubNode.ofQuery q sends).countP fun f => decide (f.1 = d) && f.2.isQuery q) = 0 := by
  apply List.countP_eq_zero.mpr
  intro f hf hp
  obtain ⟨c,m⟩ := f
  obtain ⟨rfl,hm⟩ : c = d ∧ m.isQuery q = true := by simpa using hp
  cases m with
  | query q' i =>
    obtain rfl : q' = q := by simpa [Message.isQuery] using hm
    exact h i hf
  | _ => simp [Message.isQuery] at hm

/-- A query that has arrived before came over the same link, and it comes over that link once. -/
theorem NodeTakes.not_again {v : V} {e : End L} {i : I} {sends : List (PubSubNode.Send (End L) I Q P)}
    (hn : s.NodeTakes b lim v (.receive e.flip (.query q i)) sends t) (hs : s₀.Steady b ids s)
    (hforest : b.topology.Acyclic (s₀.Accepted b))
    (hspread : s.Spread b ids (s₀.Accepted b) asker target q) (hrep : s.Replied b)
    (h : s.Certain b (s₀.Accepted b) asker q) (hpend : (s.node v).pending e.flip = none) :
    (s.node v).queries q = none := by
  obtain ⟨hva,huniq⟩ := hn.walk_unique hs hforest hspread hpend
  refine Option.eq_none_iff_forall_ne_some.mpr fun o ho => ?_
  obtain ⟨-,-,⟨fs,hw,hlast⟩,-⟩ := hspread.entry v o ho
  rcases fs.eq_nil_or_concat with rfl | ⟨fs,x,rfl⟩
  · exact hva (Sum.inl.inj (show (Sum.inl asker : V ⊕ X) = .inl v by simpa using hw.finish)).symm
  have hxe : x.flip = e.flip := huniq fs x.flip (by simpa using hw)
  have hsrc : o.source = some e.flip := by
    have hlast : o.source.map End.flip = some x := by simpa [eq_comm] using hlast
    obtain ⟨a,ha,rfl⟩ := Option.map_eq_some_iff.mp hlast
    rw [ha,← hxe,End.flip_flip]
  have hbetween : ∀ l, s₀.Accepted b l → b.Between l := fun l ⟨v,hv,_⟩ => ⟨v,hv⟩
  have hone := h.once hbetween (show b.topology.IsWalkBetween _ _ (b.owner e.flip)
    (fs++[e.flip.flip]) by rw [show b.owner e.flip = .inl v from hn.occurs.1,← hxe]; simpa using hw)
  have howes := hrep v e.flip q hn.occurs.1
  simp only [CheckState.owes,ho,Option.bind_some,hsrc,decide_true,Bool.toNat_true] at howes
  have hlt := s.countP_delivered_lt hn.occurs.2 (p := Message.isQuery q) (by simp [Message.isQuery])
  omega

/-- The node that asks gets no query of its own over a link it has not activated. -/
theorem NodeTakes.not_back {e : End L} {i : I} {sends : List (PubSubNode.Send (End L) I Q P)}
    (hn : s.NodeTakes b lim asker (.receive e.flip (.query q i)) sends t) (hs : s₀.Steady b ids s)
    (hspread : s.Spread b ids (s₀.Accepted b) asker target q)
    (hu : s.Undisturbed b (s₀.Accepted b) asker target) :
    (s.node asker).pending e.flip = none := by
  by_contra hpend
  obtain ⟨-,-,u,es,howner,hut,hw,-⟩ := hspread.sent _ i (head_mem_sent hn.occurs.2)
  have hsome : ((s.node asker).pending e.flip).isSome := Option.isSome_iff_ne_none.mpr hpend
  have hside := of_decide_eq_true ((hs.sound.node asker).pendingUp _ hsome)
  have hsrc := (b.owner_source hside).symm.trans hn.occurs.1
  have he : e = ⟨e.link,.target⟩ := by
    obtain ⟨l,side⟩ := e
    cases side
    · simp [End.flip,Side.flip] at hside
    · rfl
  rw [End.flip_flip,he] at howner
  obtain rfl : b.target e.link = u := Sum.inl.inj howner
  exact hu.back e.link hsrc (by rwa [he] at hsome) hut ⟨es,hw⟩

/-- Nobody answers the query UNKNOWN at once. -/
theorem NodeTakes.not_unknown {v : V} {e : End L} {i : I}
    {sends : List (PubSubNode.Send (End L) I Q P)}
    (hn : s.NodeTakes b lim v (.receive e.flip (.query q i)) sends t) (hs : s₀.Steady b ids s)
    (hforest : b.topology.Acyclic (s₀.Accepted b))
    (hspread : s.Spread b ids (s₀.Accepted b) asker target q) (hrep : s.Replied b)
    (hu : s.Undisturbed b (s₀.Accepted b) asker target)
    (h : s.Certain b (s₀.Accepted b) asker q) :
    (s.node v).answerNow e.flip q i ≠ some .unknown := by
  intro hnow
  have hpend : (s.node v).pending e.flip = none := by
    by_cases hva : v = asker
    · subst v
      exact hn.not_back hs hspread hu
    · exact ((CheckState.answerNow_eq_unknown hnow).resolve_left fun hk => by
        simp [hu.checking v hva] at hk).1
  have hva := (hn.walk_unique hs hforest hspread hpend).1
  rcases CheckState.answerNow_eq_unknown hnow with hk | ⟨-,hq⟩
  · simp [hu.checking v hva] at hk
  · simp [hn.not_again hs hforest hspread hrep h hpend] at hq

omit [DecidableEq V] [DecidableEq X] [DecidableEq L] [DecidableEq I] [DecidableEq Q] in
/-- The own query is sent as soon as it is asked. -/
theorem Spread.own_sent (hspread : s.Spread b ids (s₀.Accepted b) asker target q)
    (hs : s₀.Steady b ids s) (hforest : b.topology.Acyclic (s₀.Accepted b)) :
    CheckState.unsent ((s.node asker).queries q) = false := by
  refine Bool.eq_false_iff.mpr fun hun => ?_
  obtain ⟨o,ho,hos⟩ : ∃ o, (s.node asker).queries q = some o ∧ o.sent = false := by
    simpa [CheckState.unsent,Option.any_eq_true] using hun
  obtain ⟨-,-,⟨fs,hw,hlast⟩,-⟩ := hspread.entry asker o ho
  obtain rfl := hw.closed b.topology hforest
  have hsrc : o.source = none := by simpa [eq_comm] using hlast
  obtain ⟨c,i,k,hc⟩ := (hs.sound.node asker).ownOnly q o ho hsrc
  obtain ⟨query,hq⟩ := (hs.sound.node asker).own c i k q hc
  simp [Option.some.inj (ho.symm.trans hq)] at hos

theorem NodeTakes.certain {v : V} {ev : NodeEvent (End L) I Q P}
    {sends : List (PubSubNode.Send (End L) I Q P)} (hn : s.NodeTakes b lim v ev sends t)
    (hs : s₀.Steady b ids s) (hforest : b.topology.Acyclic (s₀.Accepted b))
    (hspread : s.Spread b ids (s₀.Accepted b) asker target q) (hrep : s.Replied b)
    (hu : s.Undisturbed b (s₀.Accepted b) asker target)
    (h : s.Certain b (s₀.Accepted b) asker q) (hask : ev ≠ .ask q)
    (htime : ev ≠ .forwardTimeout q) :
    t.Certain b (s₀.Accepted b) asker q := by
  have hx := hn.onQuery hs.sound q
  have hcount {p : Message I Q P → Bool} (hp : p = Message.isQuery q) (d : End L) :
      (t.sent d.flip).countP p = (s.sent d.flip).countP p+
        (PubSubNode.ofQuery q sends).countP fun f => decide (f.1 = d) && p f.2 := by
    simpa using hn.countP_sent (p := p) (fun m hm => Message.queryId_of_isQuery (hp ▸ hm)) d.flip
  -- only the node itself sends over its ends
  have hother {d : End L} {w : V} (hd : b.owner d = .inl w) (hw : w ≠ v) :
      ((PubSubNode.ofQuery q sends).countP fun f => decide (f.1 = d) && f.2.isQuery q) = 0 := by
    apply countP_ofQuery_eq_zero
    intro i hf
    rcases hx.query_sent hf with ⟨o,ho,-,hc⟩ | ⟨rfl,-⟩
    · exact hw (Sum.inl.inj (hd.symm.trans ((hspread.entry v o ho).2.2.2 d hc).1))
    · exact hask rfl
  have hstep (d : End L) := (hx.query_count (hs.sound.node v).nodup (hspread.nodup v) d)
  refine ⟨fun w o ho => ?_,fun e hm => ?_,fun d hd => ?_,fun w es a d hw hwalk hd => ?_⟩
  · by_cases hw : w = v
    · subst w
      intro hun
      rcases hx.entry ho with ⟨p,hp,hc⟩ | ⟨c,i,rfl,hnow,rfl⟩ | ⟨rfl,-⟩
      · rcases hc.unsure hun with hun | ⟨c,rfl⟩
        · exact h.unsure v p hp hun
        · exact h.replied c (head_mem_sent hn.occurs.2)
      · exact Query.new_not_unsure _ hun
      · exact hask rfl
    · exact h.unsure w o (hn.others w hw ▸ ho)
  · rcases hn.mem_ofQuery hm rfl with hm | hf
    · exact h.replied e hm
    rcases hx.reply_sent hf with ⟨i,rfl,hnow⟩ | ⟨i,rfl,-,hr,-⟩ | ⟨o,ho,hsrc,hr | ⟨hr,-⟩⟩
    · exact hn.not_unknown hs hforest hspread hrep hu h hnow
    · simp at hr
    · exact h.unsure v o ho (.inr hr)
    · exact htime hr
  · rw [hcount rfl]
    have hold := h.own d hd
    by_cases hva : asker = v
    · subst v
      rcases hstep d with hk | ⟨c,i,rfl,hnow,-⟩ | ⟨rfl,-⟩
      · simp only [hspread.own_sent hs hforest,Bool.toNat_false] at hk
        omega
      · exact absurd rfl
          (hn.walk_unique hs hforest hspread (CheckState.answerNow_eq_none hnow).1).1
      · exact absurd rfl hask
    · rw [hother hd hva]
      omega
  · rw [hcount rfl]
    have hold := h.passed w es a d hw hwalk hd
    have hread := hn.countP_delivered q a
    by_cases hwv : w = v
    · subst w
      rcases hstep d with hk | ⟨c,i,rfl,hnow,hk⟩ | ⟨rfl,-⟩
      · omega
      · obtain rfl : a = c := (hn.walk_unique hs hforest hspread
          (CheckState.answerNow_eq_none hnow).1).2 es a hwalk
        simp only [CheckState.arrives,Message.isQuery,decide_true,Bool.and_self,
          Bool.toNat_true] at hread
        omega
      · exact absurd rfl hask
    · rw [hother hd hwv,hn.others w hwv]
      omega

theorem NodeTakes.certain_asked {v : V} {sends : List (PubSubNode.Send (End L) I Q P)}
    (hn : s.NodeTakes b lim v (.ask q) sends t) (hs : s₀.Steady b ids s) {good : L → Prop} :
    t.Certain b good v q := by
  have hx := hn.onQuery hs.sound q
  obtain ⟨hnone,hunsent⟩ := hn.unasked hs.sound
  have hcount (d : End L) : (t.sent d.flip).countP (Message.isQuery q) =
      (PubSubNode.ofQuery q sends).countP fun f => decide (f.1 = d) && f.2.isQuery q := by
    have hzero : (s.sent d.flip).countP (Message.isQuery q) = 0 :=
      List.countP_eq_zero.mpr fun m hm hq => hunsent _ m hm (Message.queryId_of_isQuery hq)
    rw [hn.countP_sent (p := Message.isQuery q) (fun m => Message.queryId_of_isQuery) d.flip,hzero]
    simp
  refine ⟨fun w o ho => ?_,fun e hm => ?_,fun d hd => ?_,fun w es a d hw hwalk hd => ?_⟩
  · by_cases hw : w = v
    · subst w
      rcases hx.entry ho with ⟨p,hp,-⟩ | ⟨_,_,hev,-⟩ | ⟨-,_,_,_,-,rfl⟩
      · simp [hnone v] at hp
      · simp at hev
      · exact Query.new_not_unsure _
    · simp [hn.others w hw,hnone w] at ho
  · exact hn.unreplied hs.sound e _ hm
  · rw [hcount]
    rcases hx.query_count (hs.sound.node v).nodup (by simp [hnone v]) d with hk | ⟨_,_,hev,-⟩ | ⟨-,hk⟩
    · simp only [hnone v,CheckState.unsent,Option.any_none,Bool.toNat_false] at hk
      omega
    · simp at hev
    · omega
  · have hzero : ((PubSubNode.ofQuery q sends).countP
        fun f => decide (f.1 = d) && f.2.isQuery q) = 0 := by
      apply countP_ofQuery_eq_zero
      intro i hf
      rcases hx.query_sent hf with ⟨o,ho,-⟩ | ⟨-,hc,-⟩
      · simp [hnone v] at ho
      · obtain ⟨hl,hp,-⟩ := mem_activeNodeConnections.mp hc
        exact hw (Sum.inl.inj (hd.symm.trans (hs.accepted_of_listed hl hp).1))
    rw [hcount,hzero,hn.others w hw,hnone w]
    simp [CheckState.unsent]

end Network
end SoftwareBus
