import SoftwareBus.NetworkInvariant

/-! Why a reachability query does not end as "not found" while a walk over good
links leads to its target: every node on the walk that has the query expects an
answer from the next one, and no node answers "not found" back along it. -/
namespace SoftwareBus

open LinkGraph

variable {V X L I Q P : Type}

namespace Network

/-- A query for the node `target`, while only good links are counted. -/
structure Expecting (b : Bus V X L) (ids : V → I) (good : L → Prop) (target : V) (q : Q)
    (s : Network V X L I Q P) : Prop where
  entries : ∀ v o, (s.node v).queries q = some o →
    o.targetNodeId = ids target ∧ (v = target → o.source = none)
  expects : ∀ v, (s.node v).Expects q
    fun e => b.owner e = .inl v ∧ b.topology.Reach good (.inl target) e
  queried : ∀ e i, .query q i ∈ s.sent e → i = ids target
  replied : ∀ e, b.topology.Reach good (.inl target) e → .reply q .notFound ∉ s.sent e

variable {b : Bus V X L} {lim : Limits I Q P} {ids : V → I} {s t : Network V X L I Q P}
  {good good' : L → Prop} {target : V} {q : Q}

theorem Outside.expecting (ho : s.Outside t) (h : s.Expecting b ids good target q)
    (hg : ∀ l, good' l → good l) : t.Expecting b ids good' target q := by
  refine ⟨fun v o => ?_,fun v o hq e he => ?_,fun e i hm => ?_,fun e he hm => ?_⟩
  · exact ho.node ▸ h.entries v o
  · exact h.expects v o (ho.node ▸ hq) e ⟨he.1,he.2.mono _ hg⟩
  · exact h.queried e i (ho.mem_sent hm rfl)
  · exact h.replied e (he.mono _ hg) (ho.mem_sent hm rfl)

variable [DecidableEq V] [DecidableEq X] [DecidableEq L] [DecidableEq I] [DecidableEq Q]

/-- A node's step keeps a query from ending as "not found" if good links are not
lost by it, a node that passes the query on counts all good links it has, and no
node denies it over a good link. -/
theorem NodeTakes.expecting {v : V} {ev : NodeEvent (End L) I Q P}
    {sends : List (PubSubNode.Send (End L) I Q P)} (hn : s.NodeTakes b lim v ev sends t)
    (hs : s.Sound b ids) (h : s.Expecting b ids good target q) (hg : ∀ l, good' l → good l)
    (hlost : ∀ l, good' l → t.lost l = false)
    (hpass : ∀ c i, ev = .receive c (.query q i) → (s.node v).answerNow c q i = none →
      ∀ d, b.owner d = .inl v → good' d.link → d ∈ (s.node v).activeNodeConnections)
    (hdeny : ∀ c i, ev = .receive c (.query q i) →
      (s.node v).answerNow c q i = some .notFound → ¬good' c.link)
    (hask : ev ≠ .ask q) : t.Expecting b ids good' target q := by
  have hx := hn.onQuery hs q
  have hkept : ∀ l, good' l → s.lost l = false := fun l hl =>
    Bool.eq_false_iff.mpr fun hsl => absurd ((hn.lost l).mpr (.inl hsl)) (by simp [hlost l hl])
  refine ⟨fun w o ho => ?_,fun w => ?_,fun e i hm => ?_,fun e hr hm => ?_⟩
  · by_cases hw : w = v
    · subst w
      rcases hx.entry ho with ⟨p,hp,hc⟩ | ⟨c,i,rfl,hnow,rfl⟩ | ⟨rfl,-⟩
      · exact hc.targetNodeId ▸ hc.source ▸ h.entries v p hp
      · have hi := h.queried c _ (head_mem_sent hn.occurs.2)
        refine ⟨hi,fun hv => absurd ?_ (CheckState.answerNow_eq_none hnow).2.1⟩
        rw [hi,hs.nodeId,hv]
      · exact absurd rfl hask
    · exact h.entries w o (hn.others w hw ▸ ho)
  · by_cases hw : w = v
    · subst w
      refine hx.expects (fun o ho e hr => h.expects v o ho e ⟨hr.1,hr.2.mono _ hg⟩)
        ?_ ?_ ?_ ?_ hask
      · intro c hr hm
        by_contra hm'
        have hl := (hn.lost c.link).mpr (.inr ⟨c,hm,rfl,hm'⟩)
        simp [hlost _ hr.2.good] at hl
      · intro c hr
        refine Bool.eq_false_iff.mpr fun hc => ?_
        simpa [hkept _ hr.2.good] using hs.closing v c hc
      · rintro c hr rfl
        exact h.replied c (hr.2.mono _ hg) (head_mem_sent hn.occurs.2)
      · exact fun c i hev hnow d hr => hpass c i hev hnow d hr.1 hr.2.good
    · intro o ho e hr
      exact h.expects w o (hn.others w hw ▸ ho) e ⟨hr.1,hr.2.mono _ hg⟩
  · rcases hn.mem_ofQuery hm rfl with hm | hf
    · exact h.queried e i hm
    · rcases hx.query_sent hf with ⟨p,hp,rfl,-⟩ | ⟨rfl,-⟩
      · exact (h.entries v p hp).1
      · exact absurd rfl hask
  · rcases hn.mem_ofQuery hm rfl with hm | hf
    · exact h.replied e (hr.mono _ hg) hm
    -- the other ways lead to `v`, and on from there unless it is the target
    have hon : b.owner e.flip = .inl v → v = target ∨ ∃ f, b.owner f = .inl v ∧ f ≠ e.flip ∧
        b.topology.Reach good' (.inl target) f := by
      intro hown
      cases hr with
      | here hl hb => exact .inl (Sum.inl.inj (hown.symm.trans hb))
      | step hl hf hr => exact .inr ⟨_,hf.1.trans hown,hf.2,hr⟩
    rcases hx.reply_sent hf with ⟨i,rfl,hnow⟩ | ⟨i,rfl,hnow,-,hall⟩ | ⟨o,ho,hsrc,hres⟩
    · exact hdeny _ i rfl hnow hr.good
    · rcases hon hn.occurs.1 with rfl | ⟨f,hfo,hfe,hfr⟩
      · have hi := h.queried _ _ (head_mem_sent hn.occurs.2)
        exact (CheckState.answerNow_eq_none hnow).2.1 (hi.trans (hs.nodeId v).symm)
      · exact hfe (hall f (hpass _ i rfl hnow f hfo hfr.good))
    · rcases hon ((hs.node v).source q o _ ho hsrc) with rfl | ⟨f,hfo,hfe,hfr⟩
      · simp [(h.entries v o ho).2 rfl] at hsrc
      · have hexp := h.expects v o ho f ⟨hfo,hfr.mono _ hg⟩
        refine (hexp ?_).notEnded (by simpa using hres)
        rw [hsrc]
        exact fun hfe' => hfe (Option.some.inj hfe').symm

theorem NodeTakes.expecting_asked {v : V} {sends : List (PubSubNode.Send (End L) I Q P)}
    (hn : s.NodeTakes b lim v (.ask q) sends t) (hs : s.Sound b ids) {c : End L} {k : ℕ}
    (hc : (s.node v).check = .attempt c (ids target) k)
    (hgood : ∀ e, b.owner e = .inl v → good e.link → e ∈ (s.node v).activeNodeConnections) :
    t.Expecting b ids good target q := by
  obtain ⟨hnone,hunsent⟩ := hn.unasked hs
  refine ⟨fun w o ho => ?_,fun w o ho e hr _ => ?_,fun e i hm => ?_,fun e hr => ?_⟩
  · obtain ⟨-,rfl⟩ := hn.asked_entry hs hc ho
    exact ⟨rfl,fun _ => rfl⟩
  · obtain ⟨rfl,rfl⟩ := hn.asked_entry hs hc ho
    exact Query.new_expects (hgood e hr.1 hr.2.good)
  · rcases hn.mem_ofQuery hm rfl with hm | hf
    · exact absurd rfl (hunsent e _ hm)
    · rcases (hn.onQuery hs q).query_sent hf with ⟨p,hp,-⟩ | ⟨-,-,d,m,hd⟩
      · simp [hnone v] at hp
      · simp_all
  · exact hn.unreplied hs e .notFound

end Network
end SoftwareBus
