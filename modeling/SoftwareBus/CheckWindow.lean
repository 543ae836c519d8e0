import SoftwareBus.QueryInvariant

/-! Which queries a node answers while an attempt of its cycle check is under way:
from the moment it asks its own query until the check goes on with the result. -/
namespace SoftwareBus

variable {C I Q P : Type} [DecidableEq C] [DecidableEq I] [DecidableEq Q]

namespace PubSubNode

def next (cfg : Settings C I Q P) (n : PubSubNode C I Q P) (ev : NodeEvent C I Q P) :
    Option (PubSubNode C I Q P) := (n.step cfg ev).map Prod.fst

/-- A query that the node handles is answered "unknown", or "found" if it asks for
the node itself and came over an active connection. -/
def shielded (n : PubSubNode C I Q P) : NodeEvent C I Q P → Bool
  | .receive c (.query q i) => decide (n.answerNow c q i = some .unknown ∨
      n.answerNow c q i = some .found ∧ i = n.nodeId ∧ (n.pending c).isNone)
  | _ => true

/-- Once the query of the check has ended, the node handles only queries that come
over an active connection, and ask for the node itself or arrive a second time. -/
def unhurried (n : PubSubNode C I Q P) : NodeEvent C I Q P → Bool
  | .receive c (.query q i) =>
    match n.check with
    | .answered _ _ _ _ => decide ((n.pending c).isNone ∧ (i = n.nodeId ∨ (n.queries q).isSome))
    | _ => true
  | _ => true

def leaves : NodeEvent C I Q P → Bool
  | .resume | .abandon => true
  | _ => false

end PubSubNode

namespace CheckState

/-- The flag the node answers by is set exactly while its own query is open. -/
def Flagged (n : CheckState C I Q P) : Prop :=
  n.checking = true ↔ ∃ c i k q, n.check = .asking c i k q

/-- The query of the check is open, or has ended and the checking task has not resumed. -/
def Attempting (n : CheckState C I Q P) : Prop :=
  (∃ c i k q, n.check = .asking c i k q) ∨ ∃ c i k r, n.check = .answered c i k r

variable {up : C → Bool} {n n' : CheckState C I Q P} {ev : NodeEvent C I Q P}
  {fs : List (C × Message I Q P)}

/-- A step keeps the flag and the check together, or both change with the query. -/
theorem Effect.flagged (he : Effect up n ev n' fs) (h : n.Flagged) : n'.Flagged := by
  have same {m : CheckState C I Q P} (hk : m.checking = n.checking) (hc : m.check = n.check) :
      m.Flagged := by
    rw [Flagged,hk,hc]
    exact h
  have off {m : CheckState C I Q P} (hk : m.checking = n.checking)
      (hn : ∀ c i k q, n.check ≠ .asking c i k q) (hc : ∀ c i k q, m.check ≠ .asking c i k q) :
      m.Flagged := by
    rw [Flagged,hk,show n.checking = true ↔ _ from h]
    simp [hn,hc]
  cases he with
  | held c m length =>
    obtain ⟨_,_,he,-⟩ := hold_eq n c m length
    exact same (by rw [he]) (by rw [he])
  | overLimit c m hm => exact same (by simp) (by simp)
  | hello c i =>
    obtain ⟨_,he,-⟩ := handleHello_eq n c i
    exact same (by rw [he]) (by rw [he])
  | replied c q r =>
    unfold handleReply
    split
    · exact h
    · exact same rfl rfl
  | lost c goesOn => exact same (by simp) (by simp)
  | closeConnection c hc => exact same (by simp) (by simp)
  | beginCheck c hc hp =>
    exact off rfl (fun d i k q hd => by simp [hd,Check.connection] at hc) (by simp)
  | refused ev c hev hc ha hk => exact off (by simp) ha (by simp)
  | identified c p held hc hp hself hno => exact off rfl (by simp [hc]) (by simp)
  | askedNobody q c p k hc ht => exact off rfl (by simp [hc]) (by simp)
  | asked q c p k hc ht => simp [Flagged]
  | queryEnded ev c p k q r hc hr => simp [Flagged]
  | activated c p k hc hp => exact off rfl (by simp [hc]) (by simp)
  | retried c p k hc hp => exact off rfl (by simp [hc]) (by simp)
  | abandonedQuery c p k q hc hp => simp [Flagged]
  | abandoned c hc hp ha => exact off rfl ha (by simp)
  | _ => exact same rfl rfl

theorem Effect.attempting (he : Effect up n ev n' fs) (h : n.Attempting)
    (hev : PubSubNode.leaves ev = false) : n'.Attempting := by
  have hcheck {m : CheckState C I Q P} (hm : m.check = n.check) : m.Attempting := by
    rw [Attempting,hm]
    exact h
  cases he with
  | held c m length =>
    obtain ⟨_,_,he,-⟩ := hold_eq n c m length
    exact hcheck (by rw [he])
  | overLimit c m hm => exact hcheck (by simp)
  | hello c i =>
    obtain ⟨_,he,-⟩ := handleHello_eq n c i
    exact hcheck (by rw [he])
  | replied c q r =>
    unfold handleReply
    split
    · exact h
    · exact hcheck rfl
  | lost c goesOn => exact hcheck (by simp)
  | closeConnection c hc => exact hcheck (by simp)
  | askedNobody q c p k hc ht => exact .inr ⟨c,p,k,_,rfl⟩
  | asked q c p k hc ht => exact .inl ⟨c,p,k,q,rfl⟩
  | queryEnded ev c p k q r hc hr => exact .inr ⟨c,p,k,r,rfl⟩
  | beginCheck c hc hp => rcases h with ⟨_,_,_,_,h⟩ | ⟨_,_,_,_,h⟩ <;> simp [h,Check.connection] at hc
  | identified c p held hc hp hself hno => simp [Attempting,hc] at h
  | refused ev c hev' hc ha hk =>
    rcases hev' with rfl | ⟨-,hc⟩
    · simp [PubSubNode.leaves] at hev
    · simp [Attempting,hc] at h
  | activated c p k hc hp => simp [PubSubNode.leaves] at hev
  | retried c p k hc hp => simp [PubSubNode.leaves] at hev
  | abandonedQuery c p k q hc hp => simp [PubSubNode.leaves] at hev
  | abandoned c hc hp ha => simp [PubSubNode.leaves] at hev
  | _ => exact hcheck rfl

end CheckState

namespace PubSubNode

variable {cfg : Settings C I Q P} {n n' : PubSubNode C I Q P} {ev : NodeEvent C I Q P}

theorem next_effect (h : n.next cfg ev = some n') :
    ∃ fs, CheckState.Effect cfg.fromUpstream n.toCheckState ev n'.toCheckState fs := by
  obtain ⟨⟨m,sends⟩,hm,rfl⟩ := Option.map_eq_some_iff.mp h
  exact ⟨_,step_effect hm⟩

omit [DecidableEq C] [DecidableEq Q] in
/-- While an attempt is under way, the answers are as they must be exactly where
the queries leave no other choice once the own query has ended. -/
theorem shielded_eq (hf : n.Flagged) (ha : n.Attempting) (ev : NodeEvent C I Q P) :
    n.shielded ev = n.unhurried ev := by
  unfold shielded unhurried
  split
  · rename_i c q i
    rcases ha with ⟨d,j,k,r,hc⟩ | ⟨d,j,k,r,hc⟩
    · have hk : n.checking = true := hf.mpr ⟨d,j,k,r,hc⟩
      cases hp : n.pending c <;> by_cases hi : i = n.nodeId <;>
        simp [CheckState.answerNow,hc,hk,hp,hi]
    · have hk : n.checking = false := by
        refine Bool.eq_false_iff.mpr fun hk => ?_
        obtain ⟨_,_,_,_,hc'⟩ := hf.mp hk
        simp [hc] at hc'
      cases hp : n.pending c <;> by_cases hi : i = n.nodeId <;> cases hq : n.queries q <;>
        simp [CheckState.answerNow,hc,hk,hp,hi,hq]
  · rename_i hno
    cases ev with
    | receive c m =>
      cases m with
      | query q i => exact absurd rfl (hno c q i)
      | _ => rfl
    | _ => rfl

/-- During an attempt of the cycle check every query is answered "unknown", or
"found" for the node itself over an active connection, exactly if none of those
handled after the own query has ended would be passed on or denied. -/
theorem shielded_iff_unhurried (cfg : Settings C I Q P) (i : I)
    {before during : List (NodeEvent C I Q P)} {q : Q} {n₁ : PubSubNode C I Q P}
    (hbefore : Transition.run (next cfg) (.new i) before = some n)
    (hask : n.next cfg (.ask q) = some n₁) (hduring : ∀ ev ∈ during, leaves ev = false) :
    Transition.Guarded (next cfg) (fun n ev => n.shielded ev = true) n₁ during ↔
      Transition.Guarded (next cfg) (fun n ev => n.unhurried ev = true) n₁ during := by
  have hflag : n.Flagged := Transition.run_invariant_always (I := fun n => n.Flagged)
    (fun m ev m' hm hstep => by
      obtain ⟨fs,he⟩ := next_effect hstep
      exact he.flagged hm) (by simp [CheckState.Flagged,new]) hbefore
  obtain ⟨fs,he⟩ := next_effect hask
  have hstart : n₁.Flagged ∧ n₁.Attempting := by
    refine ⟨he.flagged hflag,?_⟩
    obtain ⟨c,j,k,-,-,⟨-,hc,-⟩ | ⟨hc,-⟩⟩ := he.asks
    · exact .inr ⟨c,j,k,_,hc⟩
    · exact .inl ⟨c,j,k,q,hc⟩
  refine Transition.guarded_congr (I := fun n => n.Flagged ∧ n.Attempting) ?_
    (fun m ev hm => by rw [shielded_eq hm.1 hm.2 ev]) hstart hduring
  intro m ev m' hm hev hstep
  obtain ⟨fs,he⟩ := next_effect hstep
  exact ⟨he.flagged hm.1,he.attempting hm.2 hev⟩

def windowSettings : Settings ℕ ℕ ℕ Unit :=
  {maxCheckAttempts := 5,heldMessagesLimit := 100,length := fun _ => 1,fromUpstream := (· == 0)}

/-- Node 0 checks its connection to node 1; connection 2 to node 3 is active. -/
def beforeAsk : List (NodeEvent ℕ ℕ ℕ Unit) :=
  [.establish 0,.receive 0 (.hello 1),.accept 2,.receive 2 (.hello 3),.beginCheck 0,.helloDone]

theorem shielded_iff_unhurried_open : ∃ n n₁,
    Transition.run (next windowSettings) (.new 0) beforeAsk = some n ∧
      n.next windowSettings (.ask 0) = some n₁ ∧
      (Transition.Guarded (next windowSettings) (fun n ev => n.shielded ev = true) n₁
          [.receive 2 (.query 7 1),.receive 0 (.query 8 0),.receive 2 (.reply 0 .notFound)] ↔
        Transition.Guarded (next windowSettings) (fun n ev => n.unhurried ev = true) n₁
          [.receive 2 (.query 7 1),.receive 0 (.query 8 0),.receive 2 (.reply 0 .notFound)]) := by
  have hrun := Option.some_get (show (Transition.run (next windowSettings) (.new 0)
    beforeAsk).isSome by decide)
  exact ⟨_,_,hrun.symm,(Option.some_get (by decide)).symm,
    shielded_iff_unhurried windowSettings 0 hrun.symm (Option.some_get (by decide)).symm (by decide)⟩

def beforeDenial : List (NodeEvent ℕ ℕ ℕ Unit) :=
  [.establish 0,.receive 0 (.hello 1),.beginCheck 0,.helloDone]

/-- Node 3 joins and asks for node 1 before the check goes on. -/
def denial : List (NodeEvent ℕ ℕ ℕ Unit) :=
  [.accept 2,.receive 2 (.hello 3),.receive 2 (.query 7 1)]

/-- Node 0 has nobody to ask, answers "not found" when it is asked for node 1, and
then accepts its connection to node 1. -/
theorem not_shielded : ∃ n n₁ n₂ n₃,
    Transition.run (next windowSettings) (.new 0) beforeDenial = some n ∧
      n.next windowSettings (.ask 0) = some n₁ ∧
      Transition.run (next windowSettings) n₁ denial = some n₂ ∧
      n₂.check = .answered 0 1 0 .notFound ∧ n₂.next windowSettings .resume = some n₃ ∧
      0 ∈ n₃.upstreamConnections ∧ (n₃.pending 0).isNone ∧
      ¬Transition.Guarded (next windowSettings) (fun n ev => n.shielded ev = true) n₁ denial :=
  ⟨_,_,_,_,(Option.some_get (by decide)).symm,(Option.some_get (by decide)).symm,
    (Option.some_get (by decide)).symm,by decide,(Option.some_get (by decide)).symm,by decide,
    by decide,by decide⟩

end PubSubNode
end SoftwareBus
