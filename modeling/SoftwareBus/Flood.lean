import SoftwareBus.LinkGraph
import SoftwareBus.Transition
import Mathlib.Data.List.Perm.Subperm

/-! Flooding a forest: a vertex passes on everything it receives through an end to
all its other ends, in the order it came. Every item is known by who said it. -/
namespace LinkGraph

open Transition

variable {V L D : Type}

structure Flood (V L D : Type) where
  /-- Everything said so far, and who said it. -/
  said : List (V × D)
  /-- What has been sent through an end. -/
  sent : End L → List (V × D)
  /-- How much of what was sent towards an end has been passed on. -/
  read : End L → ℕ

inductive FloodAction (V L D : Type)
  | say (a : V) (d : D)
  | pass (e : End L)

namespace Flood

def init : Flood V L D := ⟨[],fun _ => [],fun _ => 0⟩

def received (s : Flood V L D) (e : End L) : List (V × D) := (s.sent e.flip).take (s.read e)

def push (s : Flood V L D) (p : V × D) (out : End L → Bool) (e : End L) :
    List (V × D) := if out e then s.sent e++[p] else s.sent e

variable [DecidableEq V] [DecidableEq L]

def of (a : V) (ps : List (V × D)) : List (V × D) := ps.filter fun p => p.1 = a

def step (t : Topology V L) (s : Flood V L D) : FloodAction V L D → Option (Flood V L D)
  | .say a d => some {s with said := s.said++[(a,d)], sent := s.push (a,d) fun e => decide (t.owner e = a)}
  | .pass e => (s.sent e.flip)[s.read e]?.map fun p => {s with
      sent := s.push p fun f => decide (t.owner f = t.owner e ∧ f ≠ e)
      read := Function.update s.read e (s.read e+1)}

theorem of_append (a : V) (ps qs : List (V × D)) : of a (ps++qs) = of a ps++of a qs := by
  simp [of]

theorem of_other {a : V} {p : V × D} (h : p.1 ≠ a) : of a [p] = [] := by
  simp [of,h]

variable {t : Topology V L} {s s' : Flood V L D}

/-- What holds while a forest is flooded. -/
structure Spread (t : Topology V L) (s : Flood V L D) : Prop where
  read : ∀ e, s.read e ≤ (s.sent e.flip).length
  own : ∀ e, of (t.owner e) (s.sent e) = of (t.owner e) s.said
  /-- What comes from behind another end of the same vertex is passed on in the order received. -/
  passed : ∀ e f a, t.owner f = t.owner e → f ≠ e → t.Reach (fun _ => True) a f →
    of a (s.sent e) = of a (s.received f)
  behind : ∀ e, ∀ p ∈ s.sent e, p.1 = t.owner e ∨
    ∃ f, t.owner f = t.owner e ∧ f ≠ e ∧ t.Reach (fun _ => True) p.1 f

omit [DecidableEq V] [DecidableEq L] in
theorem reach_self (ht : t.Acyclic fun _ => True) (e : End L) :
    ¬t.Reach (fun _ => True) (t.owner e) e := by
  intro h
  obtain ⟨es,hw,hend⟩ := t.walk_of_reach h
  exact hw.not_closed t ht (by simp) (by simpa using hend)

omit [DecidableEq V] [DecidableEq L] in
theorem reach_unique (ht : t.Acyclic fun _ => True) {a : V} {e f : End L}
    (he : t.Reach (fun _ => True) a e) (hf : t.Reach (fun _ => True) a f)
    (h : t.owner e = t.owner f) : e = f := by
  have between {g : End L} (hg : t.Reach (fun _ => True) a g) :
      ∃ es, t.IsWalkBetween (fun _ => True) (t.owner g) a (g::es) := by
    obtain ⟨es,hw,hend⟩ := t.walk_of_reach hg
    exact ⟨es,hw,by simp,by simpa [List.getLast?_eq_getLast_of_ne_nil] using hend⟩
  obtain ⟨es,hes⟩ := between he
  obtain ⟨fs,hfs⟩ := between hf
  have heq := hes.unique t ht (h ▸ hfs)
  exact (List.cons.inj heq).1

omit [DecidableEq V] [DecidableEq L] in
/-- An item comes through an end from who said it. -/
theorem Spread.reach [DecidableEq V] (hs : s.Spread t) {e : End L} {p : V × D} (hp : p ∈ s.sent e.flip) :
    t.Reach (fun _ => True) p.1 e := by
  rcases hs.behind e.flip p hp with h | ⟨f,hf,hne,h⟩
  · exact .here trivial (by simpa using h.symm)
  · exact .step trivial ⟨by simpa using hf,hne⟩ h

omit [DecidableEq L] in
theorem init_spread (t : Topology V L) : (init : Flood V L D).Spread t :=
  ⟨by simp [init],by simp [init,of],by simp [init,of,received],by simp [init]⟩

section push

variable {p : V × D} {out : End L → Bool} {e : End L}

omit [DecidableEq V] [DecidableEq L]

theorem push_prefix : s.sent e <+: s.push p out e := by
  unfold push
  split
  · exact List.prefix_append _ _
  · exact List.prefix_rfl

theorem mem_push {q : V × D} (h : q ∈ s.push p out e) : q ∈ s.sent e ∨ q = p ∧ out e = true := by
  unfold push at h
  split at h
  · exact (List.mem_append.mp h).imp_right fun h => ⟨List.mem_singleton.mp h,‹out e = true›⟩
  · exact .inl h

theorem of_push [DecidableEq V] {a : V} (h : out e = true → p.1 ≠ a) :
    of a (s.push p out e) = of a (s.sent e) := by
  unfold push
  split
  · rw [of_append,of_other (h ‹_›),List.append_nil]
  · rfl

theorem take_push {n : ℕ} (h : n ≤ (s.sent e).length) :
    (s.push p out e).take n = (s.sent e).take n := by
  unfold push
  split
  · rw [List.take_append_of_le_length h]
  · rfl

end push

theorem step_say {a : V} {d : D} (h : s.step t (.say a d) = some s') :
    s'.said = s.said++[(a,d)] ∧ s'.read = s.read ∧
      ∀ e, s'.sent e = if t.owner e = a then s.sent e++[(a,d)] else s.sent e := by
  obtain rfl := Option.some.inj h
  exact ⟨rfl,rfl,fun e => by simp [push]⟩

theorem step_pass {e : End L} {p : V × D} (hp : (s.sent e.flip)[s.read e]? = some p) :
    ∃ s', s.step t (.pass e) = some s' ∧ s'.said = s.said ∧
      s'.read = Function.update s.read e (s.read e+1) ∧
      ∀ f, s'.sent f = if t.owner f = t.owner e ∧ f ≠ e then s.sent f++[p] else s.sent f := by
  refine ⟨{s with
    sent := s.push p fun f => decide (t.owner f = t.owner e ∧ f ≠ e)
    read := Function.update s.read e (s.read e+1)},by rw [step,hp,Option.map_some],rfl,rfl,fun f => ?_⟩
  simp [push]

theorem say_spread (ht : t.Acyclic fun _ => True) (hs : s.Spread t) {a : V} {d : D}
    (h : s.step t (.say a d) = some s') : s'.Spread t := by
  obtain rfl := Option.some.inj h
  refine ⟨fun e => ?_,fun e => ?_,fun e f b hef hne hb => ?_,fun e p hp => ?_⟩ <;> dsimp only [received] at *
  · exact (hs.read e).trans push_prefix.length_le
  · rw [of_append]
    by_cases ha : t.owner e = a
    · rw [push,if_pos (by simpa using ha),of_append,hs.own]
    · rw [of_push (by simp [ha]),of_other fun h => ha h.symm,List.append_nil,hs.own]
  -- nobody's own item comes back to them
  · have hout : decide (t.owner e = a) = true → a ≠ b := by
      rintro ha rfl
      obtain rfl := of_decide_eq_true ha
      exact reach_self ht f (by rw [hef]; exact hb)
    rw [of_push hout,take_push (hs.read f)]
    exact hs.passed e f b hef hne hb
  · rcases mem_push hp with hp | ⟨rfl,ha⟩
    · exact hs.behind e p hp
    · exact .inl (of_decide_eq_true ha).symm

theorem pass_spread (ht : t.Acyclic fun _ => True) (hs : s.Spread t) {g : End L}
    (h : s.step t (.pass g) = some s') : s'.Spread t := by
  obtain ⟨p,hp,rfl⟩ := Option.map_eq_some_iff.mp h
  obtain ⟨hlt,hget⟩ := List.getElem?_eq_some_iff.mp hp
  have hreach : t.Reach (fun _ => True) p.1 g := hs.reach (hget ▸ List.getElem_mem hlt)
  refine ⟨fun e => ?_,fun e => ?_,fun e f b hef hne hb => ?_,fun e q hq => ?_⟩ <;> dsimp only [received] at *
  · refine Nat.le_trans ?_ push_prefix.length_le
    by_cases he : e = g
    · subst e
      simpa using hlt
    · simpa [he] using hs.read e
  · rw [of_push ?_,hs.own]
    intro hout hpe
    obtain ⟨ho,-⟩ := of_decide_eq_true hout
    exact reach_self ht g (by rw [← ho,← hpe]; exact hreach)
  · by_cases hfg : f = g
    -- read through this end, so `e` is one of the ends the item is passed on to
    · subst f
      have htake : (s.sent g.flip).take (s.read g+1) = s.received g++[p] := by
        rw [List.take_add_one,hp]
        rfl
      have hpass : decide (t.owner e = t.owner g ∧ e ≠ g) = true :=
        decide_eq_true ⟨hef.symm,hne.symm⟩
      rw [Function.update_self,take_push hlt,htake,push,if_pos hpass,of_append,of_append,
        hs.passed e g b hef hne hb]
    · have hout : decide (t.owner e = t.owner g ∧ e ≠ g) = true → p.1 ≠ b := by
        rintro ho rfl
        obtain ⟨ho,-⟩ := of_decide_eq_true ho
        exact hfg (reach_unique ht hb hreach (hef.trans ho))
      rw [of_push hout,Function.update_of_ne hfg,take_push (hs.read f)]
      exact hs.passed e f b hef hne hb
  · rcases mem_push hq with hq | ⟨rfl,hout⟩
    · exact hs.behind e q hq
    · obtain ⟨ho,hne⟩ := of_decide_eq_true hout
      exact .inr ⟨g,ho.symm,hne.symm,hreach⟩

omit [DecidableEq L] in
/-- What comes through an end was said behind it, and nobody's items come in another order. -/
theorem Spread.received_prefix (hs : s.Spread t) {a : V} {e : End L}
    (h : t.Reach (fun _ => True) a e) : of a (s.received e) <+: of a s.said := by
  refine ((List.take_prefix _ _).filter _).trans ?_
  induction h with
  | @here e _ ha => exact ha ▸ (hs.own e.flip ▸ List.prefix_rfl)
  | @step e f _ hef hf ih =>
    have hpass := hs.passed e.flip f _ hef.1 hef.2 hf
    rw [of] at hpass
    rw [hpass]
    exact ((List.take_prefix _ _).filter _).trans ih

def Still (s : Flood V L D) : Prop := ∀ e, s.read e = (s.sent e.flip).length

omit [DecidableEq L] in
theorem Spread.received_all (hs : s.Spread t) (hstill : s.Still) {a : V} {e : End L}
    (h : t.Reach (fun _ => True) a e) : of a (s.received e) = of a s.said := by
  have hall (e : End L) : s.received e = s.sent e.flip := by
    rw [received,hstill e,List.take_length]
  rw [hall]
  induction h with
  | @here e _ ha => exact ha ▸ hs.own e.flip
  | @step e f _ hef hf ih => rw [hs.passed e.flip f _ hef.1 hef.2 hf,hall,ih]

omit [DecidableEq L] in
/-- Nothing comes back to who said it. -/
theorem Spread.received_ne (ht : t.Acyclic fun _ => True) (hs : s.Spread t) {e : End L} {p : V × D}
    (hp : p ∈ s.received e) : p.1 ≠ t.owner e := by
  intro h
  exact reach_self ht e (h ▸ hs.reach (List.mem_of_mem_take hp))

omit [DecidableEq L] in
/-- No end has anything sent through it more often than it was said. -/
theorem Spread.subperm (hs : s.Spread t) (e : End L) : (s.sent e).Subperm s.said := by
  classical
  have hof (p : V × D) (hp : p ∈ s.sent e) : of p.1 (s.sent e) <+: of p.1 s.said := by
    rcases hs.behind e p hp with h | ⟨f,hf,hne,h⟩
    · rw [h,hs.own]
    · rw [hs.passed e f p.1 hf hne h]
      exact hs.received_prefix h
  have hcount (p : V × D) (ps : List (V × D)) : (of p.1 ps).count p = ps.count p :=
    List.count_filter (by simp)
  refine List.subperm_ext_iff.mpr fun p hp => ?_
  rw [← hcount p (s.sent e),← hcount p s.said]
  exact (hof p hp).sublist.count_le p

end Flood
end LinkGraph
