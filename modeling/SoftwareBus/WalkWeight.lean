import SoftwareBus.LinkGraph
import Mathlib.Algebra.BigOperators.Group.Finset.Basic
import Mathlib.Algebra.Order.BigOperators.Group.Finset
import Mathlib.Data.Fintype.Prod

/-! How much can follow a traversal in a forest, where every traversal may set off one along each
link that follows it without turning back. -/
namespace LinkGraph

variable {V L : Type}

instance endFintype [Fintype L] : Fintype (End L) :=
  Fintype.ofEquiv (L × Side) ⟨fun p => ⟨p.1,p.2⟩,fun e => (e.link,e.side),fun _ => rfl,fun _ => rfl⟩

namespace Topology

variable [Fintype L] (t : Topology V L)

open Classical in
noncomputable def following (e : End L) : Finset (End L) := Finset.univ.filter (t.Follows e)

theorem mem_following {e f : End L} : f ∈ t.following e ↔ t.Follows e f := by
  simp [following]

/-- A traversal with all that it sets off in `k` rounds. -/
noncomputable def weightIn : ℕ → End L → ℕ
  | 0,_ => 0
  | k+1,e => 1+∑ f ∈ t.following e, weightIn k f

noncomputable def weight (e : End L) : ℕ := t.weightIn (Fintype.card L) e

/-- No walk in a forest is longer than there are links. -/
theorem IsWalk.length_le (ha : t.Acyclic fun _ => True) {es : List (End L)}
    (h : t.IsWalk (fun _ => True) es) : es.length ≤ Fintype.card L := by
  cases es with
  | nil => exact Nat.zero_le _
  | cons e es =>
    have hpeers := (List.nodup_cons.mp (h.nodup t ha)).2
    have honce := h.once t hpeers
    simpa using honce.length_le_card

/-- Rounds after the longest walk add nothing. -/
theorem weightIn_succ (k : ℕ) : ∀ e, (∀ es, t.IsWalk (fun _ => True) (e::es) → es.length < k) →
    t.weightIn (k+1) e = t.weightIn k e := by
  induction k with
  | zero =>
    intro e h
    exact absurd (h [] ⟨.singleton e,fun _ _ => trivial⟩) (by simp)
  | succ k ih =>
    intro e h
    rw [weightIn,weightIn]
    congr 1
    apply Finset.sum_congr rfl
    intro f hf
    apply ih
    intro es hw
    have hlong := h (f::es) ⟨List.isChain_cons_cons.mpr ⟨t.mem_following.mp hf,hw.chain⟩,
      fun _ _ => trivial⟩
    simpa using hlong

theorem weight_eq (ha : t.Acyclic fun _ => True) (e : End L) :
    t.weight e = 1+∑ f ∈ t.following e, t.weight f := by
  obtain ⟨k,hk⟩ : ∃ k, Fintype.card L = k+1 :=
    Nat.exists_eq_succ_of_ne_zero (Fintype.card_pos_iff.mpr ⟨e.link⟩).ne'
  unfold weight
  rw [hk,weightIn]
  congr 1
  apply Finset.sum_congr rfl
  intro f hf
  symm
  apply t.weightIn_succ
  intro es hw
  have hwalk : t.IsWalk (fun _ => True) (e::f::es) :=
    ⟨List.isChain_cons_cons.mpr ⟨t.mem_following.mp hf,hw.chain⟩,fun _ _ => trivial⟩
  have hlong := IsWalk.length_le t ha hwalk
  rw [hk] at hlong
  simpa using hlong

noncomputable def load (n : End L → ℕ) : ℕ := ∑ e, n e*t.weight e

open Classical in
/-- The load falls with every traversal that ends and sets off no more than one along each link
that follows it. -/
theorem load_lt (ha : t.Acyclic fun _ => True) {n m : End L → ℕ} (e : End L)
    (h : ∀ f, m f+(if f = e then 1 else 0) ≤ n f+(if t.Follows e f then 1 else 0)) :
    t.load m+1 ≤ t.load n := by
  have hone : ∑ f, (if f = e then 1 else 0)*t.weight f = t.weight e := by
    simp
  have hnext : ∑ f, (if t.Follows e f then 1 else 0)*t.weight f =
      ∑ f ∈ t.following e, t.weight f := by
    rw [following,Finset.sum_filter]
    apply Finset.sum_congr rfl
    intro f _
    split_ifs <;> simp
  have hsum : t.load m+t.weight e ≤ t.load n+∑ f ∈ t.following e, t.weight f := by
    rw [← hone,← hnext,load,load,← Finset.sum_add_distrib,← Finset.sum_add_distrib]
    apply Finset.sum_le_sum
    intro f _
    rw [← Nat.add_mul,← Nat.add_mul]
    exact Nat.mul_le_mul_right _ (h f)
  rw [t.weight_eq ha e] at hsum
  omega

end Topology
end LinkGraph
