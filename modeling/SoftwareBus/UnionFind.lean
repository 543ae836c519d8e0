import Mathlib.Data.Finset.Card
import Mathlib.Logic.Function.Basic

/-! Disjoint sets kept as trees of parents, with path halving. A root is its own parent. -/
namespace UnionFind

variable {P : Type}

/-- `rep` is the root of each element, and `depth` falls on the way to it. -/
structure Represents (parent : P → Option P) (rep : P → P) (depth : P → ℕ) : Prop where
  inside : ∀ {p q}, parent p = some q → (parent q).isSome
  same : ∀ {p q}, parent p = some q → rep q = rep p
  falls : ∀ {p q}, parent p = some q → q = p ∨ depth q < depth p
  root : ∀ {p}, parent p = some p → rep p = p

theorem represents_single (p : P → Prop) [DecidablePred p] :
    Represents (fun x => if p x then some x else none) id fun _ => 0 := by
  have hself {x y : P} (h : (if p x then some x else none) = some y) : p x ∧ y = x := by
    by_cases hx : p x
    · rw [if_pos hx] at h
      exact ⟨hx,(Option.some.inj h).symm⟩
    · rw [if_neg hx] at h
      cases h
  constructor
  · intro x y h
    obtain ⟨hx,rfl⟩ := hself h
    simp [hx]
  · intro x y h
    exact (hself h).2
  · intro x y h
    exact .inl (hself h).2
  · intro x _
    rfl

namespace Represents

variable {parent : P → Option P} {rep : P → P} {depth : P → ℕ}

theorem rep_root (h : Represents parent rep depth) {p : P} (hp : (parent p).isSome) :
    parent (rep p) = some (rep p) := by
  induction hd : depth p using Nat.strong_induction_on generalizing p with
  | _ n ih =>
    obtain ⟨q,hq⟩ := Option.isSome_iff_exists.mp hp
    rcases h.falls hq with rfl | hlt
    · rwa [h.root hq]
    · rw [← h.same hq]
      exact ih (depth q) (hd ▸ hlt) (h.inside hq) rfl

variable [DecidableEq P]

/-- Path halving: an element may get its grandparent as its parent. -/
theorem halve (h : Represents parent rep depth) {p q r : P} (hq : parent p = some q)
    (hne : q ≠ p) (hr : parent q = some r) :
    Represents (Function.update parent p (some r)) rep depth := by
  have hfall : depth r < depth p := by
    have hqp := (h.falls hq).resolve_left hne
    rcases h.falls hr with rfl | hrq
    · exact hqp
    · exact hrq.trans hqp
  have hsome {x : P} (hx : (parent x).isSome) :
      (Function.update parent p (some r) x).isSome := by
    by_cases hxp : x = p
    · subst x
      simp
    · rwa [Function.update_of_ne hxp]
  constructor
  · intro x y hxy
    by_cases hxp : x = p
    · subst x
      rw [Function.update_self] at hxy
      cases hxy
      exact hsome (h.inside hr)
    · rw [Function.update_of_ne hxp] at hxy
      exact hsome (h.inside hxy)
  · intro x y hxy
    by_cases hxp : x = p
    · subst x
      rw [Function.update_self] at hxy
      cases hxy
      exact (h.same hr).trans (h.same hq)
    · rw [Function.update_of_ne hxp] at hxy
      exact h.same hxy
  · intro x y hxy
    by_cases hxp : x = p
    · subst x
      rw [Function.update_self] at hxy
      cases hxy
      exact .inr hfall
    · rw [Function.update_of_ne hxp] at hxy
      exact h.falls hxy
  · intro x hx
    by_cases hxp : x = p
    · subst x
      rw [Function.update_self] at hx
      cases hx
      omega
    · rw [Function.update_of_ne hxp] at hx
      exact h.root hx

def joined (rep : P → P) (r s : P) (p : P) : P := if rep p = r then s else rep p

theorem union (h : Represents parent rep depth) {r s : P} (hr : parent r = some r)
    (hs : parent s = some s) (hne : r ≠ s) :
    ∃ depth', Represents (Function.update parent r (some s)) (joined rep r s) depth' := by
  have hrep : rep r = r := h.root hr
  have hsep : rep s = s := h.root hs
  have hnes : rep s ≠ r := by rw [hsep]; exact hne.symm
  have hsome {x : P} (hx : (parent x).isSome) :
      (Function.update parent r (some s) x).isSome := by
    by_cases hxr : x = r
    · subst x
      simp
    · rwa [Function.update_of_ne hxr]
  refine ⟨fun p => if rep p = r then depth p+depth s+1 else depth p,?_⟩
  constructor
  · intro x y hxy
    by_cases hxr : x = r
    · subst x
      rw [Function.update_self] at hxy
      cases hxy
      exact hsome (by simp [hs])
    · rw [Function.update_of_ne hxr] at hxy
      exact hsome (h.inside hxy)
  · intro x y hxy
    by_cases hxr : x = r
    · subst x
      rw [Function.update_self] at hxy
      cases hxy
      rw [joined,joined,if_neg hnes,if_pos hrep,hsep]
    · rw [Function.update_of_ne hxr] at hxy
      rw [joined,joined,h.same hxy]
  · intro x y hxy
    by_cases hxr : x = r
    · subst x
      rw [Function.update_self] at hxy
      cases hxy
      refine .inr ?_
      rw [if_neg hnes,if_pos hrep]
      omega
    · rw [Function.update_of_ne hxr] at hxy
      apply (h.falls hxy).imp_right
      intro hlt
      rw [h.same hxy]
      split_ifs <;> omega
  · intro x hx
    by_cases hxr : x = r
    · subst x
      rw [Function.update_self] at hx
      cases hx
      exact absurd rfl hne
    · rw [Function.update_of_ne hxr] at hx
      rw [joined,h.root hx,if_neg hxr]

end Represents

variable [DecidableEq P]

/-- Joining two sets leaves one representative less. -/
theorem card_joined {rep : P → P} {xs : Finset P} {r s : P} (hr : r ∈ xs.image rep)
    (hs : s ∈ xs.image rep) (hne : r ≠ s) :
    (xs.image (Represents.joined rep r s)).card+1 = (xs.image rep).card := by
  have himage : xs.image (Represents.joined rep r s) = (xs.image rep).erase r := by
    ext y
    rw [Finset.mem_erase,Finset.mem_image,Finset.mem_image]
    constructor
    · rintro ⟨x,hx,rfl⟩
      unfold Represents.joined
      by_cases hxr : rep x = r
      · rw [if_pos hxr]
        exact ⟨hne.symm,Finset.mem_image.mp hs⟩
      · rw [if_neg hxr]
        exact ⟨hxr,x,hx,rfl⟩
    · rintro ⟨hy,x,hx,rfl⟩
      exact ⟨x,hx,if_neg hy⟩
  rw [himage]
  exact Finset.card_erase_add_one hr

end UnionFind
