import SoftwareBus.SubjectMatcher
import Mathlib.Data.List.Forall2

/-! The laws of subject matching: matching is an order on subjects, and a subject without a wild
card is matched by itself only. A subject is determined by its parts, so the laws are those of
one part, taken part by part. -/
namespace SoftwareBus
namespace SubjectMatcher

def PartMatch (given target : Str) : Prop := target = wildcard ∨ given = target

theorem PartMatch.refl (p : Str) : PartMatch p p := .inr rfl

theorem PartMatch.trans (p q r : Str) (h : PartMatch p q) (h' : PartMatch q r) :
    PartMatch p r := by
  rcases h' with rfl | rfl
  · exact .inl rfl
  · exact h

theorem PartMatch.antisymm (p q : Str) (h : PartMatch p q) (h' : PartMatch q p) : p = q := by
  rcases h with rfl | rfl
  · exact h'.elim id Eq.symm
  · rfl

theorem PartMatch.of_literal {p q : Str} (hq : q ≠ wildcard) (h : PartMatch p q) : p = q :=
  h.resolve_left hq

section Parts

variable {α : Type} {R : α → α → Prop}

theorem forall₂_trans (hr : ∀ a b c, R a b → R b c → R a c) {as bs cs : List α}
    (h : List.Forall₂ R as bs) (h' : List.Forall₂ R bs cs) : List.Forall₂ R as cs := by
  induction h generalizing cs with
  | nil => exact h'
  | cons hab _ ih =>
    cases h' with
    | cons hbc hrest => exact .cons (hr _ _ _ hab hbc) (ih hrest)

theorem forall₂_antisymm (hr : ∀ a b, R a b → R b a → a = b) {as bs : List α}
    (h : List.Forall₂ R as bs) (h' : List.Forall₂ R bs as) : as = bs := by
  induction h with
  | nil => rfl
  | cons hab _ ih =>
    cases h' with
    | cons hba hrest => rw [hr _ _ hab hba,ih hrest]

theorem forall₂_eq_of {as bs : List α} (hr : ∀ a, ∀ b ∈ bs, R a b → a = b)
    (h : List.Forall₂ R as bs) : as = bs := by
  induction h with
  | nil => rfl
  | cons hab _ ih =>
    rw [hr _ _ (by simp) hab,ih fun a b hb => hr a b (by simp [hb])]

end Parts

theorem split_injective : Function.Injective split := fun s t h => by
  have hjoin (u : Str) : [46].intercalate (split u) = u := List.intercalate_splitOn 46
  rw [← hjoin s,h,hjoin t]

@[simp] theorem split_ne_nil (s : Str) : split s ≠ [] := List.splitOn_ne_nil _ _

/-- Parts are split at the dots of a subject only. -/
theorem split_join (s t : Str) : split (s++46::t) = split s++split t :=
  List.splitOn_append_cons_self ..

theorem split_literal {s : Str} (hs : 46 ∉ s) : split s = [s] := List.splitOn_eq_singleton hs

theorem not_mem_of_mem_split {s p : Str} (hp : p ∈ split s) : 46 ∉ p := by
  by_cases hs : (46 : CodePoint) ∈ s
  · obtain ⟨t,u,rfl⟩ := List.append_of_mem hs
    rw [split_join,List.mem_append] at hp
    exact hp.elim not_mem_of_mem_split not_mem_of_mem_split
  · rw [split_literal hs,List.mem_singleton] at hp
    exact hp ▸ hs
termination_by s.length
decreasing_by all_goals grind

theorem patternMatch_iff (given target : Str) :
    patternMatch given target = true ↔
      List.Forall₂ PartMatch (split given) (split target) := by
  rw [List.forall₂_iff_zip]
  simp only [patternMatch,Bool.and_eq_true,decide_eq_true_eq,List.all_eq_true,Prod.forall,PartMatch]

theorem patternMatch_trans {s t u : Str} (h : patternMatch s t = true)
    (h' : patternMatch t u = true) : patternMatch s u = true := by
  rw [patternMatch_iff] at *
  exact forall₂_trans PartMatch.trans h h'

theorem patternMatch_antisymm {s t : Str} (h : patternMatch s t = true)
    (h' : patternMatch t s = true) : s = t := by
  rw [patternMatch_iff] at *
  exact split_injective (forall₂_antisymm PartMatch.antisymm h h')

theorem patternMatch_literal {t : Str} (ht : hasWildcard t = false) (s : Str) :
    patternMatch s t = exactMatch s t := by
  have hparts : wildcard ∉ split t := by simpa [hasWildcard] using ht
  rw [Bool.eq_iff_iff,patternMatch_iff,exactMatch,decide_eq_true_eq]
  constructor
  · intro h
    exact split_injective (forall₂_eq_of (fun p q hq hpq =>
      hpq.of_literal (fun he => hparts (he ▸ hq))) h)
  · rintro rfl
    exact List.forall₂_same.mpr fun p _ => .refl p

def emptied (s : Str) : Str :=
  [46].intercalate ((split s).map fun p => if p = wildcard then [] else p)

theorem split_emptied (s : Str) :
    split (emptied s) = (split s).map fun p => if p = wildcard then [] else p := by
  refine List.splitOn_intercalate 46 (fun p hp => ?_) (by simp)
  obtain ⟨q,hq,rfl⟩ := List.mem_map.mp hp
  split
  · simp
  · exact not_mem_of_mem_split hq

theorem hasWildcard_emptied (s : Str) : hasWildcard (emptied s) = false := by
  simp only [hasWildcard,split_emptied,decide_eq_false_iff_not,List.mem_map,not_exists,not_and]
  intro p _ h
  split at h
  · cases h
  · contradiction

theorem emptied_matches (s : Str) : patternMatch (emptied s) s = true := by
  rw [patternMatch_iff,split_emptied,List.forall₂_map_left_iff,List.forall₂_same]
  intro p _
  by_cases hp : p = wildcard
  · exact .inl hp
  · exact .inr (if_neg hp)

/-- Pattern matching is an order on subjects. Subjects without a wild card are those that only
themselves match, as in exact matching. -/
theorem matching_order : (∀ s, patternMatch s s = true) ∧
    (∀ s t u, patternMatch s t = true → patternMatch t u = true → patternMatch s u = true) ∧
    (∀ s t, patternMatch s t = true → patternMatch t s = true → s = t) ∧
    (∀ t, hasWildcard t = false → ∀ s, patternMatch s t = exactMatch s t) ∧
    ∀ t, hasWildcard t = true → ∃ s, s ≠ t ∧ patternMatch s t = true := by
  refine ⟨patternMatch_refl,fun _ _ _ => patternMatch_trans,fun _ _ => patternMatch_antisymm,
    fun _ => patternMatch_literal,fun t ht => ⟨emptied t,fun h => ?_,emptied_matches t⟩⟩
  have hw := hasWildcard_emptied t
  rw [h,ht] at hw
  cases hw

end SubjectMatcher
end SoftwareBus
