import SoftwareBus.Message
import Mathlib.Data.List.Dedup
import Mathlib.Data.List.Nodup

/-! A table of subjects tagged with the connections subscribed to them
(`Dict[str, List[Connection]]`). The structure carries what its operations
keep: no subject twice, no empty list, no connection twice under a subject. -/
namespace SoftwareBus

variable {C : Type}

namespace Subscriptions

def find : List (Str × List C) → Str → List C
  | [], _ => []
  | (t,cs)::rest, s => if t = s then cs else find rest s

/-- No subject twice, no empty list, and no connection twice under a subject. -/
structure WellFormed (items : List (Str × List C)) : Prop where
  subjects : (items.map Prod.fst).Nodup
  nonempty : ∀ i ∈ items, i.2 ≠ []
  once : ∀ i ∈ items, i.2.Nodup

theorem WellFormed.tail {i : Str × List C} {items : List (Str × List C)}
    (h : WellFormed (i::items)) : WellFormed items :=
  ⟨(List.nodup_cons.mp h.subjects).2,fun j hj => h.nonempty j (by simp [hj]),
    fun j hj => h.once j (by simp [hj])⟩

theorem find_eq_nil {items : List (Str × List C)} {s : Str} (h : s ∉ items.map Prod.fst) :
    find items s = [] := by
  induction items with
  | nil => rfl
  | cons i items ih =>
    obtain ⟨u,cs⟩ := i
    simp only [List.map_cons,List.mem_cons,not_or] at h
    rw [find,if_neg (Ne.symm h.1),ih h.2]

theorem find_ne_nil {items : List (Str × List C)} (h : WellFormed items) (s : Str) :
    s ∈ items.map Prod.fst ↔ find items s ≠ [] := by
  refine ⟨?_,fun hn => by_contra fun hm => hn (find_eq_nil hm)⟩
  intro hm
  induction items with
  | nil => simp at hm
  | cons i items ih =>
    obtain ⟨u,cs⟩ := i
    by_cases hus : u = s
    · simpa [find,hus] using h.nonempty (u,cs) (by simp)
    · rw [find,if_neg hus]
      exact ih h.tail (by simpa [Ne.symm hus] using hm)

theorem find_once {items : List (Str × List C)} (h : WellFormed items) (s : Str) :
    (find items s).Nodup := by
  induction items with
  | nil => simp [find]
  | cons i items ih =>
    obtain ⟨u,cs⟩ := i
    by_cases hus : u = s
    · simpa [find,hus] using h.once (u,cs) (by simp)
    · rw [find,if_neg hus]
      exact ih h.tail

theorem find_of_mem {items : List (Str × List C)} (h : WellFormed items) {i : Str × List C}
    (hi : i ∈ items) : find items i.1 = i.2 := by
  induction items with
  | nil => simp at hi
  | cons j items ih =>
    obtain ⟨u,cs⟩ := j
    obtain ⟨hu,-⟩ := List.nodup_cons.mp h.subjects
    rcases List.mem_cons.mp hi with rfl | hi
    · simp [find]
    · have hne : u ≠ i.1 := fun he => hu (List.mem_map.mpr ⟨i,hi,he.symm⟩)
      rw [find,if_neg hne,ih h.tail hi]

variable [DecidableEq C]

/-- `_add_subscriber` on the entries of the table. -/
def addTo : List (Str × List C) → Str → C → List (Str × List C)
  | [], s, c => [(s,[c])]
  | (t,cs)::rest, s, c =>
    if t = s then (t,if c ∈ cs then cs else cs++[c])::rest else (t,cs)::addTo rest s c

/-- `_discard_subscriber` on the entries of the table: an emptied subject is dropped. -/
def discardFrom : List (Str × List C) → Str → C → List (Str × List C)
  | [], _, _ => []
  | (t,cs)::rest, s, c =>
    if t = s then (if cs.erase c = [] then rest else (t,cs.erase c)::rest)
    else (t,cs)::discardFrom rest s c

theorem addTo_subjects (items : List (Str × List C)) (s : Str) (c : C) (t : Str) :
    t ∈ (addTo items s c).map Prod.fst ↔ t = s ∨ t ∈ items.map Prod.fst := by
  induction items with
  | nil => simp [addTo]
  | cons i items ih =>
    obtain ⟨u,cs⟩ := i
    by_cases hu : u = s
    · subst u; simp [addTo]
    · rw [addTo,if_neg hu,List.map_cons,List.mem_cons,ih,List.map_cons,List.mem_cons]
      tauto

theorem discardFrom_subjects {items : List (Str × List C)} {s : Str} {c : C} {t : Str}
    (h : t ∈ (discardFrom items s c).map Prod.fst) : t ∈ items.map Prod.fst := by
  induction items with
  | nil => simp [discardFrom] at h
  | cons i items ih =>
    obtain ⟨u,cs⟩ := i
    simp only [discardFrom] at h
    split_ifs at h <;> simp only [List.map_cons,List.mem_cons] at h ⊢
    · exact Or.inr h
    · exact h
    · exact h.imp id ih

theorem WellFormed.addTo {items : List (Str × List C)} (h : WellFormed items) (s : Str) (c : C) :
    WellFormed (addTo items s c) := by
  induction items with
  | nil => exact ⟨by simp [Subscriptions.addTo],by simp [Subscriptions.addTo],
      by simp [Subscriptions.addTo]⟩
  | cons i items ih =>
    obtain ⟨u,cs⟩ := i
    obtain ⟨hu,-⟩ := List.nodup_cons.mp h.subjects
    have hne := h.nonempty (u,cs) (by simp)
    have hnd := h.once (u,cs) (by simp)
    simp only [Subscriptions.addTo]
    split_ifs with hs hc
    · exact h
    · refine ⟨h.subjects,?_,?_⟩
      · simp only [List.forall_mem_cons]
        exact ⟨by simp,h.tail.nonempty⟩
      · simp only [List.forall_mem_cons]
        exact ⟨List.nodup_append_comm.mp (by simpa using ⟨hc,hnd⟩),h.tail.once⟩
    · have hi := ih h.tail
      refine ⟨List.nodup_cons.mpr ⟨?_,hi.subjects⟩,?_,?_⟩
      · rw [addTo_subjects]
        rintro (rfl | hm)
        · exact hs rfl
        · exact hu hm
      · simpa only [List.forall_mem_cons] using ⟨hne,hi.nonempty⟩
      · simpa only [List.forall_mem_cons] using ⟨hnd,hi.once⟩

theorem discardFrom_nodup {items : List (Str × List C)} (h : (items.map Prod.fst).Nodup) (s : Str)
    (c : C) : ((discardFrom items s c).map Prod.fst).Nodup := by
  induction items with
  | nil => simp [discardFrom]
  | cons i items ih =>
    obtain ⟨u,cs⟩ := i
    obtain ⟨hu,hrest⟩ := List.nodup_cons.mp h
    simp only [discardFrom]
    split_ifs with hus he
    · exact hrest
    · exact h
    · exact List.nodup_cons.mpr ⟨fun hmem => hu (discardFrom_subjects hmem),ih hrest⟩

theorem discardFrom_nonempty {items : List (Str × List C)} (h : ∀ i ∈ items, i.2 ≠ []) (s : Str)
    (c : C) : ∀ i ∈ discardFrom items s c, i.2 ≠ [] := by
  induction items with
  | nil => simp [discardFrom]
  | cons i items ih =>
    obtain ⟨u,cs⟩ := i
    rw [List.forall_mem_cons] at h
    simp only [discardFrom]
    split_ifs with hus he
    · exact h.2
    · exact List.forall_mem_cons.mpr ⟨he,h.2⟩
    · exact List.forall_mem_cons.mpr ⟨h.1,ih h.2⟩

theorem discardFrom_once {items : List (Str × List C)} (h : ∀ i ∈ items, i.2.Nodup) (s : Str)
    (c : C) : ∀ i ∈ discardFrom items s c, i.2.Nodup := by
  induction items with
  | nil => simp [discardFrom]
  | cons i items ih =>
    obtain ⟨u,cs⟩ := i
    rw [List.forall_mem_cons] at h
    simp only [discardFrom]
    split_ifs with hus he
    · exact h.2
    · exact List.forall_mem_cons.mpr ⟨h.1.erase c,h.2⟩
    · exact List.forall_mem_cons.mpr ⟨h.1,ih h.2⟩

theorem WellFormed.discardFrom {items : List (Str × List C)} (h : WellFormed items) (s : Str)
    (c : C) : WellFormed (discardFrom items s c) :=
  ⟨discardFrom_nodup h.subjects s c,discardFrom_nonempty h.nonempty s c,discardFrom_once h.once s c⟩

theorem find_addTo (items : List (Str × List C)) (s : Str) (c : C) (t : Str) :
    find (addTo items s c) t =
      if t = s then (if c ∈ find items s then find items s else find items s++[c])
      else find items t := by
  induction items with
  | nil =>
    by_cases h : t = s
    · simp [addTo,find,h]
    · simp [addTo,find,h,Ne.symm h]
  | cons i items ih =>
    obtain ⟨u,cs⟩ := i
    by_cases hu : u = s
    · subst u
      by_cases ht : t = s
      · simp [addTo,find,ht]
      · simp [addTo,find,ht,Ne.symm ht]
    · by_cases hut : u = t
      · subst u; simp [addTo,find,hu]
      · simp [addTo,find,hu,hut,ih]

theorem find_discardFrom {items : List (Str × List C)} (h : (items.map Prod.fst).Nodup) (s : Str)
    (c : C) (t : Str) : find (discardFrom items s c) t =
      if t = s then (find items s).erase c else find items t := by
  induction items with
  | nil => simp [discardFrom,find]
  | cons i items ih =>
    obtain ⟨u,cs⟩ := i
    obtain ⟨hu,h⟩ := List.nodup_cons.mp h
    by_cases hus : u = s
    · subst u
      by_cases hts : t = s
      · subst t
        by_cases he : cs.erase c = []
        · simp [discardFrom,find,he,find_eq_nil hu]
        · simp [discardFrom,find,he]
      · by_cases he : cs.erase c = [] <;> simp [discardFrom,find,he,hts,Ne.symm hts]
    · by_cases hut : u = t
      · subst u; simp [discardFrom,find,hus]
      · simp [discardFrom,find,hus,hut,ih h]

end Subscriptions

structure Subscriptions (C : Type) where
  items : List (Str × List C)
  wellFormed : Subscriptions.WellFormed items

namespace Subscriptions

def empty : Subscriptions C := ⟨[],by simp,by simp,by simp⟩

/-- `subscriptions.get(subject, [])` -/
def get (t : Subscriptions C) (s : Str) : List C := find t.items s

def subjects (t : Subscriptions C) : List Str := t.items.map Prod.fst

@[simp] theorem get_empty (s : Str) : (empty : Subscriptions C).get s = [] := rfl

theorem nodup_get (t : Subscriptions C) (s : Str) : (t.get s).Nodup := find_once t.wellFormed s

theorem mem_subjects (t : Subscriptions C) (s : Str) : s ∈ t.subjects ↔ t.get s ≠ [] :=
  find_ne_nil t.wellFormed s

variable [DecidableEq C]

def add (t : Subscriptions C) (s : Str) (c : C) : Subscriptions C :=
  ⟨addTo t.items s c,t.wellFormed.addTo s c⟩

/-- `_discard_subscriber`; its Boolean result is `c ∈ t.get s` before the call. -/
def discard (t : Subscriptions C) (s : Str) (c : C) : Subscriptions C :=
  ⟨discardFrom t.items s c,t.wellFormed.discardFrom s c⟩

/-- `_matching_connections`: each connection once, in the order it is first found. -/
def matchingConnections (t : Subscriptions C) (s : Str) : List C :=
  ((t.items.filter fun i => SubjectMatcher.patternMatch s i.1).flatMap Prod.snd).reverse.dedup.reverse

theorem get_add (t : Subscriptions C) (s : Str) (c : C) (u : Str) :
    (t.add s c).get u =
      if u = s then (if c ∈ t.get s then t.get s else t.get s++[c]) else t.get u :=
  find_addTo t.items s c u

theorem get_discard (t : Subscriptions C) (s : Str) (c : C) (u : Str) :
    (t.discard s c).get u = if u = s then (t.get s).erase c else t.get u :=
  find_discardFrom t.wellFormed.subjects s c u

theorem mem_get_add {t : Subscriptions C} {s u : Str} {c d : C} :
    d ∈ (t.add s c).get u ↔ d ∈ t.get u ∨ (u = s ∧ d = c) := by
  rw [get_add]
  by_cases hu : u = s
  · subst u
    by_cases hc : c ∈ t.get s
    · simp only [if_true,if_pos hc,true_and]
      exact ⟨Or.inl,fun h => h.elim id fun h => h ▸ hc⟩
    · simp [hc]
  · simp [hu]

theorem mem_get_discard {t : Subscriptions C} {s u : Str} {c d : C} :
    d ∈ (t.discard s c).get u ↔ d ∈ t.get u ∧ ¬(u = s ∧ d = c) := by
  rw [get_discard]
  by_cases hu : u = s
  · subst u
    simp [(t.nodup_get s).mem_erase_iff,and_comm]
  · simp [hu]

theorem mem_matchingConnections {t : Subscriptions C} {s : Str} {c : C} :
    c ∈ t.matchingConnections s ↔ ∃ u, SubjectMatcher.patternMatch s u = true ∧ c ∈ t.get u := by
  simp only [matchingConnections,List.mem_reverse,List.mem_dedup,List.mem_flatMap,List.mem_filter]
  constructor
  · rintro ⟨i,⟨hi,hm⟩,hc⟩
    exact ⟨i.1,hm,by rw [get,find_of_mem t.wellFormed hi]; exact hc⟩
  · rintro ⟨u,hm,hc⟩
    have hu : u ∈ t.subjects := (t.mem_subjects u).mpr (List.ne_nil_of_mem hc)
    obtain ⟨i,hi,rfl⟩ := List.mem_map.mp hu
    rw [get,find_of_mem t.wellFormed hi] at hc
    exact ⟨i,⟨hi,hm⟩,hc⟩

theorem nodup_matchingConnections (t : Subscriptions C) (s : Str) :
    (t.matchingConnections s).Nodup :=
  List.nodup_reverse.mpr (List.nodup_dedup _)

end Subscriptions
end SoftwareBus
