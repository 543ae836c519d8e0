import SoftwareBus.Subscriptions

/-! The callbacks a publish/subscribe client has registered
(`_subscribe_callbacks: Dict[str, List[PublishCallback]]`). A callback may be
registered more than once under a subject. -/
namespace SoftwareBus

variable {O : Type}

/-- A table of callbacks: no subject twice, and none without a callback. -/
structure Registrations (O : Type) where
  items : List (Str × List O)
  subjects : (items.map Prod.fst).Nodup
  nonempty : ∀ i ∈ items, i.2 ≠ []

namespace Registrations

open Subscriptions

/-- `setdefault(subject, []).append(callback)` on the entries of the table. -/
def appendTo : List (Str × List O) → Str → O → List (Str × List O)
  | [], s, o => [(s,[o])]
  | (t,os)::rest, s, o => if t = s then (t,os++[o])::rest else (t,os)::appendTo rest s o

theorem appendTo_subjects (items : List (Str × List O)) (s : Str) (o : O) (t : Str) :
    t ∈ (appendTo items s o).map Prod.fst ↔ t = s ∨ t ∈ items.map Prod.fst := by
  induction items with
  | nil => simp [appendTo]
  | cons i items ih =>
    obtain ⟨u,os⟩ := i
    by_cases hu : u = s
    · subst u; simp [appendTo]
    · rw [appendTo,if_neg hu,List.map_cons,List.mem_cons,ih,List.map_cons,List.mem_cons]
      tauto

theorem find_appendTo (items : List (Str × List O)) (s : Str) (o : O) (t : Str) :
    find (appendTo items s o) t = if t = s then find items s++[o] else find items t := by
  induction items with
  | nil =>
    by_cases h : t = s
    · simp [appendTo,find,h]
    · simp [appendTo,find,h,Ne.symm h]
  | cons i items ih =>
    obtain ⟨u,os⟩ := i
    by_cases hu : u = s
    · subst u
      by_cases ht : t = s
      · simp [appendTo,find,ht]
      · simp [appendTo,find,ht,Ne.symm ht]
    · by_cases hut : u = t
      · subst u; simp [appendTo,find,hu]
      · simp [appendTo,find,hu,hut,ih]

theorem appendTo_nodup {items : List (Str × List O)} (h : (items.map Prod.fst).Nodup) (s : Str)
    (o : O) : ((appendTo items s o).map Prod.fst).Nodup := by
  induction items with
  | nil => simp [appendTo]
  | cons i items ih =>
    obtain ⟨u,os⟩ := i
    obtain ⟨hu,hrest⟩ := List.nodup_cons.mp h
    by_cases hus : u = s
    · simpa [appendTo,hus] using h
    · rw [appendTo,if_neg hus]
      refine List.nodup_cons.mpr ⟨?_,ih hrest⟩
      rw [appendTo_subjects]
      exact fun hmem => hmem.elim hus hu

theorem appendTo_nonempty {items : List (Str × List O)} (h : ∀ i ∈ items, i.2 ≠ []) (s : Str) (o : O) :
    ∀ i ∈ appendTo items s o, i.2 ≠ [] := by
  induction items with
  | nil => simp [appendTo]
  | cons i items ih =>
    obtain ⟨u,os⟩ := i
    rw [List.forall_mem_cons] at h
    by_cases hus : u = s
    · rw [appendTo,if_pos hus,List.forall_mem_cons]
      exact ⟨by simp,h.2⟩
    · rw [appendTo,if_neg hus,List.forall_mem_cons]
      exact ⟨h.1,ih h.2⟩

def empty : Registrations O := ⟨[],by simp,by simp⟩

/-- `_subscribe_callbacks.get(subject, [])` -/
def callbacks (r : Registrations O) (s : Str) : List O := find r.items s

def register (r : Registrations O) (s : Str) (o : O) : Registrations O :=
  ⟨appendTo r.items s o,appendTo_nodup r.subjects s o,appendTo_nonempty r.nonempty s o⟩

variable [DecidableEq O]

/-- `_remove_registration` on the table; an emptied subject is dropped. -/
def remove (r : Registrations O) (s : Str) (o : O) : Registrations O :=
  ⟨discardFrom r.items s o,discardFrom_nodup r.subjects s o,discardFrom_nonempty r.nonempty s o⟩

/-- The result of `_remove_registration`: this was the last callback of the subject. -/
def isLast (r : Registrations O) (s : Str) (o : O) : Bool :=
  decide (o ∈ r.callbacks s ∧ (r.callbacks s).erase o = [])

omit [DecidableEq O] in
@[simp] theorem callbacks_empty (s : Str) : (empty : Registrations O).callbacks s = [] := rfl

omit [DecidableEq O] in
theorem callbacks_register (r : Registrations O) (s : Str) (o : O) (t : Str) :
    (r.register s o).callbacks t = if t = s then r.callbacks s++[o] else r.callbacks t :=
  find_appendTo r.items s o t

theorem callbacks_remove (r : Registrations O) (s : Str) (o : O) (t : Str) :
    (r.remove s o).callbacks t = if t = s then (r.callbacks s).erase o else r.callbacks t :=
  find_discardFrom r.subjects s o t

end Registrations
end SoftwareBus
