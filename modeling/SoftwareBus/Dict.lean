import Mathlib.Data.Set.Card

/-! Dictionaries that keep their keys in the order in which they were first set, as lists of
items. -/
namespace Dict

variable {K V : Type} [DecidableEq K]

def get : List (K×V) → K → Option V
  | [],_ => none
  | e::es,k => if e.1 = k then some e.2 else get es k

/-- A key that is there already keeps its place. -/
def setItem : List (K×V) → K → V → List (K×V)
  | [],k,v => [(k,v)]
  | e::es,k,v => if e.1 = k then (k,v)::es else e::setItem es k v

def ofItems (items : List (K×V)) : List (K×V) :=
  items.foldl (fun d e => setItem d e.1 e.2) []

theorem setItem_fresh {d : List (K×V)} {k : K} (h : k ∉ d.map Prod.fst) (v : V) :
    setItem d k v = d++[(k,v)] := by
  induction d with
  | nil => rfl
  | cons e es ih =>
    rw [List.map_cons,List.mem_cons,not_or] at h
    rw [setItem,if_neg (Ne.symm h.1),ih h.2,List.cons_append]

theorem foldl_setItem {items d : List (K×V)} (h : ((d++items).map Prod.fst).Nodup) :
    items.foldl (fun d e => setItem d e.1 e.2) d = d++items := by
  induction items generalizing d with
  | nil => simp
  | cons e es ih =>
    have hfresh : e.1 ∉ d.map Prod.fst := by
      intro hm
      rw [List.map_append,List.map_cons] at h
      exact (List.nodup_append.mp h).2.2 _ hm _ (List.mem_cons_self ..) rfl
    have hsnoc : d++e::es = d++[e]++es := by simp
    rw [List.foldl_cons,setItem_fresh hfresh,hsnoc]
    apply ih
    rwa [← hsnoc]

/-- Items with different keys are a dictionary as they are. -/
theorem ofItems_eq {items : List (K×V)} (h : (items.map Prod.fst).Nodup) :
    ofItems items = items := by
  have hnil := @foldl_setItem _ _ _ items [] (by simpa using h)
  simpa [ofItems] using hnil

theorem mem_of_get {d : List (K×V)} {k : K} {v : V} (h : get d k = some v) : (k,v) ∈ d := by
  induction d with
  | nil => cases h
  | cons e es ih =>
    rw [get] at h
    by_cases hk : e.1 = k
    · rw [if_pos hk] at h
      cases h
      subst k
      exact List.mem_cons_self ..
    · rw [if_neg hk] at h
      exact List.mem_cons_of_mem _ (ih h)

theorem get_eq_some_iff {d : List (K×V)} (h : (d.map Prod.fst).Nodup) {k : K} {v : V} :
    get d k = some v ↔ (k,v) ∈ d := by
  induction d with
  | nil => simp [get]
  | cons e es ih =>
    obtain ⟨hfresh,hes⟩ := List.nodup_cons.mp h
    rw [get,List.mem_cons]
    by_cases hk : e.1 = k
    · subst k
      have hne : (e.1,v) ∉ es := fun hm => hfresh (List.mem_map.mpr ⟨_,hm,rfl⟩)
      rw [if_pos rfl,Option.some_inj]
      constructor
      · rintro rfl
        exact .inl rfl
      · intro hm
        have hv := hm.resolve_right hne
        exact (congrArg Prod.snd hv).symm
    · rw [if_neg hk,ih hes]
      constructor
      · exact .inr
      · intro hm
        exact hm.resolve_left fun he => hk (congrArg Prod.fst he).symm

/-- The order of the items does not matter to a lookup. -/
theorem get_perm {d d' : List (K×V)} (hperm : d.Perm d') (h : (d.map Prod.fst).Nodup) (k : K) :
    get d k = get d' k := by
  have h' : (d'.map Prod.fst).Nodup := (hperm.map Prod.fst).nodup_iff.mp h
  apply Option.ext
  intro v
  rw [get_eq_some_iff h,get_eq_some_iff h',hperm.mem_iff]

theorem countP_eq_ncard {d : List (K×V)} (h : (d.map Prod.fst).Nodup) (p : K×V → Bool) :
    d.countP p = {k | ∃ v, (k,v) ∈ d ∧ p (k,v)}.ncard := by
  have hnodup : ((d.filter p).map Prod.fst).Nodup := h.sublist (List.filter_sublist.map _)
  have hset : {k | ∃ v, (k,v) ∈ d ∧ p (k,v)} = (((d.filter p).map Prod.fst).toFinset : Set K) := by
    ext k
    simp
  rw [hset,Set.ncard_coe_finset,List.toFinset_card_of_nodup hnodup,List.length_map,
    List.countP_eq_length_filter]

end Dict
