import Mathlib.Data.List.Nodup

/-! Telling the members of a group whether anybody else in it is interested: what
a member has to be told when another one takes an interest or loses it. -/
namespace Interest

variable {C : Type} [DecidableEq C]

/-- Someone other than `m` is interested. -/
def others (interested : List C) (m : C) : Bool := interested.any fun d => decide (d ≠ m)

theorem others_eq_true {ts : List C} {m : C} : others ts m = true ↔ ∃ d ∈ ts, d ≠ m := by
  simp [others]

theorem others_eq_false {ts : List C} {m : C} : others ts m = false ↔ ∀ d ∈ ts, d = m := by
  simp [others]

theorem others_congr {ts us : List C} (m : C) (h : ∀ d, d ≠ m → (d ∈ us ↔ d ∈ ts)) :
    others us m = others ts m := by
  rw [Bool.eq_iff_iff,others_eq_true,others_eq_true]
  exact exists_congr fun d => and_congr_left fun hd => h d hd

/-- Who is not interested is told whether anybody is. -/
theorem others_of_not_mem {ts : List C} {m : C} (h : m ∉ ts) : others ts m = decide (ts ≠ []) := by
  rw [Bool.eq_iff_iff,others_eq_true,decide_eq_true_iff]
  constructor
  · rintro ⟨d,hd,-⟩ rfl
    simp at hd
  · intro hne
    obtain ⟨d,hd⟩ := List.exists_mem_of_ne_nil ts hne
    exact ⟨d,hd,fun he => h (he ▸ hd)⟩

/-- When `c` takes an interest, everybody else has to know. -/
theorem others_join {ts us : List C} {c : C} (h : ∀ d, d ∈ us ↔ d ∈ ts ∨ d = c) (m : C) :
    others us m = if m = c then others ts m else true := by
  split
  · rename_i hm
    exact others_congr m fun d hd => by simp [h,hm ▸ hd]
  · rename_i hm
    exact others_eq_true.mpr ⟨c,(h c).mpr (.inr rfl),Ne.symm hm⟩

/-- Whom to tell when `c` loses its interest: all members but `c` if nobody is
interested any more, the only one who still is, or nobody. -/
def toTell (members left : List C) (c : C) : List C :=
  match left with
  | [] => members.filter (· ≠ c)
  | [r] => [r]
  | _ => []

theorem others_leave {ts us members : List C} {c : C} (hc : c ∈ ts) (hus : us.Nodup)
    (h : ∀ d, d ∈ us ↔ d ∈ ts ∧ d ≠ c) {m : C} (hm : m ∈ members) :
    others us m = if m ∈ toTell members us c then false else others ts m := by
  match us,hus,h with
  | [],_,h =>
    rw [others_eq_false.mpr (by simp)]
    by_cases hmc : m = c
    · have hts : others ts m = false := others_eq_false.mpr fun d hd =>
        by_contra fun hdm => by simpa using (h d).mpr ⟨hd,hmc ▸ hdm⟩
      rw [hts,ite_self]
    · simp [toTell,hm,hmc]
  | [r],_,h =>
    obtain ⟨hr,hrc⟩ := (h r).mp (by simp)
    by_cases hmr : m = r
    · subst m
      rw [others_eq_false.mpr (by simp)]
      simp [toTell]
    · have hts : others ts m = true := by
        by_cases hmc : m = c
        · exact others_eq_true.mpr ⟨r,hr,Ne.symm hmr⟩
        · exact others_eq_true.mpr ⟨c,hc,Ne.symm hmc⟩
      have hus : others [r] m = true := others_eq_true.mpr ⟨r,by simp,Ne.symm hmr⟩
      simp [toTell,hmr,hts,hus]
  | r::r'::rs,hus,h =>
    have hne : r ≠ r' := fun he => (List.nodup_cons.mp hus).1 (he ▸ List.mem_cons_self)
    have htwo {xs : List C} (hr : r ∈ xs) (hr' : r' ∈ xs) : others xs m = true := by
      by_cases hmr : m = r
      · exact others_eq_true.mpr ⟨r',hr',fun he => hne (hmr ▸ he.symm)⟩
      · exact others_eq_true.mpr ⟨r,hr,Ne.symm hmr⟩
    have hts : others ts m = true := htwo ((h r).mp (by simp)).1 ((h r').mp (by simp)).1
    have hus : others (r::r'::rs) m = true := htwo (by simp) (by simp)
    simp [toTell,hts,hus]

end Interest
