import Mathlib.Logic.Basic
import SoftwareBus.Numerals

/-! Runs of a partial step function. An action that is not possible in a state
has no successor; `Guarded` restricts a run to steps that meet a condition. -/
namespace Transition

variable {S A : Type}

/-- The state a list of actions leads to, if each of them is possible in turn. -/
def run (step : S → A → Option S) (s : S) : List A → Option S
  | [] => some s
  | a::as => (step s a).bind fun t => run step t as

/-- Every action of the run meets `ok` in the state it is taken in. -/
def Guarded (step : S → A → Option S) (ok : S → A → Prop) (s : S) : List A → Prop
  | [] => True
  | a::as => ok s a ∧ match step s a with
    | none => True
    | some t => Guarded step ok t as

instance guardedDecidable (step : S → A → Option S) (ok : S → A → Prop)
    [∀ s a, Decidable (ok s a)] : ∀ s as, Decidable (Guarded step ok s as)
  | _, [] => inferInstanceAs (Decidable True)
  | s, a::as =>
    have : Decidable (match step s a with
        | none => True
        | some t => Guarded step ok t as) :=
      match step s a with
      | none => inferInstanceAs (Decidable True)
      | some t => guardedDecidable step ok t as
    inferInstanceAs (Decidable (_ ∧ _))

theorem run_append (step : S → A → Option S) (s : S) (as bs : List A) :
    run step s (as++bs) = (run step s as).bind fun t => run step t bs := by
  induction as generalizing s with
  | nil => rfl
  | cons a as ih => cases h : step s a <;> simp [run,h,ih]

@[simp] theorem run_singleton (step : S → A → Option S) (s : S) (a : A) :
    run step s [a] = step s a := by
  cases h : step s a <;> simp [run,h]

theorem run_cons {step : S → A → Option S} {s u : S} {a : A} {as : List A}
    (h : run step s (a::as) = some u) : ∃ t, step s a = some t ∧ run step t as = some u := by
  cases ha : step s a with
  | none => simp [run,ha] at h
  | some t => exact ⟨t,rfl,by simpa [run,ha] using h⟩

theorem run_split {step : S → A → Option S} {s u : S} {as bs : List A}
    (h : run step s (as++bs) = some u) : ∃ t, run step s as = some t ∧ run step t bs = some u := by
  rw [run_append] at h
  exact Option.bind_eq_some_iff.mp h

/-- What holds at the start and is kept by every step that meets `ok` holds at
the end of every run all of whose steps meet `ok`. -/
theorem run_invariant {step : S → A → Option S} {ok : S → A → Prop} {I : S → Prop}
    (hstep : ∀ s a t, I s → ok s a → step s a = some t → I t) {s t : S} {as : List A}
    (hs : I s) (hok : Guarded step ok s as) (hrun : run step s as = some t) : I t := by
  induction as generalizing s with
  | nil => simpa [run] using (Option.some.inj hrun) ▸ hs
  | cons a as ih =>
    obtain ⟨u,hu,hrest⟩ := run_cons hrun
    obtain ⟨ha,hguard⟩ := hok
    rw [hu] at hguard
    exact ih (hstep s a u hs ha hu) hguard hrest

/-- A state that a list of actions passes, its start and its end included. -/
def Passes (step : S → A → Option S) (s : S) (as : List A) (u : S) : Prop :=
  ∃ bs cs, as = bs++cs ∧ run step s bs = some u

theorem Passes.start (step : S → A → Option S) (s : S) (as : List A) : Passes step s as s :=
  ⟨[],as,rfl,rfl⟩

theorem Passes.finish {step : S → A → Option S} {s t : S} {as : List A}
    (h : run step s as = some t) : Passes step s as t := ⟨as,[],by simp,h⟩

theorem passes_nil {step : S → A → Option S} {s u : S} : Passes step s [] u ↔ u = s := by
  refine ⟨?_,fun h => h ▸ .start step s []⟩
  rintro ⟨bs,cs,h,hu⟩
  obtain rfl := (List.append_eq_nil_iff.mp h.symm).1
  simpa [run,eq_comm] using hu

theorem passes_cons {step : S → A → Option S} {s u : S} {a : A} {as : List A} :
    Passes step s (a::as) u ↔ u = s ∨ ∃ t, step s a = some t ∧ Passes step t as u := by
  constructor
  · rintro ⟨bs,cs,h,hu⟩
    rcases List.cons_eq_append_iff.mp h with ⟨rfl,rfl⟩ | ⟨bs,rfl,rfl⟩
    · exact .inl (by simpa [run,eq_comm] using hu)
    · obtain ⟨t,ht,hu⟩ := run_cons hu
      exact .inr ⟨t,ht,bs,cs,rfl,hu⟩
  · rintro (rfl | ⟨t,ht,bs,cs,rfl,hu⟩)
    · exact .start step u _
    · exact ⟨a::bs,cs,rfl,by simp [run,ht,hu]⟩

theorem Passes.left {step : S → A → Option S} {s u : S} {as : List A}
    (h : Passes step s as u) (bs : List A) : Passes step s (as++bs) u := by
  obtain ⟨cs,ds,rfl,hu⟩ := h
  exact ⟨cs,ds++bs,by simp,hu⟩

theorem Passes.append {step : S → A → Option S} {s t u : S} {as bs : List A}
    (h : run step s as = some t) (hu : Passes step t bs u) : Passes step s (as++bs) u := by
  obtain ⟨cs,ds,rfl,hu⟩ := hu
  exact ⟨as++cs,ds,by simp,by simp [run_append,h,hu]⟩

instance passesDecidable (step : S → A → Option S) (P : S → Prop) [DecidablePred P] :
    ∀ s as, Decidable (∀ u, Passes step s as u → P u)
  | s, [] => decidable_of_iff (P s) (by simp [passes_nil])
  | s, a::as =>
    have : Decidable (∀ t ∈ step s a, ∀ u, Passes step t as u → P u) :=
      match step s a with
      | none => .isTrue (by simp)
      | some t =>
        have := passesDecidable step P t as
        decidable_of_iff (∀ u, Passes step t as u → P u) (by simp)
    decidable_of_iff (P s ∧ ∀ t ∈ step s a, ∀ u, Passes step t as u → P u) (by
      simp only [passes_cons,Option.mem_def]
      exact ⟨fun h u hu => hu.elim (fun he => he ▸ h.1) fun ⟨t,ht,hu⟩ => h.2 t ht u hu,
        fun h => ⟨h s (.inl rfl),fun t ht u hu => h u (.inr ⟨t,ht,hu⟩)⟩⟩)

theorem guarded_of_passes {step : S → A → Option S} {ok : S → A → Prop} {s : S} {as : List A}
    (h : ∀ u a, Passes step s as u → a ∈ as → (∀ t, step u a = some t → Passes step s as t) →
      ok u a) : Guarded step ok s as := by
  induction as generalizing s with
  | nil => trivial
  | cons a as ih =>
    have hnext : ∀ t, step s a = some t → Passes step s (a::as) t := fun t ht =>
      passes_cons.mpr (.inr ⟨t,ht,.start step t as⟩)
    refine ⟨h s a (.start step s _) (by simp) hnext,?_⟩
    cases ht : step s a with
    | none => trivial
    | some t =>
      refine ih fun u b hu hb hn => h u b (passes_cons.mpr (.inr ⟨t,ht,hu⟩)) (by simp [hb]) ?_
      exact fun v hv => passes_cons.mpr (.inr ⟨t,ht,hn v hv⟩)

theorem guarded_true (step : S → A → Option S) (s : S) (as : List A) :
    Guarded step (fun _ _ => True) s as := by
  induction as generalizing s with
  | nil => trivial
  | cons a as ih => cases h : step s a <;> simp [Guarded,h,ih]

theorem Guarded.split {step : S → A → Option S} {ok : S → A → Prop} {s t : S} {as bs : List A}
    (h : Guarded step ok s (as++bs)) (hrun : run step s as = some t) :
    Guarded step ok s as ∧ Guarded step ok t bs := by
  induction as generalizing s with
  | nil =>
    obtain rfl := Option.some.inj hrun
    exact ⟨trivial,h⟩
  | cons a as ih =>
    obtain ⟨u,hu,hrest⟩ := run_cons hrun
    obtain ⟨ha,hguard⟩ := h
    rw [hu] at hguard
    obtain ⟨has,hbs⟩ := ih hguard hrest
    exact ⟨⟨ha,by rw [hu]; exact has⟩,hbs⟩

/-- The same rule for runs without a condition on their steps. -/
theorem run_invariant_always {step : S → A → Option S} {I : S → Prop}
    (hstep : ∀ s a t, I s → step s a = some t → I t) {s t : S} {as : List A}
    (hs : I s) (hrun : run step s as = some t) : I t :=
  run_invariant (fun s a t h _ => hstep s a t h) hs (guarded_true step s as) hrun

/-- If a step leaves a state good exactly when it was good and the step meets a condition, then
so does a run. -/
theorem good_iff_guarded {step : S → A → Option S} {ok : S → A → Prop} {I P : S → Prop}
    (hstep : ∀ s a t, I s → step s a = some t → I t ∧ (P t ↔ P s ∧ ok s a)) {s t : S}
    {as : List A} (hs : I s) (hrun : run step s as = some t) :
    P t ↔ P s ∧ Guarded step ok s as := by
  induction as generalizing s with
  | nil =>
    obtain rfl := Option.some.inj hrun
    simp [Guarded]
  | cons a as ih =>
    obtain ⟨u,hu,hrest⟩ := run_cons hrun
    obtain ⟨hi,hgood⟩ := hstep s a u hs hu
    rw [ih hi hrest,hgood]
    simp only [Guarded,hu,and_assoc]

/-- If the steps that meet a condition keep an invariant that makes a state good, and no other step
leads to a good state, then a run passes good states only exactly when all its steps meet it. -/
theorem passes_good_iff {step : S → A → Option S} {ok : S → A → Prop} {I good : S → Prop}
    (hstep : ∀ s a t, I s → ok s a → step s a = some t → I t) (hgood : ∀ s, I s → good s)
    (hbad : ∀ s a t, step s a = some t → good t → ok s a) {s t : S} {as : List A} (hs : I s)
    (hrun : run step s as = some t) :
    (∀ u, Passes step s as u → good u) ↔ Guarded step ok s as := by
  induction as generalizing s with
  | nil => simpa [passes_nil,Guarded] using hgood s hs
  | cons a as ih =>
    obtain ⟨u,hu,hrest⟩ := run_cons hrun
    have hnext : (∀ w, Passes step s (a::as) w → good w) ↔
        good s ∧ ∀ w, Passes step u as w → good w := by
      simp only [passes_cons,hu,Option.some.injEq,exists_eq_left',or_imp,forall_and,forall_eq]
    rw [hnext]
    simp only [Guarded,hu]
    constructor
    · rintro ⟨-,hall⟩
      have ha := hbad s a u hu (hall u (.start step u as))
      exact ⟨ha,(ih (hstep s a u hs ha hu) hrest).mp hall⟩
    · rintro ⟨ha,hg⟩
      exact ⟨hgood s hs,(ih (hstep s a u hs ha hu) hrest).mpr hg⟩

/-- Two conditions that agree wherever an invariant holds select the same runs. -/
theorem guarded_congr {step : S → A → Option S} {ok ok' : S → A → Prop} {allowed : A → Prop}
    {I : S → Prop} (hstep : ∀ s a t, I s → allowed a → step s a = some t → I t)
    (hok : ∀ s a, I s → (ok s a ↔ ok' s a)) {s : S} {as : List A} (hs : I s)
    (has : ∀ a ∈ as, allowed a) : Guarded step ok s as ↔ Guarded step ok' s as := by
  induction as generalizing s with
  | nil => exact Iff.rfl
  | cons a as ih =>
    refine and_congr (hok s a hs) ?_
    cases ha : step s a with
    | none => exact Iff.rfl
    | some t => exact ih (hstep s a t hs (has a (by simp)) ha) fun b hb => has b (by simp [hb])

end Transition
