import SoftwareBus.Registrations
import SoftwareBus.RequestSubjects
import SoftwareBus.Transition

/-! The acceptor register of a request/reply client, beside the callbacks registered
in its publish/subscribe client. -/
namespace SoftwareBus

open Transition

variable {B K : Type}

inductive AcceptError
  /-- The check of its request subject fails. -/
  | invalid
  /-- The error of the subscribe. -/
  | subscribe
  /-- The `del` finds no entry. -/
  | keyError
  deriving DecidableEq

inductive AcceptCall
  /-- `accept_request`: for the subscription message to be sent. -/
  | accepting
  /-- `stop_accept_request`: for the unsubscription message to be sent. -/
  | stopping
  deriving DecidableEq

/-- The acceptors of a client. A call of `accept_request` stands for the subscription
callback (`on_request`) that it makes. -/
structure Acceptors (B K : Type) where
  /-- `_acceptors` -/
  acceptors : Str × B → Option K
  /-- The `_subscribe_callbacks` of the publish/subscribe client. -/
  registrations : Registrations K
  /-- The calls that wait. -/
  calls : K → Option AcceptCall
  /-- The pair of a call of `accept_request`. -/
  pair : K → Option (Str × B)
  raised : K → Option AcceptError
  /-- An `accept_request` of the pair has returned since it was last stopped. -/
  accepted : Str × B → Bool

inductive AcceptAction (B K : Type)
  | accept (k : K) (requestSubject : Str) (callback : B)
  /-- The subscription message has been sent. -/
  | sent (k : K)
  /-- Sending the subscription message fails, perhaps at once, or is cancelled. -/
  | failed (k : K)
  | stop (k : K) (requestSubject : Str) (callback : B)
  /-- Sending the unsubscription message ends in any way. -/
  | stopped (k : K)

namespace Acceptors

def init : Acceptors B K where
  acceptors _ := none
  registrations := .empty
  calls _ := none
  pair _ := none
  raised _ := none
  accepted _ := false

variable [DecidableEq B] [DecidableEq K]

/-- The start of `accept_request` once the check has passed. -/
def accept (s : Acceptors B K) (k : K) (requestSubject : Str) (callback : B) : Acceptors B K :=
  let key := (requestSubject,callback)
  let subject := derivedRequestSubject requestSubject
  let s := {s with pair := Function.update s.pair k (some key)}
  if (s.acceptors key).isSome then {s with accepted := Function.update s.accepted key true}
  else
    let t := {s with
      acceptors := Function.update s.acceptors key (some k)
      registrations := s.registrations.register subject k}
    if s.registrations.callbacks subject = [] then
      {t with calls := Function.update s.calls k (some .accepting)}
    else {t with accepted := Function.update s.accepted key true}

/-- The end of an `accept_request` whose subscribe fails. -/
def rollBack (s : Acceptors B K) (k : K) (key : Str × B) : Acceptors B K :=
  {s with
    registrations := s.registrations.remove (derivedRequestSubject key.1) k
    acceptors := Function.update s.acceptors key none
    calls := Function.update s.calls k none
    raised := Function.update s.raised k
      (some (if (s.acceptors key).isSome then .subscribe else .keyError))}

def stop (s : Acceptors B K) (k : K) (requestSubject : Str) (callback : B) : Acceptors B K :=
  let key := (requestSubject,callback)
  let subject := derivedRequestSubject requestSubject
  match s.acceptors key with
  | none => {s with accepted := Function.update s.accepted key false}
  | some onRequest =>
    {s with
      acceptors := Function.update s.acceptors key none
      registrations := s.registrations.remove subject onRequest
      calls := if s.registrations.isLast subject onRequest then
        Function.update s.calls k (some .stopping) else s.calls
      accepted := Function.update s.accepted key false}

def step (s : Acceptors B K) : AcceptAction B K → Option (Acceptors B K)
  | .accept k requestSubject callback =>
    if (s.calls k).isNone ∧ (s.pair k).isNone ∧ (s.raised k).isNone then
      some (if checkRequestSubject requestSubject (derivedRequestSubject requestSubject) then
        s.accept k requestSubject callback
      else {s with raised := Function.update s.raised k (some .invalid)})
    else none
  | .sent k =>
    match s.calls k, s.pair k with
    | some .accepting, some key => some {s with
        calls := Function.update s.calls k none
        accepted := Function.update s.accepted key true}
    | _, _ => none
  | .failed k =>
    match s.calls k, s.pair k with
    | some .accepting, some key => some (s.rollBack k key)
    | _, _ => none
  | .stop k requestSubject callback =>
    if (s.calls k).isNone then
      some (if checkRequestSubject requestSubject (derivedRequestSubject requestSubject) then
        s.stop k requestSubject callback else s)
    else none
  | .stopped k =>
    match s.calls k with
    | some .stopping => some {s with calls := Function.update s.calls k none}
    | _ => none

/-- A subscribe is sent after its pair has been stopped, or fails after its pair has been stopped or
accepted again. -/
def endsLate (s : Acceptors B K) : AcceptAction B K → Bool
  | .sent k =>
    match s.pair k with
    | some key => (s.acceptors key).isNone
    | none => false
  | .failed k =>
    match s.pair k with
    | some key => decide (s.acceptors key ≠ some k) || s.accepted key
    | none => false
  | _ => false

variable {s t : Acceptors B K} {a : AcceptAction B K}

/-- The register has exactly the callbacks that are registered, each under its pair. -/
structure TableAgrees (acceptors : Str × B → Option K) (r : Registrations K)
    (pair : K → Option (Str × B)) : Prop where
  entry : ∀ p k, acceptors p = some k → pair k = some p
  mem : ∀ subject k, k ∈ r.callbacks subject ↔
    ∃ p : Str × B, derivedRequestSubject p.1 = subject ∧ acceptors p = some k
  nodup : ∀ subject, (r.callbacks subject).Nodup

section table

variable {acceptors : Str × B → Option K} {r : Registrations K} {pair : K → Option (Str × B)}

omit [DecidableEq B] in
theorem TableAgrees.note (h : TableAgrees acceptors r pair) {k : K} (hk : pair k = none)
    (key : Str × B) : TableAgrees acceptors r (Function.update pair k (some key)) := by
  refine ⟨fun p j hj => ?_,h.mem,h.nodup⟩
  rw [Function.update_of_ne ?_,h.entry p j hj]
  rintro rfl
  simp [h.entry p j hj] at hk

theorem TableAgrees.register (h : TableAgrees acceptors r pair) {k : K} (hk : pair k = none)
    {key : Str × B} (hkey : acceptors key = none) :
    TableAgrees (Function.update acceptors key (some k)) (r.register (derivedRequestSubject key.1) k)
      (Function.update pair k (some key)) := by
  have hnot (p : Str × B) : acceptors p ≠ some k := fun hp => by simp [h.entry p k hp] at hk
  refine ⟨fun p j hj => ?_,fun subject j => ?_,fun subject => ?_⟩
  · by_cases hp : p = key
    · subst p
      obtain rfl : k = j := by simpa using hj
      simp
    · exact (h.note hk key).entry p j (by simpa [hp] using hj)
  · have hother : (∃ p : Str × B, derivedRequestSubject p.1 = subject ∧
        Function.update acceptors key (some k) p = some j) ↔
          j ∈ r.callbacks subject ∨ derivedRequestSubject key.1 = subject ∧ k = j := by
      rw [h.mem]
      constructor
      · rintro ⟨p,hsub,hp⟩
        by_cases hpk : p = key
        · subst p
          exact .inr ⟨hsub,by simpa using hp⟩
        · exact .inl ⟨p,hsub,by simpa [hpk] using hp⟩
      · rintro (⟨p,hsub,hp⟩ | ⟨hsub,rfl⟩)
        · refine ⟨p,hsub,?_⟩
          rw [Function.update_of_ne ?_,hp]
          rintro rfl
          simp [hkey] at hp
        · exact ⟨key,hsub,by simp⟩
    rw [Registrations.callbacks_register,hother]
    split
    · subst subject
      simp [eq_comm]
    · rename_i hsub
      simp [Ne.symm hsub]
  · rw [Registrations.callbacks_register]
    split
    · refine List.nodup_append.mpr ⟨h.nodup _,List.nodup_singleton k,fun j hj i hi hji => ?_⟩
      obtain rfl := List.mem_singleton.mp hi
      obtain ⟨p,-,hp⟩ := (h.mem _ j).mp hj
      exact hnot p (hji ▸ hp)
    · exact h.nodup subject

theorem TableAgrees.remove (h : TableAgrees acceptors r pair) {key : Str × B} {k : K}
    (hk : acceptors key = some k) : TableAgrees (Function.update acceptors key none)
      (r.remove (derivedRequestSubject key.1) k) pair := by
  refine ⟨fun p j hj => ?_,fun subject j => ?_,fun subject => ?_⟩
  · by_cases hp : p = key
    · simp [hp] at hj
    · exact h.entry p j (by simpa [hp] using hj)
  · have hother : (∃ p : Str × B, derivedRequestSubject p.1 = subject ∧
        Function.update acceptors key none p = some j) ↔ j ∈ r.callbacks subject ∧ j ≠ k := by
      rw [h.mem]
      constructor
      · rintro ⟨p,hsub,hp⟩
        by_cases hpk : p = key
        · simp [hpk] at hp
        · rw [Function.update_of_ne hpk] at hp
          refine ⟨⟨p,hsub,hp⟩,?_⟩
          rintro rfl
          exact hpk (Option.some.inj ((h.entry p j hp).symm.trans (h.entry key j hk)))
      · rintro ⟨⟨p,hsub,hp⟩,hj⟩
        refine ⟨p,hsub,?_⟩
        rw [Function.update_of_ne ?_,hp]
        rintro rfl
        exact hj (Option.some.inj (hp.symm.trans hk))
    rw [Registrations.callbacks_remove,hother]
    split
    · subst subject
      rw [(h.nodup _).mem_erase_iff,and_comm]
    · rename_i hsub
      refine iff_self_and.mpr ?_
      rintro hj rfl
      obtain ⟨p,hp,hpj⟩ := (h.mem _ j).mp hj
      obtain rfl : p = key := Option.some.inj ((h.entry p j hpj).symm.trans (h.entry key j hk))
      exact hsub hp.symm
  · rw [Registrations.callbacks_remove]
    split
    · exact (h.nodup _).erase k
    · exact h.nodup subject

end table

structure Agrees (s : Acceptors B K) : Prop where
  table : TableAgrees s.acceptors s.registrations s.pair
  kept : ∀ p, s.accepted p = true → (s.acceptors p).isSome
  raised : ∀ k e, s.raised k = some e → e = .subscribe ∨ e = .invalid ∧ s.pair k = none

omit [DecidableEq B] [DecidableEq K] in
theorem init_agrees : (init : Acceptors B K).Agrees :=
  ⟨⟨by simp [init],by simp [init],by simp [init]⟩,by simp [init],by simp [init]⟩

omit [DecidableEq K] in
theorem Agrees.accepted_update (hs : s.Agrees) {key : Str × B} (hkey : (s.acceptors key).isSome)
    {p : Str × B} (hp : Function.update s.accepted key true p = true) : (s.acceptors p).isSome := by
  by_cases hpk : p = key
  · exact hpk ▸ hkey
  · exact hs.kept p (by simpa [hpk] using hp)

theorem accept_agrees (hs : s.Agrees) {k : K} (hk : s.pair k = none) (hr : s.raised k = none)
    (requestSubject : Str) (callback : B) : (s.accept k requestSubject callback).Agrees := by
  generalize hkey : (requestSubject,callback) = key
  have hsubject : requestSubject = key.1 := hkey ▸ rfl
  have hraised (j : K) (e : AcceptError) (hj : s.raised j = some e) :
      e = .subscribe ∨ e = .invalid ∧ Function.update s.pair k (some key) j = none := by
    refine (hs.raised j e hj).imp_right fun h => ⟨h.1,?_⟩
    rw [Function.update_of_ne ?_,h.2]
    rintro rfl
    simp [hr] at hj
  simp only [accept,hkey]
  split
  · rename_i hsome
    exact ⟨hs.table.note hk key,fun p => hs.accepted_update hsome,hraised⟩
  · rename_i hnone
    have htable := hs.table.register hk (by simpa using hnone)
    rw [← hsubject] at htable
    have hsome (p : Str × B) (hp : p = key ∨ (s.acceptors p).isSome) :
        (Function.update s.acceptors key (some k) p).isSome := by
      by_cases hpk : p = key
      · simp [hpk]
      · simpa [hpk] using hp
    split
    · exact ⟨htable,fun p hp => hsome p (.inr (hs.kept p hp)),hraised⟩
    · refine ⟨htable,fun p hp => hsome p ?_,hraised⟩
      by_cases hpk : p = key
      · exact .inl hpk
      · exact .inr (hs.kept p (by simpa [hpk] using hp))

theorem rollBack_agrees (hs : s.Agrees) {k : K} {key : Str × B} (hk : s.acceptors key = some k)
    (hkey : s.accepted key = false) : (s.rollBack k key).Agrees := by
  refine ⟨hs.table.remove hk,fun p hp => ?_,fun j e hj => ?_⟩
  · have hne : p ≠ key := by
      rintro rfl
      exact absurd hp (by simp [rollBack,hkey])
    simpa [rollBack,hne] using hs.kept p hp
  · by_cases hjk : j = k
    · exact .inl (by simpa [rollBack,hjk,hk,eq_comm] using hj)
    · exact hs.raised j e (by simpa [rollBack,hjk] using hj)

theorem stop_agrees (hs : s.Agrees) (k : K) (requestSubject : Str) (callback : B) :
    (s.stop k requestSubject callback).Agrees := by
  generalize hkey : (requestSubject,callback) = key
  have hsubject : requestSubject = key.1 := hkey ▸ rfl
  have haccepted {p : Str × B} (hp : Function.update s.accepted key false p = true) :
      p ≠ key ∧ (s.acceptors p).isSome := by
    have hne : p ≠ key := by
      rintro rfl
      simp at hp
    exact ⟨hne,hs.kept p (by simpa [hne] using hp)⟩
  simp only [stop,hkey]
  split
  · exact ⟨hs.table,fun p hp => (haccepted hp).2,hs.raised⟩
  · rename_i o ho
    have htable := hs.table.remove ho
    rw [← hsubject] at htable
    refine ⟨htable,fun p hp => ?_,hs.raised⟩
    obtain ⟨hne,hsome⟩ := haccepted hp
    simpa [hne] using hsome

theorem step_agrees (hs : s.Agrees) (hok : s.endsLate a = false) (h : s.step a = some t) :
    t.Agrees := by
  cases a with
  | accept k requestSubject callback =>
    simp only [step,Option.ite_none_right_eq_some,Option.some.injEq,Option.isNone_iff_eq_none] at h
    obtain ⟨⟨-,hk,hr⟩,rfl⟩ := h
    split
    · exact accept_agrees hs hk hr requestSubject callback
    · refine ⟨hs.table,hs.kept,fun j e hj => ?_⟩
      by_cases hjk : j = k
      · subst j
        exact .inr ⟨by simpa [eq_comm] using hj,hk⟩
      · exact hs.raised j e (by simpa [hjk] using hj)
  | sent k =>
    simp only [step] at h
    split at h <;> try contradiction
    rename_i key hc hk
    obtain rfl := Option.some.inj h
    have hkey : (s.acceptors key).isSome := by simpa [endsLate,hk,Option.isSome_iff_ne_none] using hok
    exact ⟨hs.table,fun p => hs.accepted_update hkey,hs.raised⟩
  | failed k =>
    simp only [step] at h
    split at h <;> try contradiction
    rename_i key hc hk
    obtain rfl := Option.some.inj h
    simp only [endsLate,hk,Bool.or_eq_false_iff,decide_eq_false_iff_not,not_not] at hok
    exact rollBack_agrees hs hok.1 hok.2
  | stop k requestSubject callback =>
    simp only [step,Option.ite_none_right_eq_some,Option.some.injEq,Option.isNone_iff_eq_none] at h
    obtain ⟨-,rfl⟩ := h
    split
    · exact stop_agrees hs k requestSubject callback
    · exact hs
  | stopped k =>
    simp only [step] at h
    split at h <;> try contradiction
    obtain rfl := Option.some.inj h
    exact ⟨hs.table,hs.kept,hs.raised⟩

/-- As long as no subscribe is sent after its pair has been stopped, or fails after its pair has been
stopped or accepted again, the register has exactly the callbacks that are registered, a pair that
an `accept_request` has returned for since it was last stopped has one of them, and an
`accept_request` that fails raises the error of its subscribe and takes back its own entry only. -/
theorem acceptors_agree {as : List (AcceptAction B K)}
    (hrun : run step (init : Acceptors B K) as = some s)
    (hok : Guarded step (fun s a => s.endsLate a = false) (init : Acceptors B K) as) :
    (∀ p k, s.acceptors p = some k → s.pair k = some p ∧
        (s.registrations.callbacks (derivedRequestSubject p.1)).count k = 1) ∧
      (∀ subject, ∀ k ∈ s.registrations.callbacks subject, ∃ p : Str × B, s.pair k = some p ∧
        derivedRequestSubject p.1 = subject ∧ s.acceptors p = some k) ∧
      (∀ p, s.accepted p = true →
        (s.registrations.callbacks (derivedRequestSubject p.1)).countP (fun k => s.pair k = some p) =
          1) ∧
      (∀ k, s.pair k ≠ none → ∀ e, s.raised k = some e → e = .subscribe) ∧
      ∀ k t, s.endsLate (.failed k) = false → s.step (.failed k) = some t →
        ∀ p, t.acceptors p = if s.acceptors p = some k then none else s.acceptors p := by
  have hs : s.Agrees :=
    run_invariant (fun s a t h hok ht => step_agrees h hok ht) init_agrees hok hrun
  have hcount {p : Str × B} {k : K} (hk : s.acceptors p = some k) :
      (s.registrations.callbacks (derivedRequestSubject p.1)).count k = 1 :=
    List.count_eq_one_of_mem (hs.table.nodup _) ((hs.table.mem _ k).mpr ⟨p,rfl,hk⟩)
  refine ⟨fun p k hk => ⟨hs.table.entry p k hk,hcount hk⟩,fun subject k hk => ?_,
    fun p hp => ?_,fun k hk e he => ?_,fun k t hok ht p => ?_⟩
  · obtain ⟨p,hp,hpk⟩ := (hs.table.mem subject k).mp hk
    exact ⟨p,hs.table.entry p k hpk,hp,hpk⟩
  · obtain ⟨j,hj⟩ := Option.isSome_iff_exists.mp (hs.kept p hp)
    rw [← hcount hj,List.count]
    refine List.countP_congr fun i hi => ?_
    simp only [decide_eq_true_eq,beq_iff_eq]
    constructor
    · intro hip
      obtain ⟨q,-,hqi⟩ := (hs.table.mem _ i).mp hi
      obtain rfl : p = q := Option.some.inj (hip.symm.trans (hs.table.entry q i hqi))
      exact Option.some.inj (hqi.symm.trans hj)
    · rintro rfl
      exact hs.table.entry p i hj
  · exact (hs.raised k e he).resolve_right fun h => hk h.2
  · simp only [step] at ht
    split at ht <;> try contradiction
    rename_i key hc hk
    obtain rfl := Option.some.inj ht
    simp only [endsLate,hk,Bool.or_eq_false_iff,decide_eq_false_iff_not,not_not] at hok
    by_cases hp : p = key
    · simp [rollBack,hp,hok.1]
    · have hne : s.acceptors p ≠ some k := fun h =>
        hp (Option.some.inj ((hs.table.entry p k h).symm.trans hk))
      simp [rollBack,hp,hne]

theorem acceptors_agree_shared : ∃ s : Acceptors ℕ ℕ,
    run step init [.accept 0 [97] 0,.accept 1 [97] 1,.failed 0,.stop 2 [97] 1,.stopped 2,
      .accept 3 [97] 0,.sent 3] = some s ∧
    (s.registrations.callbacks (derivedRequestSubject [97])).countP (fun k => s.pair k = some ([97],0)) =
      1 := by
  have hrun := Option.some_get (show (run step (init : Acceptors ℕ ℕ) [.accept 0 [97] 0,
    .accept 1 [97] 1,.failed 0,.stop 2 [97] 1,.stopped 2,.accept 3 [97] 0,.sent 3]).isSome by decide)
  exact ⟨_,hrun.symm,(acceptors_agree hrun.symm (by decide)).2.2.1 ([97],0) (by decide)⟩

/-- The pair is accepted again while its first subscribe is being sent, and that returns at once;
then the first subscribe fails and takes the entry of both with it. The pair is stopped while its
subscribe is being sent: the `accept_request` returns, or raises another error than its subscribe. -/
theorem not_acceptors_agree :
    (∃ s : Acceptors ℕ (Fin 3),
      run step init [.accept 0 [97] 0,.accept 1 [97] 0,.failed 0] = some s ∧
      (∀ k, s.calls k = none) ∧ s.accepted ([97],0) = true ∧ s.acceptors ([97],0) = none ∧
      s.registrations.callbacks (derivedRequestSubject [97]) = []) ∧
    (∃ s : Acceptors ℕ (Fin 3),
      run step init [.accept 0 [97] 0,.accept 1 [97] 1,.stop 2 [97] 0,.sent 0] = some s ∧
      (∀ k, s.calls k = none) ∧ s.accepted ([97],0) = true ∧ s.acceptors ([97],0) = none ∧
      s.registrations.callbacks (derivedRequestSubject [97]) = [1]) ∧
    ∃ s : Acceptors ℕ (Fin 3),
      run step init [.accept 0 [97] 0,.accept 1 [97] 1,.stop 2 [97] 0,.failed 0] = some s ∧
      s.pair 0 = some ([97],0) ∧ s.raised 0 = some .keyError := by
  have hagain := Option.some_get (show (run step (init : Acceptors ℕ (Fin 3))
    [.accept 0 [97] 0,.accept 1 [97] 0,.failed 0]).isSome by decide)
  have hsent := Option.some_get (show (run step (init : Acceptors ℕ (Fin 3))
    [.accept 0 [97] 0,.accept 1 [97] 1,.stop 2 [97] 0,.sent 0]).isSome by decide)
  have hfailed := Option.some_get (show (run step (init : Acceptors ℕ (Fin 3))
    [.accept 0 [97] 0,.accept 1 [97] 1,.stop 2 [97] 0,.failed 0]).isSome by decide)
  exact ⟨⟨_,hagain.symm,by decide,by decide,by decide,by decide⟩,
    ⟨_,hsent.symm,by decide,by decide,by decide,by decide⟩,_,hfailed.symm,by decide,by decide⟩

end Acceptors
end SoftwareBus
