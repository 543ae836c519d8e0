import SoftwareBus.RequestTaskInvariant

/-! Every step of the tasks of a client keeps its requests in order: what holds between two steps
holds after each of them, as far as no timer is started too late and no request made too late. -/
namespace SoftwareBus

open Transition

namespace RequestFrame

variable {C : Type}

/-- A frame that relies on no request. -/
def isFree : RequestFrame C → Bool
  | .code | .send _ | .unsubscribing | .published _ | .delivering _ | .receiving _ | .raising _ => true
  | _ => false

end RequestFrame

namespace RequestTasks

variable {C K : Type} {timers closes : Prop} {s t : RequestTasks C K} {r : Str} {f : RequestFrame C}

def New (closes : Prop) (s : RequestTasks C K) (f : RequestFrame C) : Prop :=
  s.Good closes f ∧ f.owed = none

theorem new_of_isFree (h : f.isFree = true) : s.New closes f := by
  cases f <;> first | exact ⟨trivial,rfl⟩ | cases h

theorem isFree_sendFrames (s : RequestTasks C K) : ∀ f ∈ s.sendFrames, f.isFree = true := by
  unfold sendFrames
  cases s.connection <;> simp [RequestFrame.isFree]

theorem isFree_endWaitFrames (s : RequestTasks C K) (r : Str) :
    ∀ f ∈ s.endWaitFrames r, f.isFree = true := by
  unfold endWaitFrames
  split_ifs
  · intro f hf
    rcases List.mem_append.mp hf with hf | hf
    · exact isFree_sendFrames s f hf
    · rw [List.mem_singleton.mp hf]
      rfl
  · exact fun f hf => nomatch hf

theorem new_endWaitFrames (s t : RequestTasks C K) (r : Str) :
    ∀ f ∈ s.endWaitFrames r, t.New closes f :=
  fun f hf => new_of_isFree (isFree_endWaitFrames s r f hf)

theorem new_sendFrames (s t : RequestTasks C K) : ∀ f ∈ s.sendFrames, t.New closes f :=
  fun f hf => new_of_isFree (isFree_sendFrames s f hf)

theorem Invariant.later (h : s.Invariant timers closes) (ht : t.Orderly timers closes)
    (hlater : Later closes s t) (hstack : t.stack = s.stack) : t.Invariant timers closes :=
  ⟨ht,h.stacked.later hlater hstack⟩

theorem Invariant.setRequest (h : s.Invariant timers closes) {q : PendingRequest}
    (hmade : s.made r = true) (hended : q.ended = (s.request r).ended)
    (hstatus : q.closedMeanwhile ≠ some .reply)
    (hkept : (s.request r).closedMeanwhile ≠ none → q.closedMeanwhile ≠ none)
    (hsending : s.outcome r ≠ none → q.sending = false)
    (hstopped : timers → q.ended = true → q.timer ≠ .running)
    (hfired : timers → q.timer = .fired → .ended (.without .timedOut) ∈ s.events r)
    (hflagged : q.closedMeanwhile ≠ none → q.ended = true ∨ q.sending = true) :
    (s.setRequest r q).Invariant timers closes :=
  h.later (h.orderly.setRequest hmade hended hstatus hkept hsending hstopped hfired hflagged)
    (later_setRequest (fun he => hended.trans he) hkept) rfl

theorem Invariant.endWait (h : s.Invariant timers closes) (why : EndOfWait)
    (hmade : s.made r = true) (hopen : (s.request r).ended = false) (hwhy : why ≠ .without .reply) :
    (s.endWait r why).Invariant timers closes :=
  h.later (h.orderly.endWait why hmade hopen hwhy)
    (later_endWait (h.stacked.not_owed hopen)) rfl

/-- What is left to do when the wait has been ended for a reason that the callback is told. -/
theorem Orderly.good_ending (h : s.Orderly timers closes) {status : ReplyStatus}
    (hmade : s.made r = true) (hopen : (s.request r).ended = false) (hstatus : status ≠ .reply) :
    (s.endWait r (.without status)).Good closes (.ending r status) := by
  refine ⟨hmade,?_,?_⟩
  · rw [request_endWait_self]
  · rw [events_endWait_self]
    apply life_snoc (h.waits hopen)
    exact RequestLife.next_ended (EndOfWait.without_ne hstatus)

theorem Invariant.finish (h : s.Invariant timers closes) {o : RequestOutcome}
    (hmade : s.made r = true) (hraised : o = .raised → (s.request r).ended = true)
    (hflag : (s.request r).closedMeanwhile ≠ none → (s.request r).ended = true) :
    (s.finish r o).Invariant timers closes :=
  h.later (h.orderly.finish hmade hraised hflag) later_finish rfl

theorem Invariant.finish_ended (h : s.Invariant timers closes) {o : RequestOutcome}
    (hr : s.made r = true ∧ (s.request r).ended = true) : (s.finish r o).Invariant timers closes :=
  h.finish hr.1 (fun _ => hr.2) fun _ => hr.2

variable [DecidableEq K] {k : K} {fs : List (RequestFrame C)}

theorem sublist_stack (s : RequestTasks C K) (k : K) (fs : List (RequestFrame C)) :
    fs.Sublist ((s.setStack k fs).stack k) := by
  rw [show (s.setStack k fs).stack k = fs from Function.update_self ..]

theorem Invariant.replace (h : s.Invariant timers closes) (gs : List (RequestFrame C))
    (hfs : fs.Sublist (s.stack k)) (hgs : ∀ f ∈ gs, s.New closes f) :
    (s.setStack k (gs++fs)).Invariant timers closes :=
  ⟨h.orderly.setStack,h.stacked.replace hfs (fun f hf => (hgs f hf).1) fun f hf => (hgs f hf).2⟩

theorem Invariant.drop (h : s.Invariant timers closes) (hfs : fs.Sublist (s.stack k)) :
    (s.setStack k fs).Invariant timers closes := h.replace [] hfs fun _ hf => nomatch hf

theorem Invariant.replace_one (h : s.Invariant timers closes) (hfs : fs.Sublist (s.stack k))
    (hf : s.New closes f) : (s.setStack k (f::fs)).Invariant timers closes := by
  apply h.replace [f] hfs
  intro f' hf'
  rwa [List.mem_singleton.mp hf']

theorem owed_of_setStack {gs : List (RequestFrame C)} (hfs : fs.Sublist (s.stack k))
    (hgs : ∀ f ∈ gs, f.owed = none) (h : (s.setStack k (gs++fs)).Owed r) : s.Owed r := by
  obtain ⟨l,hl⟩ := h
  refine ⟨l,?_⟩
  by_cases hlk : l = k
  · subst l
    have hnone : gs.filterMap RequestFrame.owed = [] := List.filterMap_eq_nil_iff.mpr hgs
    rw [show (s.setStack k (gs++fs)).stack k = gs++fs from Function.update_self ..,
      List.filterMap_append,hnone,List.nil_append] at hl
    exact (hfs.filterMap _).subset hl
  · rwa [show (s.setStack k (gs++fs)).stack l = s.stack l from Function.update_of_ne hlk ..] at hl

/-- A call is made that is going to tell the end of the wait, with other calls under and above it. -/
theorem Invariant.tell (h : s.Invariant timers closes) {status : ReplyStatus}
    (es gs : List (RequestFrame C)) (hfs : fs.Sublist (s.stack k)) (hes : ∀ f ∈ es, f.isFree = true)
    (hgs : ∀ f ∈ gs, s.New closes f) (hgood : s.Good closes (.ending r status)) (hr : ¬s.Owed r) :
    (s.setStack k (es++.ending r status::(gs++fs))).Invariant timers closes := by
  have hunder := h.replace gs hfs hgs
  have howed : ¬(s.setStack k (gs++fs)).Owed r := fun ho =>
    hr (owed_of_setStack hfs (fun f hf => (hgs f hf).2) ho)
  have htell : ((s.setStack k (gs++fs)).setStack k
      (.ending r status::(gs++fs))).Invariant timers closes :=
    ⟨hunder.orderly.setStack,hunder.stacked.owe (sublist_stack s k _) hgood howed⟩
  rw [setStack_setStack] at htell
  have hall := htell.replace es (sublist_stack s k _) fun f hf => new_of_isFree (hes f hf)
  rwa [setStack_setStack] at hall

theorem Invariant.fail (h : s.Invariant timers closes) {err : TaskError} (hmade : s.made r = true)
    (hfs : fs.Sublist (s.stack k)) : (s.fail k r err fs).Invariant timers closes := by
  unfold RequestTasks.fail
  split_ifs with hended
  · exact h.replace_one hfs ⟨⟨hmade,hended⟩,rfl⟩
  · have hend := h.endWait .failed hmade (Bool.eq_false_iff.mpr hended) nofun
    have hnew : (s.endWait r .failed).New closes (.failing r err) := by
      refine ⟨⟨hmade,?_⟩,rfl⟩
      rw [request_endWait_self]
    rw [List.append_cons]
    apply hend.replace _ hfs
    intro f hf
    rcases List.mem_append.mp hf with hf | hf
    · exact new_endWaitFrames s _ r f hf
    · rwa [List.mem_singleton.mp hf]

omit [DecidableEq K] in
theorem endWait_unregister (s : RequestTasks C K) (r : Str) (why : EndOfWait) :
    (s.unregister r).endWait r why = (s.endWait r why).unregister r := rfl

/-- A subscribe that fails has removed its registration itself. -/
theorem Invariant.fail_unregistered (h : s.Invariant timers closes) {err : TaskError}
    (hmade : s.made r = true) (hfs : fs.Sublist (s.stack k)) :
    ((s.unregister r).fail k r err fs).Invariant timers closes := by
  unfold RequestTasks.fail
  split_ifs with hended
  · have hun : (s.unregister r).Invariant timers closes :=
      h.later (h.orderly.unregister hended) {Later.refl s with} rfl
    exact hun.replace_one hfs ⟨⟨hmade,hended⟩,rfl⟩
  · have hend := h.endWait .failed hmade (Bool.eq_false_iff.mpr hended) nofun
    have hdone : ((s.endWait r .failed).request r).ended = true := by rw [request_endWait_self]
    have hun : ((s.unregister r).endWait r .failed).Invariant timers closes :=
      hend.later (hend.orderly.unregister hdone) {Later.refl (s.endWait r .failed) with} rfl
    rw [List.append_cons]
    apply hun.replace _ hfs
    intro f hf
    rcases List.mem_append.mp hf with hf | hf
    · exact new_endWaitFrames _ _ r f hf
    · rw [List.mem_singleton.mp hf]
      exact ⟨⟨hmade,hdone⟩,rfl⟩

omit [DecidableEq K] in
theorem endWait_setRequest (s : RequestTasks C K) (r : Str) (q : PendingRequest) (why : EndOfWait) :
    (s.setRequest r q).endWait r why =
      (s.endWait r why).setRequest r {q with ended := true, timer := stopTimer q.timer} := by
  simp [RequestTasks.endWait,setRequest,note,unregister]

omit [DecidableEq K] in
theorem Invariant.change_endWait (h : s.Invariant timers closes) {why : EndOfWait}
    {q : PendingRequest} (hmade : s.made r = true) (hopen : (s.request r).ended = false)
    (hwhy : why ≠ .without .reply) (hflag : q.closedMeanwhile = (s.request r).closedMeanwhile)
    (hsending : s.outcome r ≠ none → q.sending = false)
    (hfired : timers → q.timer = .fired → .ended (.without .timedOut) ∈ s.events r++[.ended why]) :
    ((s.setRequest r q).endWait r why).Invariant timers closes := by
  rw [endWait_setRequest]
  apply (h.endWait _ hmade hopen hwhy).setRequest hmade
  · rw [request_endWait_self]
  · exact hflag ▸ h.orderly.status r
  · rw [request_endWait_self]
    exact fun he => hflag ▸ he
  · exact hsending
  · exact fun _ _ => stopTimer_ne q.timer
  · rw [events_endWait_self]
    exact fun htimers he => hfired htimers (fired_of_stopTimer he)
  · exact fun _ => .inl rfl

theorem Invariant.change_endWithoutReply (h : s.Invariant timers closes) {status : ReplyStatus}
    {q : PendingRequest} (gs : List (RequestFrame C)) (hmade : s.made r = true)
    (hopen : (s.request r).ended = false) (hstatus : status ≠ .reply)
    (hflag : q.closedMeanwhile = (s.request r).closedMeanwhile)
    (hsending : s.outcome r ≠ none → q.sending = false)
    (hfired : timers → q.timer = .fired →
      .ended (.without .timedOut) ∈ s.events r++[.ended (.without status)])
    (hfs : fs.Sublist (s.stack k))
    (hgs : ∀ f ∈ gs, ((s.setRequest r q).endWait r (.without status)).New closes f) :
    ((s.setRequest r q).endWithoutReply k r status (gs++fs)).Invariant timers closes := by
  have hend := h.change_endWait hmade hopen (EndOfWait.without_ne hstatus) hflag hsending hfired
  apply hend.tell _ gs hfs (isFree_endWaitFrames _ r) hgs
  · have hgood : (s.endWait r (.without status)).Good closes (.ending r status) :=
      h.orderly.good_ending hmade hopen hstatus
    refine ⟨hmade,?_,hgood.2.2⟩
    rw [request_endWait_self]
  · exact h.stacked.not_owed hopen

theorem Invariant.endWithoutReply (h : s.Invariant timers closes) {status : ReplyStatus}
    (gs : List (RequestFrame C)) (hmade : s.made r = true) (hopen : (s.request r).ended = false)
    (hstatus : status ≠ .reply) (hfs : fs.Sublist (s.stack k))
    (hgs : ∀ f ∈ gs, (s.endWait r (.without status)).New closes f) :
    (s.endWithoutReply k r status (gs++fs)).Invariant timers closes := by
  have hsame : s.setRequest r (s.request r) = s := by simp [RequestTasks.setRequest]
  rw [← hsame]
  apply h.change_endWithoutReply gs hmade hopen hstatus
  · rfl
  · exact h.orderly.outcome r
  · exact fun htimers he => List.mem_append_left _ (h.orderly.fired htimers r he)
  · exact hfs
  · rwa [hsame]

theorem raise_invariant (h : s.Invariant timers closes) {err : TaskError}
    (hstack : s.stack k = .raising err::f::fs) : (s.raise k err f fs).Invariant timers closes := by
  have hf : s.Good closes f := h.stacked.good k f (by simp [hstack])
  have htop : (f::fs).Sublist (s.stack k) := hstack ▸ List.sublist_cons_self ..
  have hfs : fs.Sublist (s.stack k) := (List.sublist_cons_self ..).trans htop
  have hraise : (s.setStack k (.raising err::fs)).Invariant timers closes :=
    h.replace_one hfs (new_of_isFree rfl)
  have hgo : (s.setStack k fs).Invariant timers closes := h.drop hfs
  have hstay : (s.setStack k (f::fs)).Invariant timers closes := h.drop htop
  cases f with
  | code | callback r status => exact hstay
  | subscribing r requestSubject timed => exact h.fail_unregistered hf hfs
  | publishing r => exact h.fail hf hfs
  | failing r err' | returning r => exact (h.finish_ended hf).replace_one hfs (new_of_isFree rfl)
  | unsubscribing =>
    show (s.setStack k (if _ then _ else _)).Invariant timers closes
    split_ifs
    · exact hgo
    · exact hraise
  | endingAll rs why =>
    cases why with
    | close => exact hraise
    | lost c =>
      show (s.setStack k (if _ then _ else _)).Invariant timers closes
      split_ifs
      · exact hraise
      · exact hgo
  | reporting c | delivering subjects | replying rs =>
    show (s.setStack k (if _ then _ else _)).Invariant timers closes
    split_ifs
    · exact hraise
    · exact hstay
  | receiving c =>
    show (s.setStack k (if _ then _ else _)).Invariant timers closes
    split_ifs
    · exact hgo
    · exact hstay
  | send c | ending r status | closing | published subject | raising err' => exact hraise

omit [DecidableEq K] in
theorem Covers.tail {why : EndingAll C} {rs : List Str} (h : s.Covers closes (r::rs) why)
    (hr : s.Settled r) : s.Covers closes rs why := by
  have hstep (q : Str) (hq : q ∈ r::rs ∨ s.Settled q) : q ∈ rs ∨ s.Settled q := by
    rcases hq with hq | hq
    · rcases List.mem_cons.mp hq with rfl | hq
      · exact .inr hr
      · exact .inl hq
    · exact .inr hq
  cases why with
  | close => exact fun hcloses q hq => hstep q (h hcloses q hq)
  | lost c => exact ⟨h.1,h.2.1,fun q hq => hstep q (h.2.2 q hq)⟩

theorem Stacked.not_owed_after (h : s.Stacked closes) {status : ReplyStatus}
    (hstack : s.stack k = .ending r status::fs) : ¬(s.setStack k fs).Owed r := by
  have howed : r ∈ (s.stack k).filterMap RequestFrame.owed := by
    rw [hstack]
    exact List.mem_cons_self ..
  rintro ⟨l,hl⟩
  by_cases hlk : l = k
  · subst l
    have honce := h.once k
    rw [hstack] at honce
    rw [show (s.setStack k fs).stack k = fs from Function.update_self ..] at hl
    exact (List.nodup_cons.mp honce).1 hl
  · rw [show (s.setStack k fs).stack l = s.stack l from Function.update_of_ne hlk ..] at hl
    exact hlk (h.apart l k r hl howed)

theorem Invariant.told (h : s.Invariant timers closes) {status : ReplyStatus}
    (hstack : s.stack k = .ending r status::fs) :
    ((s.note r (.called status)).setStack k (.callback r status::fs)).Invariant timers closes := by
  obtain ⟨hmade,hended,hlife⟩ := h.stacked.good k (.ending r status) (by simp [hstack])
  have hfs : fs.Sublist (s.stack k) := hstack ▸ List.sublist_cons_self ..
  have hdrop := h.drop hfs
  have hsame : RequestLife.ended (.without status) = .waiting ↔ RequestLife.told status = .waiting :=
    ⟨nofun,nofun⟩
  have hnote : ((s.setStack k fs).note r (.called status)).Invariant timers closes :=
    hdrop.later (hdrop.orderly.note hmade hlife RequestLife.next_told hsame)
      (later_note (h.stacked.not_owed_after hstack)) rfl
  have hcall : (((s.setStack k fs).note r (.called status)).setStack k
      (.callback r status::fs)).Invariant timers closes :=
    hnote.replace_one (sublist_stack s k fs) ⟨hmade,rfl⟩
  rw [show (s.setStack k fs).note r (.called status) = (s.note r (.called status)).setStack k fs from
    rfl,setStack_setStack] at hcall
  exact hcall

omit [DecidableEq K] in
theorem Invariant.startTimer (h : s.Invariant timers closes) (hmade : s.made r = true)
    (hopen : timers → (s.request r).ended = false) : (s.startTimer r).Invariant timers closes := by
  apply h.setRequest hmade
  · rfl
  · exact h.orderly.status r
  · exact fun he => he
  · exact h.orderly.outcome r
  · intro htimers hended
    rw [show (s.request r).ended = true from hended] at hopen
    exact nomatch hopen htimers
  · exact fun _ => nofun
  · exact h.orderly.flagged r

omit [DecidableEq K] in
theorem later_flag {status : ReplyStatus} : Later closes s (s.flag r status) :=
  later_setRequest (fun he => he) fun _ => nofun

omit [DecidableEq K] in
theorem Invariant.flag (h : s.Invariant timers closes) {status : ReplyStatus}
    (hmade : s.made r = true) (hstatus : status ≠ .reply) (hsending : (s.request r).sending = true) :
    (s.flag r status).Invariant timers closes := by
  apply h.setRequest hmade
  · rfl
  · exact fun he => hstatus (Option.some.inj he)
  · exact fun _ => nofun
  · exact h.orderly.outcome r
  · exact fun htimers => h.orderly.stopped htimers r
  · exact fun htimers => h.orderly.fired htimers r
  · exact fun _ => .inr hsending

theorem Invariant.publish (h : s.Invariant timers closes) (hmade : s.made r = true)
    (hfs : fs.Sublist (s.stack k)) (u : RequestTasks C K) (subject : Str) :
    ((s.noteSent r).setStack k
      (u.sendFrames++.published subject::.publishing r::fs)).Invariant timers closes := by
  have hnote : (s.noteSent r).Invariant timers closes :=
    h.later (h.orderly.noteSent hmade) later_noteSent rfl
  rw [List.append_cons,List.append_cons]
  apply hnote.replace _ hfs
  intro f hf
  rcases List.mem_append.mp hf with hf | hf
  · rcases List.mem_append.mp hf with hf | hf
    · exact new_sendFrames u _ f hf
    · rw [List.mem_singleton.mp hf]
      exact new_of_isFree rfl
  · rw [List.mem_singleton.mp hf]
    exact ⟨hmade,rfl⟩

theorem Invariant.published [DecidableEq C] (h : s.Invariant timers closes)
    (hmade : s.made r = true) (hfs : fs.Sublist (s.stack k))
    (ht : s.resume k (.publishing r) fs = some t) : t.Invariant timers closes := by
  simp only [resume] at ht
  split at ht
  · rename_i status hclosed hopen
    cases ht
    have hstatus : status ≠ .reply := by
      rintro rfl
      exact h.orderly.status r hclosed
    apply h.change_endWithoutReply (q := {s.request r with sending := false}) [.returning r] hmade
      hopen hstatus
    · rfl
    · exact fun _ => rfl
    · exact fun htimers he => List.mem_append_left _ (h.orderly.fired htimers r he)
    · exact hfs
    · intro f hf
      rw [List.mem_singleton.mp hf]
      refine ⟨⟨hmade,?_⟩,rfl⟩
      rw [request_endWait_self]
  · rename_i hopen
    cases ht
    have hended : (s.request r).closedMeanwhile ≠ none → (s.request r).ended = true := by
      intro hclosed
      obtain ⟨status,hstatus⟩ := Option.ne_none_iff_exists'.mp hclosed
      by_contra hended
      exact hopen status hstatus (Bool.eq_false_iff.mpr hended)
    have hdone : (s.finish r .returned).Invariant timers closes := by
      apply h.finish hmade _ hended
      rintro ⟨⟩
    exact hdone.drop hfs

/-- The loop of `_end_all_without_reply` comes to a request. -/
theorem Invariant.endNext [DecidableEq C] (h : s.Invariant timers closes) {rs : List Str}
    {why : EndingAll C} (hstack : s.stack k = .endingAll (r::rs) why::fs)
    (ht : s.resume k (.endingAll (r::rs) why) fs = some t) : t.Invariant timers closes := by
  obtain ⟨hmade,hcovers⟩ := h.stacked.good k (.endingAll (r::rs) why) (by simp [hstack])
  obtain ⟨hr,hrs⟩ := List.forall_mem_cons.mp hmade
  have hfs : fs.Sublist (s.stack k) := hstack ▸ List.sublist_cons_self ..
  have hstatus : why.status ≠ .reply := by cases why <;> exact nofun
  simp only [resume] at ht
  split_ifs at ht with hended hsending
  · cases ht
    exact h.replace_one hfs ⟨⟨hrs,hcovers.tail (.inl hended)⟩,rfl⟩
  · cases ht
    have hflag := h.flag hr hstatus hsending
    have hsettled : (s.flag r why.status).Settled r := by
      right
      rw [show (s.flag r why.status).request r = {s.request r with
        closedMeanwhile := some why.status} from Function.update_self ..]
      nofun
    have hlater : Later closes s (s.flag r why.status) := later_flag
    exact hflag.replace_one hfs ⟨⟨hrs,(hlater.covers rfl hcovers).tail hsettled⟩,rfl⟩
  · cases ht
    have hopen := Bool.eq_false_iff.mpr hended
    apply h.endWithoutReply [.endingAll rs why] hr hopen hstatus hfs
    intro f hf
    rw [List.mem_singleton.mp hf]
    have hlater : Later closes s (s.endWait r (.without why.status)) :=
      later_endWait (h.stacked.not_owed hopen)
    have hsettled : (s.endWait r (.without why.status)).Settled r := by
      left
      rw [request_endWait_self]
    exact ⟨⟨hrs,(hlater.covers rfl hcovers).tail hsettled⟩,rfl⟩

omit [DecidableEq K] in
theorem Orderly.made_of_registered (h : s.Orderly timers closes) (subject : Str) :
    ∀ r ∈ s.registrations.callbacks subject, s.made r = true := by
  intro r hr
  rw [h.registered] at hr
  split_ifs at hr with hopen
  · rw [List.mem_singleton.mp hr]
    exact hopen.1
  · cases hr

theorem Invariant.reply [DecidableEq C] (h : s.Invariant timers closes) {rs : List Str}
    (hstack : s.stack k = .replying (r::rs)::fs)
    (ht : s.resume k (.replying (r::rs)) fs = some t) : t.Invariant timers closes := by
  have hmade := h.stacked.good k (.replying (r::rs)) (by simp [hstack])
  obtain ⟨hr,hrs⟩ := List.forall_mem_cons.mp hmade
  have hfs : fs.Sublist (s.stack k) := hstack ▸ List.sublist_cons_self ..
  simp only [resume] at ht
  split_ifs at ht with hended
  · cases ht
    exact h.replace_one hfs ⟨hrs,rfl⟩
  · cases ht
    have hopen := Bool.eq_false_iff.mpr hended
    have hnote : (s.note r (.called .reply)).Invariant timers closes :=
      h.later (h.orderly.note hr (h.orderly.waits hopen) rfl Iff.rfl)
        (later_note (h.stacked.not_owed hopen)) rfl
    apply hnote.replace [.callback r .reply,.replying rs] hfs
    intro f hnew
    rcases List.mem_pair.mp hnew with rfl | rfl
    · exact ⟨hr,rfl⟩
    · exact ⟨hrs,rfl⟩

theorem Invariant.endAll [DecidableEq C] (h : s.Invariant timers closes) {why : EndingAll C}
    (hstack : s.stack k = .endingAll [] why::fs) (ht : s.resume k (.endingAll [] why) fs = some t) :
    t.Invariant timers closes := by
  have hf : s.Good closes (.endingAll [] why) := h.stacked.good k _ (by simp [hstack])
  have hfs : fs.Sublist (s.stack k) := hstack ▸ List.sublist_cons_self ..
  cases why with
  | close =>
    simp only [resume] at ht
    split_ifs at ht
    · cases ht
      exact h.replace_one hfs ⟨hf.2,rfl⟩
    · cases ht
      have hnote : s.noteClosed.Invariant timers closes :=
        h.later (h.orderly.noteClosed hf.2) later_noteClosed rfl
      exact hnote.drop hfs
  | lost c =>
    cases ht
    apply h.replace [.code,.reporting c] hfs
    intro f hnew
    rcases List.mem_pair.mp hnew with rfl | rfl
    · exact new_of_isFree rfl
    · exact ⟨hf.2,rfl⟩

theorem resume_invariant [DecidableEq C] (h : s.Invariant timers closes)
    (hstack : s.stack k = f::fs)
    (htimed : ∀ r subject, f = .subscribing r subject true → timers → (s.request r).ended = false)
    (ht : s.resume k f fs = some t) : t.Invariant timers closes := by
  have hf : s.Good closes f := h.stacked.good k f (by simp [hstack])
  have hfs : fs.Sublist (s.stack k) := hstack ▸ List.sublist_cons_self ..
  cases f with
  | code | callback r status | send c | receiving c => cases ht
  | subscribing r requestSubject timed =>
    cases ht
    cases timed with
    | true => exact (h.startTimer hf (htimed r requestSubject rfl)).publish hf hfs s _
    | false => exact h.publish hf hfs s _
  | publishing r => exact h.published hf hfs ht
  | failing r err =>
    cases ht
    exact (h.finish_ended hf).replace_one hfs (new_of_isFree rfl)
  | returning r =>
    cases ht
    exact (h.finish_ended hf).drop hfs
  | unsubscribing =>
    cases ht
    exact h.drop hfs
  | ending r status =>
    cases ht
    exact h.told hstack
  | endingAll rs why =>
    cases rs with
    | cons r rs => exact h.endNext hstack ht
    | nil => exact h.endAll hstack ht
  | closing =>
    cases ht
    have hnote : s.noteClosed.Invariant timers closes :=
      h.later (h.orderly.noteClosed hf) later_noteClosed rfl
    exact (hnote.later hnote.orderly.disconnect later_disconnect rfl).drop hfs
  | reporting c =>
    cases ht
    exact (h.later (h.orderly.noteHandled hf) {Later.refl s with} rfl).drop hfs
  | published subject =>
    cases ht
    exact h.replace_one hfs (new_of_isFree rfl)
  | delivering subjects =>
    cases subjects with
    | nil =>
      cases ht
      exact h.drop hfs
    | cons subject subjects =>
      cases ht
      apply h.replace [.replying _,.delivering subjects] hfs
      intro f hnew
      rcases List.mem_pair.mp hnew with rfl | rfl
      · exact ⟨h.orderly.made_of_registered subject,rfl⟩
      · exact new_of_isFree rfl
  | replying rs =>
    cases rs with
    | nil =>
      cases ht
      exact h.drop hfs
    | cons r rs => exact h.reply hstack ht
  | raising err =>
    cases fs with
    | nil =>
      cases ht
      exact h.drop hfs
    | cons f fs =>
      cases ht
      exact raise_invariant h hstack

/-- A `subscribe` of a `send_request` with a timeout returns after the wait has ended. -/
def timesEnded (s : RequestTasks C K) : RequestAction C K → Bool
  | .resume k =>
    match s.stack k with
    | .subscribing r _ true::_ => (s.request r).ended
    | _ => false
  | _ => false

/-- A `send_request` starts, on a connection, while a `close` has its requests. -/
def StartsClosing (s : RequestTasks C K) : RequestAction C K → Prop
  | .sendRequest _ _ _ _ => s.connection ≠ none ∧ s.ClosingAll
  | _ => False

omit [DecidableEq K] in
theorem Invariant.refuse (h : s.Invariant timers closes) (hfresh : s.made r = false) :
    (((((s.makeRequest r).noteSent r).unregister r).endWait r .failed).finish r .raised).Invariant
      timers closes := by
  have hmake := (h.orderly.makeRequest hfresh).noteSent (made_makeRequest_self ..)
  have hopen : (((s.makeRequest r).noteSent r).request r).ended = false :=
    congrArg PendingRequest.ended (request_makeRequest_self s r)
  have hend := hmake.endWait .failed (made_makeRequest_self ..) hopen nofun
  have hdone : ((((s.makeRequest r).noteSent r).endWait r .failed).request r).ended = true := by
    rw [request_endWait_self]
  have hfinish := (hend.unregister hdone).finish (o := .raised) (made_makeRequest_self ..)
    (fun _ => hdone) fun _ => hdone
  have hnone := (h.orderly.fresh r hfresh).2.2.1
  have hclosed : ¬s.Owed r := h.stacked.not_owed (by rw [hnone])
  have hlater : Later closes ((s.makeRequest r).noteSent r)
      (((s.makeRequest r).noteSent r).endWait r .failed) := later_endWait hclosed
  have hunregister : Later closes (((s.makeRequest r).noteSent r).endWait r .failed)
      ((((s.makeRequest r).noteSent r).endWait r .failed).unregister r) := {Later.refl _ with}
  rw [endWait_unregister]
  apply h.later hfinish
  · apply later_made hnone ((hlater.trans rfl rfl hunregister).trans rfl rfl later_finish)
    intro _ _
    left
    rw [request_finish_self]
    exact hdone
  · simp only [RequestTasks.finish,RequestTasks.endWait,RequestTasks.setRequest,note,unregister,
      noteSent,makeRequest]

theorem sendRequest_invariant [DecidableEq C] (h : s.Invariant timers closes) {q u : Str} {b : Bool}
    (hcloses : closes → ¬s.StartsClosing (.sendRequest k q u b))
    (ht : s.step (.sendRequest k q u b) = some t) : t.Invariant timers closes := by
  simp only [step] at ht
  split at ht
  · rename_i f fs hstack
    split_ifs at ht with hcond
    have hfresh := hcond.2.2
    have htop : (f::fs).Sublist (s.stack k) := hstack ▸ .refl _
    have hordered := (h.orderly.makeRequest hfresh).noteSent (made_makeRequest_self ..)
    split at ht
    · rename_i c hconn
      cases ht
      have hmade : ((s.makeRequest (derivedReplySubject q u)).noteSent
          (derivedReplySubject q u)).Invariant timers closes := by
        apply h.later hordered _ rfl
        apply later_made (h.orderly.fresh _ hfresh).2.2.1 (.refl _)
        intro hc hall
        refine absurd ⟨?_,hall⟩ (hcloses hc)
        rw [hconn]
        nofun
      apply hmade.replace [.send c,.subscribing _ q b] htop
      intro f' hf'
      rcases List.mem_pair.mp hf' with rfl | rfl
      · exact new_of_isFree rfl
      · exact ⟨made_makeRequest_self ..,rfl⟩
    · cases ht
      exact (h.refuse hfresh).replace_one htop (new_of_isFree rfl)
  · cases ht

theorem cancelRequest_invariant [DecidableEq C] (h : s.Invariant timers closes)
    (ht : s.step (.cancelRequest k r) = some t) : t.Invariant timers closes := by
  simp only [step] at ht
  split at ht
  · rename_i f fs hstack
    split_ifs at ht with hcode hopen
    · cases ht
      obtain ⟨hmade,hended⟩ := (h.orderly.listed r).mp hopen.1
      have hend := h.endWait .cancelled hmade hended nofun
      exact hend.replace _ (hstack ▸ .refl _) (new_endWaitFrames s _ r)
    · cases ht
      exact h
  · cases ht

theorem close_invariant [DecidableEq C] (h : s.Invariant timers closes)
    (ht : s.step (.close k) = some t) : t.Invariant timers closes := by
  simp only [step] at ht
  split at ht
  · rename_i f fs hstack
    split_ifs at ht
    cases ht
    apply h.replace_one (hstack ▸ .refl _)
    refine ⟨⟨fun r hr => ((h.orderly.listed r).mp hr).1,?_⟩,rfl⟩
    intro _ r hr
    by_cases hended : (s.request r).ended = true
    · exact .inr (.inl hended)
    · exact .inl ((h.orderly.listed r).mpr ⟨hr,Bool.eq_false_iff.mpr hended⟩)
  · cases ht

theorem connect_invariant [DecidableEq C] (h : s.Invariant timers closes) {c : C} {l : K}
    (ht : s.step (.connect k c l) = some t) : t.Invariant timers closes := by
  simp only [step] at ht
  split at ht
  · split_ifs at ht with hcond
    cases ht
    have hc := hcond.2.2.1
    have hconn := h.later (h.orderly.connect hc) (later_connect hc) rfl
    exact hconn.replace_one (List.nil_sublist _) (new_of_isFree rfl)
  · cases ht

theorem returns_invariant [DecidableEq C] (h : s.Invariant timers closes) {value : Bool}
    (ht : s.step (.returns k value) = some t) : t.Invariant timers closes := by
  simp only [step] at ht
  split at ht
  · rename_i fs hstack
    cases ht
    exact h.drop (hstack ▸ List.sublist_cons_self ..)
  · rename_i r fs hstack
    have hfs : fs.Sublist (s.stack k) := hstack ▸ List.sublist_cons_self ..
    have hmade : s.made r = true := h.stacked.good k (.callback r .reply) (by simp [hstack])
    split_ifs at ht with hdone
    · cases ht
      have hend := h.endWait .accepted hmade hdone.2 nofun
      exact hend.replace _ hfs (new_endWaitFrames s _ r)
    · cases ht
      exact h.drop hfs
  · rename_i r status fs _ hstack
    cases ht
    exact h.drop (hstack ▸ List.sublist_cons_self ..)
  · cases ht

theorem raises_invariant [DecidableEq C] (h : s.Invariant timers closes) {err : TaskError}
    (ht : s.step (.raises k err) = some t) : t.Invariant timers closes := by
  simp only [step] at ht
  split at ht
  · rename_i fs hstack
    cases ht
    exact h.replace_one (hstack ▸ List.sublist_cons_self ..) (new_of_isFree rfl)
  · rename_i r status fs hstack
    have hfs : fs.Sublist (s.stack k) := hstack ▸ List.sublist_cons_self ..
    cases ht
    split_ifs
    · exact h.replace_one hfs (new_of_isFree rfl)
    · exact h.drop hfs
  · cases ht

omit [DecidableEq K] in
theorem stack_loseConnection [DecidableEq C] (s : RequestTasks C K) (c : C) :
    (s.loseConnection c).stack = s.stack := by
  unfold loseConnection
  split_ifs <;> rfl

omit [DecidableEq K] in
theorem owed_lossFrames [DecidableEq C] (s : RequestTasks C K) (c : C) :
    ∀ f ∈ s.lossFrames c, f.owed = none := by
  unfold lossFrames
  split_ifs <;> simp [RequestFrame.owed]

theorem Invariant.lose [DecidableEq C] (h : s.Invariant timers closes) {c : C}
    (gs : List (RequestFrame C)) (hfs : fs.Sublist (s.stack k)) (hgs : ∀ f ∈ gs, f.isFree = true) :
    ((s.loseConnection c).setStack k (s.lossFrames c++(gs++fs))).Invariant timers closes := by
  have hlose : (s.loseConnection c).Invariant timers closes :=
    h.later h.orderly.loseConnection later_loseConnection (stack_loseConnection s c)
  rw [← List.append_assoc]
  apply hlose.replace _ (stack_loseConnection s c ▸ hfs)
  intro f hf
  rcases List.mem_append.mp hf with hf | hf
  · exact ⟨h.orderly.good_lossFrames f hf,owed_lossFrames s c f hf⟩
  · exact new_of_isFree (hgs f hf)

omit [DecidableEq K] in
theorem Orderly.made_of_running (h : s.Orderly timers closes) (hr : (s.request r).timer = .running) :
    s.made r = true := by
  by_contra hfresh
  rw [(h.fresh r (Bool.eq_false_iff.mpr hfresh)).2.2.1] at hr
  cases hr

theorem fire_invariant [DecidableEq C] (h : s.Invariant timers closes)
    (ht : s.step (.fire k r) = some t) : t.Invariant timers closes := by
  simp only [step] at ht
  split_ifs at ht with hcond hended
  · cases ht
    apply h.setRequest (h.orderly.made_of_running hcond.2)
    · rfl
    · exact h.orderly.status r
    · exact fun hflag => hflag
    · exact h.orderly.outcome r
    · exact fun _ _ => nofun
    · -- no timer runs after the end of the wait
      exact fun htimers _ => absurd hcond.2 (h.orderly.stopped htimers r hended)
    · exact h.orderly.flagged r
  · cases ht
    have hstatus : ReplyStatus.timedOut ≠ .reply := nofun
    apply h.change_endWithoutReply (q := {s.request r with timer := .fired}) []
      (h.orderly.made_of_running hcond.2) (Bool.eq_false_iff.mpr hended) hstatus
    · rfl
    · exact h.orderly.outcome r
    · exact fun _ _ => List.mem_append_right _ (List.mem_singleton_self _)
    · exact List.nil_sublist _
    · exact fun f hf => nomatch hf

theorem publish_invariant [DecidableEq C] (h : s.Invariant timers closes) {subject : Str}
    (ht : s.step (.publish k subject) = some t) : t.Invariant timers closes := by
  simp only [step] at ht
  split at ht
  · rename_i f fs hstack
    split_ifs at ht
    cases ht
    rw [List.append_cons]
    apply h.replace _ (hstack ▸ .refl _)
    intro f' hf'
    rcases List.mem_append.mp hf' with hf' | hf'
    · exact new_sendFrames s _ f' hf'
    · rw [List.mem_singleton.mp hf']
      exact new_of_isFree rfl
  · cases ht

theorem sendFailed_invariant [DecidableEq C] (h : s.Invariant timers closes)
    (ht : s.step (.sendFailed k) = some t) : t.Invariant timers closes := by
  simp only [step] at ht
  split at ht
  · rename_i c fs hstack
    cases ht
    apply h.lose [.raising .notSent] (hstack ▸ List.sublist_cons_self ..)
    intro f hf
    rw [List.mem_singleton.mp hf]
    rfl
  · cases ht

/-- What the tasks do keeps the requests in order. -/
theorem step_invariant [DecidableEq C] {a : RequestAction C K} (h : s.Invariant timers closes)
    (htimers : timers → s.timesEnded a = false) (hcloses : closes → ¬s.StartsClosing a)
    (ht : s.step a = some t) : t.Invariant timers closes := by
  cases a with
  | begin k =>
    simp only [step] at ht
    split_ifs at ht
    cases ht
    exact h.replace_one (List.nil_sublist _) (new_of_isFree rfl)
  | sendRequest k q u b => exact sendRequest_invariant h hcloses ht
  | cancelRequest k r => exact cancelRequest_invariant h ht
  | close k => exact close_invariant h ht
  | connect k c l => exact connect_invariant h ht
  | publish k subject => exact publish_invariant h ht
  | send k =>
    simp only [step] at ht
    split at ht
    · rename_i f fs hstack
      split_ifs at ht
      cases ht
      exact h.replace _ (hstack ▸ .refl _) (new_sendFrames s _)
    · cases ht
  | returns k value => exact returns_invariant h ht
  | raises k err => exact raises_invariant h ht
  | sent k =>
    simp only [step] at ht
    split at ht
    · rename_i c fs hstack
      cases ht
      exact h.drop (hstack ▸ List.sublist_cons_self ..)
    · cases ht
  | sendFailed k => exact sendFailed_invariant h ht
  | receive k subject =>
    simp only [step] at ht
    split at ht
    · rename_i c fs hstack
      cases ht
      exact h.replace_one (hstack ▸ .refl _) (new_of_isFree rfl)
    · cases ht
  | receiveFailed k =>
    simp only [step] at ht
    split at ht
    · rename_i c fs hstack
      cases ht
      exact h.lose [] (hstack ▸ List.sublist_cons_self ..) fun f hf => nomatch hf
    · cases ht
  | subscriber k =>
    simp only [step] at ht
    split at ht
    · rename_i f fs hstack
      split_ifs at ht
      cases ht
      exact h.replace_one (hstack ▸ .refl _) (new_of_isFree rfl)
    · cases ht
  | fire k r => exact fire_invariant h ht
  | cancel k =>
    simp only [step] at ht
    split at ht
    · rename_i f fs hstack
      cases ht
      exact h.replace_one (hstack ▸ .refl _) (new_of_isFree rfl)
    · cases ht
  | resume k =>
    simp only [step] at ht
    split at ht
    · rename_i f fs hstack
      apply resume_invariant h hstack _ ht
      rintro r subject rfl htrue
      simpa [timesEnded,hstack] using htimers htrue
    · cases ht

omit [DecidableEq K] in
theorem init_invariant : (init : RequestTasks C K).Invariant timers closes := by
  constructor
  · constructor <;> simp [init,Registrations.callbacks_empty,run]
  · constructor <;> simp [init]

end RequestTasks
end SoftwareBus
