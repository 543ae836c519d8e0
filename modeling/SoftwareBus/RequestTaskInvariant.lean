import SoftwareBus.RequestTasks

/-! What holds of the requests of a client between any two steps of its tasks: `_requests` and the
registrations are those of the requests that wait, and a request is about to be told the end of its
wait by one call at most. -/
namespace SoftwareBus

open Transition

namespace RequestFrame

variable {C : Type}

def owed : RequestFrame C → Option Str
  | .ending r _ => some r
  | _ => none

def closes : RequestFrame C → Bool
  | .endingAll _ .close | .closing => true
  | _ => false

end RequestFrame

namespace RequestTasks

variable {C K : Type}

/-- The wait has ended, or it ends when `send_request` does. -/
def Settled (s : RequestTasks C K) (r : Str) : Prop :=
  (s.request r).ended = true ∨ (s.request r).closedMeanwhile ≠ none

/-- Among the requests that have to be ended, those outside a list are settled. With `closes` a
close has to end all of them. -/
def Covers (closes : Prop) (s : RequestTasks C K) (rs : List Str) : EndingAll C → Prop
  | .close => closes → ∀ r, s.made r = true → r ∈ rs ∨ s.Settled r
  | .lost c => c ∈ s.connections ∧ s.connection ≠ some c ∧
    ∀ r, c ∈ s.sentOn r → r ∈ rs ∨ s.Settled r

def Good (closes : Prop) (s : RequestTasks C K) : RequestFrame C → Prop
  | .subscribing r _ _ | .publishing r | .callback r _ => s.made r = true
  | .failing r _ | .returning r => s.made r = true ∧ (s.request r).ended = true
  | .ending r status => s.made r = true ∧ (s.request r).ended = true ∧
    run RequestLife.next .waiting (s.events r) = some (.ended (.without status))
  | .replying rs => ∀ r ∈ rs, s.made r = true
  | .endingAll rs why => (∀ r ∈ rs, s.made r = true) ∧ s.Covers closes rs why
  | .closing => s.Covers closes [] .close
  | .reporting c => s.Covers closes [] (.lost c)
  | _ => True

/-- What holds of the requests, whatever the tasks are in. With `timers` no timer runs after the
end of the wait, and one that has fired has ended it. -/
structure Orderly (timers closes : Prop) (s : RequestTasks C K) : Prop where
  listed : ∀ r, r ∈ s.requests ↔ s.made r = true ∧ (s.request r).ended = false
  nodup : s.requests.Nodup
  registered : ∀ r, s.registrations.callbacks r =
    if s.made r = true ∧ (s.request r).ended = false then [r] else []
  fresh : ∀ r, s.made r = false → s.events r = [] ∧ s.outcome r = none ∧
    s.request r = ⟨.absent,false,none,false⟩ ∧ s.sentOn r = []
  lives : ∀ r, ∃ l, run RequestLife.next .waiting (s.events r) = some l ∧
    ((s.request r).ended = false ↔ l = .waiting)
  status : ∀ r, (s.request r).closedMeanwhile ≠ some .reply
  outcome : ∀ r, s.outcome r ≠ none → (s.request r).sending = false
  raised : ∀ r, s.outcome r = some .raised → (s.request r).ended = true
  stopped : timers → ∀ r, (s.request r).ended = true → (s.request r).timer ≠ .running
  fired : timers → ∀ r, (s.request r).timer = .fired → .ended (.without .timedOut) ∈ s.events r
  flagged : ∀ r, (s.request r).closedMeanwhile ≠ none →
    (s.request r).ended = true ∨ (s.request r).sending = true
  connected : ∀ c, s.connection = some c → c ∈ s.connections
  sentOn : ∀ r, ∀ c ∈ s.sentOn r, c ∈ s.connections
  closed : closes → ∀ r, s.closed r = true → s.made r = true ∧ s.Settled r
  handled : ∀ c, s.handled c = true → s.Covers closes [] (.lost c)

/-- What holds of one request, of all that `Orderly` says. -/
structure Ordered (timers : Prop) (s : RequestTasks C K) (r : Str) : Prop where
  listed : r ∈ s.requests ↔ s.made r = true ∧ (s.request r).ended = false
  registered : s.registrations.callbacks r =
    if s.made r = true ∧ (s.request r).ended = false then [r] else []
  fresh : s.made r = false → s.events r = [] ∧ s.outcome r = none ∧
    s.request r = ⟨.absent,false,none,false⟩ ∧ s.sentOn r = []
  lives : ∃ l, run RequestLife.next .waiting (s.events r) = some l ∧
    ((s.request r).ended = false ↔ l = .waiting)
  status : (s.request r).closedMeanwhile ≠ some .reply
  outcome : s.outcome r ≠ none → (s.request r).sending = false
  raised : s.outcome r = some .raised → (s.request r).ended = true
  stopped : timers → (s.request r).ended = true → (s.request r).timer ≠ .running
  fired : timers → (s.request r).timer = .fired → .ended (.without .timedOut) ∈ s.events r
  flagged : (s.request r).closedMeanwhile ≠ none →
    (s.request r).ended = true ∨ (s.request r).sending = true

structure Untouched (s t : RequestTasks C K) (r : Str) : Prop where
  made : t.made r = s.made r
  listed : r ∈ t.requests ↔ r ∈ s.requests
  registered : t.registrations.callbacks r = s.registrations.callbacks r
  request : t.request r = s.request r
  events : t.events r = s.events r
  outcome : t.outcome r = s.outcome r
  sentOn : t.sentOn r = s.sentOn r

structure Stacked (closes : Prop) (s : RequestTasks C K) : Prop where
  good : ∀ k, ∀ f ∈ s.stack k, s.Good closes f
  once : ∀ k, ((s.stack k).filterMap RequestFrame.owed).Nodup
  apart : ∀ k l, ∀ r ∈ (s.stack k).filterMap RequestFrame.owed,
    r ∈ (s.stack l).filterMap RequestFrame.owed → k = l

structure Invariant (timers closes : Prop) (s : RequestTasks C K) : Prop where
  orderly : s.Orderly timers closes
  stacked : s.Stacked closes

def Owed (s : RequestTasks C K) (r : Str) : Prop :=
  ∃ k, r ∈ (s.stack k).filterMap RequestFrame.owed

/-- A `close` is under way that has its requests. -/
def ClosingAll (s : RequestTasks C K) : Prop := ∃ k, ∃ f ∈ s.stack k, f.closes = true

/-- What does not go back between two states of the requests. -/
structure Later (closes : Prop) (s t : RequestTasks C K) : Prop where
  made : ∀ r, s.made r = true → t.made r = true
  ended : ∀ r, (s.request r).ended = true → (t.request r).ended = true
  flagged : ∀ r, (s.request r).closedMeanwhile ≠ none → (t.request r).closedMeanwhile ≠ none
  connections : ∀ c ∈ s.connections, c ∈ t.connections
  retired : ∀ c ∈ s.connections, s.connection ≠ some c → t.connection ≠ some c
  sentOn : ∀ r, ∀ c ∈ t.sentOn r, c ∈ s.sentOn r ∨ s.connection = some c
  new : closes → s.ClosingAll → ∀ r, t.made r = true → s.made r = true ∨ t.Settled r
  events : ∀ r, s.Owed r → t.events r = s.events r

variable {timers closes : Prop} {s t u : RequestTasks C K} {r : Str}

theorem Later.settled (h : Later closes s t) (hr : s.Settled r) : t.Settled r :=
  hr.imp (h.ended r) (h.flagged r)

theorem Later.covers_lost (h : Later closes s t) {rs : List Str} {c : C}
    (hc : s.Covers closes rs (.lost c)) : t.Covers closes rs (.lost c) := by
  obtain ⟨hused,hne,hall⟩ := hc
  refine ⟨h.connections c hused,h.retired c hused hne,?_⟩
  intro r hr
  rcases h.sentOn r c hr with hr | hr
  · exact (hall r hr).imp_right h.settled
  · exact absurd hr hne

theorem Later.covers_close (h : Later closes s t) {rs : List Str} (hclosing : s.ClosingAll)
    (hc : s.Covers closes rs .close) : t.Covers closes rs .close := by
  intro hcloses r hr
  rcases h.new hcloses hclosing r hr with hr | hr
  · exact (hc hcloses r hr).imp_right h.settled
  · exact .inr hr

theorem Later.good (h : Later closes s t) {k : K} {f : RequestFrame C} (hf : f ∈ s.stack k)
    (hgood : s.Good closes f) : t.Good closes f := by
  cases f with
  | subscribing r _ _ | publishing r | callback r _ => exact h.made r hgood
  | failing r _ | returning r => exact ⟨h.made r hgood.1,h.ended r hgood.2⟩
  | ending r status =>
    refine ⟨h.made r hgood.1,h.ended r hgood.2.1,?_⟩
    rw [h.events r ⟨k,List.mem_filterMap.mpr ⟨_,hf,rfl⟩⟩]
    exact hgood.2.2
  | replying rs => exact fun r hr => h.made r (hgood r hr)
  | endingAll rs why =>
    refine ⟨fun r hr => h.made r (hgood.1 r hr),?_⟩
    cases why with
    | close => exact h.covers_close ⟨k,_,hf,rfl⟩ hgood.2
    | lost c => exact h.covers_lost hgood.2
  | closing => exact h.covers_close ⟨k,_,hf,rfl⟩ hgood
  | reporting c => exact h.covers_lost hgood
  | _ => trivial

theorem Stacked.later (h : s.Stacked closes) (hlater : Later closes s t) (hstack : t.stack = s.stack) :
    t.Stacked closes := by
  constructor
  · intro k f hf
    rw [hstack] at hf
    exact hlater.good hf (h.good k f hf)
  · rw [hstack]
    exact h.once
  · rw [hstack]
    exact h.apart

theorem Stacked.ended_of_owed (h : s.Stacked closes) (hr : s.Owed r) : (s.request r).ended = true := by
  obtain ⟨k,hk⟩ := hr
  obtain ⟨f,hf,howed⟩ := List.mem_filterMap.mp hk
  have hgood := h.good k f hf
  cases f with
  | ending r' status =>
    cases howed
    exact hgood.2.1
  | _ => cases howed

theorem Stacked.not_owed (h : s.Stacked closes) (hr : (s.request r).ended = false) : ¬s.Owed r := by
  intro howed
  rw [h.ended_of_owed howed] at hr
  cases hr

section stack

variable [DecidableEq K] {k : K} {fs gs : List (RequestFrame C)}

@[simp] theorem setStack_setStack (s : RequestTasks C K) (k : K) (fs gs : List (RequestFrame C)) :
    (s.setStack k fs).setStack k gs = s.setStack k gs := by
  simp [setStack]

theorem Orderly.setStack (h : s.Orderly timers closes) : (s.setStack k fs).Orderly timers closes :=
  {h with}

theorem Stacked.replace (h : s.Stacked closes) (hfs : fs.Sublist (s.stack k))
    (hgood : ∀ f ∈ gs, s.Good closes f) (howed : ∀ f ∈ gs, f.owed = none) :
    (s.setStack k (gs++fs)).Stacked closes := by
  have hnone : gs.filterMap RequestFrame.owed = [] := List.filterMap_eq_nil_iff.mpr howed
  have hsub (l : K) : (((s.setStack k (gs++fs)).stack l).filterMap RequestFrame.owed).Sublist
      ((s.stack l).filterMap RequestFrame.owed) := by
    by_cases hl : l = k
    · subst l
      simpa [RequestTasks.setStack,hnone] using hfs.filterMap RequestFrame.owed
    · simp [RequestTasks.setStack,hl]
  constructor
  · intro l f hf
    by_cases hl : l = k
    · subst l
      simp only [RequestTasks.setStack,Function.update_self,List.mem_append] at hf
      exact hf.elim (hgood f) fun hf => h.good k f (hfs.subset hf)
    · simp only [RequestTasks.setStack,Function.update_of_ne hl] at hf
      exact h.good l f hf
  · intro l
    exact (h.once l).sublist (hsub l)
  · intro l m r hl hm
    exact h.apart l m r ((hsub l).subset hl) ((hsub m).subset hm)

theorem Stacked.owe (h : s.Stacked closes) {status : ReplyStatus} (hfs : fs.Sublist (s.stack k))
    (hgood : s.Good closes (.ending r status)) (hr : ¬s.Owed r) :
    (s.setStack k (.ending r status::fs)).Stacked closes := by
  have hother (l : K) (hl : l ≠ k) : (s.setStack k (.ending r status::fs)).stack l = s.stack l :=
    Function.update_of_ne hl ..
  have hself : (s.setStack k (.ending r status::fs)).stack k = .ending r status::fs :=
    Function.update_self ..
  have hsub := hfs.filterMap RequestFrame.owed
  constructor
  · intro l f hf
    by_cases hl : l = k
    · subst l
      rw [hself,List.mem_cons] at hf
      exact hf.elim (fun hf => hf ▸ hgood) fun hf => h.good k f (hfs.subset hf)
    · rw [hother l hl] at hf
      exact h.good l f hf
  · intro l
    by_cases hl : l = k
    · subst l
      rw [hself]
      exact List.nodup_cons.mpr ⟨fun hmem => hr ⟨k,hsub.subset hmem⟩,(h.once k).sublist hsub⟩
    · rw [hother l hl]
      exact h.once l
  · intro l m q hl hm
    by_cases hlk : l = k <;> by_cases hmk : m = k
    · exact hlk.trans hmk.symm
    · subst l
      rw [hself] at hl
      rw [hother m hmk] at hm
      rcases List.mem_cons.mp hl with rfl | hl
      · exact absurd ⟨m,hm⟩ hr
      · exact h.apart k m q (hsub.subset hl) hm
    · subst m
      rw [hself] at hm
      rw [hother l hlk] at hl
      rcases List.mem_cons.mp hm with rfl | hm
      · exact absurd ⟨l,hl⟩ hr
      · exact h.apart l k q hl (hsub.subset hm)
    · rw [hother l hlk] at hl
      rw [hother m hmk] at hm
      exact h.apart l m q hl hm

end stack

theorem Later.of_same (hmade : t.made = s.made) (hconn : t.connection = s.connection)
    (hconns : t.connections = s.connections) (hsent : t.sentOn = s.sentOn)
    (hended : ∀ r, (s.request r).ended = true → (t.request r).ended = true)
    (hflag : ∀ r, (s.request r).closedMeanwhile ≠ none → (t.request r).closedMeanwhile ≠ none)
    (hevents : ∀ r, s.Owed r → t.events r = s.events r) : Later closes s t := by
  refine ⟨?_,hended,hflag,?_,?_,?_,?_,hevents⟩
  · rw [hmade]
    exact fun r hr => hr
  · rw [hconns]
    exact fun c hc => hc
  · rw [hconn]
    exact fun c _ hc => hc
  · rw [hsent]
    exact fun r c hc => .inl hc
  · rw [hmade]
    exact fun _ _ r hr => .inl hr

theorem Later.refl (s : RequestTasks C K) : Later closes s s :=
  .of_same rfl rfl rfl rfl (fun _ h => h) (fun _ h => h) fun _ _ => rfl

theorem Later.trans (h : Later closes s t) (hstack : t.stack = s.stack)
    (hconn : t.connection = s.connection) (h' : Later closes t u) : Later closes s u := by
  constructor
  · exact fun r hr => h'.made r (h.made r hr)
  · exact fun r hr => h'.ended r (h.ended r hr)
  · exact fun r hr => h'.flagged r (h.flagged r hr)
  · exact fun c hc => h'.connections c (h.connections c hc)
  · exact fun c hc hne => h'.retired c (h.connections c hc) (h.retired c hc hne)
  · intro r c hc
    rcases h'.sentOn r c hc with hc | hc
    · exact h.sentOn r c hc
    · exact .inr (hconn ▸ hc)
  · intro hcloses hall r hr
    have hall' : t.ClosingAll := by rwa [ClosingAll,hstack]
    rcases h'.new hcloses hall' r hr with hr | hr
    · exact (h.new hcloses hall r hr).imp_right h'.settled
    · exact .inr hr
  · intro r hr
    have hr' : t.Owed r := by rwa [Owed,hstack]
    exact (h'.events r hr').trans (h.events r hr)

theorem Later.covers {why : EndingAll C} (h : Later closes s t) (hmade : t.made = s.made) {rs : List Str}
    (hc : s.Covers closes rs why) : t.Covers closes rs why := by
  cases why with
  | close =>
    intro hcloses r hr
    rw [hmade] at hr
    exact (hc hcloses r hr).imp_right h.settled
  | lost c => exact h.covers_lost hc

theorem Orderly.ordered (h : s.Orderly timers closes) (r : Str) : s.Ordered timers r :=
  ⟨h.listed r,h.registered r,h.fresh r,h.lives r,h.status r,h.outcome r,h.raised r,
    fun htimers => h.stopped htimers r,fun htimers => h.fired htimers r,h.flagged r⟩

theorem Untouched.ordered (h : s.Untouched t r) (hr : s.Ordered timers r) : t.Ordered timers r := by
  obtain ⟨hmade,hlisted,hregistered,hrequest,hevents,houtcome,hsent⟩ := h
  constructor
  · rw [hlisted,hmade,hrequest]
    exact hr.listed
  · rw [hregistered,hmade,hrequest]
    exact hr.registered
  · rw [hmade,hevents,houtcome,hrequest,hsent]
    exact hr.fresh
  · rw [hevents,hrequest]
    exact hr.lives
  · rw [hrequest]
    exact hr.status
  · rw [houtcome,hrequest]
    exact hr.outcome
  · rw [houtcome,hrequest]
    exact hr.raised
  · rw [hrequest]
    exact hr.stopped
  · rw [hrequest,hevents]
    exact hr.fired
  · rw [hrequest]
    exact hr.flagged

theorem Untouched.settled (h : s.Untouched t r) (hr : s.Settled r) : t.Settled r := by
  rwa [Settled,h.request]

theorem Orderly.update (h : s.Orderly timers closes) (hother : ∀ r', r' ≠ r → s.Untouched t r')
    (hr : t.Ordered timers r) (hmade : s.made r = true → t.made r = true)
    (hsettled : s.Settled r → t.Settled r)
    (hsent : ∀ c ∈ t.sentOn r, c ∈ s.sentOn r ∨ s.connection = some c) (hnodup : t.requests.Nodup)
    (hsame : t.connection = s.connection ∧ t.connections = s.connections ∧ t.closed = s.closed ∧
      t.handled = s.handled) : t.Orderly timers closes := by
  obtain ⟨hconn,hconns,hclosed,hhandled⟩ := hsame
  have hordered (r' : Str) : t.Ordered timers r' := by
    by_cases hne : r' = r
    · exact hne ▸ hr
    · exact (hother r' hne).ordered (h.ordered r')
  have hsettles (r' : Str) (hr' : s.Settled r') : t.Settled r' := by
    by_cases hne : r' = r
    · subst r'
      exact hsettled hr'
    · exact (hother r' hne).settled hr'
  have hsents (r' : Str) (c : C) (hc : c ∈ t.sentOn r') : c ∈ s.sentOn r' ∨ s.connection = some c := by
    by_cases hne : r' = r
    · subst r'
      exact hsent c hc
    · exact .inl ((hother r' hne).sentOn ▸ hc)
  refine ⟨fun r' => (hordered r').listed,hnodup,fun r' => (hordered r').registered,
    fun r' => (hordered r').fresh,fun r' => (hordered r').lives,fun r' => (hordered r').status,
    fun r' => (hordered r').outcome,fun r' => (hordered r').raised,
    fun htimers r' => (hordered r').stopped htimers,fun htimers r' => (hordered r').fired htimers,
    fun r' => (hordered r').flagged,?_,?_,?_,?_⟩
  · rw [hconn,hconns]
    exact h.connected
  · rw [hconns]
    exact fun r' c hc => (hsents r' c hc).elim (h.sentOn r' c) (h.connected c)
  · intro hcloses r' hr'
    rw [hclosed] at hr'
    obtain ⟨hold,hdone⟩ := h.closed hcloses r' hr'
    refine ⟨?_,hsettles r' hdone⟩
    by_cases hne : r' = r
    · subst r'
      exact hmade hold
    · exact (hother r' hne).made.trans hold
  · intro c hc
    rw [hhandled] at hc
    obtain ⟨hused,hlost,hall⟩ := h.handled c hc
    refine ⟨hconns ▸ hused,hconn ▸ hlost,?_⟩
    intro r' hr'
    rcases hsents r' c hr' with hr' | hr'
    · exact (hall r' hr').imp_right (hsettles r')
    · exact absurd hr' hlost

section request

variable {q : PendingRequest}

theorem later_setRequest (hended : (s.request r).ended = true → q.ended = true)
    (hflag : (s.request r).closedMeanwhile ≠ none → q.closedMeanwhile ≠ none) :
    Later closes s (s.setRequest r q) := by
  apply Later.of_same (s := s) (t := s.setRequest r q) rfl rfl rfl rfl
  · intro r' hr'
    by_cases h : r' = r
    · subst r'
      simpa [setRequest] using hended hr'
    · simpa [setRequest,h] using hr'
  · intro r' hr'
    by_cases h : r' = r
    · subst r'
      simpa [setRequest] using hflag hr'
    · simpa [setRequest,h] using hr'
  · exact fun _ _ => rfl

theorem Orderly.setRequest (h : s.Orderly timers closes) (hmade : s.made r = true)
    (hended : q.ended = (s.request r).ended) (hstatus : q.closedMeanwhile ≠ some .reply)
    (hkept : (s.request r).closedMeanwhile ≠ none → q.closedMeanwhile ≠ none)
    (hsending : s.outcome r ≠ none → q.sending = false)
    (hstopped : timers → q.ended = true → q.timer ≠ .running)
    (hfired : timers → q.timer = .fired → .ended (.without .timedOut) ∈ s.events r)
    (hflagged : q.closedMeanwhile ≠ none → q.ended = true ∨ q.sending = true) :
    (s.setRequest r q).Orderly timers closes := by
  have hself : (s.setRequest r q).request r = q := Function.update_self ..
  apply h.update (r := r)
  · exact fun r' hne => ⟨rfl,.rfl,rfl,Function.update_of_ne hne ..,rfl,rfl,rfl⟩
  · constructor
    · rw [hself,hended]
      exact h.listed r
    · rw [hself,hended]
      exact h.registered r
    · exact fun hfresh => absurd (hfresh.symm.trans hmade) Bool.false_ne_true
    · rw [hself,hended]
      exact h.lives r
    · rw [hself]
      exact hstatus
    · rw [hself]
      exact hsending
    · rw [hself,hended]
      exact h.raised r
    · rw [hself]
      exact hstopped
    · rw [hself]
      exact hfired
    · rw [hself]
      exact hflagged
  · exact fun hr => hr
  · rw [Settled,Settled,hself,hended]
    exact fun hr => hr.imp_right hkept
  · exact fun c hc => .inl hc
  · exact h.nodup
  · exact ⟨rfl,rfl,rfl,rfl⟩

/-- An event of a request whose end no task is about to tell. -/
theorem later_note {e : RequestEvent} (hr : ¬s.Owed r) : Later closes s (s.note r e) := by
  apply Later.of_same (s := s) (t := s.note r e) rfl rfl rfl rfl
  · exact fun _ hr' => hr'
  · exact fun _ hr' => hr'
  · intro r' hr'
    have hne : r' ≠ r := by
      rintro rfl
      exact hr hr'
    exact Function.update_of_ne hne ..

theorem life_snoc {es : List RequestEvent} {e : RequestEvent} {l l' : RequestLife}
    (h : run RequestLife.next .waiting es = some l) (he : l.next e = some l') :
    run RequestLife.next .waiting (es++[e]) = some l' := by
  rw [run_append,h]
  simpa using he

theorem Orderly.note (h : s.Orderly timers closes) (hmade : s.made r = true) {e : RequestEvent}
    {l l' : RequestLife} (hl : run RequestLife.next .waiting (s.events r) = some l)
    (he : l.next e = some l') (hsame : l = .waiting ↔ l' = .waiting) :
    (s.note r e).Orderly timers closes := by
  have hself : (s.note r e).events r = s.events r++[e] := Function.update_self ..
  apply h.update (r := r)
  · exact fun r' hne => ⟨rfl,.rfl,rfl,rfl,Function.update_of_ne hne ..,rfl,rfl⟩
  · refine {h.ordered r with fresh := ?_, lives := ?_, fired := ?_}
    · exact fun hfresh => absurd (hfresh.symm.trans hmade) Bool.false_ne_true
    · obtain ⟨l₀,hl₀,hwait⟩ := h.lives r
      have heq : l₀ = l := Option.some.inj (hl₀.symm.trans hl)
      rw [hself]
      exact ⟨l',life_snoc hl he,hwait.trans (heq ▸ hsame)⟩
    · rw [hself]
      exact fun htimers hr => List.mem_append_left _ (h.fired htimers r hr)
  · exact fun hr => hr
  · exact fun hr => hr
  · exact fun c hc => .inl hc
  · exact h.nodup
  · exact ⟨rfl,rfl,rfl,rfl⟩

theorem Orderly.waits (h : s.Orderly timers closes) (hr : (s.request r).ended = false) :
    run RequestLife.next .waiting (s.events r) = some .waiting := by
  obtain ⟨l,hl,hwait⟩ := h.lives r
  rw [hl,hwait.mp hr]

theorem Orderly.unregister (h : s.Orderly timers closes) (hr : (s.request r).ended = true) :
    (s.unregister r).Orderly timers closes := by
  refine {h with registered := ?_}
  intro r'
  show (s.registrations.remove r r).callbacks r' = _
  rw [Registrations.callbacks_remove]
  by_cases hne : r' = r
  · subst r'
    have hclosed : ¬(s.made r = true ∧ (s.request r).ended = false) := by simp [hr]
    rw [if_pos rfl,h.registered r,if_neg hclosed]
    exact (if_neg hclosed).symm
  · rw [if_neg hne]
    exact h.registered r'

theorem later_endWait {why : EndOfWait} (hr : ¬s.Owed r) : Later closes s (s.endWait r why) := by
  have hrequest : Later closes s (s.setRequest r
      {s.request r with ended := true, timer := stopTimer (s.request r).timer}) :=
    later_setRequest (fun _ => rfl) fun h => h
  apply Later.of_same (s := s) (t := s.endWait r why) rfl rfl rfl rfl hrequest.ended hrequest.flagged
  intro r' hr'
  have hnote : Later closes s (s.note r (.ended why)) := later_note hr
  exact hnote.events r' hr'

theorem stopTimer_ne (t : RequestTimer) : stopTimer t ≠ .running := by
  cases t <;> decide

theorem fired_of_stopTimer {t : RequestTimer} (h : stopTimer t = .fired) : t = .fired := by
  cases t <;> first | rfl | cases h

@[simp] theorem request_endWait_self (s : RequestTasks C K) (r : Str) (why : EndOfWait) :
    (s.endWait r why).request r =
      {s.request r with ended := true, timer := stopTimer (s.request r).timer} :=
  Function.update_self ..

@[simp] theorem events_endWait_self (s : RequestTasks C K) (r : Str) (why : EndOfWait) :
    (s.endWait r why).events r = s.events r++[.ended why] := Function.update_self ..

theorem Orderly.endWait (h : s.Orderly timers closes) (why : EndOfWait) (hmade : s.made r = true)
    (hopen : (s.request r).ended = false) (hwhy : why ≠ .without .reply) :
    (s.endWait r why).Orderly timers closes := by
  apply h.update (r := r)
  · intro r' hne
    refine ⟨rfl,h.nodup.mem_erase_iff.trans (and_iff_right hne),?_,Function.update_of_ne hne ..,
      Function.update_of_ne hne ..,rfl,rfl⟩
    exact (Registrations.callbacks_remove ..).trans (if_neg hne)
  · constructor
    · rw [request_endWait_self]
      simp [RequestTasks.endWait,h.nodup.mem_erase_iff]
    · show (s.registrations.remove r r).callbacks r = _
      rw [Registrations.callbacks_remove,if_pos rfl,h.registered,if_pos ⟨hmade,hopen⟩,
        request_endWait_self]
      simp
    · exact fun hfresh => absurd (hfresh.symm.trans hmade) Bool.false_ne_true
    · rw [events_endWait_self,request_endWait_self]
      exact ⟨.ended why,life_snoc (h.waits hopen) (RequestLife.next_ended hwhy),by simp⟩
    · rw [request_endWait_self]
      exact h.status r
    · rw [request_endWait_self]
      exact h.outcome r
    · rw [request_endWait_self]
      exact fun _ => rfl
    · rw [request_endWait_self]
      exact fun _ _ => stopTimer_ne _
    · rw [request_endWait_self,events_endWait_self]
      exact fun htimers he => List.mem_append_left _ (h.fired htimers r (fired_of_stopTimer he))
    · rw [request_endWait_self]
      exact fun _ => .inl rfl
  · exact fun hr => hr
  · rw [Settled,Settled,request_endWait_self]
    exact fun _ => .inl rfl
  · exact fun c hc => .inl hc
  · exact h.nodup.erase r
  · exact ⟨rfl,rfl,rfl,rfl⟩

@[simp] theorem request_finish_self (s : RequestTasks C K) (r : Str) (o : RequestOutcome) :
    (s.finish r o).request r = {s.request r with sending := false} := Function.update_self ..

theorem Orderly.finish (h : s.Orderly timers closes) {o : RequestOutcome} (hmade : s.made r = true)
    (hraised : o = .raised → (s.request r).ended = true)
    (hflag : (s.request r).closedMeanwhile ≠ none → (s.request r).ended = true) :
    (s.finish r o).Orderly timers closes := by
  have hself : (s.finish r o).outcome r = some o := Function.update_self ..
  have hset : (s.setRequest r {s.request r with sending := false}).Orderly timers closes := by
    apply h.setRequest hmade
    · rfl
    · exact h.status r
    · exact fun he => he
    · exact fun _ => rfl
    · exact fun htimers he => h.stopped htimers r he
    · exact fun htimers => h.fired htimers r
    · exact fun he => .inl (hflag he)
  apply hset.update (r := r)
  · exact fun r' hne => ⟨rfl,.rfl,rfl,rfl,rfl,Function.update_of_ne hne ..,rfl⟩
  · refine {hset.ordered r with fresh := ?_, outcome := ?_, raised := ?_}
    · exact fun hfresh => absurd (hfresh.symm.trans hmade) Bool.false_ne_true
    · rw [request_finish_self]
      exact fun _ => rfl
    · rw [hself,request_finish_self]
      exact fun ho => hraised (Option.some.inj ho)
  · exact fun hr => hr
  · exact fun hr => hr
  · exact fun c hc => .inl hc
  · exact hset.nodup
  · exact ⟨rfl,rfl,rfl,rfl⟩

theorem later_finish {o : RequestOutcome} : Later closes s (s.finish r o) :=
  let hset : Later closes s (s.setRequest r {s.request r with sending := false}) :=
    later_setRequest (fun h => h) fun h => h
  {hset with}

end request

theorem later_noteSent : Later closes s (s.noteSent r) := by
  refine {Later.refl s with sentOn := ?_}
  intro r' c hc
  by_cases hr : r' = r
  · subst r'
    rw [show (s.noteSent r).sentOn r = s.sentOn r++s.connection.toList from Function.update_self ..,
      List.mem_append,Option.mem_toList] at hc
    exact hc
  · rw [show (s.noteSent r).sentOn r' = s.sentOn r' from Function.update_of_ne hr ..] at hc
    exact .inl hc

theorem Orderly.noteSent (h : s.Orderly timers closes) (hmade : s.made r = true) :
    (s.noteSent r).Orderly timers closes := by
  apply h.update (r := r)
  · exact fun r' hne => ⟨rfl,.rfl,rfl,rfl,rfl,rfl,Function.update_of_ne hne ..⟩
  · refine {h.ordered r with fresh := ?_}
    exact fun hfresh => absurd (hfresh.symm.trans hmade) Bool.false_ne_true
  · exact fun hr => hr
  · exact fun hr => hr
  · have hlater : Later closes s (s.noteSent r) := later_noteSent
    exact hlater.sentOn r
  · exact h.nodup
  · exact ⟨rfl,rfl,rfl,rfl⟩

theorem later_made (hnone : s.request r = ⟨.absent,false,none,false⟩)
    (hlater : Later closes ((s.makeRequest r).noteSent r) t)
    (hnew : closes → s.ClosingAll → t.Settled r) : Later closes s t := by
  have hmade (r' : Str) (hne : r' ≠ r) : ((s.makeRequest r).noteSent r).made r' = s.made r' :=
    Function.update_of_ne hne ..
  have hrequest (r' : Str) (hne : r' ≠ r) :
      ((s.makeRequest r).noteSent r).request r' = s.request r' := Function.update_of_ne hne ..
  constructor
  · intro r' hr'
    apply hlater.made
    by_cases hne : r' = r
    · rw [hne]
      exact Function.update_self ..
    · rwa [hmade r' hne]
  · intro r' hr'
    have hne : r' ≠ r := by
      rintro rfl
      rw [hnone] at hr'
      cases hr'
    apply hlater.ended
    rwa [hrequest r' hne]
  · intro r' hr'
    have hne : r' ≠ r := by
      rintro rfl
      rw [hnone] at hr'
      exact hr' rfl
    apply hlater.flagged
    rwa [hrequest r' hne]
  · exact hlater.connections
  · exact hlater.retired
  · intro r' c hc
    rcases hlater.sentOn r' c hc with hc | hc
    · have hsent : Later closes (s.makeRequest r) ((s.makeRequest r).noteSent r) := later_noteSent
      exact hsent.sentOn r' c hc
    · exact .inr hc
  · intro hcloses hall r' hr'
    rcases hlater.new hcloses hall r' hr' with hr' | hr'
    · by_cases hne : r' = r
      · rw [hne]
        exact .inr (hnew hcloses hall)
      · rw [hmade r' hne] at hr'
        exact .inl hr'
    · exact .inr hr'
  · exact hlater.events

@[simp] theorem request_makeRequest_self (s : RequestTasks C K) (r : Str) :
    (s.makeRequest r).request r = ⟨.absent,true,none,false⟩ := Function.update_self ..

@[simp] theorem made_makeRequest_self (s : RequestTasks C K) (r : Str) :
    (s.makeRequest r).made r = true := Function.update_self ..

theorem Orderly.makeRequest (h : s.Orderly timers closes) (hfresh : s.made r = false) :
    (s.makeRequest r).Orderly timers closes := by
  obtain ⟨hevents,houtcome,hnone,hsent⟩ := h.fresh r hfresh
  have hunlisted : r ∉ s.requests := by
    rw [h.listed,hfresh]
    exact fun hr => nomatch hr.1
  apply h.update (r := r)
  · intro r' hne
    refine ⟨Function.update_of_ne hne ..,?_,?_,Function.update_of_ne hne ..,rfl,rfl,rfl⟩
    · exact List.mem_append.trans (or_iff_left fun hr => hne (List.mem_singleton.mp hr))
    · exact (Registrations.callbacks_register ..).trans (if_neg hne)
  · constructor
    · rw [request_makeRequest_self,made_makeRequest_self]
      simp [RequestTasks.makeRequest]
    · show (s.registrations.register r r).callbacks r = _
      rw [Registrations.callbacks_register,if_pos rfl,h.registered,hfresh,request_makeRequest_self,
        made_makeRequest_self]
      simp
    · exact fun hnew => absurd (hnew.symm.trans (made_makeRequest_self ..)) Bool.false_ne_true
    · rw [request_makeRequest_self]
      refine ⟨.waiting,?_,by simp⟩
      rw [show (s.makeRequest r).events r = s.events r from rfl,hevents]
      rfl
    · rw [request_makeRequest_self]
      exact nofun
    · exact fun ho => absurd houtcome ho
    · exact fun ho => nomatch houtcome.symm.trans ho
    · rw [request_makeRequest_self]
      exact fun _ => nofun
    · rw [request_makeRequest_self]
      exact fun _ => nofun
    · rw [request_makeRequest_self]
      exact fun he => absurd rfl he
  · exact fun _ => made_makeRequest_self ..
  · intro hr
    rw [Settled,hnone] at hr
    exact hr.elim nofun (absurd rfl)
  · exact fun c hc => .inl hc
  · exact h.nodup.append (List.nodup_singleton r) (List.disjoint_singleton.mpr hunlisted)
  · exact ⟨rfl,rfl,rfl,rfl⟩

/-- A `close` returns that has ended all requests. -/
theorem Orderly.noteClosed (h : s.Orderly timers closes) (hcovers : s.Covers closes [] .close) :
    s.noteClosed.Orderly timers closes := by
  refine {h with closed := ?_}
  intro hcloses r hr
  rcases Bool.or_eq_true_iff.mp hr with hr | hr
  · exact h.closed hcloses r hr
  · exact ⟨hr,(hcovers hcloses r hr).resolve_left List.not_mem_nil⟩

theorem later_noteClosed : Later closes s s.noteClosed := {Later.refl s with}

theorem later_disconnect : Later closes s {s with connection := none} := by
  refine {Later.refl s with retired := ?_}
  exact fun c _ _ => nofun

theorem Orderly.disconnect (h : s.Orderly timers closes) :
    ({s with connection := none} : RequestTasks C K).Orderly timers closes := by
  refine {h with connected := nofun, handled := ?_}
  exact fun c hc => later_disconnect.covers_lost (h.handled c hc)

variable {c : C}

theorem later_connect (hc : c ∉ s.connections) :
    Later closes s {s with connection := some c, connections := c::s.connections} := by
  refine {Later.refl s with connections := ?_, retired := ?_}
  · exact fun c' hc' => List.mem_cons_of_mem c hc'
  · rintro c' hc' - heq
    obtain rfl := Option.some.inj heq
    exact hc hc'

theorem Orderly.connect (h : s.Orderly timers closes) (hc : c ∉ s.connections) :
    ({s with connection := some c, connections := c::s.connections} : RequestTasks C K).Orderly
      timers closes := by
  refine {h with connected := ?_, sentOn := ?_, handled := ?_}
  · rintro c' heq
    obtain rfl := Option.some.inj heq
    exact List.mem_cons_self ..
  · exact fun r c' hc' => List.mem_cons_of_mem c (h.sentOn r c' hc')
  · exact fun c' hc' => (later_connect hc).covers_lost (h.handled c' hc')

variable [DecidableEq C]

theorem Orderly.noteHandled (h : s.Orderly timers closes) (hc : s.Covers closes [] (.lost c)) :
    ({s with handled := Function.update s.handled c true} : RequestTasks C K).Orderly
      timers closes := by
  refine {h with handled := ?_}
  intro c' hc'
  by_cases hne : c' = c
  · rw [hne]
    exact hc
  · have hold : Function.update s.handled c true c' = s.handled c' := Function.update_of_ne hne ..
    exact h.handled c' (hold.symm.trans hc')

theorem later_loseConnection : Later closes s (s.loseConnection c) := by
  unfold loseConnection
  split_ifs
  · exact later_disconnect
  · exact .refl s

theorem Orderly.loseConnection (h : s.Orderly timers closes) :
    (s.loseConnection c).Orderly timers closes := by
  unfold RequestTasks.loseConnection
  split_ifs
  · exact h.disconnect
  · exact h

/-- All requests that something has been sent of on a connection wait to be ended once it is lost. -/
theorem Orderly.good_lossFrames (h : s.Orderly timers closes) :
    ∀ f ∈ s.lossFrames c, (s.loseConnection c).Good closes f := by
  unfold lossFrames RequestTasks.loseConnection
  split_ifs with hc
  · intro f hf
    obtain rfl := List.mem_singleton.mp hf
    refine ⟨fun r hr => ((h.listed r).mp hr).1,h.connected c hc,nofun,?_⟩
    intro r hr
    by_cases hended : (s.request r).ended = true
    · exact .inr (.inl hended)
    · have hmade : s.made r = true := by
        by_contra hfresh
        rw [(h.fresh r (Bool.eq_false_iff.mpr hfresh)).2.2.2] at hr
        cases hr
      exact .inl ((h.listed r).mpr ⟨hmade,Bool.eq_false_iff.mpr hended⟩)
  · exact fun f hf => nomatch hf

end RequestTasks
end SoftwareBus
