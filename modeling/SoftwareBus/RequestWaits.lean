import Mathlib.Data.Fintype.Basic
import SoftwareBus.RequestTaskSteps

/-! How the waits of requests end: each of them once and for good, unless a timer is started too
late, and all of them by a `close`, unless a request is made too late. -/
namespace SoftwareBus

open Transition

namespace RequestTasks

variable {C K : Type} {s t u : RequestTasks C K} {as : List (RequestAction C K)}

/-- The wait of a request ends once, and its callback is not called afterwards, but to be told. -/
structure EndOnce (s : RequestTasks C K) : Prop where
  once : ∀ r, (s.events r).countP RequestEvent.isEnd ≤ 1
  silent : ∀ r es why ds, s.events r = es++.ended why::ds → .called .reply ∉ ds
  told : ∀ r, (s.events r).countP RequestEvent.tells ≤ 1
  untold : ∀ r why, .ended why ∈ s.events r → (∀ status, why ≠ .without status) →
    (s.events r).countP RequestEvent.tells = 0
  ended : ∀ r, (s.request r).ended = true ↔ ∃ why, .ended why ∈ s.events r
  /-- Nothing is left of a request whose wait has ended. -/
  gone : ∀ r, (s.request r).ended = true → r ∉ s.requests ∧ s.registrations.callbacks r = [] ∧
    ((s.request r).timer = .absent ∨ (s.request r).timer = .cancelled ∨
      (s.request r).timer = .fired ∧ .ended (.without .timedOut) ∈ s.events r)
  raised : ∀ r, s.outcome r = some .raised → (s.request r).ended = true

theorem Orderly.endOnce (h : s.Orderly True False) : s.EndOnce := by
  constructor
  · intro r
    obtain ⟨l,hl,-⟩ := h.lives r
    exact RequestLife.ends_once hl
  · intro r es why ds hes
    obtain ⟨l,hl,-⟩ := h.lives r
    rw [hes] at hl
    exact RequestLife.silent hl
  · intro r
    obtain ⟨l,hl,-⟩ := h.lives r
    exact RequestLife.told_once hl
  · intro r why hmem hwhy
    obtain ⟨l,hl,-⟩ := h.lives r
    exact RequestLife.untold hl hmem hwhy
  · intro r
    obtain ⟨l,hl,hwait⟩ := h.lives r
    rw [← Bool.not_eq_false,hwait.not]
    exact RequestLife.ended_iff hl
  · intro r hr
    have hclosed : ¬(s.made r = true ∧ (s.request r).ended = false) := by simp [hr]
    refine ⟨fun hmem => hclosed ((h.listed r).mp hmem),?_,?_⟩
    · rw [h.registered,if_neg hclosed]
    · have hstopped := h.stopped trivial r hr
      have hfired := h.fired trivial r
      cases htimer : (s.request r).timer with
      | absent => exact .inl rfl
      | running => exact absurd htimer hstopped
      | cancelled => exact .inr (.inl rfl)
      | fired => exact .inr (.inr ⟨rfl,hfired htimer⟩)
  · exact h.raised

/-- A request waits neither once a `close` has returned since it was made, nor once the loss of a
connection has been handled that something of it was sent on, unless it is still being sent. -/
def NobodyWaits (s : RequestTasks C K) : Prop :=
  ∀ r, s.outcome r ≠ none → s.closed r = true ∨ (∃ c, s.handled c = true ∧ c ∈ s.sentOn r) →
    (s.request r).ended = true

theorem Orderly.nobodyWaits {timers : Prop} (h : s.Orderly timers True) : s.NobodyWaits := by
  intro r hr hdue
  have hsettled : s.Settled r := by
    rcases hdue with hclosed | ⟨c,hc,hsent⟩
    · exact (h.closed trivial r hclosed).2
    · exact ((h.handled c hc).2.2 r hsent).resolve_left List.not_mem_nil
  rcases hsettled with hended | hflag
  · exact hended
  · -- a request that is flagged is still being sent
    apply (h.flagged r hflag).resolve_right
    rw [h.outcome r hr]
    exact Bool.false_ne_true

variable [DecidableEq C] [DecidableEq K]

theorem timer_of_timesEnded {a : RequestAction C K} (ha : s.timesEnded a = true)
    (ht : s.step a = some t) : ∃ r, (t.request r).ended = true ∧ (t.request r).timer = .running := by
  cases a with
  | resume k =>
    simp only [timesEnded] at ha
    split at ha
    · rename_i r requestSubject fs hstack
      rw [step,hstack] at ht
      cases ht
      refine ⟨r,?_,?_⟩
      · simpa [setStack,noteSent,startTimer,setRequest] using ha
      · simp [setStack,noteSent,startTimer,setRequest]
    · cases ha
  | _ => cases ha

/-- The waits of all requests end once and for good exactly if no `subscribe` of a request with a
timeout returns after the wait has ended. -/
theorem waits_end_once (hrun : run step (init : RequestTasks C K) as = some s) :
    (∀ u, Passes step init as u → u.EndOnce) ↔
      Guarded step (fun s a => s.timesEnded a = false) init as := by
  apply passes_good_iff (I := Invariant True False) _ _ _ init_invariant hrun
  · intro s a t hs ha ht
    exact step_invariant hs (fun _ => ha) nofun ht
  · intro s hs
    exact hs.orderly.endOnce
  · intro s a t ht hgood
    by_contra ha
    obtain ⟨r,hended,htimer⟩ := timer_of_timesEnded (Bool.not_eq_false _ ▸ ha) ht
    have hgone := (hgood.gone r hended).2.2
    rw [htimer] at hgone
    simp at hgone

def startRequest : List (RequestAction (Fin 1) (Fin 2)) :=
  [.begin 0,.connect 0 0 1,.sendRequest 0 [97] (List.replicate 32 48) true]

/-- The rest of a `send_request` that nothing goes wrong in. -/
def finishRequest : List (RequestAction (Fin 1) (Fin 2)) :=
  [.sent 0,.resume 0,.sent 0,.resume 0,.resume 0,.resume 0]

/-- A reply comes while `send_request` still subscribes to it, and the callback takes it. -/
theorem not_waits_end_once : ∃ s : RequestTasks (Fin 1) (Fin 2),
    run step init (startRequest++[.receive 1 (derivedReplySubject [97] (List.replicate 32 48)),
      .resume 1,.resume 1,.resume 1,.returns 1 true,.sent 0,.resume 0]) = some s ∧ ¬s.EndOnce := by
  refine ⟨_,rfl,?_⟩
  intro h
  have hgone := (h.gone (derivedReplySubject [97] (List.replicate 32 48)) (by decide +kernel)).2.2
  revert hgone
  decide +kernel

/-- A reply comes once the request has been sent, and the callback takes it. -/
theorem waits_end_once_sent : ∃ s : RequestTasks (Fin 1) (Fin 2),
    run step init (startRequest++finishRequest++
      [.receive 1 (derivedReplySubject [97] (List.replicate 32 48)),.resume 1,.resume 1,.resume 1,
        .returns 1 true]) = some s ∧
    s.events (derivedReplySubject [97] (List.replicate 32 48)) =
      [.called .reply,.ended .accepted] ∧
    ∀ u, Passes step init (startRequest++finishRequest++
      [.receive 1 (derivedReplySubject [97] (List.replicate 32 48)),.resume 1,.resume 1,.resume 1,
        .returns 1 true]) u → u.EndOnce :=
  ⟨_,rfl,by decide +kernel,(waits_end_once rfl).mpr (by decide +kernel)⟩

/-- After a `close`, and after a loss, nobody is left waiting, if no request starts on a connection
while a `close` is under way. -/
theorem nobody_waits (hstarts : Guarded step (fun s a => ¬s.StartsClosing a) init as)
    (hrun : run step (init : RequestTasks C K) as = some s) : s.NobodyWaits := by
  have hstep (s : RequestTasks C K) (a : RequestAction C K) (t : RequestTasks C K)
      (hs : s.Invariant False True) (ha : ¬s.StartsClosing a) (ht : s.step a = some t) :
      t.Invariant False True := step_invariant hs nofun (fun _ => ha) ht
  exact (run_invariant hstep init_invariant hstarts hrun).orderly.nobodyWaits

instance startsClosingDecidable [Fintype K] (s : RequestTasks C K) :
    ∀ a, Decidable (s.StartsClosing a)
  | .sendRequest _ _ _ _ =>
    inferInstanceAs (Decidable (s.connection ≠ none ∧ ∃ k, ∃ f ∈ s.stack k, f.closes = true))
  | .begin _ | .cancelRequest _ _ | .close _ | .connect _ _ _ | .publish _ _ | .send _
  | .returns _ _ | .raises _ _ | .sent _ | .sendFailed _ | .receive _ _ | .receiveFailed _
  | .subscriber _ | .fire _ _ | .cancel _ | .resume _ => inferInstanceAs (Decidable False)

/-- The callback of a request that a `close` ends sends another one. -/
theorem not_nobody_waits : ∃ s : RequestTasks (Fin 1) (Fin 2),
    run step init (startRequest++finishRequest++[.close 0,.resume 0,.sent 0,.resume 0,.resume 0,
      .sendRequest 0 [97] (List.replicate 32 49) false]++finishRequest++[.returns 0 false,.resume 0,
      .resume 0]) = some s ∧ ¬s.NobodyWaits := by
  refine ⟨_,rfl,?_⟩
  intro h
  have hended := h (derivedReplySubject [97] (List.replicate 32 49)) (by decide +kernel)
    (.inl (by decide +kernel))
  revert hended
  decide +kernel

theorem nobody_waits_closed :
    ∃ s, run step init (startRequest++finishRequest++[.close 0,.resume 0,.sent 0,.resume 0,.resume 0,
      .returns 0 false,.resume 0,.resume 0]) = some s ∧ s.NobodyWaits := by
  have hstarts : Guarded step (fun s a => ¬s.StartsClosing a) (init : RequestTasks (Fin 1) (Fin 2))
      (startRequest++finishRequest++[.close 0,.resume 0,.sent 0,.resume 0,.resume 0,
        .returns 0 false,.resume 0,.resume 0]) := by decide +kernel
  exact ⟨_,rfl,nobody_waits hstarts rfl⟩

end RequestTasks
end SoftwareBus
