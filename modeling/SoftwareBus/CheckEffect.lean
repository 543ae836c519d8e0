import SoftwareBus.NodeStep

/-! What a step of a node does to the state of its cycle check. Routing is left
out: it changes the tables only, and sends subscription and publish messages only. -/
namespace SoftwareBus

variable {C I Q P : Type}

namespace CheckState

variable [DecidableEq C] [DecidableEq I] [DecidableEq Q]

def dropped (n : CheckState C I Q P) (c : C) (fromUpstream : Bool) : CheckState C I Q P :=
  if c ∈ n.connections fromUpstream then (n.unlist c fromUpstream).forgetConnection c else n

/-- What a step does to the check state, and the cycle check's own messages it queues. -/
inductive Effect (up : C → Bool) (n : CheckState C I Q P) :
    NodeEvent C I Q P → CheckState C I Q P → List (C × Message I Q P) → Prop
  | establish (c : C) : Effect up n (.establish c)
      {n with
        upstreamConnections := n.upstreamConnections++[c]
        pending := Function.update n.pending c (some ⟨none,.empty⟩)} [(c,.hello n.nodeId)]
  | accept (c : C) : Effect up n (.accept c)
      {n with downstreamConnections := n.downstreamConnections++[c]} [(c,.hello n.nodeId)]
  | routed (c : C) (m : Message I Q P) : isRouted m = true → Effect up n (.receive c m) n []
  | held (c : C) (m : {m : Message I Q P // isRouted m = true}) (length : ℕ) :
      Effect up n (.receive c m) (n.hold c m length) []
  | overLimit (c : C) (m : Message I Q P) : isRouted m = true →
      Effect up n (.receive c m) (n.dropped c (up c)) []
  | hello (c : C) (i : I) : Effect up n (.receive c (.hello i)) (n.handleHello c i) []
  | answered (c : C) (q : Q) (i : I) (r : ReachabilityResult) : n.answerNow c q i = some r →
      Effect up n (.receive c (.query q i)) n [(c,.reply q r)]
  | noTargets (c : C) (q : Q) (i : I) : n.answerNow c q i = none →
      n.activeNodeConnections.filter (· ≠ c) = [] →
      Effect up n (.receive c (.query q i)) n [(c,.reply q .notFound)]
  | opened (c : C) (q : Q) (i : I) : n.answerNow c q i = none →
      n.activeNodeConnections.filter (· ≠ c) ≠ [] →
      Effect up n (.receive c (.query q i))
        (n.openQuery q ⟨.new (n.activeNodeConnections.filter (· ≠ c)),i,some c,false⟩) []
  | replied (c : C) (q : Q) (r : ReachabilityResult) :
      Effect up n (.receive c (.reply q r)) (n.handleReply c q r) []
  | lost (c : C) (goesOn : Bool) :
      Effect up n (.connectionError c goesOn) (n.dropped c (up c)) []
  | closeConnection (c : C) : c ∈ n.allConnections → Effect up n (.closeConnection c)
      {n.unlist c (up c) with closing := Function.update n.closing c true} []
  | closed (c : C) : n.closing c = true → Effect up n (.closed c)
      {n.forgetConnection c with closing := Function.update n.closing c false} []
  | beginCheck (c : C) : n.check.connection = none → (n.pending c).isSome →
      Effect up n (.beginCheck c) {n with check := .awaitHello c} []
  | refused (ev : NodeEvent C I Q P) (c : C) :
      ev = .resume ∨ ev ∈ [.helloTimeout,.helloDone] ∧ n.check = .awaitHello c →
      n.check.connection = some c → (∀ d p k q, n.check ≠ .asking d p k q) →
      (∀ d p k, n.check ≠ .answered d p k .notFound) →
      Effect up n ev (dropped {n with check := .idle} c true) []
  | identified (c : C) (p : I) (held : HeldMessages I Q P) : n.check = .awaitHello c →
      n.pending c = some ⟨some p,held⟩ → p ≠ n.nodeId →
      (∀ d ∈ n.activeNodeConnections, n.peerNodeIds d ≠ some p) →
      Effect up n .helloDone {n with check := .attempt c p 0} []
  | askedNobody (q : Q) (c : C) (p : I) (k : ℕ) : n.check = .attempt c p k →
      n.activeNodeConnections = [] →
      Effect up n (.ask q) {n with check := .answered c p k .notFound} []
  | asked (q : Q) (c : C) (p : I) (k : ℕ) : n.check = .attempt c p k →
      n.activeNodeConnections ≠ [] →
      Effect up n (.ask q)
        {n.openQuery q ⟨.new n.activeNodeConnections,p,none,true⟩ with
          checking := true
          check := .asking c p k q} (n.activeNodeConnections.map (·,.query q p))
  | queryEnded (ev : NodeEvent C I Q P) (c : C) (p : I) (k : ℕ) (q : Q)
      (r : ReachabilityResult) : n.check = .asking c p k q →
      (ev = .queryDone ∧ (∃ o, n.queries q = some o ∧ o.query.result = some r) ∨
        ev = .queryTimeout ∧ r = .unknown) →
      Effect up n ev {n.closeQuery q with checking := false, check := .answered c p k r} []
  | activated (c : C) (p : I) (k : ℕ) : n.check = .answered c p k .notFound →
      (n.pending c).isSome → Effect up n .resume
        {n with
          check := .idle
          pending := Function.update n.pending c none
          draining := Function.update n.draining c none} []
  | retried (c : C) (p : I) (k : ℕ) : n.check = .answered c p k .unknown →
      (n.pending c).isSome → Effect up n .resume {n with check := .attempt c p (k+1)} []
  | abandonedQuery (c : C) (p : I) (k : ℕ) (q : Q) : n.check = .asking c p k q →
      n.pending c = none →
      Effect up n .abandon {n.closeQuery q with checking := false, check := .idle} []
  | abandoned (c : C) : n.check.connection = some c → n.pending c = none →
      (∀ d p k q, n.check ≠ .asking d p k q) → Effect up n .abandon {n with check := .idle} []
  | forwarded (q : Q) (query : Query C) (t : I) (source : C) :
      n.queries q = some ⟨query,t,some source,false⟩ → Effect up n (.forward q)
        (n.openQuery q ⟨query,t,some source,true⟩) (query.targets.map (·,.query q t))
  | forwardEnded (ev : NodeEvent C I Q P) (q : Q) (query : Query C) (t : I) (source : C)
      (r : ReachabilityResult) : n.queries q = some ⟨query,t,some source,true⟩ →
      (ev = .forwardDone q ∧ query.result = some r ∨ ev = .forwardTimeout q ∧ r = .unknown) →
      Effect up n ev (n.closeQuery q)
        (if source ∈ n.allConnections then [(source,.reply q r)] else [])

end CheckState

namespace PubSubNode

/-- The cycle check's own messages among those a handler queues. -/
def control (sends : List (Send C I Q P)) : List (C × Message I Q P) :=
  (frames sends).filter fun f => !isRouted f.2

@[simp] theorem control_nil : control ([] : List (Send C I Q P)) = [] := rfl

@[simp] theorem control_append (ds es : List (Send C I Q P)) :
    control (ds++es) = control ds++control es := by simp [control,frames]

@[simp] theorem control_cons (cs : List C) (m : Message I Q P) (ds : List (Send C I Q P)) :
    control ((cs,m)::ds) = (if isRouted m then [] else cs.map (·,m))++control ds := by
  cases hm : isRouted m <;>
    simp [control,frames,List.filter_map,Function.comp_def,hm]

def ofQuery [DecidableEq Q] (q : Q) (sends : List (Send C I Q P)) : List (C × Message I Q P) :=
  (control sends).filter fun f => decide (f.2.queryId = some q)

/-- A handler that only routes: all but the tables stays, and only routed messages are queued. -/
structure Routes (n : PubSubNode C I Q P) (r : PubSubNode C I Q P × List (Send C I Q P)) : Prop where
  check : r.1.toCheckState = n.toCheckState
  sends : control r.2 = []
  reading : r.1.reading = n.reading

theorem Routes.trans {n m : PubSubNode C I Q P} {ds : List (Send C I Q P)}
    {r : PubSubNode C I Q P × List (Send C I Q P)} (h : Routes n (m,ds)) (hr : Routes m r) :
    Routes n (r.1,ds++r.2) :=
  ⟨hr.check.trans h.check,by simp [show control ds = [] from h.sends,hr.sends],
    hr.reading.trans h.reading⟩

theorem setSubscriptions_check (n : PubSubNode C I Q P) (up : Bool) (t : Subscriptions C) :
    (n.setSubscriptions up t).toCheckState = n.toCheckState := by
  cases up <;> rfl

theorem setSubscriptions_reading (n : PubSubNode C I Q P) (up : Bool) (t : Subscriptions C) :
    (n.setSubscriptions up t).reading = n.reading := by
  cases up <;> rfl

@[simp] theorem control_sendSubscriptions (n : PubSubNode C I Q P) (c : C) :
    control (n.sendSubscriptions c) = [] := by
  simp [sendSubscriptions,control,frames,isRouted]

variable [DecidableEq C]

theorem unsubscribe_routes (n : PubSubNode C I Q P) (up : Bool) (s : Str) (c : C) :
    Routes n (n.unsubscribe up s c) := by
  unfold unsubscribe
  split
  · refine ⟨setSubscriptions_check n up _,?_,setSubscriptions_reading n up _⟩
    dsimp only
    split <;> simp [isRouted]
  · exact ⟨rfl,rfl,rfl⟩

theorem handleSubscription_routes (n : PubSubNode C I Q P) (c : C) (s : Str) (b up : Bool) :
    Routes n (n.handleSubscription c s b up) := by
  unfold handleSubscription
  split
  · exact ⟨setSubscriptions_check n up _,by simp [isRouted],setSubscriptions_reading n up _⟩
  · exact unsubscribe_routes n up s c

theorem dropSubjects_routes (n : PubSubNode C I Q P) (c : C) (up : Bool) (ss : List Str) :
    Routes n (n.dropSubjects c up ss) := by
  induction ss generalizing n with
  | nil => exact ⟨rfl,rfl,rfl⟩
  | cons s ss ih => exact (unsubscribe_routes n up s c).trans (ih _)

theorem connectionError_effect (n : PubSubNode C I Q P) (c : C) (up : Bool) :
    (n.connectionError c up).1.toCheckState = n.dropped c up ∧
      control (n.connectionError c up).2 = [] := by
  unfold connectionError CheckState.dropped
  split
  · exact ⟨(dropSubjects_routes _ c up _).check,(dropSubjects_routes _ c up _).sends⟩
  · exact ⟨rfl,rfl⟩

theorem connectionError_reading (n : PubSubNode C I Q P) (c : C) (up : Bool) :
    (n.connectionError c up).1.reading = n.reading := by
  unfold connectionError
  split
  · exact (dropSubjects_routes _ c up _).reading
  · rfl

theorem refuse_effect (n : PubSubNode C I Q P) (c : C) (reason : Refusal) :
    (n.refuse c reason).1.toCheckState =
        CheckState.dropped {n.toCheckState with check := .idle} c true ∧
      control (n.refuse c reason).2 = [] :=
  connectionError_effect _ c true

theorem closed_effect (n : PubSubNode C I Q P) (c : C) (up : Bool) :
    (n.closed c up).1.toCheckState =
        {n.forgetConnection c with closing := Function.update n.closing c false} ∧
      control (n.closed c up).2 = [] := by
  let n' : PubSubNode C I Q P := {n with toCheckState := n.forgetConnection c}
  have h := dropSubjects_routes n' c up (n'.taggedSubjects c up)
  constructor
  · change {(n'.dropConnection c up).1.toCheckState with
      closing := Function.update (n'.dropConnection c up).1.toCheckState.closing c false} = _
    rw [show (n'.dropConnection c up).1.toCheckState = n'.toCheckState from h.check]
    rfl
  · exact h.sends

theorem closed_reading (n : PubSubNode C I Q P) (c : C) (up : Bool) :
    (n.closed c up).1.reading = n.reading := by
  let n' : PubSubNode C I Q P := {n with toCheckState := n.forgetConnection c}
  exact (dropSubjects_routes n' c up (n'.taggedSubjects c up)).reading

variable [DecidableEq I] [DecidableEq Q]

theorem handleMessage_routes (n : PubSubNode C I Q P) (c : C) {m : Message I Q P}
    (hm : isRouted m = true) (up : Bool) : Routes n (n.handleMessage c m up) := by
  cases m with
  | subscription s b => exact handleSubscription_routes n c s b up
  | publish s p => exact ⟨rfl,by simp [handleMessage,handlePublish,isRouted],rfl⟩
  | hello i => simp [isRouted] at hm
  | query q i => simp [isRouted] at hm
  | reply q r => simp [isRouted] at hm

theorem drain_routes (n : PubSubNode C I Q P) (c : C)
    (ms : List ({m : Message I Q P // isRouted m = true} × ℕ)) : Routes n (n.drain c ms) := by
  induction ms generalizing n with
  | nil => exact ⟨rfl,rfl,rfl⟩
  | cons m ms ih => exact (handleMessage_routes n c m.1.2 true).trans (ih _)

theorem activate_effect (n : PubSubNode C I Q P) (c : C) (held : HeldMessages I Q P) :
    (n.activate c held).1.toCheckState = {n.toCheckState with
        pending := Function.update n.pending c none
        draining := Function.update n.draining c none} ∧
      control (n.activate c held).2 = [] := by
  let n' : PubSubNode C I Q P := {n with
    pending := Function.update n.pending c none
    draining := Function.update n.draining c (some held)}
  have h := drain_routes n' c held.messages
  constructor
  · change {(n'.drain c held.messages).1.toCheckState with
      draining := Function.update (n'.drain c held.messages).1.toCheckState.draining c none} = _
    rw [h.check]
    simp [n']
  · change control (n'.sendSubscriptions c++(n'.drain c held.messages).2) = []
    simp [h.sends]

theorem activate_reading (n : PubSubNode C I Q P) (c : C) (held : HeldMessages I Q P) :
    (n.activate c held).1.reading = n.reading := (drain_routes _ c held.messages).reading

theorem onReceive_reading (n : PubSubNode C I Q P) (c : C) (m : Message I Q P)
    (length limit : ℕ) (up : Bool) : (n.onReceive c m length limit up).1.reading = n.reading := by
  unfold onReceive
  split
  · rename_i hm
    split
    · exact (handleMessage_routes n c hm up).reading
    · split
      · exact connectionError_reading n c up
      · rfl
  · rename_i hm
    cases m with
    | query q i =>
      simp only [handleMessage,handleQuery]
      split
      · rfl
      · split <;> rfl
    | subscription s b => exact absurd rfl hm
    | publish s p => exact absurd rfl hm
    | _ => rfl

theorem onReceive_effect (n : PubSubNode C I Q P) (c : C) (m : Message I Q P)
    (length limit : ℕ) (up : C → Bool) :
    CheckState.Effect up n.toCheckState (.receive c m)
      (n.onReceive c m length limit (up c)).1.toCheckState
      (control (n.onReceive c m length limit (up c)).2) := by
  have routed (hm : isRouted m = true) : CheckState.Effect up n.toCheckState (.receive c m)
      (n.handleMessage c m (up c)).1.toCheckState (control (n.handleMessage c m (up c)).2) := by
    obtain ⟨hn,hs,-⟩ := handleMessage_routes n c hm (up c)
    rw [hn,hs]
    exact .routed c m hm
  unfold onReceive
  split
  · rename_i hm
    split
    · exact routed hm
    · split
      · obtain ⟨hn,hs⟩ := connectionError_effect n c (up c)
        rw [hn,hs]
        exact .overLimit c m hm
      · exact .held c ⟨m,hm⟩ length
  · rename_i hm
    cases m with
    | subscription s b => exact absurd rfl hm
    | publish s p => exact absurd rfl hm
    | hello i => exact .hello c i
    | reply q r => exact .replied c q r
    | query q i =>
      simp only [handleMessage,handleQuery]
      split
      · rename_i r hr
        exact .answered c q i r hr
      · rename_i hr
        split
        · rename_i ht
          exact .noTargets c q i hr ht
        · rename_i d ds ht
          rw [← ht]
          exact .opened c q i hr (ht ▸ List.cons_ne_nil d ds)

omit [DecidableEq C] [DecidableEq Q] in
theorem refusalOf_eq_none {n : PubSubNode C I Q P} {p : I} (h : n.refusalOf p = none) :
    p ≠ n.nodeId ∧ ∀ d ∈ n.activeNodeConnections, n.peerNodeIds d ≠ some p := by
  unfold refusalOf at h
  split at h
  · simp at h
  · rename_i hp
    split at h
    · simp at h
    · rename_i ha
      exact ⟨hp,fun d hd he => ha (List.any_eq_true.mpr ⟨d,hd,decide_eq_true he⟩)⟩

section Steps

variable {cfg : Settings C I Q P} {n n' : PubSubNode C I Q P} {ev : NodeEvent C I Q P}
  {sends : List (Send C I Q P)}

theorem refused_effect {c : C} {reason : Refusal}
    (hev : ev = .resume ∨ ev ∈ [.helloTimeout,.helloDone] ∧ n.check = .awaitHello c)
    (hc : n.check.connection = some c) (ha : ∀ d p k q, n.check ≠ .asking d p k q)
    (hn : ∀ d p k, n.check ≠ .answered d p k .notFound)
    (he : some (n.refuse c reason) = some (n',sends)) :
    CheckState.Effect cfg.fromUpstream n.toCheckState ev n'.toCheckState (control sends) := by
  obtain ⟨hs,hf⟩ := refuse_effect n c reason
  rw [Option.some.inj he] at hs hf
  rw [hs,hf]
  exact .refused ev c hev hc ha hn

theorem hello_refused {c : C} {reason : Refusal} (hev : ev ∈ [.helloTimeout,.helloDone])
    (hc : n.check = .awaitHello c) (he : some (n.refuse c reason) = some (n',sends)) :
    CheckState.Effect cfg.fromUpstream n.toCheckState ev n'.toCheckState (control sends) :=
  refused_effect (.inr ⟨hev,hc⟩) (by simp [hc,Check.connection]) (by simp [hc]) (by simp [hc]) he

theorem helloTimeout_effect (h : n.step cfg .helloTimeout = some (n',sends)) :
    CheckState.Effect cfg.fromUpstream n.toCheckState .helloTimeout n'.toCheckState
      (control sends) := by
  simp only [step] at h
  split at h <;> try contradiction
  rename_i c hc
  split at h <;> try contradiction
  exact hello_refused (by simp) hc h

theorem helloDone_effect (h : n.step cfg .helloDone = some (n',sends)) :
    CheckState.Effect cfg.fromUpstream n.toCheckState .helloDone n'.toCheckState
      (control sends) := by
  simp only [step] at h
  split at h <;> try contradiction
  rename_i c hc
  split at h <;> try contradiction
  rename_i p held hp
  split at h
  · exact hello_refused (by simp) hc h
  · rename_i hr
    obtain ⟨rfl,rfl⟩ := Prod.mk.inj (Option.some.inj h)
    obtain ⟨hself,hno⟩ := refusalOf_eq_none hr
    exact .identified c p held hc hp hself hno

theorem ask_effect {q : Q} (h : n.step cfg (.ask q) = some (n',sends)) :
    CheckState.Effect cfg.fromUpstream n.toCheckState (.ask q) n'.toCheckState (control sends) := by
  simp only [step] at h
  split at h <;> try contradiction
  rename_i c p k hc
  simp only [ask] at h
  split at h
  · rename_i ht
    obtain ⟨rfl,rfl⟩ := Prod.mk.inj (Option.some.inj h)
    exact .askedNobody q c p k hc ht
  · rename_i d ds ht
    obtain ⟨rfl,rfl⟩ := Prod.mk.inj (Option.some.inj h)
    have he : CheckState.Effect cfg.fromUpstream n.toCheckState (.ask q) _ _ :=
      .asked q c p k hc (ht ▸ List.cons_ne_nil d ds)
    rw [ht] at he
    simpa [isRouted] using he

theorem queryDone_effect (h : n.step cfg .queryDone = some (n',sends)) :
    CheckState.Effect cfg.fromUpstream n.toCheckState .queryDone n'.toCheckState
      (control sends) := by
  simp only [step] at h
  split at h <;> try contradiction
  rename_i c p k q hc
  split at h <;> try contradiction
  rename_i r hr
  obtain ⟨rfl,rfl⟩ := Prod.mk.inj (Option.some.inj h)
  exact .queryEnded .queryDone c p k q r hc (.inl ⟨rfl,Option.bind_eq_some_iff.mp hr⟩)

theorem queryTimeout_effect (h : n.step cfg .queryTimeout = some (n',sends)) :
    CheckState.Effect cfg.fromUpstream n.toCheckState .queryTimeout n'.toCheckState
      (control sends) := by
  simp only [step] at h
  split at h <;> try contradiction
  rename_i c p k q hc
  obtain ⟨rfl,rfl⟩ := Prod.mk.inj (Option.some.inj h)
  exact .queryEnded .queryTimeout c p k q .unknown hc (.inr ⟨rfl,rfl⟩)

theorem resume_effect (h : n.step cfg .resume = some (n',sends)) :
    CheckState.Effect cfg.fromUpstream n.toCheckState .resume n'.toCheckState
      (control sends) := by
  simp only [step] at h
  split at h <;> try contradiction
  rename_i c p k r hc
  split at h <;> try contradiction
  rename_i pc hp
  have hps : (n.pending c).isSome := by simp [hp]
  have hconn : n.check.connection = some c := by simp [hc,Check.connection]
  cases r with
  | found => exact refused_effect (.inl rfl) hconn (by simp [hc]) (by simp [hc]) h
  | notFound =>
    obtain ⟨hs,hf⟩ := activate_effect {n with check := .idle} c pc.held
    rw [Option.some.inj h] at hs hf
    rw [hs,hf]
    exact .activated c p k hc hps
  | unknown =>
    dsimp only at h
    split at h
    · obtain ⟨rfl,rfl⟩ := Prod.mk.inj (Option.some.inj h)
      exact .retried c p k hc hps
    · exact refused_effect (.inl rfl) hconn (by simp [hc]) (by simp [hc]) h

theorem abandon_effect (h : n.step cfg .abandon = some (n',sends)) :
    CheckState.Effect cfg.fromUpstream n.toCheckState .abandon n'.toCheckState
      (control sends) := by
  simp only [step] at h
  split at h <;> try contradiction
  rename_i c hc
  split at h <;> try contradiction
  rename_i hp
  have hpn : n.pending c = none := by simpa using hp
  split at h
  · rename_i d p k q hk
    obtain rfl : d = c := by simpa [hk,Check.connection] using hc
    obtain ⟨rfl,rfl⟩ := Prod.mk.inj (Option.some.inj h)
    exact .abandonedQuery d p k q hk hpn
  · rename_i hk
    obtain ⟨rfl,rfl⟩ := Prod.mk.inj (Option.some.inj h)
    exact .abandoned c hc hpn hk

theorem forward_effect {q : Q} (h : n.step cfg (.forward q) = some (n',sends)) :
    CheckState.Effect cfg.fromUpstream n.toCheckState (.forward q) n'.toCheckState
      (control sends) := by
  simp only [step] at h
  split at h <;> try contradiction
  rename_i query t source hq
  obtain ⟨rfl,rfl⟩ := Prod.mk.inj (Option.some.inj h)
  simpa [isRouted] using CheckState.Effect.forwarded q query t source hq

theorem sendReply_effect {q : Q} {query : Query C} {t : I} {source : C} {r : ReachabilityResult}
    (hq : n.queries q = some ⟨query,t,some source,true⟩)
    (hev : ev = .forwardDone q ∧ query.result = some r ∨ ev = .forwardTimeout q ∧ r = .unknown)
    (he : some (n.sendReply source q r) = some (n',sends)) :
    CheckState.Effect cfg.fromUpstream n.toCheckState ev n'.toCheckState (control sends) := by
  obtain ⟨rfl,rfl⟩ := Prod.mk.inj (Option.some.inj he)
  have heffect : CheckState.Effect cfg.fromUpstream n.toCheckState ev _ _ :=
    .forwardEnded ev q query t source r hq hev
  by_cases hm : source ∈ n.allConnections <;> simpa [hm,isRouted] using heffect

/-- Every step of a node has one of the effects listed. -/
theorem step_effect (h : n.step cfg ev = some (n',sends)) :
    CheckState.Effect cfg.fromUpstream n.toCheckState ev n'.toCheckState (control sends) := by
  cases ev with
  | establish c =>
    obtain ⟨rfl,rfl⟩ := Prod.mk.inj (Option.some.inj h)
    simpa [isRouted] using CheckState.Effect.establish c
  | accept c =>
    obtain ⟨rfl,rfl⟩ := Prod.mk.inj (Option.some.inj h)
    simpa [isRouted] using CheckState.Effect.accept c
  | receive c m =>
    simp only [step,Option.ite_none_right_eq_some] at h
    have he := onReceive_effect n c m (cfg.length m) cfg.heldMessagesLimit cfg.fromUpstream
    rwa [Option.some.inj h.2] at he
  | connectionError c goesOn =>
    obtain ⟨hs,hf⟩ := connectionError_effect n c (cfg.fromUpstream c)
    cases goesOn <;>
    · obtain ⟨rfl,rfl⟩ := Prod.mk.inj (Option.some.inj h)
      exact hs ▸ hf ▸ .lost c _
  | closeConnection c =>
    simp only [step,Option.ite_none_right_eq_some] at h
    obtain ⟨hc,he⟩ := h
    obtain ⟨rfl,rfl⟩ := Prod.mk.inj (Option.some.inj he)
    exact .closeConnection c hc
  | closed c =>
    simp only [step,Option.ite_none_right_eq_some] at h
    obtain ⟨hc,he⟩ := h
    obtain ⟨hs,hf⟩ := closed_effect n c (cfg.fromUpstream c)
    rw [Option.some.inj he] at hs hf
    rw [hs,hf]
    exact .closed c hc
  | beginCheck c =>
    simp only [step,Option.ite_none_right_eq_some] at h
    obtain ⟨⟨hc,hp⟩,he⟩ := h
    obtain ⟨rfl,rfl⟩ := Prod.mk.inj (Option.some.inj he)
    exact .beginCheck c hc hp
  | helloTimeout => exact helloTimeout_effect h
  | helloDone => exact helloDone_effect h
  | ask q => exact ask_effect h
  | queryDone => exact queryDone_effect h
  | queryTimeout => exact queryTimeout_effect h
  | resume => exact resume_effect h
  | abandon => exact abandon_effect h
  | forward q => exact forward_effect h
  | forwardDone q =>
    simp only [step] at h
    split at h <;> try contradiction
    rename_i query t source hq
    split at h <;> try contradiction
    rename_i r hr
    exact sendReply_effect hq (.inl ⟨rfl,hr⟩) h
  | forwardTimeout q =>
    simp only [step] at h
    split at h <;> try contradiction
    rename_i query t source hq
    exact sendReply_effect hq (.inr ⟨rfl,rfl⟩) h

end Steps

theorem step_reading {cfg : Settings C I Q P} {n n' : PubSubNode C I Q P}
    {ev : NodeEvent C I Q P} {sends : List (Send C I Q P)}
    (h : n.step cfg ev = some (n',sends)) {d : C} (hd : n'.reading d = true) :
    n.reading d = true ∨ ev = .establish d ∨ ev = .accept d := by
  have started {c : C} (hr : n'.reading = Function.update n.reading c true) :
      n.reading d = true ∨ d = c := by
    rw [hr] at hd
    by_cases hdc : d = c
    · exact .inr hdc
    · exact .inl (by simpa [hdc] using hd)
  have kept {m : PubSubNode C I Q P} {b : Bool} {c : C} (hm : m.reading = n.reading)
      (hr : n'.reading = if b then m.reading else (m.endLoop c).reading) : n.reading d = true := by
    rw [hr] at hd
    by_cases hdc : d = c <;> cases b <;> simp_all [endLoop]
  have refused {c : C} {reason : Refusal} (he : n.refuse c reason = (n',sends)) :
      n.reading d = true :=
    kept (b := false) (connectionError_reading
      {n with check := .idle, refused := Function.update n.refused c (some reason)} c true)
      (congrArg (fun r => r.1.reading) he).symm
  cases ev with
  | establish c =>
    exact (started (congrArg (fun r => r.1.reading) (Option.some.inj h)).symm).imp_right
      fun hdc : d = c => .inl (by rw [hdc])
  | accept c =>
    exact (started (congrArg (fun r => r.1.reading) (Option.some.inj h)).symm).imp_right
      fun hdc : d = c => .inr (by rw [hdc])
  | receive c m =>
    simp only [step,Option.ite_none_right_eq_some] at h
    refine .inl (kept (b := true) (c := c) rfl ?_)
    rw [← onReceive_reading n c m (cfg.length m) cfg.heldMessagesLimit (cfg.fromUpstream c)]
    exact (congrArg (fun r => r.1.reading) (Option.some.inj h.2)).symm
  | connectionError c goesOn =>
    refine .inl (kept (b := goesOn) (c := c) (connectionError_reading n c (cfg.fromUpstream c)) ?_)
    rw [← congrArg (fun r => r.1.reading) (Option.some.inj h)]
    cases goesOn <;> rfl
  | closeConnection c =>
    simp only [step,Option.ite_none_right_eq_some] at h
    exact .inl (kept (b := false) (c := c) rfl
      (congrArg (fun r => r.1.reading) (Option.some.inj h.2)).symm)
  | closed c =>
    simp only [step,Option.ite_none_right_eq_some] at h
    refine .inl (kept (b := true) (c := c) (closed_reading n c (cfg.fromUpstream c)) ?_)
    exact (congrArg (fun r => r.1.reading) (Option.some.inj h.2)).symm
  | helloTimeout =>
    simp only [step] at h
    split at h <;> try contradiction
    split at h <;> try contradiction
    exact .inl (refused (Option.some.inj h))
  | helloDone =>
    simp only [step] at h
    split at h <;> try contradiction
    split at h <;> try contradiction
    split at h
    · exact .inl (refused (Option.some.inj h))
    · obtain ⟨rfl,rfl⟩ := Prod.mk.inj (Option.some.inj h)
      exact .inl hd
  | resume =>
    simp only [step] at h
    split at h <;> try contradiction
    split at h <;> try contradiction
    rename_i c p k r hc _ pc hp
    cases r with
    | found => exact .inl (refused (Option.some.inj h))
    | notFound =>
      refine .inl (kept (b := true) (c := c) (activate_reading {n with check := .idle} c pc.held) ?_)
      exact (congrArg (fun r => r.1.reading) (Option.some.inj h)).symm
    | unknown =>
      dsimp only at h
      split at h
      · obtain ⟨rfl,rfl⟩ := Prod.mk.inj (Option.some.inj h)
        exact .inl hd
      · exact .inl (refused (Option.some.inj h))
  | ask q =>
    simp only [step] at h
    split at h <;> try contradiction
    simp only [ask] at h
    split at h <;> obtain ⟨rfl,rfl⟩ := Prod.mk.inj (Option.some.inj h) <;> exact .inl hd
  | beginCheck c | queryDone | queryTimeout | abandon | forward q | forwardDone q
  | forwardTimeout q =>
    simp only [step] at h
    split at h <;> try contradiction
    all_goals (try (split at h <;> try contradiction))
    all_goals (try (split at h <;> try contradiction))
    all_goals obtain ⟨rfl,rfl⟩ := Prod.mk.inj (Option.some.inj h)
    all_goals exact .inl hd

end PubSubNode
end SoftwareBus
