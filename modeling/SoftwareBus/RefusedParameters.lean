import SoftwareBus.RequestCalls

/-! An operation whose parameters pass its checks raises no `ValueError` later, and one whose
parameters do not pass changes nothing. -/
namespace SoftwareBus
namespace RequestCalls

open SubjectMatcher Wire ParameterChecks

variable {B O α β : Type}

def outcome (x : Call B O α) (s : RequestClient B O) : Except CallError α × RequestClient B O :=
  x.run.run s

/-- The call raises no `ValueError`, whatever state it starts in. -/
def Quiet (x : Call B O α) : Prop := ∀ s err, (outcome x s).1 ≠ .error (.value err)

theorem outcome_bind (x : Call B O α) (f : α → Call B O β) (s : RequestClient B O) :
    outcome (x >>= f) s = match outcome x s with
      | (.ok a,s') => outcome (f a) s'
      | (.error err,s') => (.error err,s') := by
  simp only [outcome,ExceptT.run_bind,StateT.run_bind]
  generalize (x.run.run s : Id _) = p
  obtain ⟨r,s'⟩ := p
  cases r <;> rfl

theorem outcome_tryCatch (x : Call B O α) (f : CallError → Call B O α) (s : RequestClient B O) :
    outcome (tryCatch x f) s = match outcome x s with
      | (.ok a,s') => (.ok a,s')
      | (.error err,s') => outcome (f err) s' := by
  simp only [outcome,ExceptT.run_tryCatch,StateT.run_bind]
  generalize (x.run.run s : Id _) = p
  obtain ⟨r,s'⟩ := p
  cases r <;> rfl

theorem quiet_pure (a : α) : Quiet (pure a : Call B O α) := fun _ _ => nofun

theorem quiet_get : Quiet (get : Call B O (RequestClient B O)) := fun _ _ => nofun

theorem quiet_modify (f : RequestClient B O → RequestClient B O) :
    Quiet (modify f : Call B O Unit) := fun _ _ => nofun

theorem quiet_other (err : OtherError) : Quiet (throw (.other err) : Call B O α) :=
  fun _ _ => nofun

theorem Quiet.bind {x : Call B O α} {f : α → Call B O β} (hx : Quiet x) (hf : ∀ a, Quiet (f a)) :
    Quiet (x >>= f) := by
  intro s err
  rw [outcome_bind]
  have h := hx s err
  split
  · exact hf _ _ err
  · rename_i hr
    rw [hr] at h
    exact fun he => h (congrArg Except.error (Except.error.inj he))

theorem Quiet.tryCatch {x : Call B O α} {f : CallError → Call B O α} (hx : Quiet x)
    (hf : ∀ err, (∀ e, err ≠ .value e) → Quiet (f err)) : Quiet (tryCatch x f) := by
  intro s err
  rw [outcome_tryCatch]
  split
  · exact nofun
  · rename_i err' _ hr
    refine hf err' (fun e he => ?_) _ err
    exact hx s e (by rw [hr,he])

theorem quiet_ite {c : Prop} [Decidable c] {x y : Call B O α} (hx : c → Quiet x)
    (hy : ¬c → Quiet y) : Quiet (if c then x else y) := by
  split
  · exact hx ‹_›
  · exact hy ‹_›

theorem quiet_wait (x : RequestClient B O → Option OtherError × RequestClient B O) :
    Quiet (wait x) := by
  refine quiet_get.bind fun s => ?_
  obtain ⟨err,s'⟩ := x s
  refine Quiet.bind (fun _ _ => nofun) fun _ => ?_
  cases err with
  | none => exact quiet_pure ()
  | some err => exact quiet_other err

theorem check_bind {x : Except ParameterError α} {a : α} (h : x = .ok a) (f : α → Call B O β) :
    (check x >>= f) = f a := by
  subst h
  exact pure_bind a f

theorem outcome_check_bind {x : Except ParameterError α} {err : ParameterError}
    (h : x = .error err) (f : α → Call B O β) (s : RequestClient B O) :
    outcome (check x >>= f) s = (.error (.value err),s) := by
  subst h
  rfl

theorem quiet_send (env : Environment B O) {data : Bytes} (h : data.length ≤ maxPayloadLength) :
    Quiet (send env data) := by
  unfold send
  refine quiet_get.bind fun s => quiet_ite (fun _ => quiet_other _) fun _ => ?_
  rw [check_bind (checkPayloadLength_eq_ok (u := ()).mpr h)]
  exact (quiet_modify _).bind fun _ => quiet_wait _

theorem subscription_short {s : Str} {b : Bool} {e : Bytes}
    (h : encodeMessage (.subscription s b) = .ok e) : e.length ≤ maxPayloadLength := by
  obtain ⟨header,hs,he⟩ := bind_eq_ok.mp h
  obtain rfl := Except.ok.inj he
  obtain ⟨bs,-,hlen,rfl⟩ := encodeSubject_eq_ok.mp hs
  simp only [List.length_cons,List.length_append,Bytes.ofNat_length]
  simp only [maxSubjectLength,subjectLengthSize,maxPayloadLength] at *
  omega

theorem subscription_isOk {s : Str} {b : Bool} :
    (∃ e, encodeMessage (.subscription s b) = .ok e) ↔ ValidSubject s := encodeMessage_isOk

theorem quiet_publish (env : Environment B O) {s : Str} {p : Bytes}
    (h : checkPublish s p = .ok ()) : Quiet (publish env s p) := by
  obtain ⟨-,e,he,hlen⟩ := checkPublish_exact.mp h
  unfold publish
  rw [check_bind h,check_bind (ofCodec_eq_ok.mpr he)]
  exact (quiet_send env hlen).bind fun _ => (quiet_modify _).bind fun _ => quiet_wait _

variable [DecidableEq O]

theorem quiet_subscribe (env : Environment B O) {s : Str} (hs : ValidSubject s) (o : O) :
    Quiet (subscribe env s o) := by
  obtain ⟨e,he⟩ := subscription_isOk.mpr hs
  unfold subscribe
  rw [check_bind (ofCodec_eq_ok.mpr he)]
  refine quiet_get.bind fun u => (quiet_modify _).bind fun _ => quiet_ite (fun _ => ?_)
    fun _ => quiet_pure ()
  refine (quiet_send env (subscription_short he)).tryCatch fun err herr =>
    (quiet_modify _).bind fun _ => ?_
  cases err with
  | value e => exact absurd rfl (herr e)
  | other e => exact quiet_other e

theorem quiet_unsubscribe (env : Environment B O) {s : Str} (hs : ValidSubject s) (o : O) :
    Quiet (unsubscribe env s o) := by
  obtain ⟨e,he⟩ := subscription_isOk.mpr hs
  unfold unsubscribe
  refine quiet_get.bind fun u => (quiet_modify _).bind fun _ => quiet_ite (fun _ => ?_)
    fun _ => quiet_pure ()
  rw [check_bind (ofCodec_eq_ok.mpr he)]
  exact quiet_send env (subscription_short he)

theorem quiet_endWait (env : Environment B O) {s : Str} (hs : ValidSubject s) (o : O) :
    Quiet (endWait env s o) := by
  refine (quiet_modify _).bind fun _ => (quiet_unsubscribe env hs o).tryCatch fun err herr => ?_
  split
  · exact quiet_pure ()
  · exact quiet_pure ()
  · cases err with
    | value e => exact absurd rfl (herr e)
    | other e => exact quiet_other e

theorem quiet_endOpenWait (env : Environment B O) {s : Str} (hs : ValidSubject s) (o : O) :
    Quiet (endOpenWait env s o) :=
  quiet_get.bind fun _ => quiet_ite (fun _ => quiet_pure ()) fun _ => quiet_endWait env hs o

theorem quiet_endIfClosed (env : Environment B O) {s : Str} (hs : ValidSubject s) (o : O) :
    Quiet (endIfClosed env s o) :=
  quiet_get.bind fun _ => quiet_ite
    (fun _ => (quiet_endWait env hs o).bind fun _ => quiet_wait _) fun _ => quiet_pure ()

section Timeout

variable {T : Type} [Zero T] [LT T] [DecidableLT T]

theorem quiet_sendRequest (env : Environment B O) {rs i : Str} (hi : isUniqueId i = true)
    {payload : Bytes} {timeout : T} (h : checkSendRequest rs i payload timeout = .ok ()) (o : O) :
    Quiet (sendRequest env rs i payload timeout o) := by
  obtain ⟨hw,hsub,r,hr,hpub⟩ :=
    (checkSendRequest_exact hi payload (checkSendRequest_timeout h)).mp h
  have hs := subscription_isOk.mp hsub
  have hcheck : checkPublish (derivedRequestSubject rs) r = .ok () :=
    checkPublish_exact.mpr ⟨(hasWildcard_derivedRequestSubject rs).trans hw,hpub⟩
  unfold sendRequest
  rw [check_bind h]
  refine (quiet_modify _).bind fun _ => Quiet.bind ?_ fun _ =>
    (quiet_endIfClosed env hs o).bind fun _ => quiet_pure _
  refine Quiet.tryCatch ?_ fun err herr => (quiet_endOpenWait env hs o).bind fun _ => ?_
  · refine (quiet_subscribe env hs o).bind fun _ => Quiet.bind ?_ fun _ => ?_
    · exact quiet_ite (fun _ => quiet_modify _) fun _ => quiet_pure ()
    · rw [check_bind (ofCodec_eq_ok.mpr hr)]
      exact quiet_publish env hcheck
  · cases err with
    | value e => exact absurd rfl (herr e)
    | other e => exact quiet_other e

end Timeout

theorem validSubject_of_checkAcceptRequest {rs : Str} (h : checkAcceptRequest rs = .ok ()) :
    ValidSubject (derivedRequestSubject rs) :=
  subscription_isOk.mp ((checkAcceptRequest_exact rs true).mp h).2

variable [DecidableEq B]

theorem quiet_acceptRequest (env : Environment B O) {rs : Str}
    (h : checkAcceptRequest rs = .ok ()) (b : B) (o : O) : Quiet (acceptRequest env rs b o) := by
  have hs := validSubject_of_checkAcceptRequest h
  unfold acceptRequest
  rw [check_bind h]
  refine quiet_get.bind fun _ => quiet_ite (fun _ => ?_) fun _ => quiet_pure ()
  refine (quiet_modify _).bind fun _ => (quiet_subscribe env hs o).tryCatch fun err herr =>
    quiet_get.bind fun _ => quiet_ite (fun _ => quiet_other _) fun _ => (quiet_modify _).bind fun _ => ?_
  cases err with
  | value e => exact absurd rfl (herr e)
  | other e => exact quiet_other e

theorem quiet_stopAcceptRequest (env : Environment B O) {rs : Str}
    (h : checkAcceptRequest rs = .ok ()) (b : B) : Quiet (stopAcceptRequest env rs b) := by
  have hs := validSubject_of_checkAcceptRequest h
  unfold stopAcceptRequest
  rw [check_bind h]
  refine quiet_get.bind fun u => (quiet_modify _).bind fun _ => ?_
  split
  · exact quiet_unsubscribe env hs _
  · exact quiet_pure ()

omit [DecidableEq O] [DecidableEq B] in
theorem unchanged_of_check {x : Except ParameterError Unit} {f : Unit → Call B O α}
    (hf : x = .ok () → Quiet (f ())) {s s' : RequestClient B O} {err : ParameterError}
    (h : outcome (check x >>= f) s = (.error (.value err),s')) : s' = s := by
  cases hx : x with
  | error e =>
    rw [outcome_check_bind hx] at h
    exact (Prod.mk.inj h).2.symm
  | ok u =>
    rw [check_bind hx] at h
    exact absurd (congrArg Prod.fst h) (hf hx s err)

omit [DecidableEq O] [DecidableEq B] in
theorem publish_unchanged {env : Environment B O} {s : Str} {p : Bytes} {u u' : RequestClient B O}
    {err : ParameterError} (h : outcome (publish env s p) u = (.error (.value err),u')) :
    u' = u := by
  refine unchanged_of_check (fun hcheck => ?_) h
  have hquiet := quiet_publish env hcheck
  rwa [publish,check_bind hcheck] at hquiet

omit [DecidableEq O] [DecidableEq B] in
theorem sendReply_unchanged {env : Environment B O} {s : Str} {p : Bytes}
    {u u' : RequestClient B O} {err : ParameterError}
    (h : outcome (sendReply env s p) u = (.error (.value err),u')) : u' = u := by
  cases hcheck : checkSendReply s p with
  | error e =>
    rw [sendReply,outcome_check_bind hcheck] at h
    exact (Prod.mk.inj h).2.symm
  | ok _ =>
    rw [sendReply,check_bind hcheck] at h
    exact publish_unchanged h

/-- The checks of the parameters are exact. Where they pass, no `ValueError` is raised later, also
not by the unsubscribe at the end of a request; where a `ValueError` is raised, nothing has been
registered, started, sent or delivered. -/
theorem parameter_checks_exact {T : Type} [Zero T] [LT T] [DecidableLT T] :
    (∀ s, ValidSubject s → ∀ p : Bytes, checkPublishLength s p.length = .ok () ↔
      ∃ e, encodeMessage (.publish s p) = .ok e ∧ e.length ≤ maxPayloadLength) ∧
    (∀ rs i payload (timeout : T), isUniqueId i = true → ¬timeout < 0 →
      (checkSendRequest rs i payload timeout = .ok () ↔ hasWildcard rs = false ∧
        (∃ e, encodeMessage (.subscription (derivedReplySubject rs i) true) = .ok e) ∧
        ∃ r, encodeRequest ⟨derivedReplySubject rs i,payload⟩ = .ok r ∧
          ∃ e, encodeMessage (.publish (derivedRequestSubject rs) r) = .ok e ∧
            e.length ≤ maxPayloadLength)) ∧
    (∀ (env : Environment B O) rs i payload (timeout : T) o, isUniqueId i = true →
      (∀ err, checkSendRequest rs i payload timeout = .error err → ∀ u,
        outcome (sendRequest env rs i payload timeout o) u = (.error (.value err),u)) ∧
      (checkSendRequest rs i payload timeout = .ok () →
        Quiet (sendRequest env rs i payload timeout o) ∧
        Quiet (endWait env (derivedReplySubject rs i) o))) ∧
    (∀ rs b, checkAcceptRequest rs = .ok () ↔ hasWildcard rs = false ∧
      ∃ e, encodeMessage (.subscription (derivedRequestSubject rs) b) = .ok e) ∧
    (∀ (env : Environment B O) rs b o,
      (∀ err, checkAcceptRequest rs = .error err → ∀ u,
        outcome (acceptRequest env rs b o) u = (.error (.value err),u) ∧
        outcome (stopAcceptRequest env rs b) u = (.error (.value err),u)) ∧
      (checkAcceptRequest rs = .ok () →
        Quiet (acceptRequest env rs b o) ∧ Quiet (stopAcceptRequest env rs b))) ∧
    ∀ (env : Environment B O) s p,
      (∀ err, checkPublish s p = .error err → ∀ u,
        outcome (publish env s p) u = (.error (.value err),u)) ∧
      (∀ err, checkSendReply s p = .error err → ∀ u,
        outcome (sendReply env s p) u = (.error (.value err),u)) ∧
      ∀ err u u', outcome (publish env s p) u = (.error (.value err),u') ∨
        outcome (sendReply env s p) u = (.error (.value err),u') → u' = u := by
  refine ⟨fun s => checkPublishLength_exact,
    fun rs i payload timeout hi ht => checkSendRequest_exact hi payload ht,
    fun env rs i payload timeout o hi => ⟨fun err h u => outcome_check_bind h _ u,fun h => ?_⟩,
    checkAcceptRequest_exact,
    fun env rs b o => ⟨fun err h u => ⟨outcome_check_bind h _ u,outcome_check_bind h _ u⟩,
      fun h => ⟨quiet_acceptRequest env h b o,quiet_stopAcceptRequest env h b⟩⟩,
    fun env s p => ⟨fun err h u => outcome_check_bind h _ u,
      fun err h u => outcome_check_bind h _ u,fun err u u' h => ?_⟩⟩
  · obtain ⟨-,hsub,-⟩ :=
      (checkSendRequest_exact hi payload (checkSendRequest_timeout h)).mp h
    exact ⟨quiet_sendRequest env hi h o,quiet_endWait env (subscription_isOk.mp hsub) o⟩
  · exact h.elim publish_unchanged sendReply_unchanged

end RequestCalls
end SoftwareBus
