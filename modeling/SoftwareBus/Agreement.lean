import SoftwareBus.PubSubClient

/-! What the node of a client's connection has been told, and what the client has registered. -/
namespace SoftwareBus

open Transition

variable {C K O D : Type}

@[simp] theorem lastTold_nil (u : Str) : lastTold u [] = false := rfl

theorem lastTold_append (u : Str) (ms : List (Str × Bool)) (m : Str × Bool) :
    lastTold u (ms++[m]) = if m.1 = u then m.2 else lastTold u ms := by
  simp [lastTold]

theorem lastTold_eq_false {u : Str} {ms : List (Str × Bool)} (h : ∀ m ∈ ms, m.1 ≠ u) :
    lastTold u ms = false := by
  unfold lastTold
  induction ms with
  | nil => rfl
  | cons m ms ih =>
    rw [List.foldl_cons,if_neg (h m List.mem_cons_self)]
    exact ih fun x hx => h x (List.mem_cons_of_mem m hx)

namespace BaseLayerClient

variable [DecidableEq C] [DecidableEq K] {s t : BaseLayerClient C K D} {a : ClientAction C K D}

theorem closeLost_calls (s : BaseLayerClient C K D) {k j : K} (c : C) (task : Option C)
    (hjk : j ≠ k) : (s.closeLost k c task).calls j = s.calls j := by
  unfold closeLost
  dsimp only
  split <;> simp [finish,endCall,setCall,setConn,hjk]

theorem step_calls (h : s.step a = some t) {j : K} (hj : a.call ≠ some j) :
    t.calls j = s.calls j := by
  have hne (k : K) (hk : a.call = some k) : j ≠ k := fun hjk => hj (hjk ▸ hk)
  cases step_outcome h with
  | connected | unconnected | loop | loopFailed | loopGone | loopReported | loopReportedAgain
  | loopClosed => rfl
  | reported k c task | raised k c task => exact closeLost_calls s c task (hne k rfl)
  | _ =>
    have hjk := hne _ rfl
    simp [setCall,setConn,endCall,lose,finish,forget,shut,hjk]

theorem connection_kept (h : s.step a = some t) (ha : ∀ k c, a ≠ .opened k c) {c : C}
    (hc : t.connection = some c) : s.connection = some c := by
  have hs := step_record h
  generalize hr : t.toClientRecord = r at hs hc
  cases hs with
  | same => exact hc
  | opened k d => exact absurd rfl (ha k d)
  | lose d hd hcause => simp [lose] at hc
  | close k task d hd => exact hc
  | closeAgain k task d hd => simp at hc
  | forget k d task hcall => simp at hc

/-- A step of a call that its `send` then raises in: it is cancelled, or its send has failed. -/
def raises (s : BaseLayerClient C K D) : ClientAction C K D → Bool
  | .sendFailed k => (s.sending k).any fun c => decide (s.connection ≠ some c)
  | .reported k | .interrupt k =>
    match s.calls k with
    | some (.reporting c,_) => (s.conn c).closing
    | _ => true
  | .closed _ => true
  | _ => false

/-- What can end the wait of a `send`. -/
theorem step_sending (h : s.step a = some t) {k : K} (ha : a.call = some k) {c : C} {task : Option C}
    (hk : s.calls k = some (.sending c,task)) :
    a = .sent k ∨ a = .interrupt k ∧ t.calls k = none ∨
      a = .sendFailed k ∧ t.connection ≠ some c := by
  cases a with
  | sent j => exact .inl (by rw [Option.some.inj ha])
  | interrupt j =>
    obtain rfl := Option.some.inj ha
    simp only [step,hk] at h
    obtain rfl := Option.some.inj h
    exact .inr (.inl ⟨rfl,by simp [endCall]⟩)
  | sendFailed j =>
    obtain rfl := Option.some.inj ha
    simp only [step,hk] at h
    obtain rfl := Option.some.inj h
    refine .inr (.inr ⟨rfl,?_⟩)
    split
    · simp [lose,setCall]
    · simpa [finish,endCall]
  | connect j task' | send j task' | close j task' =>
    obtain rfl := Option.some.inj ha
    simp [step,hk] at h
  | opened j d | reported j | closed j =>
    obtain rfl := Option.some.inj ha
    simp [step,hk] at h
  | loop d ev | loopFailed d | loopReported d | loopClosed d => cases ha

theorem opened_cases {k : K} {c : C} (h : s.step (.opened k c) = some t) :
    (s.conn c).made = false ∧ (t.connection = s.connection ∧ (t.calls k).isSome = true ∨
      t.connection = some c ∧ t.calls k = none) := by
  cases step_outcome h with
  | discarded _ _ _ _ hnew => exact ⟨hnew,.inl ⟨rfl,by simp [setCall,setConn]⟩⟩
  | opened _ _ _ _ hnew => exact ⟨hnew,.inr ⟨rfl,by simp [setConn,endCall]⟩⟩

end BaseLayerClient

namespace PubSubClient

def registered (s : PubSubClient C K O D) (u : Str) : Bool := !(s.registrations.callbacks u).isEmpty

variable [DecidableEq C]

def messages (s : PubSubClient C K O D) (c : C) : List (Str × Bool) :=
  s.written c++(s.outbox.filter fun e => decide (e.target = c)).map fun e => (e.subject,e.subscribe)

def told (s : PubSubClient C K O D) (c : C) (u : Str) : Bool := lastTold u (s.messages c)

def Unsaid (s : PubSubClient C K O D) (c : C) (u : Str) : Prop := ∀ m ∈ s.messages c, m.1 ≠ u

/-- The call has still to come to the subject in the `connect` that has made the connection. -/
def Owes (s : PubSubClient C K O D) (k : K) (c : C) (u : Str) : Prop :=
  s.registered u = true ∧ s.Unsaid c u ∧ ∃ us task, s.calls k = some (.resubscribe c us,task) ∧ u ∈ us

/-- What holds apart from one call, which owes what is given. -/
structure Apart (s : PubSubClient C K O D) (k : K) (W : C → Str → Prop) : Prop where
  known : s.client.Known
  outbox : ∀ e ∈ s.outbox, e.call ≠ k ∧ (s.calls e.call).isSome ∧
    ∃ task, s.client.calls e.call = some (.sending e.target,task)
  own : ∀ j, j ≠ k → ∀ c us task, s.calls j = some (.resubscribe c us,task) →
    s.client.connection = some c → ∃ task, s.client.calls j = some (.sending c,task)
  unmade : ∀ c, (s.client.conn c).made = false → s.written c = [] ∧ (∀ e ∈ s.outbox, e.target ≠ c) ∧
    ∀ j, j ≠ k → ∀ us task, s.calls j ≠ some (.resubscribe c us,task)
  told : ∀ c, s.client.connection = some c → ∀ u, s.told c u = s.registered u ∨ W c u ∨
    ∃ j, j ≠ k ∧ s.Owes j c u

/-- The node of the connection has been told what is registered, or some call owes it. -/
structure Kept (s : PubSubClient C K O D) : Prop where
  known : s.client.Known
  outbox : ∀ e ∈ s.outbox, (s.calls e.call).isSome ∧
    ∃ task, s.client.calls e.call = some (.sending e.target,task)
  own : ∀ k c us task, s.calls k = some (.resubscribe c us,task) → s.client.connection = some c →
    ∃ task, s.client.calls k = some (.sending c,task)
  unmade : ∀ c, (s.client.conn c).made = false → s.written c = [] ∧ (∀ e ∈ s.outbox, e.target ≠ c) ∧
    ∀ k us task, s.calls k ≠ some (.resubscribe c us,task)
  told : ∀ c, s.client.connection = some c → ∀ u, s.told c u = s.registered u ∨ ∃ k, s.Owes k c u

variable {s t : PubSubClient C K O D}

theorem Unsaid.told {c : C} {u : Str} (h : s.Unsaid c u) : s.told c u = false := lastTold_eq_false h

theorem Owes.congr {k : K} {c : C} {u : Str} (h : s.Owes k c u) (hk : t.calls k = s.calls k)
    (hm : t.messages c = s.messages c) (hr : t.registered u = s.registered u) : t.Owes k c u := by
  unfold Owes Unsaid
  rw [hk,hm,hr]
  exact h

theorem Kept.idle (h : s.Kept) (hidle : ∀ k, s.calls k = none) {c : C}
    (hc : s.client.connection = some c) (u : Str) :
    lastTold u (s.written c) = true ↔ s.registrations.callbacks u ≠ [] := by
  have hout : s.outbox = [] := by
    refine List.eq_nil_iff_forall_not_mem.mpr fun e he => ?_
    have hcall := (h.outbox e he).1
    simp [hidle] at hcall
  have htold : s.told c u = s.registered u := by
    refine (h.told c hc u).resolve_right ?_
    rintro ⟨k,-,-,us,task,hk,-⟩
    simp [hidle] at hk
  have hwritten : s.told c u = lastTold u (s.written c) := by simp [PubSubClient.told,messages,hout]
  rw [← hwritten,htold]
  simp [registered]

variable [DecidableEq K]

omit [DecidableEq C] in
theorem hasWritten_iff {k : K} : s.hasWritten k = true ↔ ∀ e ∈ s.outbox, e.call ≠ k := by
  simp [hasWritten]

theorem Apart.endCall {k : K} {W : C → Str → Prop} (h : s.Apart k W)
    (hW : ∀ c, s.client.connection = some c → ∀ u, ¬W c u) : (s.endCall k).Kept := by
  have hother {j : K} (hj : j ≠ k) : (s.endCall k).calls j = s.calls j := by
    simp [PubSubClient.endCall,hj]
  have hnone {j : K} {x : SubscriberCall C O × Option C} (hx : (s.endCall k).calls j = some x) :
      j ≠ k := by
    rintro rfl
    simp [PubSubClient.endCall] at hx
  refine ⟨h.known,fun e he => ?_,fun j c us task hj hc => ?_,fun c hc => ?_,fun c hc u => ?_⟩
  · obtain ⟨hk,hcall,hsend⟩ := h.outbox e he
    exact ⟨by rwa [hother hk],hsend⟩
  · have hjk := hnone hj
    exact h.own j hjk c us task (hother hjk ▸ hj) hc
  · obtain ⟨hwritten,hout,hcalls⟩ := h.unmade c hc
    refine ⟨hwritten,hout,fun j us task hj => ?_⟩
    have hjk := hnone hj
    exact hcalls j hjk us task (hother hjk ▸ hj)
  · rcases h.told c hc u with htold | hw | ⟨j,hj,howes⟩
    · exact .inl htold
    · exact absurd hw (hW c hc u)
    · exact .inr ⟨j,howes.congr (hother hj) rfl rfl⟩

theorem Apart.send {k : K} {W : C → Str → Prop} {task : Option C} {u : Str} {b : Bool}
    {call : SubscriberCall C O} (h : s.Apart k W) (hsend : s.send k task u b call = some t)
    (hb : s.registered u = b)
    (hmade : ∀ c us, call = .resubscribe c us → (s.client.conn c).made = true)
    (hW : ∀ c, s.client.connection = some c → ∀ v, v ≠ u → W c v →
      s.registered v = true ∧ s.Unsaid c v ∧ ∃ us, call = .resubscribe c us ∧ v ∈ us) : t.Kept := by
  obtain ⟨d,hd,rfl⟩ := Option.map_eq_some_iff.mp hsend
  have hset {j : K} (hj : j ≠ k) : (s.client.setCall k (.sending d) task).calls j = s.client.calls j := by
    simp [BaseLayerClient.setCall,hj]
  have hcalls {j : K} (hj : j ≠ k) :
      Function.update s.calls k (some (call,task)) j = s.calls j := by simp [hj]
  refine ⟨⟨h.known.toKnown,h.known.made,fun j c task' hj => ?_⟩,fun e he => ?_,
    fun j c us task' hj hc => ?_,fun c hc => ?_,fun c hc v => ?_⟩
  · have hjk : j ≠ k := by rintro rfl; simp [BaseLayerClient.setCall] at hj
    exact h.known.waits j c task' (hset hjk ▸ hj)
  · rcases List.mem_append.mp he with he | he
    · obtain ⟨hk,hcall,hwait⟩ := h.outbox e he
      dsimp only
      rw [hset hk,hcalls hk]
      exact ⟨hcall,hwait⟩
    · obtain rfl := List.mem_singleton.mp he
      exact ⟨by simp,task,by simp [BaseLayerClient.setCall]⟩
  · by_cases hjk : j = k
    · subst j
      obtain rfl : d = c := Option.some.inj (hd.symm.trans hc)
      exact ⟨task,by simp [BaseLayerClient.setCall]⟩
    · dsimp only at hj ⊢
      rw [hset hjk]
      exact h.own j hjk c us task' (hcalls hjk ▸ hj) hc
  · change (s.client.conn c).made = false at hc
    obtain ⟨hwritten,hout,hno⟩ := h.unmade c hc
    refine ⟨hwritten,fun e he => ?_,fun j us task' hj => ?_⟩
    · rcases List.mem_append.mp he with he | he
      · exact hout e he
      · obtain rfl := List.mem_singleton.mp he
        rintro rfl
        exact absurd (h.known.made d (h.known.connected d hd).1) (by simpa using hc)
    · by_cases hjk : j = k
      · subst j
        have hcall : call = .resubscribe c us := by simpa using congrArg (Option.map Prod.fst) hj
        exact absurd (hmade c us hcall) (by simpa using hc)
      · exact hno j hjk us task' (hcalls hjk ▸ hj)
  · obtain rfl : d = c := Option.some.inj (hd.symm.trans hc)
    have hmessages : PubSubClient.messages {s with
        client := s.client.setCall k (.sending d) task
        outbox := s.outbox++[⟨k,d,u,b⟩]
        calls := Function.update s.calls k (some (call,task))} d = s.messages d++[(u,b)] := by
      simp [messages]
    by_cases huv : u = v
    · refine .inl ?_
      rw [PubSubClient.told,hmessages,lastTold_append,if_pos huv]
      exact huv ▸ hb.symm
    · have hunsaid (hs : s.Unsaid d v) : ∀ m ∈ s.messages d++[(u,b)], m.1 ≠ v := fun m hm =>
        (List.mem_append.mp hm).elim (hs m) fun hm => by rwa [List.mem_singleton.mp hm]
      rcases h.told d hd v with htold | hw | ⟨j,hj,hr,hs,hus⟩
      · refine .inl ?_
        rw [PubSubClient.told,hmessages,lastTold_append,if_neg huv]
        exact htold
      · obtain ⟨hr,hs,us,hcall,hv⟩ := hW d hd v (Ne.symm huv) hw
        refine .inr ⟨k,hr,?_,us,task,by simp [hcall],hv⟩
        rw [Unsaid,hmessages]
        exact hunsaid hs
      · refine .inr ⟨j,hr,?_,?_⟩
        · rw [Unsaid,hmessages]
          exact hunsaid hs
        · dsimp only
          rwa [hcalls hj]

theorem Apart.resubscribe {k : K} {task : Option C} {c : C} {us : List Str}
    (h : s.Apart k fun d u => d = c ∧ s.registered u = true ∧ s.Unsaid c u ∧ u ∈ us)
    (hc : (s.client.conn c).made = true) : (s.resubscribe k task c us).Kept := by
  induction us with
  | nil =>
    refine h.endCall fun d hd u => ?_
    rintro ⟨-,-,-,hu⟩
    simp at hu
  | cons u us ih =>
    unfold PubSubClient.resubscribe
    split
    · rename_i hr
      cases hsend : s.send k task u true (.resubscribe c us) with
      | none =>
        have hd : s.client.connection = none := Option.map_eq_none_iff.mp hsend
        exact h.endCall (by simp [hd])
      | some t =>
        refine h.send hsend (by simpa [registered] using hr) (fun d vs hd => ?_) ?_
        · obtain ⟨rfl,-⟩ : c = d ∧ us = vs := by simpa using hd
          exact hc
        · rintro d hd v hv ⟨rfl,hreg,hsaid,hmem⟩
          exact ⟨hreg,hsaid,us,rfl,(List.mem_cons.mp hmem).resolve_left hv⟩
    · rename_i hr
      refine ih ⟨h.known,h.outbox,h.own,h.unmade,fun d hd v => ?_⟩
      rcases h.told d hd v with htold | ⟨hdc,hreg,hsaid,hmem⟩ | howes
      · exact .inl htold
      · refine .inr (.inl ⟨hdc,hreg,hsaid,(List.mem_cons.mp hmem).resolve_left ?_⟩)
        rintro rfl
        exact hr (by simpa [registered] using hreg)
      · exact .inr (.inr howes)

omit [DecidableEq K] in
/-- A call that does not wait yet changes the callbacks of one subject. -/
theorem Kept.enroll (h : s.Kept) {k : K} (hk : s.calls k = none) {r : Registrations O} {u : Str}
    (hr : ∀ v, v ≠ u → r.callbacks v = s.registrations.callbacks v) :
    {s with registrations := r}.Apart k fun _ v => v = u := by
  have hne {j : K} (hj : (s.calls j).isSome) : j ≠ k := by
    rintro rfl
    simp [hk] at hj
  refine ⟨h.known,fun e he => ?_,fun j _ => h.own j,fun c hc => ?_,fun c hc v => ?_⟩
  · exact ⟨hne (h.outbox e he).1,h.outbox e he⟩
  · obtain ⟨hwritten,hout,hno⟩ := h.unmade c hc
    exact ⟨hwritten,hout,fun j _ => hno j⟩
  · by_cases hv : v = u
    · exact .inr (.inl hv)
    · have hreg : PubSubClient.registered {s with registrations := r} v = s.registered v := by
        simp [registered,hr v hv]
      rcases h.told c hc v with htold | ⟨j,howes⟩
      · exact .inl (htold.trans hreg.symm)
      · obtain ⟨-,-,us,task,hj,-⟩ := id howes
        exact .inr (.inr ⟨j,hne (by simp [hj]),howes.congr rfl rfl hreg⟩)

omit [DecidableEq K] in
/-- The callbacks change, and no subject gets its first or loses its last. -/
theorem Kept.reregister (h : s.Kept) {r : Registrations O}
    (hr : s.client.connection.isSome → ∀ v, r.callbacks v = [] ↔ s.registrations.callbacks v = []) :
    {s with registrations := r}.Kept := by
  refine ⟨h.known,h.outbox,h.own,h.unmade,fun c hc v => ?_⟩
  have hreg : PubSubClient.registered {s with registrations := r} v = s.registered v := by
    have hv : (r.callbacks v).isEmpty = (s.registrations.callbacks v).isEmpty := by
      rw [Bool.eq_iff_iff,List.isEmpty_iff,List.isEmpty_iff]
      exact hr (Option.isSome_of_mem hc) v
    simp [registered,hv]
  exact (h.told c hc v).imp (fun htold => htold.trans hreg.symm)
    fun ⟨j,howes⟩ => ⟨j,howes.congr rfl rfl hreg⟩

variable [DecidableEq O]

theorem subscribe_kept {k : K} {task : Option C} {u : Str} {o : O} (h : s.Kept)
    (hk : s.calls k = none) (ht : (if s.registrations.callbacks u = [] then
        ({s with registrations := s.registrations.register u o}.send k task u true
          (.subscribe u o)).getD
          {s with registrations := (s.registrations.register u o).remove u o}
      else {s with registrations := s.registrations.register u o}) = t) : t.Kept := by
  have hreg (v : Str) := s.registrations.callbacks_register u o v
  split at ht
  · rename_i hfirst
    have hone : (s.registrations.register u o).callbacks u = [o] := by rw [hreg,if_pos rfl,hfirst]; rfl
    cases hsend : PubSubClient.send {s with registrations := s.registrations.register u o} k task u true
        (.subscribe u o) with
    | none =>
      rw [hsend] at ht
      obtain rfl := ht
      refine h.reregister fun hc => ?_
      have hnone : s.client.connection = none := Option.map_eq_none_iff.mp hsend
      simp [hnone] at hc
    | some t' =>
      rw [hsend] at ht
      obtain rfl := ht
      have hv (v : Str) (hv : v ≠ u) : (s.registrations.register u o).callbacks v =
          s.registrations.callbacks v := by rw [hreg,if_neg hv]
      refine (h.enroll hk hv).send hsend (by simp [registered,hone]) (by simp) ?_
      exact fun c hc v hvu hvu' => absurd hvu' hvu
  · rename_i hmore
    obtain rfl := ht
    refine h.reregister fun _ v => ?_
    rw [hreg]
    split
    · rename_i hvu
      simp [hvu,hmore]
    · rfl

theorem unsubscribe_kept {k : K} {task : Option C} {u : Str} {o : O} (h : s.Kept)
    (hk : s.calls k = none) (ht : (if s.registrations.isLast u o = true then
        ({s with registrations := s.registrations.remove u o}.send k task u false .unsubscribe).getD
          {s with registrations := s.registrations.remove u o}
      else {s with registrations := s.registrations.remove u o}) = t) : t.Kept := by
  have hreg (v : Str) := s.registrations.callbacks_remove u o v
  split at ht
  · rename_i hlast
    obtain ⟨hmem,hlast⟩ := of_decide_eq_true hlast
    cases hsend : PubSubClient.send {s with registrations := s.registrations.remove u o} k task u false
        .unsubscribe with
    | none =>
      rw [hsend] at ht
      obtain rfl := ht
      refine h.reregister fun hc => ?_
      have hnone : s.client.connection = none := Option.map_eq_none_iff.mp hsend
      simp [hnone] at hc
    | some t' =>
      rw [hsend] at ht
      obtain rfl := ht
      have hv (v : Str) (hv : v ≠ u) : (s.registrations.remove u o).callbacks v =
          s.registrations.callbacks v := by rw [hreg,if_neg hv]
      refine (h.enroll hk hv).send hsend ?_ (by simp) ?_
      · simp [registered,hreg,hlast]
      · exact fun c hc v hvu hvu' => absurd hvu' hvu
  · rename_i hlast
    obtain rfl := ht
    refine h.reregister fun _ v => ?_
    rw [hreg]
    split
    · rename_i hvu
      rw [hvu]
      by_cases hmem : o ∈ s.registrations.callbacks u
      · have herase : (s.registrations.callbacks u).erase o ≠ [] := fun he =>
          hlast (decide_eq_true ⟨hmem,he⟩)
        exact ⟨fun he => absurd he herase,fun he => by simp [he] at hmem⟩
      · rw [List.erase_of_not_mem hmem]
    · rfl

section

variable {a : ClientAction C K D} {b : BaseLayerClient C K D}

omit [DecidableEq O] in
theorem client_connection (ha : s.client.step a = some b) (hother : s.other a = true) {c : C}
    (hc : b.connection = some c) : s.client.connection = some c := by
  refine BaseLayerClient.connection_kept ha (fun j d => ?_) hc
  rintro rfl
  simp [PubSubClient.other] at hother

omit [DecidableEq O] in
theorem client_made (ha : s.client.step a = some b) {c : C} (hc : (b.conn c).made = false) :
    (s.client.conn c).made = false := by
  rw [Bool.eq_false_iff]
  intro hm
  simp [BaseLayerClient.step_made ha hm] at hc

omit [DecidableEq O] in
theorem Kept.client (h : s.Kept) (ha : s.client.step a = some b)
    (hconn : ∀ c, b.connection = some c → s.client.connection = some c)
    (hwrote : a.call.all s.hasWritten = true)
    (hown : ∀ j c us task, s.calls j = some (.resubscribe c us,task) → b.connection = some c →
      a.call ≠ some j) : {s with client := b}.Kept := by
  refine ⟨BaseLayerClient.step_known h.known ha,fun e he => ?_,fun j c us task hj hc => ?_,
    fun c hc => h.unmade c (client_made ha hc),fun c hc => h.told c (hconn c hc)⟩
  · dsimp only
    rw [BaseLayerClient.step_calls ha fun hk =>
      hasWritten_iff.mp ((Option.all_eq_true _ _).mp hwrote _ hk) e he rfl]
    exact h.outbox e he
  · dsimp only
    rw [BaseLayerClient.step_calls ha (hown j c us task hj hc)]
    exact h.own j c us task hj (hconn c hc)

omit [DecidableEq O] in
theorem Kept.apart (h : s.Kept) (ha : s.client.step a = some b) {k : K} (hk : a.call = some k)
    (hwrote : s.hasWritten k = true)
    (hconn : ∀ j c us task, j ≠ k → s.calls j = some (.resubscribe c us,task) →
      b.connection = some c → s.client.connection = some c) {r : Registrations O}
    {W : C → Str → Prop}
    (htold : ∀ c, b.connection = some c → ∀ u,
      s.told c u = PubSubClient.registered {s with registrations := r} u ∨ W c u ∨
        ∃ j, j ≠ k ∧ PubSubClient.Owes {s with registrations := r} j c u) :
    ({s with client := b, registrations := r}).Apart k W := by
  have hcall {j : K} (hj : j ≠ k) : b.calls j = s.client.calls j :=
    BaseLayerClient.step_calls ha (by rw [hk]; simpa using hj.symm)
  refine ⟨BaseLayerClient.step_known h.known ha,fun e he => ?_,
    fun j hj c us task hres hc => ?_,fun c hc => ?_,htold⟩
  · have hek := hasWritten_iff.mp hwrote e he
    dsimp only
    rw [hcall hek]
    exact ⟨hek,h.outbox e he⟩
  · dsimp only
    rw [hcall hj]
    exact h.own j c us task hres (hconn j c us task hj hres hc)
  · obtain ⟨hwritten,hout,hno⟩ := h.unmade c (client_made ha hc)
    exact ⟨hwritten,hout,fun j _ => hno j⟩

omit [DecidableEq O] in
/-- A call that waits for the connection is ended by its cancellation only, if that is kept. -/
theorem waits (ha : s.client.step a = some b) (hother : s.other a = true) {k : K}
    (hk : a.call = some k) (hcall : (s.calls k).isSome) {c : C} {task : Option C}
    (hc : b.connection = some c) (hsend : s.client.calls k = some (.sending c,task)) :
    a = .interrupt k ∧ b.calls k = none := by
  rcases BaseLayerClient.step_sending ha hk hsend with rfl | hint | ⟨-,hne⟩
  · simp only [PubSubClient.other,Option.isNone_iff_eq_none] at hother
    simp [hother] at hcall
  · exact hint
  · exact absurd hc hne

omit [DecidableEq O] in
theorem raises_of_ends (ha : s.client.step a = some b) (hother : s.other a = true) {k : K}
    (hk : a.call = some k) (hcall : (s.calls k).isSome) (hb : b.calls k = none) :
    s.client.raises a = true := by
  have lost {d : C} {task : Option C} (hd : (s.client.closeLost k d task).calls k = none) :
      (s.client.conn d).closing = true := by
    unfold BaseLayerClient.closeLost at hd
    by_contra hopen
    simp [hopen,BaseLayerClient.setCall] at hd
  cases BaseLayerClient.step_outcome ha with
  | sendFailed j d task =>
    obtain rfl := Option.some.inj hk
    simp [BaseLayerClient.setCall] at hb
  | sendGone j d task hj hd => simp [BaseLayerClient.raises,BaseLayerClient.sending,hj,hd]
  | reported j d task hj | raised j d task hj =>
    obtain rfl := Option.some.inj hk
    simpa [BaseLayerClient.raises,hj] using lost hb
  | interrupted j w hj hw =>
    simp only [BaseLayerClient.raises]
    split <;> try rfl
    rename_i d task hd
    exact absurd (congrArg Prod.fst (Option.some.inj (hj.symm.trans hd))) (hw d)
  | closed | closedFailed | closedDiscarded => rfl
  | loop | loopFailed | loopGone | loopReported | loopReportedAgain | loopClosed => cases hk
  | _ =>
    obtain rfl := Option.some.inj hk
    simp_all [PubSubClient.other]

end

/-- The subscription that a call takes back in this step, as its send is cancelled or has failed. -/
def takesBack (s : PubSubClient C K O D) : SubscriberAction C K O D → Option (Str × O)
  | .client a =>
    match a.call.bind s.calls with
    | some (.subscribe u o,_) => if s.client.raises a = true then some (u,o) else none
    | _ => none
  | _ => none

/-- A `connect` that has made the connection is cancelled only if it has still to come to no subject
with callbacks but those that other calls have sent a message about. A `subscribe` is taken back
while connected only if its callback is not the last one left under its subject, or no call has
sent this connection a message about that. -/
structure KeepsAgreement (s : PubSubClient C K O D) (a : SubscriberAction C K O D) : Prop where
  connect : ∀ k c us task, a = .client (.interrupt k) → s.calls k = some (.resubscribe c us,task) →
    s.client.connection = some c → ∀ u ∈ us, s.registered u = true → ¬s.Unsaid c u
  subscribe : ∀ u o c, s.takesBack a = some (u,o) → s.client.connection = some c →
    s.registrations.isLast u o = false ∨ s.Unsaid c u

omit [DecidableEq C] [DecidableEq K] in
/-- Only the last callback under a subject makes a difference. -/
theorem registered_remove {u : Str} {o : O} (v : Str) (h : v = u → s.registrations.isLast u o = false) :
    PubSubClient.registered {s with registrations := s.registrations.remove u o} v =
      s.registered v := by
  simp only [registered,Registrations.callbacks_remove]
  split
  · rename_i hv
    subst v
    by_cases hmem : o ∈ s.registrations.callbacks u
    · have herase : (s.registrations.callbacks u).erase o ≠ [] := fun he =>
        absurd (h rfl) (by simp [Registrations.isLast,hmem,he])
      have hne : s.registrations.callbacks u ≠ [] := List.ne_nil_of_mem hmem
      rw [List.isEmpty_eq_false_iff.mpr herase,List.isEmpty_eq_false_iff.mpr hne]
    · rw [List.erase_of_not_mem hmem]
  · rfl

omit [DecidableEq C] [DecidableEq K] in
theorem registered_remove_last {u : Str} {o : O} (h : s.registrations.isLast u o = true) :
    PubSubClient.registered {s with registrations := s.registrations.remove u o} u = false := by
  have hlast : (s.registrations.callbacks u).erase o = [] := (of_decide_eq_true h).2
  simp [registered,Registrations.callbacks_remove,hlast]

theorem rollback_kept {a : ClientAction C K D} {b : BaseLayerClient C K D} (h : s.Kept)
    (hok : s.KeepsAgreement (.client a)) (hother : s.other a = true)
    (ha : s.client.step a = some b) {k : K} (hk : a.call = some k) (hwrote : s.hasWritten k = true)
    {u : Str} {o : O} {task : Option C} (hsub : s.calls k = some (.subscribe u o,task))
    (hb : b.calls k = none) : (PubSubClient.endCall
      {s with client := b, registrations := s.registrations.remove u o} k).Kept := by
  have hconn (c : C) (hc : b.connection = some c) := client_connection ha hother hc
  have hne {j : K} {c : C} {v : Str} (howes : s.Owes j c v) : j ≠ k := by
    obtain ⟨-,-,us,task',hj,-⟩ := howes
    rintro rfl
    simp [hsub] at hj
  refine (h.apart ha hk hwrote (fun _ _ _ _ _ _ => hconn _) (W := fun _ _ => False)
    fun c hc v => ?_).endCall fun _ _ _ => id
  -- the subject loses its last callback, and no message has been sent about it
  by_cases hlast : v = u ∧ s.registrations.isLast u o = true
  · obtain ⟨rfl,hlast⟩ := hlast
    have hraises := raises_of_ends ha hother hk (by simp [hsub]) hb
    have htakes : s.takesBack (.client a) = some (v,o) := by simp [takesBack,hk,hsub,hraises]
    have hsaid := (hok.subscribe v o c htakes (hconn c hc)).resolve_left (by simp [hlast])
    exact .inl (hsaid.told.trans (registered_remove_last hlast).symm)
  · have hreg : PubSubClient.registered {s with registrations := s.registrations.remove u o} v =
        s.registered v := registered_remove v fun hv => by simpa [hv] using hlast
    rcases h.told c (hconn c hc) v with htold | ⟨j,howes⟩
    · exact .inl (htold.trans hreg.symm)
    · exact .inr (.inr ⟨j,hne howes,howes.congr rfl rfl hreg⟩)

theorem raise_kept {a : ClientAction C K D} {b : BaseLayerClient C K D} (h : s.Kept)
    (hok : s.KeepsAgreement (.client a)) (hother : s.other a = true)
    (ha : s.client.step a = some b) {k : K} (hk : a.call = some k) (hwrote : s.hasWritten k = true)
    (hcall : (s.calls k).isSome) (hb : b.calls k = none) :
    (PubSubClient.raise {s with client := b} k).Kept := by
  have hconn (c : C) (hc : b.connection = some c) := client_connection ha hother hc
  unfold PubSubClient.raise
  split
  · rename_i u o task hsub
    exact rollback_kept h hok hother ha hk hwrote hsub hb
  · refine (h.apart ha hk hwrote (fun _ _ _ _ _ _ => hconn _) (r := s.registrations)
      (W := fun _ _ => False) fun c hc u => ?_).endCall fun _ _ _ => id
    rcases h.told c (hconn c hc) u with htold | ⟨j,howes⟩
    · exact .inl htold
    · refine .inr (.inr ⟨j,?_,howes⟩)
      rintro rfl
      -- a `connect` that still owes the subject is not ended by this step
      obtain ⟨hr,hsaid,us,task,hres,hu⟩ := howes
      obtain ⟨task',hsend⟩ := h.own j c us task hres (hconn c hc)
      obtain ⟨rfl,-⟩ := waits ha hother hk hcall hc hsend
      exact hok.connect j c us task rfl hres (hconn c hc) u hu hr hsaid

theorem follow_kept {a : ClientAction C K D} {b : BaseLayerClient C K D} (h : s.Kept)
    (hok : s.KeepsAgreement (.client a)) (hother : s.other a = true)
    (hwrote : a.call.all s.hasWritten = true) (ha : s.client.step a = some b) :
    (s.follow a b).Kept := by
  have hconn (c : C) (hc : b.connection = some c) := client_connection ha hother hc
  unfold follow
  split
  · rename_i hnone
    exact h.client ha hconn hwrote fun j c us task _ _ => by simp [hnone]
  · rename_i k hk
    have hwrote' := (Option.all_eq_true _ _).mp hwrote k hk
    split
    · rename_i hend
      obtain ⟨hcall,hb⟩ := hend
      exact raise_kept h hok hother ha hk hwrote' hcall (Option.isNone_iff_eq_none.mp hb)
    · rename_i hgoes
      refine h.client ha hconn hwrote fun j c us task hj hc hjk => ?_
      obtain rfl : k = j := Option.some.inj (hk.symm.trans hjk)
      obtain ⟨task',hsend⟩ := h.own k c us task hj (hconn c hc)
      obtain ⟨-,hb⟩ := waits ha hother hk (by simp [hj]) hc hsend
      exact hgoes ⟨by simp [hj],by simp [hb]⟩

omit [DecidableEq K] [DecidableEq O] in
theorem write_kept (h : s.Kept) {e : Outgoing C K} {es : List (Outgoing C K)}
    (he : s.outbox = e::es) : {s with
      outbox := es
      written := Function.update s.written e.target
        (s.written e.target++[(e.subject,e.subscribe)])}.Kept := by
  refine ⟨h.known,fun x hx => h.outbox x (he ▸ List.mem_cons_of_mem e hx),h.own,fun c hc => ?_,
    fun c hc u => ?_⟩
  · obtain ⟨hwritten,hout,hno⟩ := h.unmade c hc
    rw [he] at hout
    refine ⟨?_,fun x hx => hout x (List.mem_cons_of_mem e hx),hno⟩
    dsimp only
    rw [Function.update_of_ne (hout e List.mem_cons_self).symm,hwritten]
  · have hmessages : messages {s with
        outbox := es
        written := Function.update s.written e.target
          (s.written e.target++[(e.subject,e.subscribe)])} c = s.messages c := by
      unfold messages
      rw [he]
      by_cases hec : e.target = c
      · subst c
        simp
      · simp [hec,Ne.symm hec]
    unfold PubSubClient.told
    rw [hmessages]
    exact (h.told c hc u).imp_right fun ⟨k,howes⟩ => ⟨k,howes.congr rfl hmessages rfl⟩

omit [DecidableEq O] in
theorem Kept.begin (h : s.Kept) {k : K} (hk : s.calls k = none) (task : Option C) :
    {s with calls := Function.update s.calls k (some (.connect,task))}.Kept := by
  have hcalls {j : K} (hj : (s.calls j).isSome) :
      Function.update s.calls k (some (SubscriberCall.connect,task)) j = s.calls j := by
    have hjk : j ≠ k := by rintro rfl; simp [hk] at hj
    simp [hjk]
  have hres {j : K} {c : C} {us : List Str} {task' : Option C}
      (hj : Function.update s.calls k (some (SubscriberCall.connect,task)) j =
        some (.resubscribe c us,task')) : s.calls j = some (.resubscribe c us,task') := by
    by_cases hjk : j = k
    · simp [hjk] at hj
    · simpa [hjk] using hj
  refine ⟨h.known,fun e he => ?_,fun j c us task' hj => h.own j c us task' (hres hj),fun c hc => ?_,
    fun c hc u => (h.told c hc u).imp_right fun ⟨j,howes⟩ => ⟨j,?_⟩⟩
  · obtain ⟨hcall,hwait⟩ := h.outbox e he
    exact ⟨(congrArg Option.isSome (hcalls hcall)).trans hcall,hwait⟩
  · obtain ⟨hwritten,hout,hno⟩ := h.unmade c hc
    exact ⟨hwritten,hout,fun j us task' hj => hno j us task' (hres hj)⟩
  · obtain ⟨-,-,us,task',hj,-⟩ := id howes
    exact howes.congr (hcalls (by simp [hj])) rfl rfl

omit [DecidableEq O] in
/-- A call whose message is still to be written waits in `send`. -/
theorem Kept.hasWritten (h : s.Kept) {k : K} (hk : s.client.sending k = none) :
    s.hasWritten k = true := by
  refine hasWritten_iff.mpr fun e he hek => ?_
  obtain ⟨-,task,hwait⟩ := h.outbox e he
  simp [BaseLayerClient.sending,← hek,hwait] at hk

omit [DecidableEq O] in
theorem opened_kept {k : K} {c : C} {task : Option C} {b : BaseLayerClient C K D} (h : s.Kept)
    (hk : s.calls k = some (.connect,task)) (hb : s.client.step (.opened k c) = some b) :
    (if (b.calls k).isSome then {s with client := b}
      else PubSubClient.resubscribe {s with client := b} k task c
        (s.registrations.items.map Prod.fst)).Kept := by
  have hwrote : s.hasWritten k = true := by
    refine h.hasWritten ?_
    simp only [BaseLayerClient.step] at hb
    split at hb <;> try contradiction
    rename_i hcall
    simp [BaseLayerClient.sending,hcall]
  obtain ⟨hmade,⟨hconn,hcalls⟩ | ⟨hconn,hcalls⟩⟩ := BaseLayerClient.opened_cases hb
  · rw [if_pos hcalls]
    refine h.client hb (fun c hc => hconn ▸ hc) hwrote fun j c us task' hj _ hjk => ?_
    obtain rfl : k = j := Option.some.inj hjk
    simp [hk] at hj
  · rw [if_neg (by simp [hcalls])]
    obtain ⟨hwritten,hout,hcallers⟩ := h.unmade c hmade
    have hsaid (u : Str) : s.Unsaid c u := by
      have hnone : (s.outbox.filter fun e => decide (e.target = c)) = [] :=
        List.filter_eq_nil_iff.mpr fun e he => by simpa using hout e he
      simp [Unsaid,messages,hwritten,hnone]
    refine Apart.resubscribe (h.apart hb (k := k) rfl hwrote (r := s.registrations)
      (fun j d us task' _ hj hd => ?_) fun d hd u => ?_) (BaseLayerClient.step_opened hb)
    · obtain rfl : c = d := Option.some.inj (hconn.symm.trans hd)
      exact absurd hj (hcallers j us task')
    · obtain rfl : c = d := Option.some.inj (hconn.symm.trans hd)
      by_cases hreg : s.registered u = true
      · refine .inr (.inl ⟨rfl,hreg,hsaid u,?_⟩)
        by_contra hu
        simp [registered,Registrations.callbacks,Subscriptions.find_eq_nil hu] at hreg
      · exact .inl ((hsaid u).told.trans (by simpa using hreg : s.registered u = false).symm)

omit [DecidableEq O] in
theorem sent_kept {k : K} {call : SubscriberCall C O} {task : Option C} {b : BaseLayerClient C K D}
    (h : s.Kept) (hk : s.calls k = some (call,task)) (hwrote : s.hasWritten k = true)
    (hb : s.client.step (.sent k) = some b) :
    (match call with
      | .resubscribe c us => PubSubClient.resubscribe {s with client := b} k task c us
      | _ => PubSubClient.endCall {s with client := b} k).Kept := by
  have hconn (c : C) (hc : b.connection = some c) : s.client.connection = some c :=
    BaseLayerClient.connection_kept hb (by simp) hc
  have happ {W : C → Str → Prop} (hW : ∀ c us u, call = .resubscribe c us → u ∈ us →
      s.registered u = true → s.Unsaid c u → W c u) :
      PubSubClient.Apart {s with client := b} k W := by
    refine h.apart hb (k := k) rfl hwrote (r := s.registrations) (W := W)
      (fun _ _ _ _ _ _ => hconn _) fun c hc u => ?_
    rcases h.told c (hconn c hc) u with htold | ⟨j,howes⟩
    · exact .inl htold
    · by_cases hj : j = k
      · subst j
        obtain ⟨hr,hsaid,us,task',hres,hu⟩ := howes
        obtain ⟨rfl,-⟩ := Prod.mk.inj (Option.some.inj (hk.symm.trans hres))
        exact .inr (.inl (hW c us u rfl hu hr hsaid))
      · exact .inr (.inr ⟨j,hj,howes⟩)
  cases call with
  | resubscribe c us =>
    refine (happ fun d vs u hd hu hr hsaid => ?_).resubscribe (BaseLayerClient.step_made hb ?_)
    · obtain ⟨rfl,rfl⟩ : c = d ∧ us = vs := by simpa using hd
      exact ⟨rfl,hr,hsaid,hu⟩
    · by_contra hmade
      exact (h.unmade c (by simpa using hmade)).2.2 k us task hk
  | connect | subscribe | unsubscribe =>
    exact (happ (W := fun _ _ => False) (by simp)).endCall fun _ _ _ => id

theorem step_kept {a : SubscriberAction C K O D} (h : s.Kept) (hok : s.KeepsAgreement a)
    (ha : s.step a = some t) : t.Kept := by
  have free {k : K} {task : Option C} (hk : s.canCall k task = true) : s.calls k = none := by
    simp only [canCall,Bool.and_eq_true,Option.isNone_iff_eq_none] at hk
    exact hk.1.2
  cases a with
  | connect k task =>
    simp only [step,Option.ite_none_right_eq_some] at ha
    obtain ⟨hk,ha⟩ := ha
    obtain ⟨b,hb,rfl⟩ := Option.map_eq_some_iff.mp ha
    have hk := free hk
    have hwrote : s.hasWritten k = true := hasWritten_iff.mpr fun e he hek => by
      simpa [hek,hk] using (h.outbox e he).1
    have hclient : {s with client := b}.Kept := by
      refine h.client hb (fun c => BaseLayerClient.connection_kept hb (by simp)) hwrote
        fun j c us task' hj _ hjk => ?_
      rw [← Option.some.inj hjk,hk] at hj
      cases hj
    split
    · exact hclient.begin hk task
    · exact hclient
  | opened k c =>
    simp only [step] at ha
    split at ha <;> try contradiction
    rename_i task hk
    obtain ⟨b,hb,rfl⟩ := Option.map_eq_some_iff.mp ha
    exact opened_kept h hk hb
  | subscribe k task u o =>
    simp only [step,Option.ite_none_right_eq_some] at ha
    exact subscribe_kept h (free ha.1) (Option.some.inj ha.2)
  | unsubscribe k task u o =>
    simp only [step,Option.ite_none_right_eq_some] at ha
    exact unsubscribe_kept h (free ha.1) (Option.some.inj ha.2)
  | write =>
    simp only [step] at ha
    split at ha <;> try contradiction
    rename_i e es he
    obtain rfl := Option.some.inj ha
    exact write_kept h he
  | sent k =>
    simp only [step] at ha
    split at ha <;> try contradiction
    rename_i call task hk
    simp only [Option.ite_none_right_eq_some] at ha
    obtain ⟨⟨-,hwrote⟩,ha⟩ := ha
    obtain ⟨b,hb,rfl⟩ := Option.map_eq_some_iff.mp ha
    exact sent_kept h hk hwrote hb
  | stop k =>
    simp only [step,Option.ite_none_right_eq_some,Option.some.injEq] at ha
    obtain ⟨-,rfl⟩ := ha
    exact ⟨h.known,h.outbox,h.own,h.unmade,h.told⟩
  | client a =>
    simp only [step,Option.ite_none_right_eq_some] at ha
    obtain ⟨⟨hother,hwrote⟩,ha⟩ := ha
    obtain ⟨b,hb,rfl⟩ := Option.map_eq_some_iff.mp ha
    exact follow_kept h hok hother hwrote hb

omit [DecidableEq K] [DecidableEq O] in
theorem init_kept : (init : PubSubClient C K O D).Kept :=
  ⟨BaseLayerClient.init_known,by simp [init],by simp [init],by simp [init],
    fun c hc => by simp [init,BaseLayerClient.init] at hc⟩

/-- While a connected client has none of its calls in progress, the last subscription message
written to the connection is a subscribe for just the subjects with callbacks, as long as each call
that is cancelled or fails changes nothing that the connection still needs. -/
theorem last_told_iff {as : List (SubscriberAction C K O D)} {t : PubSubClient C K O D}
    (hrun : run step init as = some t) (hok : Guarded step KeepsAgreement init as)
    (hidle : ∀ k, t.calls k = none) {c : C} (hc : t.client.connection = some c) (u : Str) :
    lastTold u (t.written c) = true ↔ t.registrations.callbacks u ≠ [] :=
  (run_invariant (fun _ _ _ h ha hstep => step_kept h ha hstep) init_kept hok hrun).idle hidle hc u

/-- A subject is subscribed to twice, and the first `subscribe` cancelled. -/
theorem last_told_iff_subscribe : ∃ t : PubSubClient (Fin 1) (Fin 2) (Fin 2) (Fin 1),
    run step init [.connect 0 none,.opened 0 0,.subscribe 0 none [97] 0,.write,
      .subscribe 1 none [97] 1,.client (.interrupt 0)] = some t ∧
    (lastTold [97] (t.written 0) = true ↔ t.registrations.callbacks [97] ≠ []) ∧
    t.written 0 = [([97],true)] ∧ t.registrations.callbacks [97] = [1] := by
  have fine (s : PubSubClient (Fin 1) (Fin 2) (Fin 2) (Fin 1))
      (a : SubscriberAction (Fin 1) (Fin 2) (Fin 2) (Fin 1)) (ha : ∀ a', a ≠ .client a') :
      s.KeepsAgreement a :=
    ⟨fun k c us task hk => absurd hk (ha _),fun u o c hu => by cases a <;> simp_all [takesBack]⟩
  have cancelled (s : PubSubClient (Fin 1) (Fin 2) (Fin 2) (Fin 1))
      (hs : s.calls 0 = some (.subscribe [97] 0,none)) (hlast : s.registrations.isLast [97] 0 = false) :
      s.KeepsAgreement (.client (.interrupt 0)) := by
    refine ⟨fun k c us task h hk => ?_,fun u o c hu _ => .inl ?_⟩
    · obtain rfl : 0 = k := by simpa using h
      simp [hs] at hk
    · obtain ⟨-,rfl,rfl⟩ : s.client.raises (.interrupt 0) = true ∧ [97] = u ∧ 0 = o := by
        simpa [takesBack,ClientAction.call,hs] using hu
      exact hlast
  exact ⟨_,rfl,last_told_iff (C := Fin 1) (K := Fin 2) (O := Fin 2) (D := Fin 1)
    (show run step init [.connect 0 none,.opened 0 0,.subscribe 0 none [97] 0,.write,
      .subscribe 1 none [97] 1,.client (.interrupt 0)] = some _ from rfl)
    ⟨fine _ _ (by simp),fine _ _ (by simp),fine _ _ (by simp),fine _ _ (by simp),
      fine _ _ (by simp),cancelled _ rfl rfl,trivial⟩ (by decide) rfl [97],rfl,rfl⟩

/-- A `subscribe` is cancelled once its message is written; a `connect` is cancelled while it
subscribes again to the first of two subjects; a `subscribe` whose send has failed ends after
another `connect` has subscribed again. -/
theorem not_last_told_iff :
    (∃ t : PubSubClient (Fin 2) (Fin 2) (Fin 1) (Fin 1),
      run step init [.connect 0 none,.opened 0 0,.subscribe 0 none [97] 0,.write,
        .client (.interrupt 0)] = some t ∧
      (∀ k, t.calls k = none) ∧ t.client.connection = some 0 ∧
      lastTold [97] (t.written 0) = true ∧ t.registrations.callbacks [97] = []) ∧
    (∃ t : PubSubClient (Fin 2) (Fin 2) (Fin 1) (Fin 1),
      run step init [.connect 0 none,.opened 0 0,.subscribe 0 none [97] 0,.write,.sent 0,
        .subscribe 0 none [98] 0,.write,.sent 0,.client (.close 0 none),.client (.closed 0),
        .connect 0 none,.opened 0 1,.write,.client (.interrupt 0)] = some t ∧
      (∀ k, t.calls k = none) ∧ t.client.connection = some 1 ∧
      lastTold [98] (t.written 1) = false ∧ t.registrations.callbacks [98] = [0]) ∧
    ∃ t : PubSubClient (Fin 2) (Fin 2) (Fin 1) (Fin 1),
      run step init [.connect 0 none,.opened 0 0,.subscribe 0 none [97] 0,.write,
        .client (.sendFailed 0),.connect 1 none,.opened 1 1,.write,.sent 1,.client (.reported 0),
        .client (.closed 0)] = some t ∧
      (∀ k, t.calls k = none) ∧ t.client.connection = some 1 ∧
      lastTold [97] (t.written 1) = true ∧ t.registrations.callbacks [97] = [] :=
  ⟨⟨_,rfl,by decide,rfl,rfl,rfl⟩,⟨_,rfl,by decide,rfl,rfl,rfl⟩,⟨_,rfl,by decide,rfl,rfl,rfl⟩⟩

end PubSubClient
end SoftwareBus
