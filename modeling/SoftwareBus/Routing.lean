import SoftwareBus.CheckEffect
import SoftwareBus.Interest

/-! How a node keeps its neighbours informed. A neighbour wants to have heard
"subscribe" last about a subject exactly if some other connection is tagged under it. -/
namespace SoftwareBus

open Interest Message

variable {C I Q P : Type}

namespace PubSubNode

/-- Every connection is tagged in the table of its own direction only. -/
structure Directed (up : C → Bool) (n : PubSubNode C I Q P) : Prop where
  upstream : ∀ s, ∀ c ∈ n.upstreamSubscriptions.get s, up c = true
  downstream : ∀ s, ∀ c ∈ n.downstreamSubscriptions.get s, up c = false

variable {up : C → Bool} {n : PubSubNode C I Q P}

theorem mem_active {c : C} : c ∈ n.active n.allConnections ↔
    c ∈ n.allConnections ∧ n.pending c = none := by
  simp [CheckState.active]

theorem mem_subscribers {s : Str} {c : C} : c ∈ n.subscribers s ↔
    c ∈ n.downstreamSubscriptions.get s ∨ c ∈ n.upstreamSubscriptions.get s := List.mem_append

theorem Directed.mem_subscriptions (h : n.Directed up) {s : Str} {c : C} :
    c ∈ (n.subscriptions (up c)).get s ↔ c ∈ n.subscribers s := by
  rw [mem_subscribers]
  cases hc : up c
  · refine ⟨.inl,fun hm => hm.resolve_right fun hm => ?_⟩
    simpa [hc] using h.upstream s c hm
  · refine ⟨.inr,fun hm => hm.resolve_left fun hm => ?_⟩
    simpa [hc] using h.downstream s c hm

theorem Directed.nodup_subscribers (h : n.Directed up) (s : Str) : (n.subscribers s).Nodup := by
  refine (n.downstreamSubscriptions.nodup_get s).append (n.upstreamSubscriptions.nodup_get s) ?_
  intro c hd hu
  simpa [h.downstream s c hd] using h.upstream s c hu

variable [DecidableEq C]

theorem mem_subscribers_add {b : Bool} {s t : Str} {c d : C} :
    d ∈ (n.setSubscriptions b ((n.subscriptions b).add s c)).subscribers t ↔
      d ∈ n.subscribers t ∨ t = s ∧ d = c := by
  cases b <;> simp [subscribers,setSubscriptions,subscriptions,Subscriptions.mem_get_add] <;> tauto

theorem Directed.mem_subscribers_discard (h : n.Directed up) {s t : Str} {c d : C} :
    d ∈ (n.setSubscriptions (up c) ((n.subscriptions (up c)).discard s c)).subscribers t ↔
      d ∈ n.subscribers t ∧ ¬(t = s ∧ d = c) := by
  have hdir : up d = !up c → d ≠ c := by rintro hd rfl; cases hu : up d <;> simp [hu] at hd
  cases hc : up c <;> simp only [hc,Bool.not_false,Bool.not_true] at hdir
  · have hother : d ∈ n.upstreamSubscriptions.get t → d ≠ c := fun hm => hdir (h.upstream t d hm)
    simp [subscribers,setSubscriptions,subscriptions,Subscriptions.mem_get_discard]
    tauto
  · have hother : d ∈ n.downstreamSubscriptions.get t → d ≠ c :=
      fun hm => hdir (h.downstream t d hm)
    simp [subscribers,setSubscriptions,subscriptions,Subscriptions.mem_get_discard]
    tauto

theorem Directed.add (h : n.Directed up) (s : Str) (c : C) :
    (n.setSubscriptions (up c) ((n.subscriptions (up c)).add s c)).Directed up := by
  cases hc : up c
  · refine ⟨h.upstream,fun t d hd => ?_⟩
    rcases Subscriptions.mem_get_add.mp hd with hd | ⟨-,rfl⟩
    · exact h.downstream t d hd
    · exact hc
  · refine ⟨fun t d hd => ?_,h.downstream⟩
    rcases Subscriptions.mem_get_add.mp hd with hd | ⟨-,rfl⟩
    · exact h.upstream t d hd
    · exact hc

theorem Directed.discard (h : n.Directed up) (s : Str) (c : C) (b : Bool) :
    (n.setSubscriptions b ((n.subscriptions b).discard s c)).Directed up := by
  cases b
  · exact ⟨h.upstream,fun t d hd => h.downstream t d (Subscriptions.mem_get_discard.mp hd).1⟩
  · exact ⟨fun t d hd => h.upstream t d (Subscriptions.mem_get_discard.mp hd).1,h.downstream⟩

/-- Some connection other than this one is subscribed to the subject. -/
def wants (n : PubSubNode C I Q P) (c : C) (s : Str) : Bool := others (n.subscribers s) c

/-! What a sequence of `_send_to` calls last tells a connection about a subject. -/

theorem queuedOn_append (c : C) (ds es : List (Send C I Q P)) :
    queuedOn c (ds++es) = queuedOn c ds++queuedOn c es := by simp [queuedOn,frames]

@[simp] theorem queuedOn_nil (c : C) : queuedOn c ([] : List (Send C I Q P)) = [] := rfl

theorem lastSaid_queuedOn_cons (b : Bool) (s : Str) (c : C) (ts : List C) (m : Message I Q P)
    (ds : List (Send C I Q P)) : lastSaid b s (queuedOn c ((ts,m)::ds)) =
      lastSaid (if c ∈ ts then (about s m).getD b else b) s (queuedOn c ds) := by
  have hone (b : Bool) : lastSaid b s (queuedOn c [(ts,m)]) =
      if c ∈ ts then (about s m).getD b else b := by
    induction ts generalizing b with
    | nil => rfl
    | cons t ts ih =>
      have hsplit : queuedOn c [(t::ts,m)] =
          (if t = c then [m] else [])++queuedOn c [(ts,m)] := by
        by_cases htc : t = c <;> simp [queuedOn,frames,htc]
      rw [hsplit,lastSaid_append,ih]
      by_cases htc : t = c
      · subst t
        cases hm : about s m <;> simp [lastSaid,hm]
      · simp [htc,Ne.symm htc]
  rw [← List.singleton_append,queuedOn_append,lastSaid_append,hone]

theorem lastSaid_queuedOn_of_silent {s : Str} {sends : List (Send C I Q P)}
    (h : ∀ d ∈ sends, about s d.2 = none) (b : Bool) (c : C) :
    lastSaid b s (queuedOn c sends) = b := by
  induction sends generalizing b with
  | nil => rfl
  | cons d ds ih =>
    obtain ⟨ts,m⟩ := d
    rw [lastSaid_queuedOn_cons,ih fun e he => h e (by simp [he])]
    simp [show about s m = none from h (ts,m) (by simp)]

theorem lastSaid_queuedOn_of_aside {s : Str} {c : C} {sends : List (Send C I Q P)}
    (h : ∀ d ∈ sends, c ∉ d.1) (b : Bool) : lastSaid b s (queuedOn c sends) = b := by
  induction sends with
  | nil => rfl
  | cons d ds ih =>
    obtain ⟨ts,m⟩ := d
    rw [lastSaid_queuedOn_cons,if_neg (h (ts,m) (by simp)),ih fun e he => h e (by simp [he])]

theorem lastSaid_sendSubscriptions (n : PubSubNode C I Q P) (b : Bool) (s : Str) (c d : C) :
    lastSaid b s (queuedOn d (n.sendSubscriptions c)) =
      if d = c ∧ n.subscribers s ≠ [] then true else b := by
  have hall (ss : List Str) (b : Bool) :
      lastSaid b s (queuedOn d (ss.map fun t => ([c],(Message.subscription t true : Message I Q P)))) =
        if d = c ∧ s ∈ ss then true else b := by
    induction ss generalizing b with
    | nil => simp
    | cons t ss ih =>
      rw [List.map_cons,lastSaid_queuedOn_cons,ih]
      by_cases hdc : d = c
      · by_cases hts : t = s
        · simp [hdc,hts,about]
        · simp [hdc,hts,about,Ne.symm hts]
      · simp [hdc]
  rw [sendSubscriptions,hall]
  simp [subscribers,Subscriptions.mem_subjects,← not_and_or]

/-- A handler that changes the tags of `c` only, and tells its neighbours what they
have to hear then. -/
structure Reroutes (up : C → Bool) (c : C) (n : PubSubNode C I Q P)
    (r : PubSubNode C I Q P × List (Send C I Q P)) : Prop where
  routes : Routes n r
  directed : r.1.Directed up
  tags : ∀ t d, d ≠ c → (d ∈ r.1.subscribers t ↔ d ∈ n.subscribers t)
  told : ∀ m ∈ n.active n.allConnections, ∀ t,
    lastSaid (n.wants m t) t (queuedOn m r.2) = r.1.wants m t
  silent : ∀ m, m ∉ n.active n.allConnections → (∀ t, m ∉ n.subscribers t) → m ≠ c →
    ∀ t b, lastSaid b t (queuedOn m r.2) = b

theorem Reroutes.refl (h : n.Directed up) (c : C) : Reroutes up c n (n,[]) :=
  ⟨⟨rfl,rfl,rfl⟩,h,fun _ _ _ => Iff.rfl,fun _ _ _ => rfl,fun _ _ _ _ _ _ => rfl⟩

theorem Reroutes.trans {m : PubSubNode C I Q P} {c : C} {ds : List (Send C I Q P)}
    {r : PubSubNode C I Q P × List (Send C I Q P)} (h : Reroutes up c n (m,ds))
    (hr : Reroutes up c m r) : Reroutes up c n (r.1,ds++r.2) := by
  have hactive : m.active m.allConnections = n.active n.allConnections := by
    rw [show m.toCheckState = n.toCheckState from h.routes.check]
  refine ⟨h.routes.trans hr.routes,hr.directed,fun t d hd => (hr.tags t d hd).trans (h.tags t d hd),
    fun x hx t => ?_,fun x hx ht hxc t b => ?_⟩
  · rw [queuedOn_append,lastSaid_append,h.told x hx t,hr.told x (hactive ▸ hx) t]
  · rw [queuedOn_append,lastSaid_append,h.silent x hx ht hxc t b,
      hr.silent x (hactive ▸ hx) (fun t' hm => ht t' ((h.tags t' x hxc).mp hm)) hxc t b]

theorem Reroutes.of_publish (h : n.Directed up) (c : C) (s : Str) (p : P) :
    Reroutes up c n (n,n.handlePublish c s p) := by
  have hsilent (t : Str) : ∀ d ∈ n.handlePublish c s p, about t d.2 = none := by
    simp [handlePublish,about]
  exact ⟨⟨rfl,by simp [handlePublish,isRouted],rfl⟩,h,fun _ _ _ => Iff.rfl,
    fun m _ t => lastSaid_queuedOn_of_silent (hsilent t) _ m,
    fun m _ _ _ t b => lastSaid_queuedOn_of_silent (hsilent t) b m⟩

theorem setSubscriptions_subscribers_ne {b : Bool} {s t : Str} {c : C} (hts : t ≠ s) :
    (n.setSubscriptions b ((n.subscriptions b).discard s c)).subscribers t = n.subscribers t := by
  cases b <;> simp [subscribers,setSubscriptions,subscriptions,Subscriptions.get_discard,hts]

theorem unsubscribe_reroutes (h : n.Directed up) (s : Str) (c : C) :
    Reroutes up c n (n.unsubscribe (up c) s c) := by
  refine ⟨unsubscribe_routes n (up c) s c,?_,?_,?_,?_⟩ <;> unfold unsubscribe
  · split
    · exact h.discard s c (up c)
    · exact h
  · intro t d hd
    split
    · simpa [hd] using h.mem_subscribers_discard (s := s) (t := t) (c := c) (d := d)
    · rfl
  · intro m hm t
    split
    · rename_i hc
      have hleave := others_leave (h.mem_subscriptions.mp hc)
        ((h.discard s c (up c)).nodup_subscribers s)
        (fun d => by simpa using h.mem_subscribers_discard (s := s) (t := s) (c := c) (d := d)) hm
      have hcheck := setSubscriptions_check n (up c) ((n.subscriptions (up c)).discard s c)
      dsimp only
      by_cases hts : t = s
      · subst t
        rw [wants,wants,hleave]
        simp only [hcheck]
        have hmp : m ∈ n.active (n.peersExcept c) ↔ m ≠ c := by
          simp only [CheckState.active,CheckState.peersExcept,List.mem_filter] at hm ⊢
          simp [hm.1,hm.2]
        split <;> rename_i hl <;>
          simp [lastSaid_queuedOn_cons,toTell,about,hl,hmp,hm]
      · rw [lastSaid_queuedOn_of_silent,wants,wants,setSubscriptions_subscribers_ne hts]
        split <;> simp [about,Ne.symm hts]
    · rfl
  · intro m hm ht hmc t b
    split
    · rename_i hc
      have hcheck := setSubscriptions_check n (up c) ((n.subscriptions (up c)).discard s c)
      refine lastSaid_queuedOn_of_aside ?_ b
      dsimp only
      simp only [hcheck]
      split
      · simp only [List.mem_singleton,forall_eq]
        intro hmem
        refine hm ?_
        simp only [CheckState.active,CheckState.peersExcept,List.mem_filter] at hmem ⊢
        exact ⟨hmem.1.1,hmem.2⟩
      · rename_i r hr
        simp only [List.mem_singleton,forall_eq]
        rintro rfl
        have hmem := h.mem_subscribers_discard (s := s) (t := s) (c := c) (d := m)
        rw [hr] at hmem
        exact ht s (hmem.mp (by simp)).1
      · simp
    · rfl

theorem unsubscribe_tag (h : n.Directed up) (s t : Str) (c : C) :
    c ∈ (n.unsubscribe (up c) s c).1.subscribers t ↔ c ∈ n.subscribers t ∧ t ≠ s := by
  unfold unsubscribe
  split
  · simpa using h.mem_subscribers_discard (s := s) (t := t) (c := c) (d := c)
  · rename_i hc
    refine ⟨fun hm => ⟨hm,?_⟩,And.left⟩
    rintro rfl
    exact hc (h.mem_subscriptions.mpr hm)

theorem handleSubscription_reroutes (h : n.Directed up) (s : Str) (b : Bool) {c : C} :
    Reroutes up c n (n.handleSubscription c s b (up c)) := by
  cases b with
  | false => exact unsubscribe_reroutes h s c
  | true =>
    have hcheck := setSubscriptions_check n (up c) ((n.subscriptions (up c)).add s c)
    refine ⟨handleSubscription_routes n c s true (up c),h.add s c,fun t d hd => ?_,
      fun m hm t => ?_,fun m hm _ _ t b => ?_⟩
    · exact mem_subscribers_add.trans (by simp [hd])
    · have hjoin (hts : t = s) : others
          ((n.setSubscriptions (up c) ((n.subscriptions (up c)).add s c)).subscribers t) m =
            if m = c then others (n.subscribers t) m else true :=
        others_join (fun d => mem_subscribers_add.trans (by simp [hts])) m
      have hmp : m ∈ n.active (n.peersExcept c) ↔ m ≠ c := by
        simp only [CheckState.active,CheckState.peersExcept,List.mem_filter] at hm ⊢
        simp [hm.1,hm.2]
      simp only [handleSubscription,if_true,lastSaid_queuedOn_cons,queuedOn_nil,lastSaid_nil,hcheck,
        hmp]
      by_cases hts : t = s
      · rw [wants,wants,hjoin hts]
        by_cases hmc : m = c <;> simp [hmc,hts,about]
      · have hsame : (n.setSubscriptions (up c) ((n.subscriptions (up c)).add s c)).wants m t =
            n.wants m t := others_congr m fun d _ => mem_subscribers_add.trans (by simp [hts])
        simp [hsame,about,Ne.symm hts]
    · refine lastSaid_queuedOn_of_aside ?_ b
      simp only [handleSubscription,if_true,hcheck,List.mem_singleton,forall_eq]
      intro hmem
      refine hm ?_
      simp only [CheckState.active,CheckState.peersExcept,List.mem_filter] at hmem ⊢
      exact ⟨hmem.1.1,hmem.2⟩

theorem handleSubscription_tag (h : n.Directed up) (s t : Str) (b : Bool) (c : C) :
    c ∈ (n.handleSubscription c s b (up c)).1.subscribers t ↔
      (if t = s then b = true else c ∈ n.subscribers t) := by
  cases b with
  | false =>
    refine (unsubscribe_tag h s t c).trans ?_
    by_cases hts : t = s <;> simp [hts]
  | true =>
    refine mem_subscribers_add.trans ?_
    by_cases hts : t = s <;> simp [hts]

theorem dropSubjects_reroutes (h : n.Directed up) (c : C) (ss : List Str) :
    Reroutes up c n (n.dropSubjects c (up c) ss) ∧
      ∀ t, c ∈ (n.dropSubjects c (up c) ss).1.subscribers t ↔ c ∈ n.subscribers t ∧ t ∉ ss := by
  induction ss generalizing n with
  | nil => exact ⟨.refl h c,by simp [dropSubjects]⟩
  | cons s ss ih =>
    have hstep := unsubscribe_reroutes h s c
    obtain ⟨hrest,htag⟩ := ih hstep.directed
    refine ⟨hstep.trans hrest,fun t => (htag t).trans ?_⟩
    rw [unsubscribe_tag h,List.mem_cons,not_or,and_assoc]

theorem dropConnection_reroutes (h : n.Directed up) (c : C) :
    Reroutes up c n (n.dropConnection c (up c)) ∧
      ∀ t, c ∉ (n.dropConnection c (up c)).1.subscribers t := by
  obtain ⟨hr,htag⟩ := dropSubjects_reroutes h c (n.taggedSubjects c (up c))
  refine ⟨hr,fun t ht => ?_⟩
  obtain ⟨hc,hno⟩ := (htag t).mp ht
  rw [← h.mem_subscriptions] at hc
  refine hno (List.mem_filter.mpr ⟨?_,decide_eq_true hc⟩)
  exact (Subscriptions.mem_subjects _ t).mpr (List.ne_nil_of_mem hc)

variable [DecidableEq I] [DecidableEq Q]

theorem handleMessage_reroutes (h : n.Directed up) {c : C} {m : Message I Q P}
    (hm : isRouted m = true) : Reroutes up c n (n.handleMessage c m (up c)) ∧
      ∀ t, c ∈ (n.handleMessage c m (up c)).1.subscribers t ↔
        lastSaid (decide (c ∈ n.subscribers t)) t [m] = true := by
  cases m with
  | subscription s b =>
    refine ⟨handleSubscription_reroutes h s b,fun t => (handleSubscription_tag h s t b c).trans ?_⟩
    by_cases hts : t = s
    · simp [lastSaid_cons,about,hts]
    · simp [lastSaid_cons,about,hts,Ne.symm hts]
  | publish s p => exact ⟨.of_publish h c s p,fun t => by simp [handleMessage,lastSaid_cons,about]⟩
  | hello i => simp [isRouted] at hm
  | query q i => simp [isRouted] at hm
  | reply q r => simp [isRouted] at hm

theorem drain_reroutes (h : n.Directed up) {c : C} (hc : up c = true)
    (ms : List ({m : Message I Q P // isRouted m = true} × ℕ)) :
    Reroutes up c n (n.drain c ms) ∧ ∀ t, c ∈ (n.drain c ms).1.subscribers t ↔
      lastSaid (decide (c ∈ n.subscribers t)) t (ms.map (·.1.1)) = true := by
  induction ms generalizing n with
  | nil => exact ⟨.refl h c,fun t => by simp [drain]⟩
  | cons m ms ih =>
    obtain ⟨hstep,htag⟩ := handleMessage_reroutes h (c := c) m.1.2
    rw [hc] at hstep htag
    obtain ⟨hrest,hrtag⟩ := ih hstep.directed
    refine ⟨hstep.trans hrest,fun t => (hrtag t).trans ?_⟩
    rw [List.map_cons,← List.singleton_append,lastSaid_append]
    exact iff_of_eq (congrArg (fun b => lastSaid b t _ = true)
      (Bool.eq_iff_iff.mpr (by simpa using htag t)))

/-- The connections a node may send routed messages to: those listed that are not pending, and
those tagged. -/
def Reaches (n : PubSubNode C I Q P) (c : C) : Prop :=
  c ∈ n.allConnections ∧ n.pending c = none ∨ ∃ s, c ∈ n.subscribers s

omit [DecidableEq I] [DecidableEq Q] in
theorem reaches_of_active {c d : C} (h : d ∈ n.active (n.peersExcept c)) : n.Reaches d := by
  have hd : d ∈ n.allConnections ∧ n.pending d = none ∧ d ≠ c := by
    simpa [CheckState.active,CheckState.peersExcept] using h
  exact .inl ⟨hd.1,hd.2.1⟩

omit [DecidableEq I] [DecidableEq Q] in
theorem unsubscribe_targets {b : Bool} {s : Str} {c : C} {d : Send C I Q P}
    (hd : d ∈ (n.unsubscribe b s c).2) {e : C} (he : e ∈ d.1) : n.Reaches e := by
  unfold unsubscribe at hd
  split at hd
  · let n' := n.setSubscriptions b ((n.subscriptions b).discard s c)
    have hsub (t : Str) (h : e ∈ n'.subscribers t) : n.Reaches e := by
      refine .inr ⟨t,?_⟩
      rw [mem_subscribers] at h ⊢
      cases b with
      | false => exact h.imp_left fun hm => (Subscriptions.mem_get_discard.mp hm).1
      | true => exact h.imp_right fun hm => (Subscriptions.mem_get_discard.mp hm).1
    dsimp only at hd
    split at hd
    · cases List.mem_singleton.mp hd
      cases b <;> exact reaches_of_active he
    · rename_i r hr
      cases List.mem_singleton.mp hd
      refine hsub s ?_
      rw [show n'.subscribers s = [r] from hr]
      exact he
    · cases hd
  · cases hd

theorem handleMessage_targets {c : C} {m : Message I Q P}
    (hm : isRouted m = true) {b : Bool} {d : Send C I Q P} (hd : d ∈ (n.handleMessage c m b).2)
    {e : C} (he : e ∈ d.1) : n.Reaches e := by
  cases m with
  | subscription s sub =>
    cases sub with
    | true =>
      cases List.mem_singleton.mp hd
      cases b <;> exact reaches_of_active he
    | false => exact unsubscribe_targets hd he
  | publish s p =>
    cases List.mem_singleton.mp hd
    have hmem := (List.mem_filter.mp he).1
    rcases List.mem_append.mp hmem with hmem | hmem
    · obtain ⟨t,-,ht⟩ := Subscriptions.mem_matchingConnections.mp hmem
      exact .inr ⟨t,mem_subscribers.mpr (.inl ht)⟩
    · obtain ⟨t,-,ht⟩ := Subscriptions.mem_matchingConnections.mp hmem
      exact .inr ⟨t,mem_subscribers.mpr (.inr ht)⟩
  | _ => cases hm

end PubSubNode
end SoftwareBus
