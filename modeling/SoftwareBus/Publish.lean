import SoftwareBus.Delivery
import SoftwareBus.Payload

/-! Every publish of a run is told apart from all others by a number that goes with
its payload; the nodes do not see it. -/
namespace SoftwareBus

open LinkGraph Transition

variable {V X L I Q P R : Type}

theorem Action.isTraffic_mapPayload (f : P → R) (a : Action V X L I Q P) :
    (a.mapPayload f).isTraffic = a.isTraffic := by
  cases a with
  | node v ev => cases ev <;> rfl
  | _ => rfl

theorem Action.mapPayload_eq_publish {f : P → R} {a : Action V X L I Q P} {x : X} {p : Str} {r : R}
    (h : a.mapPayload f = .publish x p r) : ∃ q, a = .publish x p q ∧ r = f q := by
  cases a with
  | publish y p' q =>
    obtain ⟨rfl,rfl,rfl⟩ := Action.publish.inj h
    exact ⟨q,rfl,rfl⟩
  | _ => simp [mapPayload] at h

theorem mapPayload_fst (k : ℕ) (m : Message I Q P) : (m.mapPayload (·,k)).mapPayload Prod.fst = m := by
  cases m <;> rfl

theorem Action.mapPayload_fst (k : ℕ) (a : Action V X L I Q P) :
    (a.mapPayload (·,k)).mapPayload Prod.fst = a := by
  cases a with
  | node v ev =>
    cases ev with
    | receive c m => simp [mapPayload,NodeEvent.mapPayload,SoftwareBus.mapPayload_fst]
    | _ => rfl
  | _ => rfl

def number (k : ℕ) : List (Action V X L I Q P) → List (Action V X L I Q (P × ℕ))
  | [] => []
  | a::as => a.mapPayload (·,k+1)::number (k+1) as

theorem number_append (k : ℕ) (as bs : List (Action V X L I Q P)) :
    number k (as++bs) = number k as++number (k+as.length) bs := by
  induction as generalizing k with
  | nil => rfl
  | cons a as ih => simp [number,ih,Nat.add_assoc,Nat.add_comm 1]

theorem pair_sublist_of_getElem? {A : Type} {a c : A} {xs : List A} {i j : ℕ} (hij : i < j)
    (ha : xs[i]? = some a) (hc : xs[j]? = some c) : [a,c].Sublist xs := by
  rw [← List.take_append_drop j xs]
  refine (List.singleton_sublist.mpr ?_).append (List.singleton_sublist.mpr ?_)
  · exact List.mem_of_getElem? (i := i) (by rw [List.getElem?_take,if_pos hij,ha])
  · exact List.mem_of_getElem? (i := 0) (by rw [List.getElem?_drop,Nat.add_zero,hc])

theorem getElem?_concat {A : Type} {xs : List A} {a c : A} {i : ℕ} (h : (xs++[a])[i]? = some c) :
    xs[i]? = some c ∧ i < xs.length ∨ i = xs.length ∧ c = a := by
  rcases lt_trichotomy i xs.length with hi | rfl | hi
  · exact .inl ⟨by rwa [List.getElem?_append_left hi] at h,hi⟩
  · exact .inr ⟨rfl,by simpa [eq_comm] using h⟩
  · rw [List.getElem?_eq_none (by simp; omega)] at h
    simp at h

namespace Network

variable {b : Bus V X L} {lim : Limits I Q P} {ids : V → I} {s₀ : Network V X L I Q P}

def numbered (lim : Limits I Q P) : Limits I Q (P × ℕ) :=
  {lim with length := fun m => lim.length (m.mapPayload Prod.fst)}

theorem mapPayload_mapPayload_fst (s : Network V X L I Q P) (k : ℕ) :
    (s.mapPayload (·,k)).mapPayload Prod.fst = s := by
  have hheld (h : HeldMessages I Q P) : (h.mapPayload (·,k)).mapPayload Prod.fst = h := by
    obtain ⟨ms,size⟩ := h
    simp only [HeldMessages.mapPayload,List.map_map,HeldMessages.mk.injEq,and_true]
    refine (List.map_congr_left fun m _ => ?_).trans (List.map_id ms)
    exact Prod.ext (Subtype.ext (mapPayload_fst k m.1.1)) rfl
  have hpending (p : PendingConnection I Q P) : (p.mapPayload (·,k)).mapPayload Prod.fst = p := by
    obtain ⟨hello,held⟩ := p
    simp only [PendingConnection.mapPayload,hheld]
  have hnode (n : PubSubNode (End L) I Q P) : (n.mapPayload (·,k)).mapPayload Prod.fst = n := by
    simp only [PubSubNode.mapPayload,CheckState.mapPayload,Option.map_map,Function.comp_def,hheld,
      hpending,Option.map_id']
  simp only [mapPayload,hnode,List.map_map,Function.comp_def,mapPayload_fst,List.map_id']

theorem linked_mapPayload {f : P → R} (l : L) : (s₀.mapPayload f).Linked b l ↔ s₀.Linked b l := by
  simp [Linked,Accepted,mapPayload,PubSubNode.mapPayload,CheckState.mapPayload]

theorem Wired.of_mapPayload {f : P → R} (h : (s₀.mapPayload f).Wired b) : s₀.Wired b := by
  refine ⟨mapPayload_stable.mp h.stable,h.leaves,fun e => ?_,fun v => ?_,fun v e u he => ?_⟩
  · simpa [mapPayload] using h.bounded e
  · exact ⟨(h.directed v).upstream,(h.directed v).downstream⟩
  · obtain ⟨hown,hl⟩ := h.tagged v e u he
    exact ⟨hown,(linked_mapPayload _).mp hl⟩

section

variable [DecidableEq V] [DecidableEq X] [DecidableEq L]

/-- A numbered network after some actions: without the numbers it has kept its
connections, and each publish among the actions has spread as it should. -/
structure Labelled (b : Bus V X L) (ids : V → I) (s₀ : Network V X L I Q (P × ℕ))
    (as : List (Action V X L I Q P)) (s : Network V X L I Q (P × ℕ)) : Prop where
  informed : (s.mapPayload Prod.fst).Informed b ids
  clients : (s.mapPayload Prod.fst).Clients b
  stable : (s.mapPayload Prod.fst).Stable
  still : s₀.Still s
  fresh : ∀ e p q k, .publish p (q,k) ∈ s.sent e → k ≤ as.length
  carried : ∀ i x p q, as[i]? = some (.publish x p q) → s₀.Carried b s x p (q,i+1)
  ordered : ∀ i j x p q p' q', i ≤ j → as[i]? = some (.publish x p q) →
    as[j]? = some (.publish x p' q') → s.NeverAfter p' (q',j+1) p (q,i+1)

end

variable {s t : Network V X L I Q (P × ℕ)} {as : List (Action V X L I Q P)}
  {s₁ : Network V X L I Q (P × ℕ)}

theorem carried_of_fresh {x : X} {p : Str} {q : P × ℕ} (h : ∀ e, .publish p q ∉ s.sent e) :
    s₁.Carried b s x p q :=
  ⟨fun e hm => absurd hm (h e),fun e _ hm => absurd hm (h e)⟩

theorem neverAfter_of_fresh {p p' : Str} {q q' : P × ℕ} (h : ∀ e, .publish p' q' ∉ s.sent e) :
    s.NeverAfter p' q' p q :=
  fun e hs => h e (hs.subset (by simp))

variable [DecidableEq V] [DecidableEq X] [DecidableEq L]

theorem Labelled.wired (h : s₁.Labelled b ids as s) : s.Wired b :=
  (h.informed.wired h.clients h.stable).of_mapPayload

theorem Labelled.not_sent (h : s₁.Labelled b ids as s) {e : End L} {p : Str} {q : P} {k : ℕ}
    (hk : as.length < k) : .publish p (q,k) ∉ s.sent e := fun hm =>
  absurd (h.fresh e p q k hm) (Nat.not_le.mpr hk)

variable [DecidableEq I] [DecidableEq Q]

theorem Labelled.step {a : Action V X L I Q P} (h : s₁.Labelled b ids as s)
    (hforest : b.topology.Acyclic (s₁.Linked b)) (ha : a.isTraffic = true)
    (ht : s.step b (numbered lim) (a.mapPayload (·,as.length+1)) = some t) :
    s₁.Labelled b ids (as++[a]) t := by
  have hta : (a.mapPayload (·,as.length+1)).isTraffic = true := (a.isTraffic_mapPayload _).trans ha
  have hw := h.wired
  have hold : (s.mapPayload Prod.fst).step b lim a = some (t.mapPayload Prod.fst) := by
    have hmap : (s.mapPayload Prod.fst).step b lim
        ((a.mapPayload (·,as.length+1)).mapPayload Prod.fst) =
          (s.step b (numbered lim) (a.mapPayload (·,as.length+1))).map (·.mapPayload Prod.fst) :=
      step_mapPayload hw.stable hta
    rwa [a.mapPayload_fst,ht] at hmap
  obtain ⟨hi,hc⟩ := step_informed h.informed h.clients (h.stable.calm ha) hold
  have hstill := step_still h.wired.stable hta ht
  -- the number of a publish that is sent now
  have hpub {y : X} {p : Str} {q : P} {k : ℕ}
      (hp : a.mapPayload (·,as.length+1) = .publish y p (q,k)) :
      a = .publish y p q ∧ k = as.length+1 := by
    obtain ⟨q',rfl,hq⟩ := Action.mapPayload_eq_publish hp
    obtain ⟨rfl,rfl⟩ := Prod.mk.inj hq
    exact ⟨rfl,rfl⟩
  have hcar {i : ℕ} {x : X} {p : Str} {q : P} (hp : (as++[a])[i]? = some (.publish x p q)) :
      s₁.Carried b s x p (q,i+1) := by
    rcases getElem?_concat hp with ⟨hp,-⟩ | ⟨rfl,-⟩
    · exact h.carried i x p q hp
    · exact carried_of_fresh fun e => h.not_sent (Nat.lt_succ_self _)
  refine ⟨hi,hc,(step_still h.stable ha hold).stable h.stable,h.still.trans hstill,
    fun e p q k hm => ?_,fun i x p q hp => ?_,fun i j x p q p' q' hij hp hp' => ?_⟩
  · rw [List.length_append,List.length_singleton]
    obtain ⟨ms,hs,hms⟩ := step_sent hw hta ht e
    rcases List.mem_append.mp (hs ▸ hm) with hm | hm
    · exact Nat.le_succ_of_le (h.fresh e p q k hm)
    · obtain ⟨-,hsends⟩ := hms p (q,k) hm
      generalize hact : a.mapPayload (·,as.length+1) = act at hsends
      cases hsends with
      | client y => exact (hpub hact).2.le
      | node v d hd =>
        exact Nat.le_succ_of_le (h.fresh d p q k (List.mem_of_mem_drop (List.mem_of_mem_head? hd)))
  · refine (hcar hp).step hw h.still hta ht fun y hact => ?_
    obtain ⟨rfl,hk⟩ := hpub hact
    rcases getElem?_concat hp with ⟨-,hlt⟩ | ⟨-,hp⟩
    · omega
    · exact (Action.publish.inj hp).1.symm
  · refine NeverAfter.step hw hta ht hforest (hcar hp) (hcar hp') ?_ fun y hact e => ?_
    · rcases getElem?_concat hp' with ⟨hp',hj⟩ | ⟨rfl,-⟩
      · rcases getElem?_concat hp with ⟨hp,-⟩ | ⟨rfl,-⟩
        · exact h.ordered i j x p q p' q' hij hp hp'
        · omega
      · exact neverAfter_of_fresh fun e => h.not_sent (Nat.lt_succ_self _)
    · obtain ⟨-,hk⟩ := hpub hact
      exact h.not_sent (by omega)

theorem Labelled.follow {a : Action V X L I Q P} {u : Network V X L I Q P}
    (h : s₁.Labelled b ids as s) (ha : a.isTraffic = true)
    (hu : (s.mapPayload Prod.fst).step b lim a = some u) :
    ∃ t, s.step b (numbered lim) (a.mapPayload (·,as.length+1)) = some t ∧
      t.mapPayload Prod.fst = u := by
  have hmap : (s.mapPayload Prod.fst).step b lim
      ((a.mapPayload (·,as.length+1)).mapPayload Prod.fst) =
        (s.step b (numbered lim) (a.mapPayload (·,as.length+1))).map (·.mapPayload Prod.fst) :=
    step_mapPayload h.wired.stable ((a.isTraffic_mapPayload _).trans ha)
  rw [a.mapPayload_fst,hu] at hmap
  exact Option.map_eq_some_iff.mp hmap.symm

theorem Labelled.run {as bs : List (Action V X L I Q P)} {u : Network V X L I Q P}
    (h : s₁.Labelled b ids as s) (hforest : b.topology.Acyclic (s₁.Linked b))
    (hbs : ∀ a ∈ bs, a.isTraffic = true)
    (hu : Transition.run (Network.step b lim) (s.mapPayload Prod.fst) bs = some u) :
    ∃ t, Transition.run (Network.step b (numbered lim)) s (number as.length bs) = some t ∧
      t.mapPayload Prod.fst = u ∧ s₁.Labelled b ids (as++bs) t := by
  induction bs generalizing as s with
  | nil => exact ⟨s,rfl,by simpa [Transition.run] using hu,by simpa using h⟩
  | cons a bs ih =>
    obtain ⟨w,hw,hrest⟩ := run_cons hu
    obtain ⟨t,ht,rfl⟩ := h.follow (hbs a (by simp)) hw
    obtain ⟨t',ht',hu',hl⟩ := ih (h.step hforest (hbs a (by simp)) ht)
      (fun c hc => hbs c (by simp [hc])) hrest
    refine ⟨t',?_,hu',by simpa using hl⟩
    rw [List.length_append,List.length_singleton] at ht'
    simp [number,Transition.run,ht,ht']

/-- What the steps of a numbered network keep that meet `R`, a run of such steps keeps. -/
theorem Labelled.keeps {J : Network V X L I Q (P × ℕ) → Prop} {R : Action V X L I Q P → Prop}
    {k : ℕ} (hstep : ∀ as s a t, s₁.Labelled b ids as s → k ≤ as.length → a.isTraffic = true → R a →
      s.step b (numbered lim) (a.mapPayload (·,as.length+1)) = some t → J s → J t)
    (hforest : b.topology.Acyclic (s₁.Linked b)) {as bs : List (Action V X L I Q P)}
    (h : s₁.Labelled b ids as s) (hk : k ≤ as.length) (hbs : ∀ a ∈ bs, a.isTraffic = true ∧ R a)
    (hrun : Transition.run (Network.step b (numbered lim)) s (number as.length bs) = some t)
    (hj : J s) : J t ∧ s₁.Labelled b ids (as++bs) t := by
  induction bs generalizing as s with
  | nil =>
    obtain rfl := Option.some.inj hrun
    exact ⟨hj,by simpa using h⟩
  | cons a bs ih =>
    obtain ⟨w,hw,hrest⟩ := run_cons hrun
    obtain ⟨hta,hok⟩ := hbs a (by simp)
    have hlen : (as++[a]).length = as.length+1 := by simp
    have hkeeps := ih (h.step hforest hta hw) (by omega) (fun c hc => hbs c (by simp [hc]))
      (hlen ▸ hrest) (hstep as s a w h hk hta hok hw hj)
    rwa [List.append_assoc] at hkeeps

omit [DecidableEq V] [DecidableEq X] [DecidableEq L] [DecidableEq I] [DecidableEq Q] in
theorem ne_publish {a : Action V X L I Q P} {n k : ℕ} (hk : k ≤ n) (x : X) (p : Str) (q : P) :
    a.mapPayload (·,n+1) ≠ .publish x p (q,k) := by
  intro h
  obtain ⟨q',-,hq⟩ := Action.mapPayload_eq_publish h
  have hk' := (Prod.mk.inj hq).2
  omega

omit [DecidableEq V] [DecidableEq X] [DecidableEq L] [DecidableEq I] [DecidableEq Q] in
theorem not_subscription {a : Action V X L I Q P} {n : ℕ} (h : ∀ x u f, a ≠ .subscription x u f)
    {x : X} {u : Str} {f : Bool} : a.mapPayload (·,n+1) ≠ .subscription x u f := by
  intro ha
  cases a with
  | subscription y v g => exact h y v g rfl
  | _ => simp [Action.mapPayload] at ha

/-- A publish that is on its way nowhere is sent no more. -/
theorem Labelled.landed {a : Action V X L I Q P} (h : s₁.Labelled b ids as s)
    (ha : a.isTraffic = true)
    (ht : s.step b (numbered lim) (a.mapPayload (·,as.length+1)) = some t) {p : Str} {q : P} {k : ℕ}
    (hk : k ≤ as.length) (hno : ∀ e, .publish p (q,k) ∉ s.inFlight e) :
    (∀ e, .publish p (q,k) ∉ t.inFlight e) ∧
      ∀ e, .publish p (q,k) ∈ t.delivered e ↔ .publish p (q,k) ∈ s.delivered e := by
  have hta : (a.mapPayload (·,as.length+1)).isTraffic = true := (a.isTraffic_mapPayload _).trans ha
  refine ⟨fun e hm => ?_,fun e => ?_⟩
  · obtain ⟨ms,hs,hms⟩ := step_sent h.wired hta ht e
    rcases step_inFlight h.wired ht hs hm with hm | hm
    · exact hno e hm
    · obtain ⟨-,hsends⟩ := hms p (q,k) hm
      generalize hact : a.mapPayload (·,as.length+1) = act at hsends
      cases hsends with
      | client y => exact ne_publish hk y p q hact
      | node v d hd => exact hno d (List.mem_of_mem_head? hd)
  · rcases step_delivered h.wired ht e with ⟨-,he⟩ | ⟨m,-,hm,he⟩
    · rw [he]
    · have hne : .publish p (q,k) ≠ m := fun hpm => hno e (hpm ▸ List.mem_of_mem_head? hm)
      simp [he,hne]

omit [DecidableEq V] [DecidableEq X] [DecidableEq L] [DecidableEq I] [DecidableEq Q] in
theorem exact_of_mapPayload {f : P → R} {s : Network V X L I Q P} (h : (s.mapPayload f).Exact b) :
    s.Exact b := by
  have hl : (s.mapPayload f).Linked b = s.Linked b := funext fun l => propext (linked_mapPayload l)
  intro v e u
  have hvu := h v e u
  rwa [hl] at hvu

theorem Labelled.spreads {x : X} {p : Str} {q : P} (h : s₁.Labelled b ids as s)
    (ht : s.step b (numbered lim) (.publish x p (q,as.length+1)) = some t)
    (hquiet : ∀ e u f, .subscription u f ∉ (s.mapPayload Prod.fst).inFlight e) :
    ∃ l, s.current x = some l ∧ s.Spreads b t l p (q,as.length+1) := by
  have hfresh (e : End L) : .publish p (q,as.length+1) ∉ s.sent e := h.not_sent (Nat.lt_succ_self _)
  have htab := step_tables h.wired rfl (by simp) (fun e u f hm => ?_) ht
  · obtain ⟨l,hl,rfl⟩ := Option.map_eq_some_iff.mp ht
    refine ⟨l,hl,fun _ _ => rfl,rfl,htab.2.2,by simp,fun e v hm hv => ?_,fun d v hd hm => ?_⟩
    · by_cases he : e = ⟨l,.target⟩
      · subst e
        have hsrc := b.owner_source (e := (⟨l,.target⟩ : End L).flip) rfl
        rw [hv,End.flip_link,h.wired.leaves x l hl] at hsrc
        simp at hsrc
      · exact absurd (by simpa [he] using hm) (hfresh e)
    · rcases step_delivered h.wired ht d with ⟨-,he⟩ | ⟨m,hact,-⟩
      · exact absurd (mem_sent_of_delivered (he ▸ hm)) (hfresh d)
      · simp at hact
  · refine hquiet e u f ?_
    rw [inFlight_mapPayload]
    exact List.mem_map.mpr ⟨_,hm,rfl⟩

/-- No node and no client receives a publish twice, and the client it comes from does not at all. -/
structure ReceivedOnce (b : Bus V X L) (t : Network V X L I Q P) (x : X) (m : Message I Q P) :
    Prop where
  once : ∀ (e e' : End L) (j j' : ℕ), b.owner e = b.owner e' → (t.delivered e)[j]? = some m →
    (t.delivered e')[j']? = some m → e = e' ∧ j = j'
  notBack : ∀ e, b.owner e = .inr x → m ∉ t.delivered e

omit [DecidableEq I] [DecidableEq Q] in
theorem Labelled.receivedOnce (h : s₁.Labelled b ids as s)
    (hforest : b.topology.Acyclic (s₁.Linked b)) {i : ℕ} {x : X} {p : Str} {q : P}
    (hp : as[i]? = some (.publish x p q)) : s.ReceivedOnce b x (.publish p (q,i+1)) := by
  have hcar := h.carried i x p q hp
  have hnever {e : End L} {j j' : ℕ} (hj : (s.delivered e)[j]? = some (.publish p (q,i+1)))
      (hj' : (s.delivered e)[j']? = some (.publish p (q,i+1))) : ¬j < j' := fun hlt =>
    h.ordered i i x p q p q le_rfl hp hp e
      ((pair_sublist_of_getElem? hlt hj hj').trans (List.take_sublist _ _))
  refine ⟨fun e e' j j' ho hj hj' => ?_,fun e he hm =>
    hcar.not_back hforest he (mem_sent_of_delivered hm)⟩
  obtain rfl := hcar.same_end hforest hcar (mem_sent_of_delivered (List.mem_of_getElem? hj))
    (mem_sent_of_delivered (List.mem_of_getElem? hj')) ho
  exact ⟨rfl,le_antisymm (Nat.le_of_not_lt (hnever hj' hj)) (Nat.le_of_not_lt (hnever hj hj'))⟩

omit [DecidableEq I] [DecidableEq Q] in
/-- Two publishes of a client that reach the same vertex reach it over the same end, in order. -/
theorem Labelled.inOrder (h : s₁.Labelled b ids as s) (hforest : b.topology.Acyclic (s₁.Linked b))
    {i j : ℕ} (hij : i < j) {x : X} {p p' : Str} {q q' : P} (hp : as[i]? = some (.publish x p q))
    (hp' : as[j]? = some (.publish x p' q')) {e e' : End L} (ho : b.owner e = b.owner e')
    (hm : .publish p (q,i+1) ∈ s.delivered e) (hm' : .publish p' (q',j+1) ∈ s.delivered e') :
    e = e' ∧ [.publish p (q,i+1),.publish p' (q',j+1)].Sublist (s.delivered e) := by
  obtain rfl := (h.carried i x p q hp).same_end hforest (h.carried j x p' q' hp')
    (mem_sent_of_delivered hm) (mem_sent_of_delivered hm') ho
  obtain ⟨k,hk⟩ := List.mem_iff_getElem?.mp hm
  obtain ⟨k',hk'⟩ := List.mem_iff_getElem?.mp hm'
  refine ⟨rfl,?_⟩
  rcases lt_trichotomy k k' with hlt | rfl | hlt
  · exact pair_sublist_of_getElem? hlt hk hk'
  · have heq := Option.some.inj (hk.symm.trans hk')
    simp only [Message.publish.injEq,Prod.mk.injEq] at heq
    omega
  · exact absurd ((pair_sublist_of_getElem? hlt hk' hk).trans (List.take_sublist _ _))
      (h.ordered i j x p q p' q' hij.le hp hp' e)

omit [DecidableEq I] [DecidableEq Q] in
theorem labelled_nil {u : Network V X L I Q P} (hi : u.Informed b ids) (hc : u.Clients b)
    (hs : u.Stable) : (u.mapPayload (·,0)).Labelled b ids [] (u.mapPayload (·,0)) := by
  refine ⟨?_,?_,?_,.of_node rfl rfl rfl,fun e p q k hm => ?_,by simp,by simp⟩
  · rwa [mapPayload_mapPayload_fst]
  · rwa [mapPayload_mapPayload_fst]
  · rwa [mapPayload_mapPayload_fst]
  · obtain ⟨m,-,hm⟩ := List.mem_map.mp hm
    cases m with
    | publish p' q' =>
      simp only [Message.mapPayload,Message.publish.injEq,Prod.mk.injEq] at hm
      omega
    | _ => simp [Message.mapPayload] at hm

/-- What a run of traffic does to the publishes of it. If the tables are exact when a
client publishes and nobody subscribes or unsubscribes until the publish is on its way nowhere, those
clients receive it that have to. -/
structure ExactlyOnce (b : Bus V X L) (lim : Limits I Q P) (s₀ : Network V X L I Q P)
    (as : List (Action V X L I Q P)) (t : Network V X L I Q (P × ℕ)) : Prop where
  once : ∀ (i : ℕ) x p q, as[i]? = some (.publish x p q) → t.ReceivedOnce b x (.publish p (q,i+1))
  inOrder : ∀ (i j : ℕ) x p q p' q' e e', i < j → as[i]? = some (.publish x p q) →
    as[j]? = some (.publish x p' q') → b.owner e = b.owner e' →
    .publish p (q,i+1) ∈ t.delivered e → .publish p' (q',j+1) ∈ t.delivered e' →
    e = e' ∧ [.publish p (q,i+1),.publish p' (q',j+1)].Sublist (t.delivered e)
  exact : ∀ (as₁ as₂ as₃ : List (Action V X L I Q P)) x p q s₁ t₂,
    as = as₁++.publish x p q::(as₂++as₃) → run (step b lim) s₀ as₁ = some s₁ → s₁.Exact b →
    (∀ e u f, .subscription u f ∉ s₁.inFlight e) → (∀ a ∈ as₂, ∀ x u f, a ≠ .subscription x u f) →
    run (step b (numbered lim)) (s₀.mapPayload (·,0)) (number 0 (as₁++.publish x p q::as₂)) = some t₂ →
    (∀ e, .publish p (q,as₁.length+1) ∉ t₂.inFlight e) →
    ∀ y, (∃ e, b.owner e = .inr y ∧ .publish p (q,as₁.length+1) ∈ t.delivered e) ↔
      y ≠ x ∧ (∃ es, b.topology.IsWalkBetween (s₀.Linked b) (.inr x) (.inr y) es) ∧
        ∃ u, s₁.said y u = true ∧ SubjectMatcher.patternMatch p u = true

theorem Labelled.arrives {u : Network V X L I Q (P × ℕ)} {as bs cs : List (Action V X L I Q P)}
    {x : X} {p : Str} {q : P} (h : u.Labelled b ids as s)
    (hforest : b.topology.Acyclic (u.Linked b)) (hexact : (s.mapPayload Prod.fst).Exact b)
    (hquiet : ∀ e u f, .subscription u f ∉ (s.mapPayload Prod.fst).inFlight e)
    (hbs : ∀ a ∈ bs, a.isTraffic = true ∧ ∀ x u f, a ≠ .subscription x u f)
    (hcs : ∀ a ∈ cs, a.isTraffic = true)
    (hs₁ : Transition.run (Network.step b (numbered lim)) s
      (number as.length (Action.publish x p q::bs)) = some s₁)
    (ht : Transition.run (Network.step b (numbered lim)) s₁
      (number (as.length+1+bs.length) cs) = some t)
    (hno : ∀ e, .publish p (q,as.length+1) ∉ s₁.inFlight e) (y : X) :
    (∃ e, b.owner e = .inr y ∧ .publish p (q,as.length+1) ∈ t.delivered e) ↔
      y ≠ x ∧ (∃ es, b.topology.IsWalkBetween (u.Linked b) (.inr x) (.inr y) es) ∧
        ∃ u, s.said y u = true ∧ SubjectMatcher.patternMatch p u = true := by
  obtain ⟨w,hw,hrest⟩ := run_cons hs₁
  obtain ⟨l,hx,hspreads⟩ := h.spreads hw hquiet
  have hlen : (as++[Action.publish x p q]).length = as.length+1 := by simp
  have hpub : u.Labelled b ids (as++[.publish x p q]) w := h.step hforest rfl hw
  have hbsOk : ∀ a ∈ bs, a.isTraffic = true ∧ ∀ x u f, a ≠ .subscription x u f := hbs
  obtain ⟨hspread,hl⟩ := hpub.keeps (J := fun t => s.Spreads b t l p (q,as.length+1))
    (k := as.length+1) (fun as' s' a t' h' hk hta hok ht' hj =>
      hj.step h'.wired ((a.isTraffic_mapPayload _).trans hta) ht'
        (fun y v f hact => not_subscription hok hact) fun y => ne_publish hk y p q)
    hforest hlen.ge hbsOk (hlen ▸ hrest) hspreads
  have hcount : Transition.run (Network.step b (numbered lim)) s₁
      (number (as++[Action.publish x p q]++bs).length cs) = some t := by
    rwa [List.length_append,hlen]
  have hfinal := (hl.keeps (J := fun t => (∀ e, .publish p (q,as.length+1) ∉ t.inFlight e) ∧
      ∀ e, .publish p (q,as.length+1) ∈ t.delivered e ↔ .publish p (q,as.length+1) ∈ s₁.delivered e)
    (R := fun _ => True) (k := as.length+1) (fun as' s' a t' h' hk hta hok ht' hj => by
      obtain ⟨hno',hdel⟩ := h'.landed hta ht' hk hj.1
      exact ⟨hno',fun e => (hdel e).trans (hj.2 e)⟩)
    hforest (by simp) (fun a ha => ⟨hcs a ha,trivial⟩) hcount
    ⟨hno,fun _ => Iff.rfl⟩).1.2
  simp only [hfinal]
  exact hspread.exact h.wired.leaves (exact_of_mapPayload hexact) hx h.still hforest
    (hl.carried as.length x p q (by simp)) hno y

theorem publish_exactly_once {u t : Network V X L I Q P} {as bs : List (Action V X L I Q P)}
    (hrun : run (step b lim) (init ids) bs = some u)
    (hcalm : Guarded (step b lim) (fun s a => s.overflows b lim a = false) (init ids) bs)
    (hs : u.Stable) (ha : b.topology.Acyclic (u.Accepted b))
    (htraffic : ∀ a ∈ as, a.isTraffic = true) (ht : run (step b lim) u as = some t) :
    ∃ t', run (step b (numbered lim)) (u.mapPayload (·,0)) (number 0 as) = some t' ∧
      t'.mapPayload Prod.fst = t ∧ ExactlyOnce b lim u as t' := by
  have hinv : u.Informed b ids ∧ u.Clients b :=
    run_invariant (fun s a t h hok ht => step_informed h.1 h.2 hok ht) ⟨init_informed,init_clients⟩
      hcalm hrun
  have h := labelled_nil hinv.1 hinv.2 hs
  have hforest : b.topology.Acyclic ((u.mapPayload (·,0)).Linked b) := by
    have hl : (u.mapPayload (·,0)).Linked b = u.Linked b :=
      funext fun l => propext (linked_mapPayload l)
    exact hl ▸ hinv.2.leaves.acyclic ha
  obtain ⟨t',ht',hfst,hl⟩ := h.run hforest htraffic (by rwa [mapPayload_mapPayload_fst])
  refine ⟨t',ht',hfst,fun i x p q hp => hl.receivedOnce hforest hp,
    fun i j x p q p' q' e e' hij hp hp' ho => hl.inOrder hforest hij hp hp' ho,?_⟩
  rintro as₁ as₂ as₃ x p q s₁ t₂ rfl hs₁ hexact hquiet hsub ht₂ hno y
  have hpos (a) (h : a ∈ as₁ ∨ a = .publish x p q ∨ a ∈ as₂ ∨ a ∈ as₃) : a.isTraffic = true :=
    htraffic a (by simpa using h)
  obtain ⟨s',hs',rfl,hl₁⟩ := h.run hforest (fun a ha => hpos a (.inl ha))
    (by rwa [mapPayload_mapPayload_fst])
  rw [number_append] at ht₂ ht'
  obtain ⟨s'',hs'',hrest⟩ := run_split ht₂
  obtain rfl := Option.some.inj (hs'.symm.trans hs'')
  obtain ⟨s₃,hs₃,hrest'⟩ := run_split ht'
  obtain rfl := Option.some.inj (hs'.symm.trans hs₃)
  have hsplit : number (([] : List (Action V X L I Q P)).length+as₁.length) (Action.publish x p q::(as₂++as₃)) =
      number as₁.length (Action.publish x p q::as₂)++number (as₁.length+1+as₂.length) as₃ := by
    rw [List.length_nil,Nat.zero_add,← List.cons_append,number_append,List.length_cons]
    congr 2
    omega
  rw [hsplit] at hrest'
  obtain ⟨s₄,hs₄,hrest'⟩ := run_split hrest'
  rw [Nat.zero_add] at hrest
  obtain rfl := Option.some.inj (hrest.symm.trans hs₄)
  have hreceived := hl₁.arrives hforest hexact hquiet
    (fun a ha => ⟨hpos a (.inr (.inr (.inl ha))),hsub a ha⟩)
    (fun a ha => hpos a (.inr (.inr (.inr ha)))) hrest hrest' hno y
  have hlinked : (u.mapPayload (·,0)).Linked b = u.Linked b :=
    funext fun l => propext (linked_mapPayload l)
  rwa [hlinked] at hreceived

/-- Node 0 makes a link to node 1; client 0 is connected to node 1 and client 1 to node 0. -/
def outposts : Bus (Fin 2) (Fin 2) (Fin 3) :=
  ⟨fun l => if l = 0 then .inl 0 else if l = 1 then .inr 0 else .inr 1,
    fun l => if l = 2 then 0 else 1⟩

/-- Client 0 subscribes while the link is pending. -/
def outpostsRun : List (Action (Fin 2) (Fin 2) (Fin 3) (Fin 2) ℕ Unit) :=
  [.node 0 (.establish ⟨0,.source⟩),.node 1 (.accept ⟨0,.target⟩),.connect 0 1,
    .node 1 (.accept ⟨1,.target⟩),.connect 1 2,.node 0 (.accept ⟨2,.target⟩),
    .subscription 0 [97] true,.deliver ⟨1,.target⟩,.deliver ⟨0,.source⟩,.deliver ⟨0,.source⟩,
    .deliver ⟨0,.target⟩,.node 0 (.beginCheck ⟨0,.source⟩),.node 0 .helloDone,.node 0 (.ask 0),
    .node 0 .resume]

/-- Client 1 publishes to client 0, which subscribes to another subject meanwhile. -/
def outpostsTraffic : List (Action (Fin 2) (Fin 2) (Fin 3) (Fin 2) ℕ Unit) :=
  [.publish 1 [97] (),.deliver ⟨2,.target⟩,.subscription 0 [98] true,.deliver ⟨0,.target⟩,
    .deliver ⟨1,.source⟩,.deliver ⟨1,.source⟩]

theorem outposts_stable {s : Network (Fin 2) (Fin 2) (Fin 3) (Fin 2) ℕ Unit}
    (hlost : ∀ l, s.lost l = false) (hsettled : ∀ v l side, ((s.node v).pending ⟨l,side⟩).isNone ∧
      ((s.node v).draining ⟨l,side⟩).isNone) : s.Stable where
  settled v c := by simpa using hsettled v c.link c.side
  noticed e he := by simp [hlost] at he

theorem outposts_forest {s : Network (Fin 2) (Fin 2) (Fin 3) (Fin 2) ℕ Unit} :
    outposts.topology.Acyclic (s.Accepted outposts) := by
  have hfirst (l : Fin 3) (hl : s.Accepted outposts l) : l = 0 := by
    obtain ⟨v,hv,-⟩ := hl
    match l with
    | 0 => rfl
    | 1 | 2 => simp [outposts] at hv
  refine outposts.topology.acyclic_of_ranking (fun _ => 0) (fun l m hl hm _ => ?_) (fun l hl => ?_)
    fun l _ e _ hr => Nat.lt_irrefl 0 hr.good.2
  · rw [hfirst l hl,hfirst m hm]
  · rw [hfirst l hl]
    exact fun h => absurd (Sum.inl.inj h) (by decide)

/-- Client 0 receives what client 1 publishes. -/
theorem publish_exactly_once_outposts :
    ∃ (u : Network (Fin 2) (Fin 2) (Fin 3) (Fin 2) ℕ Unit)
      (t' : Network (Fin 2) (Fin 2) (Fin 3) (Fin 2) ℕ (Unit × ℕ)),
      run (step outposts ⟨5,100,fun _ => 1⟩) (init id) outpostsRun = some u ∧
      run (step outposts (numbered ⟨5,100,fun _ => 1⟩)) (u.mapPayload (·,0))
        (number 0 outpostsTraffic) = some t' ∧
      t'.ReceivedOnce outposts 1 (.publish [97] ((),1)) ∧
      outposts.owner ⟨1,.source⟩ = .inr 0 ∧ .publish [97] ((),1) ∈ t'.delivered ⟨1,.source⟩ := by
  have hrun := Option.some_get (show (run (step outposts ⟨5,100,fun _ => 1⟩) (init id)
    outpostsRun).isSome by decide)
  have ht := Option.some_get (show (run (step outposts ⟨5,100,fun _ => 1⟩) (Option.get _
    (show (run (step outposts ⟨5,100,fun _ => 1⟩) (init id) outpostsRun).isSome by decide))
      outpostsTraffic).isSome by decide)
  obtain ⟨t',ht',-,hexactly⟩ := publish_exactly_once hrun.symm (by decide)
    (outposts_stable (by decide) (by decide)) outposts_forest (by decide) ht.symm
  have hreceived : ∀ t ∈ run (step outposts (numbered ⟨5,100,fun _ => 1⟩)) ((Option.get _
      (show (run (step outposts ⟨5,100,fun _ => 1⟩) (init id) outpostsRun).isSome by
        decide)).mapPayload (·,0)) (number 0 outpostsTraffic),
      .publish [97] ((),1) ∈ t.delivered ⟨1,.source⟩ := by decide
  exact ⟨_,t',hrun.symm,ht',hexactly.once 0 1 [97] () rfl,rfl,hreceived t' ht'⟩

end Network
end SoftwareBus
