import SoftwareBus.CheckEffect

/-! What holds of the check state of a node between its steps, given what it may
rely on about its connections: which it owns, their direction, and the Node IDs
their peers announce. -/
namespace SoftwareBus

variable {C I Q P : Type}

def Check.peer : Check C I Q → Option (C × I)
  | .idle | .awaitHello _ => none
  | .attempt c p _ | .asking c p _ _ | .answered c p _ _ => some (c,p)

/-- The check has asked its query and may still accept the connection. -/
def Check.Claims (k : Check C I Q) (c : C) : Prop :=
  (∃ i j q, k = .asking c i j q) ∨ ∃ i j, k = .answered c i j .notFound

theorem Check.peer_connection {k : Check C I Q} {c : C} {i : I} (h : k.peer = some (c,i)) :
    k.connection = some c := by
  cases k <;> simp_all [Check.peer,Check.connection]

instance Check.claimsDecidable [DecidableEq C] (k : Check C I Q) (c : C) : Decidable (k.Claims c) :=
  match k with
  | .idle | .awaitHello _ | .attempt _ _ _ => .isFalse (by simp [Claims])
  | .asking d i j q => decidable_of_iff (d = c) (by simp [Claims])
  | .answered d i j r => decidable_of_iff (d = c ∧ r = .notFound) (by simp [Claims])

theorem Check.Claims.connection {k : Check C I Q} {c : C} (h : k.Claims c) :
    k.connection = some c := by
  obtain ⟨i,j,q,rfl⟩ | ⟨i,j,rfl⟩ := h <;> rfl

namespace CheckState

def announced (n : CheckState C I Q P) (c : C) : Option I := (n.pending c).bind fun p => p.hello

structure Sound (mine : C → Prop) (up : C → Bool) (peerId : C → I → Prop)
    (n : CheckState C I Q P) : Prop where
  upstream : ∀ c ∈ n.upstreamConnections, mine c ∧ up c = true
  downstream : ∀ c ∈ n.downstreamConnections, mine c ∧ up c = false
  pendingUp : ∀ c, (n.pending c).isSome → up c = true
  nodup : n.allConnections.Nodup
  identified : ∀ c i, n.peerNodeIds c = some i → peerId c i
  announced : ∀ c i, n.announced c = some i → peerId c i ∧ (n.peerNodeIds c).isSome
  accepted : ∀ c ∈ n.upstreamConnections, n.pending c = none → (n.peerNodeIds c).isSome
  underCheck : ∀ c ∈ n.upstreamConnections, n.check.connection = some c → (n.pending c).isSome
  checked : ∀ c i, n.check.peer = some (c,i) →
    i ≠ n.nodeId ∧ peerId c i ∧ ((n.pending c).isSome → (n.peerNodeIds c).isSome)
  checking : n.checking = true ↔ ∃ c i k q, n.check = .asking c i k q
  own : ∀ c i k q, n.check = .asking c i k q → ∃ query, n.queries q = some ⟨query,i,none,true⟩
  ownOnly : ∀ q o, n.queries q = some o → o.source = none → ∃ c i k, n.check = .asking c i k q
  source : ∀ q o c, n.queries q = some o → o.source = some c → mine c
  closing : ∀ c, n.closing c = true → c ∉ n.allConnections

def Knows (n : CheckState C I Q P) (c : C) : Prop :=
  c ∈ n.allConnections ∨ n.closing c = true ∨ (n.pending c).isSome ∨ n.check.connection = some c

/-- The connection is accepted, or its check has asked its query and may still accept it. -/
def Passable (n : CheckState C I Q P) (c : C) : Prop :=
  c ∈ n.upstreamConnections ∧ (n.pending c = none ∨ n.check.Claims c)

instance passableDecidable [DecidableEq C] (n : CheckState C I Q P) (c : C) :
    Decidable (n.Passable c) :=
  decidable_of_iff (c ∈ n.upstreamConnections ∧ ((n.pending c).isNone ∨ n.check.Claims c))
    (by simp [Passable])

theorem mem_allConnections {n : CheckState C I Q P} {c : C} :
    c ∈ n.allConnections ↔ c ∈ n.downstreamConnections ∨ c ∈ n.upstreamConnections :=
  List.mem_append

variable {mine : C → Prop} {up : C → Bool} {peerId : C → I → Prop} {n : CheckState C I Q P}

theorem new_sound (i : I) :
    Sound mine up peerId (PubSubNode.new i : PubSubNode C I Q P).toCheckState := by
  constructor <;> simp [PubSubNode.new,CheckState.announced,Check.peer,allConnections]

variable [DecidableEq C]

section Fields

variable (n) (c : C) (b : Bool)

@[simp] theorem unlist_nodeId : (n.unlist c b).nodeId = n.nodeId := by cases b <;> rfl
@[simp] theorem unlist_peerNodeIds : (n.unlist c b).peerNodeIds = n.peerNodeIds := by
  cases b <;> rfl
@[simp] theorem unlist_pending : (n.unlist c b).pending = n.pending := by cases b <;> rfl
@[simp] theorem unlist_draining : (n.unlist c b).draining = n.draining := by cases b <;> rfl
@[simp] theorem unlist_queries : (n.unlist c b).queries = n.queries := by cases b <;> rfl
@[simp] theorem unlist_checking : (n.unlist c b).checking = n.checking := by cases b <;> rfl
@[simp] theorem unlist_check : (n.unlist c b).check = n.check := by cases b <;> rfl
@[simp] theorem unlist_closing : (n.unlist c b).closing = n.closing := by cases b <;> rfl

@[simp] theorem dropped_nodeId : (n.dropped c b).nodeId = n.nodeId := by
  unfold dropped; split <;> simp [forgetConnection]
@[simp] theorem dropped_check : (n.dropped c b).check = n.check := by
  unfold dropped; split <;> simp [forgetConnection]
@[simp] theorem dropped_checking : (n.dropped c b).checking = n.checking := by
  unfold dropped; split <;> simp [forgetConnection]
@[simp] theorem dropped_closing : (n.dropped c b).closing = n.closing := by
  unfold dropped; split <;> simp [forgetConnection]

theorem mem_unlist_upstream {d : C} : d ∈ (n.unlist c b).upstreamConnections ↔
    d ∈ n.upstreamConnections ∧ (b = true → d ≠ c) := by
  cases b <;> simp [unlist]

theorem mem_unlist_downstream {d : C} : d ∈ (n.unlist c b).downstreamConnections ↔
    d ∈ n.downstreamConnections ∧ (b = false → d ≠ c) := by
  cases b <;> simp [unlist]

theorem mem_unlist_of_ne {d : C} (hdc : d ≠ c) :
    d ∈ (n.unlist c b).allConnections ↔ d ∈ n.allConnections := by
  rw [mem_allConnections,mem_unlist_downstream,mem_unlist_upstream,mem_allConnections]
  simp [hdc]

end Fields

theorem hold_eq (n : CheckState C I Q P) (c : C) (m : {m : Message I Q P // isRouted m = true})
    (length : ℕ) : ∃ pending draining,
      n.hold c m length = {n with pending := pending, draining := draining} ∧
        (∀ d, (pending d).isSome = (n.pending d).isSome) ∧
        ∀ d, (pending d).bind (·.hello) = n.announced d := by
  unfold hold
  split
  · rename_i p hp
    refine ⟨_,_,rfl,fun d => ?_,fun d => ?_⟩ <;>
    · by_cases hdc : d = c <;> simp [CheckState.announced,hdc,hp]
  · exact ⟨_,_,rfl,fun _ => rfl,fun _ => rfl⟩

theorem handleHello_eq (n : CheckState C I Q P) (c : C) (i : I) : ∃ pending,
    n.handleHello c i =
        {n with peerNodeIds := Function.update n.peerNodeIds c (some i), pending := pending} ∧
      (∀ d, (pending d).isSome = (n.pending d).isSome) ∧
      ∀ d j, (pending d).bind (·.hello) = some j → n.announced d = some j ∨ d = c ∧ j = i := by
  unfold handleHello
  split
  · rename_i held hp
    refine ⟨_,rfl,fun d => ?_,fun d j hd => ?_⟩
    · by_cases hdc : d = c <;> simp [hdc,hp]
    · by_cases hdc : d = c
      · exact .inr ⟨hdc,by simpa [hdc,eq_comm] using hd⟩
      · exact .inl (by simpa [CheckState.announced,hdc] using hd)
  · exact ⟨_,rfl,fun _ => rfl,fun _ _ hd => .inl hd⟩

theorem unlist_sound (h : n.Sound mine up peerId) (c : C) (b : Bool) :
    (n.unlist c b).Sound mine up peerId := by
  have hnodup : (n.unlist c b).allConnections.Nodup := by
    refine h.nodup.sublist ?_
    cases b
    · exact (List.filter_sublist).append (.refl _)
    · exact (List.Sublist.refl _).append List.filter_sublist
  constructor <;> try simp only [mem_unlist_upstream,mem_unlist_downstream,mem_allConnections,
    CheckState.announced,unlist_nodeId,unlist_peerNodeIds,unlist_pending,unlist_queries,
    unlist_checking,unlist_check,unlist_closing]
  · exact fun d hd => h.upstream d hd.1
  · exact fun d hd => h.downstream d hd.1
  · exact h.pendingUp
  · exact hnodup
  · exact h.identified
  · exact h.announced
  · exact fun d hd => h.accepted d hd.1
  · exact fun d hd => h.underCheck d hd.1
  · exact h.checked
  · exact h.checking
  · exact h.own
  · exact h.ownOnly
  · exact h.source
  · exact fun d hd hm => h.closing d hd (mem_allConnections.mpr (hm.imp And.left And.left))

/-- A connection is unlisted from both lists if it is unlisted from its own. -/
theorem unlist_own (h : n.Sound mine up peerId) (c : C) : c ∉ (n.unlist c (up c)).allConnections := by
  rw [mem_allConnections,mem_unlist_upstream,mem_unlist_downstream]
  rintro (⟨hd,hc⟩ | ⟨hu,hc⟩)
  · exact hc (h.downstream c hd).2 rfl
  · exact hc (h.upstream c hu).2 rfl

theorem mem_unlist_own (h : n.Sound mine up peerId) (c d : C) :
    d ∈ (n.unlist c (up c)).allConnections ↔ d ∈ n.allConnections ∧ d ≠ c := by
  by_cases hdc : d = c
  · simpa [hdc] using unlist_own h c
  · rw [mem_unlist_of_ne n c _ hdc,and_iff_left hdc]

omit [DecidableEq C] in
/-- The queries may change as long as none of them changes hands. -/
theorem queries_sound (h : n.Sound mine up peerId) {qs : Q → Option (OpenQuery C I)}
    (hsrc : ∀ q o, qs q = some o →
      (∃ p, n.queries q = some p ∧ o.source = p.source) ∨ ∃ c, o.source = some c ∧ mine c)
    (hown : ∀ q i query, n.queries q = some ⟨query,i,none,true⟩ →
      ∃ query', qs q = some ⟨query',i,none,true⟩) :
    Sound mine up peerId {n with queries := qs} := by
  refine {h with own := ?_,ownOnly := ?_,source := ?_}
  · intro c i k q hc
    obtain ⟨query,hq⟩ := h.own c i k q hc
    exact hown q i query hq
  · intro q o hq hs
    rcases hsrc q o hq with ⟨p,hp,hsp⟩ | ⟨c,hc,-⟩
    · exact h.ownOnly q p hp (hsp ▸ hs)
    · simp [hs] at hc
  · intro q o c hq hs
    rcases hsrc q o hq with ⟨p,hp,hsp⟩ | ⟨d,hd,hm⟩
    · exact h.source q p c hp (hsp ▸ hs)
    · rw [hs] at hd
      exact Option.some.inj hd ▸ hm

theorem forget_sound (h : n.Sound mine up peerId) {c : C} (hc : c ∉ n.upstreamConnections) :
    (n.forgetConnection c).Sound mine up peerId := by
  have hq : Sound mine up peerId {n with queries := (n.forgetConnection c).queries} := by
    refine queries_sound h ?_ ?_
    · intro q o ho
      obtain ⟨p,hp,rfl⟩ := Option.map_eq_some_iff.mp ho
      exact .inl ⟨p,hp,rfl⟩
    · intro q i query hq
      exact ⟨query.reply c .notFound,by simp [forgetConnection,hq]⟩
  have hp : ∀ d, ((n.forgetConnection c).pending d).isSome → d ≠ c ∧ (n.pending d).isSome := by
    intro d hd
    by_cases hdc : d = c <;> simp_all [forgetConnection]
  refine {hq with
    pendingUp := ?_,identified := ?_,announced := ?_,accepted := ?_,underCheck := ?_,checked := ?_}
  · exact fun d hd => h.pendingUp d (hp d hd).2
  · intro d i hd
    by_cases hdc : d = c
    · simp [forgetConnection,hdc] at hd
    · exact h.identified d i (by simpa [forgetConnection,hdc] using hd)
  · intro d i hd
    have hdc : d ≠ c := by
      rintro rfl
      simp [CheckState.announced,forgetConnection] at hd
    simpa [forgetConnection,hdc] using
      h.announced d i (by simpa [CheckState.announced,forgetConnection,hdc] using hd)
  · intro d hd hpd
    have hdc : d ≠ c := fun he => hc (he ▸ hd)
    simpa [forgetConnection,hdc] using h.accepted d hd (by simpa [forgetConnection,hdc] using hpd)
  · intro d hd hk
    have hdc : d ≠ c := fun he => hc (he ▸ hd)
    simpa [forgetConnection,hdc] using h.underCheck d hd hk
  · intro d i hd
    refine ⟨(h.checked d i hd).1,(h.checked d i hd).2.1,fun hpd => ?_⟩
    obtain ⟨hdc,hpd⟩ := hp d hpd
    simpa [forgetConnection,hdc] using (h.checked d i hd).2.2 hpd

omit [DecidableEq C] in
theorem connections_direction (h : n.Sound mine up peerId) {c : C} {b : Bool}
    (hc : c ∈ n.connections b) : up c = b := by
  cases b
  · exact (h.downstream c hc).2
  · exact (h.upstream c hc).2

theorem dropped_sound (h : n.Sound mine up peerId) (c : C) (b : Bool) :
    (n.dropped c b).Sound mine up peerId := by
  unfold dropped
  split
  · rename_i hc
    refine forget_sound (unlist_sound h c b) fun hm => ?_
    rw [← connections_direction h hc] at hm
    exact unlist_own h c (mem_allConnections.mpr (.inr hm))
  · exact h

omit [DecidableEq C] in
/-- Pending connections may learn their peer's Node ID or hold another message. -/
theorem pending_sound (h : n.Sound mine up peerId)
    {pending : C → Option (PendingConnection I Q P)} {ids : C → Option I}
    {draining : C → Option (HeldMessages I Q P)}
    (hp : ∀ d, (pending d).isSome = (n.pending d).isSome)
    (hids : ∀ d, (n.peerNodeIds d).isSome → (ids d).isSome)
    (hpeer : ∀ d i, ids d = some i → peerId d i)
    (ha : ∀ d i, (pending d).bind (·.hello) = some i → peerId d i ∧ (ids d).isSome) :
    Sound mine up peerId
      {n with pending := pending, peerNodeIds := ids, draining := draining} := by
  refine {h with
    pendingUp := ?_,identified := hpeer,announced := ha,accepted := ?_,underCheck := ?_,checked := ?_}
  · exact fun d hd => h.pendingUp d (hp d ▸ hd)
  · intro d hd hn
    refine hids d (h.accepted d hd ?_)
    rw [← Option.not_isSome_iff_eq_none,← hp d]
    simpa using hn
  · exact fun d hd hk => (hp d).trans (h.underCheck d hd hk)
  · intro d i hd
    obtain ⟨hne,hi,hc⟩ := h.checked d i hd
    exact ⟨hne,hi,fun hs => hids d (hc (hp d ▸ hs))⟩

theorem hold_sound (h : n.Sound mine up peerId) (c : C)
    (m : {m : Message I Q P // isRouted m = true}) (length : ℕ) :
    (n.hold c m length).Sound mine up peerId := by
  obtain ⟨pending,draining,he,hp,ha⟩ := hold_eq n c m length
  rw [he]
  exact pending_sound h hp (fun _ => id) h.identified fun d i hd => h.announced d i (ha d ▸ hd)

theorem handleHello_sound (h : n.Sound mine up peerId) {c : C} {i : I} (hi : peerId c i) :
    (n.handleHello c i).Sound mine up peerId := by
  obtain ⟨pending,he,hp,ha⟩ := handleHello_eq n c i
  have hids : ∀ d, (n.peerNodeIds d).isSome → (Function.update n.peerNodeIds c (some i) d).isSome := by
    intro d hd
    by_cases hdc : d = c <;> simp [hdc,hd]
  have hpeer : ∀ d j, Function.update n.peerNodeIds c (some i) d = some j → peerId d j := by
    intro d j hd
    by_cases hdc : d = c
    · obtain rfl : i = j := by simpa [hdc] using hd
      exact hdc ▸ hi
    · exact h.identified d j (by simpa [hdc] using hd)
  rw [he]
  refine pending_sound h hp hids hpeer fun d j hd => ?_
  rcases ha d j hd with hd | ⟨rfl,rfl⟩
  · exact ⟨(h.announced d j hd).1,hids d (h.announced d j hd).2⟩
  · exact ⟨hi,by simp⟩

omit [DecidableEq C] in
/-- The check may change unless it is or becomes a query of the node's own. -/
theorem check_sound (h : n.Sound mine up peerId) {k : Check C I Q}
    (hk : ∀ c i j q, n.check ≠ .asking c i j q) (hk' : ∀ c i j q, k ≠ .asking c i j q)
    (hu : ∀ c, k.connection = some c → n.check.connection = some c ∨ (n.pending c).isSome)
    (hp : ∀ c i, k.peer = some (c,i) →
      i ≠ n.nodeId ∧ peerId c i ∧ ((n.pending c).isSome → (n.peerNodeIds c).isSome)) :
    Sound mine up peerId {n with check := k} := by
  refine {h with underCheck := ?_,checked := hp,checking := ?_,own := ?_,ownOnly := ?_}
  · exact fun c hc hkc => (hu c hkc).elim (h.underCheck c hc) id
  · simp [h.checking,hk,hk']
  · exact fun c i j q hc => absurd hc (hk' c i j q)
  · intro q o hq hs
    obtain ⟨c,i,j,hc⟩ := h.ownOnly q o hq hs
    exact absurd hc (hk c i j q)

variable [DecidableEq Q]

omit [DecidableEq C] in
/-- The entry of one query may change as long as the query does not change hands. -/
theorem query_sound (h : n.Sound mine up peerId) (q : Q) {e : Option (OpenQuery C I)}
    (hsrc : ∀ o, e = some o →
      (∃ p, n.queries q = some p ∧ o.source = p.source) ∨ ∃ c, o.source = some c ∧ mine c)
    (hown : ∀ i query, n.queries q = some ⟨query,i,none,true⟩ →
      ∃ query', e = some ⟨query',i,none,true⟩) :
    Sound mine up peerId {n with queries := Function.update n.queries q e} := by
  apply queries_sound h
  · intro q' o ho
    by_cases hq : q' = q
    · subst q'
      rw [Function.update_self] at ho
      exact hsrc o ho
    · rw [Function.update_of_ne hq] at ho
      exact .inl ⟨o,ho,rfl⟩
  · intro q' i query hq'
    by_cases hq : q' = q
    · subst q'
      rw [Function.update_self]
      exact hown i query hq'
    · rw [Function.update_of_ne hq]
      exact ⟨query,hq'⟩

omit [DecidableEq C] in
theorem endQuery_sound (h : n.Sound mine up peerId) {c : C} {i : I} {j : ℕ} {q : Q}
    (hc : n.check = .asking c i j q) {k : Check C I Q} (hk : ∀ c i j q, k ≠ .asking c i j q)
    (hu : ∀ d, k.connection = some d → c = d)
    (hp : ∀ c i, k.peer = some (c,i) →
      i ≠ n.nodeId ∧ peerId c i ∧ ((n.pending c).isSome → (n.peerNodeIds c).isSome)) :
    Sound mine up peerId {n.closeQuery q with checking := false, check := k} := by
  have hq : ∀ q' o, (n.closeQuery q).queries q' = some o → q' ≠ q ∧ n.queries q' = some o := by
    intro q' o ho
    by_cases hqq : q' = q <;> simp_all [closeQuery]
  refine {h with
    underCheck := ?_,checked := hp,checking := by simp [hk],own := ?_,ownOnly := ?_,source := ?_}
  · intro d hd hkd
    exact h.underCheck d hd (by simpa [hc,Check.connection] using hu d hkd)
  · exact fun d i j q hd => absurd hd (hk d i j q)
  · intro q' o ho hs
    obtain ⟨hqq,ho⟩ := hq q' o ho
    obtain ⟨d,e,m,hd⟩ := h.ownOnly q' o ho hs
    simp [hc,Ne.symm hqq] at hd
  · exact fun q' o d ho hs => h.source q' o d (hq q' o ho).2 hs

variable [DecidableEq I]

/-- What a node may rely on when an event happens. -/
def Fits (mine : C → Prop) (up : C → Bool) (peerId : C → I → Prop) (n : CheckState C I Q P) :
    NodeEvent C I Q P → Prop
  | .establish c => mine c ∧ up c = true ∧ ¬n.Knows c
  | .accept c => mine c ∧ up c = false ∧ ¬n.Knows c
  | .receive c (.hello i) => peerId c i
  | .receive c (.query _ _) => mine c
  | _ => True

omit [DecidableEq I] [DecidableEq Q] in
theorem establish_sound (h : n.Sound mine up peerId) {c : C} (hm : mine c) (hu : up c = true)
    (hnew : ¬n.Knows c) : Sound mine up peerId {n with
      upstreamConnections := n.upstreamConnections++[c]
      pending := Function.update n.pending c (some ⟨none,.empty⟩)} := by
  have hl : c ∉ n.allConnections := fun hl => hnew (.inl hl)
  have hc : n.closing c ≠ true := fun hc => hnew (.inr (.inl hc))
  have hk : n.check.connection ≠ some c := fun hk => hnew (.inr (.inr (.inr hk)))
  have hold : ∀ d i, (Function.update n.pending c (some ⟨none,.empty⟩) d).bind (·.hello) = some i →
      d ≠ c ∧ n.announced d = some i := by
    intro d i hd
    by_cases hdc : d = c <;> simp_all [CheckState.announced]
  refine {h with
    upstream := ?_,pendingUp := ?_,nodup := ?_,announced := ?_,accepted := ?_,underCheck := ?_
    checked := ?_,closing := ?_}
  · intro d hd
    rcases List.mem_append.mp hd with hd | hd
    · exact h.upstream d hd
    · simp_all
  · intro d hd
    by_cases hdc : d = c
    · exact hdc ▸ hu
    · exact h.pendingUp d (by simpa [hdc] using hd)
  · have hn : (n.allConnections++[c]).Nodup := List.nodup_append_comm.mp
      (List.nodup_cons.mpr ⟨by simpa using hl,by simpa using h.nodup⟩)
    simpa [allConnections] using hn
  · exact fun d i hd => h.announced d i (hold d i hd).2
  · intro d hd hp
    have hdc : d ≠ c := by rintro rfl; simp at hp
    exact h.accepted d (by simpa [hdc] using hd) (by simpa [hdc] using hp)
  · intro d hd hkd
    have hdc : d ≠ c := by rintro rfl; exact hk hkd
    simpa [hdc] using h.underCheck d (by simpa [hdc] using hd) hkd
  · intro d i hd
    have hdc : d ≠ c := by
      rintro rfl
      exact hk (Check.peer_connection hd)
    simpa [hdc] using h.checked d i hd
  · intro d hd hm
    have hdc : d ≠ c := by rintro rfl; exact hc hd
    exact h.closing d hd (by simpa [mem_allConnections,hdc] using hm)

omit [DecidableEq C] [DecidableEq I] [DecidableEq Q] in
theorem accept_sound (h : n.Sound mine up peerId) {c : C} (hm : mine c) (hu : up c = false)
    (hnew : ¬n.Knows c) : Sound mine up peerId
      {n with downstreamConnections := n.downstreamConnections++[c]} := by
  have hl : c ∉ n.allConnections := fun hl => hnew (.inl hl)
  refine {h with downstream := ?_,nodup := ?_,closing := ?_}
  · intro d hd
    rcases List.mem_append.mp hd with hd | hd
    · exact h.downstream d hd
    · simp_all
  · have hn : (c::n.allConnections).Nodup := List.nodup_cons.mpr ⟨hl,h.nodup⟩
    simpa [allConnections] using List.nodup_middle.mpr hn
  · intro d hd hm
    have hdc : d ≠ c := by rintro rfl; exact hnew (.inr (.inl hd))
    exact h.closing d hd (by simpa [mem_allConnections,hdc] using hm)

omit [DecidableEq I] [DecidableEq Q] in
theorem closeConnection_sound (h : n.Sound mine up peerId) (c : C) :
    Sound mine up peerId {n.unlist c (up c) with closing := Function.update n.closing c true} := by
  have hu := unlist_sound h c (up c)
  refine {hu with closing := fun d hd => ?_}
  by_cases hdc : d = c
  · exact hdc ▸ unlist_own h c
  · exact hu.closing d (by simpa [hdc] using hd)

omit [DecidableEq I] [DecidableEq Q] in
theorem closed_sound (h : n.Sound mine up peerId) {c : C} (hc : n.closing c = true) :
    Sound mine up peerId
      {n.forgetConnection c with closing := Function.update n.closing c false} := by
  have hn := h.closing c hc
  have hs := forget_sound h fun hm => hn (mem_allConnections.mpr (.inr hm))
  refine {hs with closing := fun d hd => hs.closing d ?_}
  by_cases hdc : d = c <;> simp_all [forgetConnection]

omit [DecidableEq I] in
theorem handleReply_sound (h : n.Sound mine up peerId) (c : C) (q : Q) (r : ReachabilityResult) :
    (n.handleReply c q r).Sound mine up peerId := by
  unfold handleReply
  split
  · exact h
  · rename_i o ho
    apply query_sound h q
    · intro o' ho'
      cases ho'
      exact .inl ⟨o,ho,rfl⟩
    · intro i query hq'
      obtain rfl := Option.some.inj (ho.symm.trans hq')
      exact ⟨_,rfl⟩

omit [DecidableEq C] [DecidableEq I] in
theorem peerQuery_sound (h : n.Sound mine up peerId) {q : Q} {e : Option (OpenQuery C I)}
    (hq : ∀ i query, n.queries q ≠ some ⟨query,i,none,true⟩)
    (he : ∀ o, e = some o →
      (∃ p, n.queries q = some p ∧ o.source = p.source) ∨ ∃ c, o.source = some c ∧ mine c) :
    Sound mine up peerId {n with queries := Function.update n.queries q e} :=
  query_sound h q he fun i query hown => absurd hown (hq i query)

omit [DecidableEq C] [DecidableEq I] in
theorem asked_sound (h : n.Sound mine up peerId) {q : Q} {c : C} {p : I} {k : ℕ}
    (hc : n.check = .attempt c p k) : Sound mine up peerId
      {n.openQuery q ⟨.new n.activeNodeConnections,p,none,true⟩ with
        checking := true
        check := .asking c p k q} := by
  refine {h with
    underCheck := ?_,checked := ?_,checking := ?_,own := ?_,ownOnly := ?_,source := ?_}
  · intro d hd hkd
    exact h.underCheck d hd (by simpa [hc,Check.connection] using hkd)
  · intro d i hd
    exact h.checked d i (by simpa [hc,Check.peer] using hd)
  · simp
  · intro d i j q' hd
    obtain ⟨-,rfl,-,rfl⟩ : c = d ∧ p = i ∧ k = j ∧ q = q' := by simpa using hd
    exact ⟨.new n.activeNodeConnections,by simp [openQuery]⟩
  · intro q' o ho hs
    by_cases hq : q' = q
    · exact ⟨c,p,k,by rw [hq]⟩
    · obtain ⟨d,i,j,hd⟩ := h.ownOnly q' o (by simpa [openQuery,hq] using ho) hs
      simp [hc] at hd
  · intro q' o d ho hs
    by_cases hq : q' = q
    · simp only [openQuery,hq,Function.update_self,Option.some.injEq] at ho
      simp [← ho] at hs
    · exact h.source q' o d (by simpa [openQuery,hq] using ho) hs

omit [DecidableEq I] [DecidableEq Q] in
theorem activated_sound (h : n.Sound mine up peerId) {c : C} {p : I} {k : ℕ}
    (hc : n.check = .answered c p k .notFound) (hp : (n.pending c).isSome) :
    Sound mine up peerId {n with
      check := .idle
      pending := Function.update n.pending c none
      draining := Function.update n.draining c none} := by
  have hk := check_sound h (k := .idle) (by simp [hc]) (by simp) (by simp [Check.connection])
    (by simp [Check.peer])
  have hpend : ∀ d, (Function.update n.pending c none d).isSome → d ≠ c := by
    rintro d hd rfl
    simp at hd
  refine {hk with
    pendingUp := ?_,announced := ?_,accepted := ?_,underCheck := by simp [Check.connection]
    checked := by simp [Check.peer]}
  · intro d hd
    exact h.pendingUp d (by simpa [hpend d hd] using hd)
  · intro d i hd
    by_cases hdc : d = c
    · simp [CheckState.announced,hdc] at hd
    · exact h.announced d i (by simpa [CheckState.announced,hdc] using hd)
  · intro d hd hpd
    by_cases hdc : d = c
    · subst d
      exact (h.checked c p (by simp [hc,Check.peer])).2.2 hp
    · exact h.accepted d hd (by simpa [hdc] using hpd)

omit [DecidableEq C] [DecidableEq I] [DecidableEq Q] in
/-- The peer of the connection under check has told a Node ID that the check lets pass. -/
theorem identified_sound (h : n.Sound mine up peerId) {c : C} {p : I} {held : HeldMessages I Q P}
    (hc : n.check = .awaitHello c) (hp : n.pending c = some ⟨some p,held⟩) (hself : p ≠ n.nodeId) :
    Sound mine up peerId {n with check := .attempt c p 0} := by
  refine check_sound h (by simp [hc]) (by simp) (by simp [hc,Check.connection]) fun d i hd => ?_
  obtain ⟨rfl,rfl⟩ : c = d ∧ p = i := by simpa [Check.peer] using hd
  obtain ⟨hpeer,hid⟩ := h.announced c p (by simp [CheckState.announced,hp])
  exact ⟨hself,hpeer,fun _ => hid⟩

omit [DecidableEq C] [DecidableEq I] [DecidableEq Q] in
theorem attempt_sound (h : n.Sound mine up peerId) {k : Check C I Q}
    (hk : ∀ c i j q, n.check ≠ .asking c i j q) (hk' : ∀ c i j q, k ≠ .asking c i j q)
    (hc : k.connection = n.check.connection) (hp : k.peer = n.check.peer) :
    Sound mine up peerId {n with check := k} :=
  check_sound h hk hk' (fun _ hd => .inl (hc ▸ hd)) fun d i hd => h.checked d i (hp ▸ hd)

omit [DecidableEq C] [DecidableEq I] [DecidableEq Q] in
theorem idle_sound (h : n.Sound mine up peerId) (hk : ∀ c i j q, n.check ≠ .asking c i j q) :
    Sound mine up peerId {n with check := .idle} :=
  check_sound h hk (by simp) (by simp [Check.connection]) (by simp [Check.peer])

omit [DecidableEq C] [DecidableEq Q] in
theorem answerNow_none {c : C} {q : Q} {i : I} (h : n.answerNow c q i = none) : n.queries q = none := by
  simp only [answerNow] at h
  split_ifs at h
  simp_all

theorem Effect.sound {ev : NodeEvent C I Q P} {n' : CheckState C I Q P}
    {fs : List (C × Message I Q P)} (he : Effect up n ev n' fs) (h : n.Sound mine up peerId)
    (hf : n.Fits mine up peerId ev) : n'.Sound mine up peerId := by
  cases he with
  | establish c => exact establish_sound h hf.1 hf.2.1 hf.2.2
  | accept c => exact accept_sound h hf.1 hf.2.1 hf.2.2
  | routed c m hm => exact h
  | held c m length => exact hold_sound h c m length
  | overLimit c m hm => exact dropped_sound h c _
  | hello c i => exact handleHello_sound h hf
  | answered c q i r hr => exact h
  | noTargets c q i hr ht => exact h
  | opened c q i hr ht =>
    refine peerQuery_sound h (by simp [answerNow_none hr]) fun o ho => .inr ⟨c,?_,hf⟩
    cases ho
    rfl
  | replied c q r => exact handleReply_sound h c q r
  | lost c goesOn => exact dropped_sound h c _
  | closeConnection c hc => exact closeConnection_sound h c
  | closed c hc => exact closed_sound h hc
  | beginCheck c hc hp =>
    refine check_sound h (fun d i j q hd => ?_) (by simp) (fun d hd => .inr ?_) (by simp [Check.peer])
    · simp [hd,Check.connection] at hc
    · obtain rfl : c = d := by simpa [Check.connection] using hd
      exact hp
  | refused ev c hev hc ha hn => exact dropped_sound (idle_sound h ha) c true
  | identified c p held hc hp hself hno => exact identified_sound h hc hp hself
  | askedNobody q c p k hc ht =>
    exact attempt_sound h (by simp [hc]) (by simp) (by rw [hc]; rfl) (by rw [hc]; rfl)
  | asked q c p k hc ht => exact asked_sound h hc
  | queryEnded ev c p k q r hc hr =>
    refine endQuery_sound h hc (by simp) (by simp [Check.connection])
      fun d i hd => h.checked d i ?_
    simpa [hc,Check.peer] using hd
  | activated c p k hc hp => exact activated_sound h hc hp
  | retried c p k hc hp =>
    exact attempt_sound h (by simp [hc]) (by simp) (by rw [hc]; rfl) (by rw [hc]; rfl)
  | abandonedQuery c p k q hc hp =>
    exact endQuery_sound h hc (by simp) (by simp [Check.connection]) (by simp [Check.peer])
  | abandoned c hc hp ha => exact idle_sound h ha
  | forwarded q query t source hq =>
    refine peerQuery_sound h (by simp [hq]) fun o ho => .inl ⟨_,hq,?_⟩
    cases ho
    rfl
  | forwardEnded ev q query t source r hq hr => exact peerQuery_sound h (by simp [hq]) (by simp)

omit [DecidableEq C] [DecidableEq I] [DecidableEq Q] in
theorem Knows.mono {m : CheckState C I Q P} {d : C} (h : m.Knows d)
    (hl : d ∈ m.allConnections → n.Knows d) (hc : m.closing d = true → n.Knows d)
    (hp : (m.pending d).isSome → (n.pending d).isSome)
    (hk : m.check.connection = some d → n.Knows d) : n.Knows d := by
  rcases h with h | h | h | h
  · exact hl h
  · exact hc h
  · exact .inr (.inr (.inl (hp h)))
  · exact hk h

omit [DecidableEq I] [DecidableEq Q] in
theorem unlist_knows {c d : C} {b : Bool} (h : (n.unlist c b).Knows d) : n.Knows d := by
  refine h.mono (fun hm => ?_) (fun hc => .inr (.inl (by simpa using hc))) (by simp)
    fun hk => .inr (.inr (.inr (by simpa using hk)))
  rw [mem_allConnections,mem_unlist_upstream,mem_unlist_downstream] at hm
  exact .inl (mem_allConnections.mpr (hm.imp And.left And.left))

omit [DecidableEq I] [DecidableEq Q] in
theorem forget_knows {c d : C} (h : (n.forgetConnection c).Knows d) : n.Knows d := by
  refine h.mono .inl (fun hc => .inr (.inl hc)) (fun hp => ?_) fun hk => .inr (.inr (.inr hk))
  by_cases hdc : d = c <;> simp_all [forgetConnection]

omit [DecidableEq I] [DecidableEq Q] in
theorem dropped_knows {c d : C} {b : Bool} (h : (n.dropped c b).Knows d) : n.Knows d := by
  unfold dropped at h
  split at h
  · exact unlist_knows (forget_knows h)
  · exact h

theorem Effect.knows {ev : NodeEvent C I Q P} {n' : CheckState C I Q P}
    {fs : List (C × Message I Q P)} (he : Effect up n ev n' fs) {d : C} (h : n'.Knows d) :
    n.Knows d ∨ ev = .establish d ∨ ev = .accept d := by
  cases he with
  | establish c =>
    by_cases hdc : d = c
    · simp [hdc]
    · exact .inl (by simpa [Knows,mem_allConnections,hdc] using h)
  | accept c =>
    by_cases hdc : d = c
    · simp [hdc]
    · exact .inl (by simpa [Knows,mem_allConnections,hdc] using h)
  | routed c m hm => exact .inl h
  | held c m length =>
    obtain ⟨pending,draining,he,hp,-⟩ := hold_eq n c m length
    exact .inl (by simpa [he,Knows,allConnections,hp] using h)
  | overLimit c m hm => exact .inl (dropped_knows h)
  | hello c i =>
    obtain ⟨pending,he,hp,-⟩ := handleHello_eq n c i
    exact .inl (by simpa [he,Knows,allConnections,hp] using h)
  | answered c q i r hr => exact .inl h
  | noTargets c q i hr ht => exact .inl h
  | opened c q i hr ht => exact .inl h
  | replied c q r =>
    unfold handleReply at h
    split at h <;> exact .inl h
  | lost c goesOn => exact .inl (dropped_knows h)
  | closeConnection c hc =>
    by_cases hdc : d = c
    · exact .inl (.inl (hdc ▸ hc))
    · exact .inl (unlist_knows (c := c) (b := up c) (by simpa [Knows,allConnections,hdc] using h))
  | closed c hc =>
    refine .inl (forget_knows (c := c) (h.mono .inl (fun hd => ?_) id fun hk => .inr (.inr (.inr hk))))
    by_cases hdc : d = c
    · exact .inr (.inl (hdc ▸ hc))
    · exact .inr (.inl (by simpa [forgetConnection,hdc] using hd))
  | beginCheck c hc hp =>
    refine .inl (h.mono .inl (fun hd => .inr (.inl hd)) id fun hk => ?_)
    obtain rfl : c = d := by simpa [Check.connection] using hk
    exact .inr (.inr (.inl hp))
  | refused ev c hev hc ha hn =>
    refine .inl ((dropped_knows h).mono .inl (fun hd => .inr (.inl hd)) id ?_)
    simp [Check.connection]
  | identified c p held hc hp hself hno =>
    exact .inl (by simpa [Knows,Check.connection,hc,allConnections,openQuery,closeQuery] using h)
  | askedNobody q c p k hc ht =>
    exact .inl (by simpa [Knows,Check.connection,hc,allConnections,openQuery,closeQuery] using h)
  | asked q c p k hc ht =>
    exact .inl (by simpa [Knows,Check.connection,hc,allConnections,openQuery,closeQuery] using h)
  | queryEnded ev c p k q r hc hr =>
    exact .inl (by simpa [Knows,Check.connection,hc,allConnections,openQuery,closeQuery] using h)
  | activated c p k hc hp =>
    refine .inl (h.mono .inl (fun hd => .inr (.inl hd)) (fun hd => ?_) (by simp [Check.connection]))
    by_cases hdc : d = c <;> simp_all
  | retried c p k hc hp =>
    exact .inl (by simpa [Knows,Check.connection,hc,allConnections,openQuery,closeQuery] using h)
  | abandonedQuery c p k q hc hp =>
    exact .inl (h.mono .inl (fun hd => .inr (.inl hd)) id (by simp [Check.connection]))
  | abandoned c hc hp ha =>
    exact .inl (h.mono .inl (fun hd => .inr (.inl hd)) id (by simp [Check.connection]))
  | forwarded q query t source hq => exact .inl h
  | forwardEnded ev q query t source r hq hr => exact .inl h

theorem Effect.nodeId {ev : NodeEvent C I Q P} {n' : CheckState C I Q P}
    {fs : List (C × Message I Q P)} (he : Effect up n ev n' fs) : n'.nodeId = n.nodeId := by
  cases he with
  | held c m length =>
    obtain ⟨_,_,he,-⟩ := hold_eq n c m length
    rw [he]
  | overLimit c m hm => exact dropped_nodeId n c _
  | hello c i =>
    obtain ⟨_,he,-⟩ := handleHello_eq n c i
    rw [he]
  | replied c q r => unfold handleReply; split <;> rfl
  | lost c goesOn => exact dropped_nodeId n c _
  | closeConnection c hc => simp
  | refused ev c hev hc ha hn => exact dropped_nodeId _ c true
  | _ => rfl

theorem Effect.hello_sent {ev : NodeEvent C I Q P} {n' : CheckState C I Q P}
    {fs : List (C × Message I Q P)} (he : Effect up n ev n' fs) {c : C} {i : I}
    (h : (c,.hello i) ∈ fs) : i = n.nodeId ∧ (ev = .establish c ∨ ev = .accept c) := by
  cases he with
  | establish d =>
    obtain ⟨rfl,rfl⟩ : c = d ∧ i = n.nodeId := by simpa using h
    exact ⟨rfl,.inl rfl⟩
  | accept d =>
    obtain ⟨rfl,rfl⟩ : c = d ∧ i = n.nodeId := by simpa using h
    exact ⟨rfl,.inr rfl⟩
  | forwardEnded ev q query t source r hq hr => split at h <;> simp at h
  | _ => simp at h

omit [DecidableEq I] [DecidableEq Q] in
theorem dropped_identified (h : n.Sound mine up peerId) {c d : C} {b : Bool}
    (hi : (n.peerNodeIds d).isSome) (hd : d ∈ (n.dropped c b).allConnections) :
    ((n.dropped c b).peerNodeIds d).isSome := by
  unfold dropped at hd ⊢
  split at hd
  · rename_i hc
    have hdc : d ≠ c := by
      rintro rfl
      rw [← connections_direction h hc] at hd
      exact unlist_own h d hd
    simpa [hc,forgetConnection,hdc] using hi
  · rename_i hc
    simpa [hc] using hi

/-- The Node ID of a peer is kept as long as its connection is listed. -/
theorem Effect.identity_kept {ev : NodeEvent C I Q P} {n' : CheckState C I Q P}
    {fs : List (C × Message I Q P)} (he : Effect up n ev n' fs) (h : n.Sound mine up peerId)
    {d : C} (hi : (n.peerNodeIds d).isSome) (hd : d ∈ n'.allConnections)
    (hc : n.closing d = false) : (n'.peerNodeIds d).isSome := by
  cases he with
  | held c m length =>
    obtain ⟨_,_,he,-⟩ := hold_eq n c m length
    simpa [he] using hi
  | overLimit c m hm => exact dropped_identified h hi hd
  | hello c i =>
    obtain ⟨_,he,-⟩ := handleHello_eq n c i
    by_cases hdc : d = c <;> simp [he,hdc,hi]
  | replied c q r =>
    unfold handleReply
    split <;> exact hi
  | lost c goesOn => exact dropped_identified h hi hd
  | closeConnection c hc => simpa using hi
  | closed c hcc =>
    have hdc : d ≠ c := by
      rintro rfl
      simp [hc] at hcc
    simpa [forgetConnection,hdc] using hi
  | refused ev c hev hcc ha hk =>
    exact dropped_identified (n := {n with check := .idle})
      (check_sound h ha (by simp) (by simp [Check.connection]) (by simp [Check.peer])) hi hd
  | _ => exact hi

theorem Effect.lists {ev : NodeEvent C I Q P} {n' : CheckState C I Q P}
    {fs : List (C × Message I Q P)} (he : Effect up n ev n' fs) {d : C}
    (hev : ev = .establish d ∨ ev = .accept d) : d ∈ n'.allConnections := by
  cases he with
  | establish c =>
    obtain rfl : c = d := by simpa using hev
    simp [allConnections]
  | accept c =>
    obtain rfl : c = d := by simpa using hev
    simp [allConnections]
  | refused ev c hev' hc ha hk => rcases hev with rfl | rfl <;> simp at hev'
  | queryEnded ev c p k q r hc hr => rcases hev with rfl | rfl <;> simp at hr
  | forwardEnded ev q query t source r hq hr => rcases hev with rfl | rfl <;> simp at hr
  | _ => simp at hev

theorem Effect.closes {ev : NodeEvent C I Q P} {n' : CheckState C I Q P}
    {fs : List (C × Message I Q P)} (he : Effect up n ev n' fs) {d : C} (h : n'.closing d = true) :
    n.closing d = true ∨ d ∈ n.allConnections := by
  cases he with
  | held c m length =>
    obtain ⟨_,_,he,-⟩ := hold_eq n c m length
    exact .inl (by simpa [he] using h)
  | overLimit c m hm => exact .inl (dropped_closing n c _ ▸ h)
  | hello c i =>
    obtain ⟨_,he,-⟩ := handleHello_eq n c i
    exact .inl (by simpa [he] using h)
  | replied c q r =>
    unfold handleReply at h
    split at h <;> exact .inl h
  | lost c goesOn => exact .inl (dropped_closing n c _ ▸ h)
  | closeConnection c hc =>
    by_cases hdc : d = c
    · exact .inr (hdc ▸ hc)
    · exact .inl (by simpa [hdc] using h)
  | closed c hc =>
    by_cases hdc : d = c
    · exact .inl (hdc ▸ hc)
    · exact .inl (by simpa [hdc] using h)
  | refused ev c hev hc ha hk => exact .inl (by simpa using h)
  | _ => exact .inl h

omit [DecidableEq C] [DecidableEq I] [DecidableEq Q] in
theorem Passable.mono {m : CheckState C I Q P} {d : C} (h : m.Passable d)
    (hl : d ∈ m.upstreamConnections → d ∈ n.upstreamConnections)
    (hp : d ∈ m.upstreamConnections → m.pending d = none → n.pending d = none ∨ n.check.Claims d)
    (hk : m.check.Claims d → n.check.Claims d) : n.Passable d :=
  ⟨hl h.1,h.2.elim (hp h.1) fun hc => .inr (hk hc)⟩

omit [DecidableEq I] [DecidableEq Q] in
theorem forget_passable {c d : C} (hc : c ∉ n.upstreamConnections)
    (h : (n.forgetConnection c).Passable d) : n.Passable d := by
  refine h.mono id (fun hd hp => .inl ?_) id
  have hdc : d ≠ c := fun he => hc (he ▸ hd)
  simpa [forgetConnection,hdc] using hp

omit [DecidableEq I] [DecidableEq Q] in
theorem unlist_passable {c d : C} {b : Bool} (h : (n.unlist c b).Passable d) : n.Passable d :=
  h.mono (fun hd => ((mem_unlist_upstream n c b).mp hd).1) (fun _ hp => .inl (by simpa using hp))
    fun hk => by simpa using hk

omit [DecidableEq I] [DecidableEq Q] in
theorem dropped_passable (hn : n.Sound mine up peerId) {c d : C} {b : Bool}
    (h : (n.dropped c b).Passable d) : n.Passable d := by
  unfold dropped at h
  split at h
  · rename_i hc
    refine unlist_passable (forget_passable (fun hm => ?_) h)
    rw [← connections_direction hn hc] at hm
    exact unlist_own hn c (mem_allConnections.mpr (.inr hm))
  · exact h

/-- No connection becomes passable but the one whose check asks its query. -/
theorem Effect.passable {ev : NodeEvent C I Q P} {n' : CheckState C I Q P}
    {fs : List (C × Message I Q P)} (he : Effect up n ev n' fs) (hn : n.Sound mine up peerId)
    (hf : n.Fits mine up peerId ev) {d : C} (h : n'.Passable d) :
    n.Passable d ∨ ∃ q i k, ev = .ask q ∧ n.check = .attempt d i k := by
  have hold {m : CheckState C I Q P} (hm : m.upstreamConnections = n.upstreamConnections)
      (hp : ∀ d, (m.pending d).isSome = (n.pending d).isSome) (hk : m.check = n.check)
      (h : m.Passable d) : n.Passable d := by
    refine h.mono (fun hd => hm ▸ hd) (fun _ hpd => .inl ?_) fun hd => hk ▸ hd
    have hs := hp d
    rw [hpd] at hs
    exact Option.isNone_iff_eq_none.mp (by simpa using hs.symm)
  have idle {m : CheckState C I Q P} (h : m.Passable d)
      (hm : m.upstreamConnections = n.upstreamConnections) (hp : m.pending = n.pending)
      (hk : ∀ d, ¬m.check.Claims d) : n.Passable d :=
    h.mono (fun hd => hm ▸ hd) (fun _ hpd => .inl (hp ▸ hpd)) fun hd => absurd hd (hk d)
  cases he with
  | establish c =>
    have hdc : d ≠ c := by
      rintro rfl
      rcases h.2 with hp | hp
      · simp at hp
      · exact hf.2.2 (.inr (.inr (.inr hp.connection)))
    exact .inl (h.mono (fun hd => by simpa [hdc] using hd)
      (fun _ hp => .inl (by simpa [hdc] using hp)) id)
  | accept c => exact .inl h
  | routed c m hm => exact .inl h
  | held c m length =>
    obtain ⟨pending,draining,he,hp,-⟩ := hold_eq n c m length
    exact .inl (hold (by simp [he]) (by simpa [he] using hp) (by simp [he]) h)
  | overLimit c m hm => exact .inl (dropped_passable hn h)
  | hello c i =>
    obtain ⟨pending,he,hp,-⟩ := handleHello_eq n c i
    exact .inl (hold (by simp [he]) (by simpa [he] using hp) (by simp [he]) h)
  | answered c q i r hr => exact .inl h
  | noTargets c q i hr ht => exact .inl h
  | opened c q i hr ht => exact .inl h
  | replied c q r =>
    unfold handleReply at h
    split at h <;> exact .inl h
  | lost c goesOn => exact .inl (dropped_passable hn h)
  | closeConnection c hc => exact .inl (unlist_passable (c := c) (b := up c) h)
  | closed c hc =>
    have hcu := hn.closing c hc
    exact .inl (forget_passable (c := c) (fun hm => hcu (mem_allConnections.mpr (.inr hm))) h)
  | beginCheck c hc hp => exact .inl (idle h rfl rfl (by simp [Check.Claims]))
  | refused ev c hev hc ha hk =>
    have hs := check_sound hn ha (k := .idle) (by simp) (by simp [Check.connection])
      (by simp [Check.peer])
    exact .inl (idle (dropped_passable hs h) rfl rfl (by simp [Check.Claims]))
  | identified c p held hc hp hself hno => exact .inl (idle h rfl rfl (by simp [Check.Claims]))
  | askedNobody q c p k hc ht =>
    by_cases hdc : d = c
    · exact .inr ⟨q,p,k,rfl,hdc ▸ hc⟩
    · exact .inl (h.mono id (fun _ => .inl) (by simp [Check.Claims,Ne.symm hdc]))
  | asked q c p k hc ht =>
    by_cases hdc : d = c
    · exact .inr ⟨q,p,k,rfl,hdc ▸ hc⟩
    · exact .inl (h.mono id (fun _ => .inl) (by simp [Check.Claims,Ne.symm hdc]))
  | queryEnded ev c p k q r hc hr =>
    refine .inl (h.mono id (fun _ => .inl) fun hd => ?_)
    obtain ⟨rfl,-⟩ : c = d ∧ r = .notFound := by simpa [Check.Claims] using hd
    exact .inl ⟨p,k,q,hc⟩
  | activated c p k hc hp =>
    refine .inl (h.mono id (fun _ hd => ?_) (by simp [Check.Claims]))
    by_cases hdc : d = c
    · exact .inr (hdc ▸ .inr ⟨p,k,hc⟩)
    · exact .inl (by simpa [hdc] using hd)
  | retried c p k hc hp => exact .inl (idle h rfl rfl (by simp [Check.Claims]))
  | abandonedQuery c p k q hc hp => exact .inl (idle h rfl rfl (by simp [Check.Claims]))
  | abandoned c hc hp ha => exact .inl (idle h rfl rfl (by simp [Check.Claims]))
  | forwarded q query t source hq => exact .inl h
  | forwardEnded ev q query t source r hq hr => exact .inl h

end CheckState
end SoftwareBus
