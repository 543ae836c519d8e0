import SoftwareBus.CheckInvariant

/-! What an open query of a node still expects of its connections. A query that
has an answer coming which is not "not found" never ends as "not found". -/
namespace SoftwareBus

variable {C I Q P : Type}

/-- The query does not end as "not found" before it has an answer from the connection. -/
structure Query.Expects (query : Query C) (c : C) : Prop where
  notEnded : query.result ≠ some .notFound
  coming : query.result.isSome ∨ query.sawUnknown = true ∨ c ∈ query.waiting

theorem Query.new_expects {targets : List C} {c : C} (h : c ∈ targets) :
    (Query.new targets).Expects c := ⟨by simp [Query.new],.inr (.inr h)⟩

theorem Query.Expects.reply [DecidableEq C] {query : Query C} {c d : C} {r : ReachabilityResult}
    (h : query.Expects c) (hr : d = c → r ≠ .notFound) : (query.reply d r).Expects c := by
  obtain ⟨hnf,he⟩ := h
  unfold Query.reply
  split
  · exact ⟨hnf,he⟩
  · rename_i hd
    obtain ⟨hres,hdw⟩ := not_or.mp hd
    replace he := he.resolve_left hres
    have hcw : query.sawUnknown = true ∨ d = c ∨ c ∈ query.waiting.filter (· ≠ d) := by
      rcases he with he | he
      · exact .inl he
      · by_cases hdc : d = c
        · exact .inr (.inl hdc)
        · exact .inr (.inr (by simpa [Ne.symm hdc] using he))
    cases r with
    | found => exact ⟨by simp,.inl rfl⟩
    | unknown => constructor <;> (dsimp only; split) <;> simp
    | notFound =>
      replace hcw := hcw.imp_right fun h => h.resolve_left fun hdc => hr hdc rfl
      constructor
      · dsimp only
        split
        · rename_i hw
          rcases hcw with hcw | hcw
          · simp [hcw]
          · rw [hw] at hcw
            simp at hcw
        · simp
      · exact .inr (hcw.imp (by simp) id)

theorem Query.reply_targets [DecidableEq C] (query : Query C) (c : C) (r : ReachabilityResult) :
    (query.reply c r).targets = query.targets := by
  unfold reply
  split
  · rfl
  · cases r <;> rfl

theorem Query.found_of_reply [DecidableEq C] {query : Query C} {c : C} {r : ReachabilityResult}
    (h : (query.reply c r).result = some .found) : query.result = some .found ∨ r = .found := by
  unfold Query.reply at h
  split at h
  · exact .inl h
  · cases r with
    | found => exact .inr rfl
    | _ =>
      dsimp only at h
      split_ifs at h <;> simp at h

def Query.Unsure (query : Query C) : Prop :=
  query.sawUnknown = true ∨ query.result = some .unknown

theorem Query.new_not_unsure (targets : List C) : ¬(Query.new targets).Unsure := by
  simp [Query.new,Unsure]

theorem Query.unsure_of_reply [DecidableEq C] {query : Query C} {c : C} {r : ReachabilityResult}
    (h : (query.reply c r).Unsure) : query.Unsure ∨ r = .unknown := by
  unfold Query.reply at h
  split at h
  · exact .inl h
  · cases r with
    | found => exact .inl (.inl (by simpa [Unsure] using h))
    | unknown => exact .inr rfl
    | notFound =>
      dsimp only [Unsure] at h
      refine .inl (.inl ?_)
      split_ifs at h <;> simp_all

namespace CheckState

/-- What a step does to one query: the entry it leaves, and the messages of the
query it queues. -/
inductive OnQuery [DecidableEq C] [DecidableEq I] [DecidableEq Q] (q : Q)
    (n n' : CheckState C I Q P) :
    NodeEvent C I Q P → Option (OpenQuery C I) → List (C × Message I Q P) → Prop
  | kept (ev : NodeEvent C I Q P) : OnQuery q n n' ev (n.queries q) []
  | dropped (ev : NodeEvent C I Q P) (c : C) :
      c ∈ n.allConnections ∧ c ∉ n'.allConnections ∨ n.closing c = true →
      OnQuery q n n' ev
        ((n.queries q).map fun o => {o with query := o.query.reply c .notFound}) []
  | replied (c : C) (r : ReachabilityResult) : OnQuery q n n' (.receive c (.reply q r))
      ((n.queries q).map fun o => {o with query := o.query.reply c r}) []
  | answered (c : C) (i : I) (r : ReachabilityResult) : n.answerNow c q i = some r →
      OnQuery q n n' (.receive c (.query q i)) (n.queries q) [(c,.reply q r)]
  | noTargets (c : C) (i : I) : n.answerNow c q i = none →
      n.activeNodeConnections.filter (· ≠ c) = [] →
      OnQuery q n n' (.receive c (.query q i)) (n.queries q) [(c,.reply q .notFound)]
  | opened (c : C) (i : I) : n.answerNow c q i = none → OnQuery q n n' (.receive c (.query q i))
      (some ⟨.new (n.activeNodeConnections.filter (· ≠ c)),i,some c,false⟩) []
  | asked (c : C) (p : I) (k : ℕ) : n.check = .attempt c p k → OnQuery q n n' (.ask q)
      (some ⟨.new n.activeNodeConnections,p,none,true⟩)
      (n.activeNodeConnections.map (·,.query q p))
  | ownEnded (ev : NodeEvent C I Q P) : OnQuery q n n' ev none []
  | forwarded (query : Query C) (t : I) (source : C) :
      n.queries q = some ⟨query,t,some source,false⟩ → OnQuery q n n' (.forward q)
        (some ⟨query,t,some source,true⟩) (query.targets.map (·,.query q t))
  | forwardEnded (ev : NodeEvent C I Q P) (query : Query C) (t : I) (source : C)
      (r : ReachabilityResult) : n.queries q = some ⟨query,t,some source,true⟩ →
      (ev = .forwardDone q ∧ query.result = some r ∨ ev = .forwardTimeout q ∧ r = .unknown) →
      OnQuery q n n' ev none (if source ∈ n.allConnections then [(source,.reply q r)] else [])

/-- The entry of a query at this node, if any, expects an answer from each of
these connections but the one the query came from. -/
def Expects (n : CheckState C I Q P) (q : Q) (R : C → Prop) : Prop :=
  ∀ o, n.queries q = some o → ∀ c, R c → o.source ≠ some c → o.query.Expects c

variable {mine : C → Prop} {up : C → Bool} {peerId : C → I → Prop} {n n' : CheckState C I Q P}
  {q : Q} {R : C → Prop} [DecidableEq C]

variable [DecidableEq I] [DecidableEq Q]

omit [DecidableEq C] [DecidableEq Q] in
theorem answerNow_eq_none {c : C} {i : I} (h : n.answerNow c q i = none) :
    n.pending c = none ∧ i ≠ n.nodeId ∧ n.checking = false ∧ n.queries q = none := by
  simp only [answerNow] at h
  split_ifs at h
  simp_all

omit [DecidableEq C] [DecidableEq Q] in
theorem answerNow_eq_notFound {c : C} {i : I} (h : n.answerNow c q i = some .notFound) :
    (n.pending c).isSome ∧ n.checking = false := by
  simp only [answerNow] at h
  split_ifs at h <;> simp_all

omit [DecidableEq C] [DecidableEq Q] in
theorem answerNow_eq_found {c : C} {i : I} (h : n.answerNow c q i = some .found) :
    n.pending c = none ∧ i = n.nodeId := by
  simp only [answerNow] at h
  split_ifs at h <;> simp_all

omit [DecidableEq C] [DecidableEq Q] in
theorem answerNow_eq_unknown {c : C} {i : I} (h : n.answerNow c q i = some .unknown) :
    n.checking = true ∨ n.pending c = none ∧ (n.queries q).isSome := by
  simp only [answerNow] at h
  split_ifs at h <;> simp_all

omit [DecidableEq I] [DecidableEq Q] in
theorem queries_dropped (hn : n.Sound mine up peerId) (c : C) (b : Bool) :
    (n.dropped c b).queries = n.queries ∨
      (c ∈ n.allConnections ∧ c ∉ (n.dropped c b).allConnections) ∧
        (n.dropped c b).queries = (n.forgetConnection c).queries := by
  unfold dropped
  split
  · rename_i hc
    refine .inr ⟨⟨?_,?_⟩,by simp [forgetConnection]⟩
    · cases b
      · exact mem_allConnections.mpr (.inl hc)
      · exact mem_allConnections.mpr (.inr hc)
    · rw [← connections_direction hn hc]
      exact unlist_own hn c
  · exact .inl rfl

theorem Effect.onQuery {ev : NodeEvent C I Q P} {fs : List (C × Message I Q P)}
    (he : Effect up n ev n' fs) (hn : n.Sound mine up peerId) (q : Q) :
    OnQuery q n n' ev (n'.queries q) (fs.filter fun f => decide (f.2.queryId = some q)) := by
  have kept {gs : List (C × Message I Q P)} (hq : n'.queries q = n.queries q)
      (hg : ∀ f ∈ gs, f.2.queryId ≠ some q) :
      OnQuery q n n' ev (n'.queries q) (gs.filter fun f => decide (f.2.queryId = some q)) := by
    rw [hq,List.filter_eq_nil_iff.mpr (by simpa using hg)]
    exact .kept ev
  have dropped {m : CheckState C I Q P} (hm : m.Sound mine up peerId)
      (hl : m.allConnections = n.allConnections) (hq : m.queries = n.queries) {c : C} {b : Bool}
      (hn' : n' = m.dropped c b) : OnQuery q n n' ev (n'.queries q) [] := by
    subst hn'
    rcases queries_dropped hm c b with h | ⟨h,hd⟩
    · rw [h,hq]
      exact .kept ev
    · rw [hd,forgetConnection,hq]
      exact .dropped ev c (.inl (hl ▸ h))
  cases he with
  | establish c => exact kept rfl (by simp [Message.queryId])
  | accept c => exact kept rfl (by simp [Message.queryId])
  | held c m length =>
    obtain ⟨_,_,he,-⟩ := hold_eq n c m length
    exact kept (by rw [he]) (by simp)
  | overLimit c m hm => exact dropped hn rfl rfl rfl
  | hello c i =>
    obtain ⟨_,he,-⟩ := handleHello_eq n c i
    exact kept (by rw [he]) (by simp)
  | answered c q' i r hr =>
    by_cases hq : q' = q
    · subst q'
      have ha : OnQuery q n n (.receive c (.query q i)) _ _ := .answered c i r hr
      simpa [Message.queryId] using ha
    · exact kept rfl (by simpa [Message.queryId] using hq)
  | noTargets c q' i hr ht =>
    by_cases hq : q' = q
    · subst q'
      have ha : OnQuery q n n (.receive c (.query q i)) _ _ := .noTargets c i hr ht
      simpa [Message.queryId] using ha
    · exact kept rfl (by simpa [Message.queryId] using hq)
  | opened c q' i hr ht =>
    by_cases hq : q' = q
    · subst q'
      simpa [openQuery] using OnQuery.opened c i hr
    · exact kept (by simp [openQuery,Ne.symm hq]) (by simp)
  | replied c q' r =>
    by_cases hq : q' = q
    · subst q'
      have hr : (n.handleReply c q r).queries q =
          (n.queries q).map fun o => {o with query := o.query.reply c r} := by
        unfold handleReply
        split <;> simp_all [openQuery]
      rw [hr]
      exact .replied c r
    · refine kept ?_ (by simp)
      unfold handleReply
      split <;> simp [openQuery,Ne.symm hq]
  | lost c goesOn => exact dropped hn rfl rfl rfl
  | closeConnection c hc => exact kept (by simp) (by simp)
  | closed c hc => exact .dropped _ c (.inr hc)
  | refused ev c hev hc ha hk =>
    exact dropped (check_sound hn ha (k := .idle) (by simp) (by simp [Check.connection])
      (by simp [Check.peer])) rfl rfl rfl
  | asked q' c p k hc ht =>
    by_cases hq : q' = q
    · subst q'
      simpa [openQuery,List.filter_map,Function.comp_def,Message.queryId] using
        OnQuery.asked c p k hc
    · exact kept (by simp [openQuery,Ne.symm hq]) (by simp [Message.queryId,hq])
  | queryEnded ev c p k q' r hc hr =>
    by_cases hq : q' = q
    · subst q'
      simpa [closeQuery] using OnQuery.ownEnded ev
    · exact kept (by simp [closeQuery,Ne.symm hq]) (by simp)
  | abandonedQuery c p k q' hc hp =>
    by_cases hq : q' = q
    · subst q'
      simpa [closeQuery] using OnQuery.ownEnded _
    · exact kept (by simp [closeQuery,Ne.symm hq]) (by simp)
  | forwarded q' query t source hq' =>
    by_cases hq : q' = q
    · subst q'
      simpa [openQuery,List.filter_map,Function.comp_def,Message.queryId] using
        OnQuery.forwarded query t source hq'
    · exact kept (by simp [openQuery,Ne.symm hq]) (by simp [Message.queryId,hq])
  | forwardEnded ev q' query t source r hq' hr =>
    by_cases hq : q' = q
    · subst q'
      have he : OnQuery q n (n.closeQuery q) ev _ _ := .forwardEnded ev query t source r hq' hr
      split <;> simp_all [closeQuery,Message.queryId]
    · refine kept (by simp [closeQuery,Ne.symm hq]) ?_
      split <;> simp [Message.queryId,hq]
  | _ => exact kept rfl (by simp)

section OnQuery

variable {ev : NodeEvent C I Q P} {x : Option (OpenQuery C I)} {gs : List (C × Message I Q P)}

/-- A query is mentioned only if it is known, newly asked, or heard of. -/
theorem OnQuery.known (h : OnQuery q n n' ev x gs) (hx : x.isSome ∨ gs ≠ []) :
    (n.queries q).isSome ∨ ev = .ask q ∨ ∃ c m, ev = .receive c m ∧ m.queryId = some q := by
  cases h with
  | replied c r => exact .inr (.inr ⟨c,_,rfl,rfl⟩)
  | answered c i r hr => exact .inr (.inr ⟨c,_,rfl,rfl⟩)
  | noTargets c i hr ht => exact .inr (.inr ⟨c,_,rfl,rfl⟩)
  | opened c i hr => exact .inr (.inr ⟨c,_,rfl,rfl⟩)
  | asked c p k hc => exact .inr (.inl rfl)
  | forwarded query t source hq => simp [hq]
  | forwardEnded ev query t source r hq hr => simp [hq]
  | ownEnded ev => simp at hx
  | _ => exact .inl (by simpa using hx)

/-- A node's entry for a query keeps expecting answers from connections that
stay, do not answer "not found", and are active when the query is passed on. -/
theorem OnQuery.expects (hx : OnQuery q n n' ev (n'.queries q) gs) (h : n.Expects q R)
    (hlost : ∀ c, R c → c ∈ n.allConnections → c ∈ n'.allConnections)
    (hclosing : ∀ c, R c → n.closing c = false)
    (hreply : ∀ c, R c → ev ≠ .receive c (.reply q .notFound))
    (hquery : ∀ c i, ev = .receive c (.query q i) → n.answerNow c q i = none →
      ∀ d, R d → d ∈ n.activeNodeConnections)
    (hask : ev ≠ .ask q) : n'.Expects q R := by
  have heard {o : OpenQuery C I} {c d : C} {r : ReachabilityResult}
      (ho : ((n.queries q).map fun o => {o with query := o.query.reply c r}) = some o)
      (hd : R d) (hs : o.source ≠ some d) (hr : c = d → r ≠ .notFound) : o.query.Expects d := by
    obtain ⟨p,hp,rfl⟩ := Option.map_eq_some_iff.mp ho
    exact (h p hp d hd hs).reply hr
  intro o ho d hd hs
  generalize n'.queries q = x at hx ho
  cases hx with
  | dropped ev c hc =>
    refine heard ho hd hs fun hcd => absurd hc ?_
    subst hcd
    rintro (⟨hl,hl'⟩ | hc)
    · exact hl' (hlost c hd hl)
    · simp [hclosing c hd] at hc
  | replied c r => exact heard ho hd hs fun hcd hr => hreply d hd (by rw [hcd,hr])
  | opened c i hr =>
    obtain rfl := Option.some.inj ho
    have hdc : d ≠ c := fun hdc => hs (by rw [hdc])
    exact Query.new_expects (by simpa [hdc] using hquery c i rfl hr d hd)
  | asked c p k hc => exact absurd rfl hask
  | forwarded query t source hq =>
    obtain rfl := Option.some.inj ho
    exact h _ hq d hd hs
  | ownEnded ev => simp at ho
  | forwardEnded ev query t source r hq hr => simp at ho
  | _ => exact h o ho d hd hs

/-- An entry that stays: it may hear replies, and it may be passed on. -/
structure Continues (q : Q) (ev : NodeEvent C I Q P) (p o : OpenQuery C I) : Prop where
  targetNodeId : o.targetNodeId = p.targetNodeId
  source : o.source = p.source
  targets : o.query.targets = p.query.targets
  found : o.query.result = some .found →
    p.query.result = some .found ∨ ∃ c, ev = .receive c (.reply q .found)
  unsure : o.query.Unsure → p.query.Unsure ∨ ∃ c, ev = .receive c (.reply q .unknown)

omit [DecidableEq C] [DecidableEq I] [DecidableEq Q] in
theorem Continues.refl (o : OpenQuery C I) : Continues q ev o o := ⟨rfl,rfl,rfl,.inl,.inl⟩

/-- Where an entry comes from: it was there, or the node passes the query on, or asks it. -/
theorem OnQuery.entry (h : OnQuery q n n' ev x gs) {o : OpenQuery C I} (ho : x = some o) :
    (∃ p, n.queries q = some p ∧ Continues q ev p o) ∨
      (∃ c i, ev = .receive c (.query q i) ∧ n.answerNow c q i = none ∧
        o = ⟨.new (n.activeNodeConnections.filter (· ≠ c)),i,some c,false⟩) ∨
      ev = .ask q ∧ ∃ c i k, n.check = .attempt c i k ∧
        o = ⟨.new n.activeNodeConnections,i,none,true⟩ := by
  cases h with
  | kept ev => exact .inl ⟨o,ho,.refl o⟩
  | dropped ev c hc =>
    obtain ⟨p,hp,rfl⟩ := Option.map_eq_some_iff.mp ho
    refine .inl ⟨p,hp,rfl,rfl,Query.reply_targets _ _ _,fun h => ?_,fun h => ?_⟩
    · exact .inl ((Query.found_of_reply h).resolve_right (by simp))
    · exact .inl ((Query.unsure_of_reply h).resolve_right (by simp))
  | replied c r =>
    obtain ⟨p,hp,rfl⟩ := Option.map_eq_some_iff.mp ho
    refine .inl ⟨p,hp,rfl,rfl,Query.reply_targets _ _ _,fun h => ?_,fun h => ?_⟩
    · exact (Query.found_of_reply h).imp_right fun hr => ⟨c,by rw [hr]⟩
    · exact (Query.unsure_of_reply h).imp_right fun hr => ⟨c,by rw [hr]⟩
  | answered c i r hr => exact .inl ⟨o,ho,.refl o⟩
  | noTargets c i hr ht => exact .inl ⟨o,ho,.refl o⟩
  | opened c i hr => exact .inr (.inl ⟨c,i,rfl,hr,(Option.some.inj ho).symm⟩)
  | asked c p k hc => exact .inr (.inr ⟨rfl,c,p,k,hc,(Option.some.inj ho).symm⟩)
  | ownEnded ev => simp at ho
  | forwarded query t source hq =>
    obtain rfl := Option.some.inj ho
    exact .inl ⟨_,hq,rfl,rfl,rfl,.inl,.inl⟩
  | forwardEnded ev query t source r hq hr => simp at ho

theorem OnQuery.query_sent (h : OnQuery q n n' ev x gs) {c : C} {i : I}
    (hm : (c,.query q i) ∈ gs) :
    (∃ o, n.queries q = some o ∧ o.targetNodeId = i ∧ c ∈ o.query.targets) ∨
      ev = .ask q ∧ c ∈ n.activeNodeConnections ∧ ∃ d k, n.check = .attempt d i k := by
  cases h with
  | asked d p k hc =>
    obtain ⟨hcm,rfl⟩ : c ∈ n.activeNodeConnections ∧ p = i := by simpa using hm
    exact .inr ⟨rfl,hcm,d,k,hc⟩
  | forwarded query t source hq =>
    obtain ⟨hcm,rfl⟩ : c ∈ query.targets ∧ t = i := by simpa using hm
    exact .inl ⟨_,hq,rfl,hcm⟩
  | forwardEnded ev query t source r hq hr => split at hm <;> simp at hm
  | _ => simp at hm

theorem OnQuery.reply_sent (h : OnQuery q n n' ev x gs) {c : C} {r : ReachabilityResult}
    (hm : (c,.reply q r) ∈ gs) :
    (∃ i, ev = .receive c (.query q i) ∧ n.answerNow c q i = some r) ∨
      (∃ i, ev = .receive c (.query q i) ∧ n.answerNow c q i = none ∧ r = .notFound ∧
        ∀ d ∈ n.activeNodeConnections, d = c) ∨
      ∃ o, n.queries q = some o ∧ o.source = some c ∧
        (o.query.result = some r ∨ ev = .forwardTimeout q ∧ r = .unknown) := by
  cases h with
  | answered d i s hr =>
    obtain ⟨rfl,rfl⟩ : c = d ∧ r = s := by simpa using hm
    exact .inl ⟨i,rfl,hr⟩
  | noTargets d i hr ht =>
    obtain ⟨rfl,rfl⟩ : c = d ∧ r = .notFound := by simpa using hm
    exact .inr (.inl ⟨i,rfl,hr,rfl,by simpa using ht⟩)
  | forwardEnded ev query t source s hq hr =>
    split at hm
    · obtain ⟨rfl,rfl⟩ : c = source ∧ r = s := by simpa using hm
      exact .inr (.inr ⟨_,hq,rfl,hr.imp And.right id⟩)
    · simp at hm
  | _ => simp at hm

def owes (x : Option (OpenQuery C I)) (c : C) : Bool := decide (x.bind (·.source) = some c)

/-- The query is to be passed on, but has not been sent yet. -/
def unsent (x : Option (OpenQuery C I)) : Bool := x.any fun o => !o.sent

/-- The event is the query's arrival over this connection. -/
def arrives (q : Q) (c : C) : NodeEvent C I Q P → Bool
  | .receive d m => decide (d = c) && m.isQuery q
  | _ => false

theorem OnQuery.reply_count (h : OnQuery q n n' ev x gs) (c : C) :
    gs.countP (fun f => decide (f.1 = c) && f.2.isReply q)+(owes x c).toNat ≤
      (owes (n.queries q) c).toNat+(arrives q c ev).toNat := by
  have hmap {r : ReachabilityResult} {d : C} :
      owes ((n.queries q).map fun o => {o with query := o.query.reply d r}) c =
        owes (n.queries q) c := by
    cases n.queries q <;> rfl
  have hnone {cs : List C} {i : I} : (cs.map (·,(Message.query q i : Message I Q P))).countP
      (fun f => decide (f.1 = c) && f.2.isReply q) = 0 :=
    List.countP_eq_zero.mpr (by simp [Message.isReply])
  cases h with
  | kept ev => simp
  | dropped ev d hd => simp [hmap]
  | replied d r => simp [hmap]
  | answered d i r hr =>
    by_cases hdc : d = c <;> simp [arrives,Message.isReply,Message.isQuery,hdc,Nat.add_comm]
  | noTargets d i hr ht =>
    by_cases hdc : d = c <;> simp [arrives,Message.isReply,Message.isQuery,hdc,Nat.add_comm]
  | opened d i hr =>
    by_cases hdc : d = c <;> simp [arrives,owes,Message.isQuery,hdc,(answerNow_eq_none hr).2.2.2]
  | asked d p k hc => rw [hnone]; simp [owes]
  | ownEnded ev => simp [owes]
  | forwarded query t source hq => rw [hnone,hq]; simp [owes]
  | forwardEnded ev query t source r hq hr =>
    by_cases hsc : source = c <;> split <;> simp [owes,hq,hsc,Message.isReply]

/-- A query is sent over each connection at most once for each time it is opened or asked. -/
theorem OnQuery.query_count (h : OnQuery q n n' ev x gs) (hn : n.allConnections.Nodup)
    (ht : ∀ o, n.queries q = some o → o.query.targets.Nodup) (c : C) :
    gs.countP (fun f => decide (f.1 = c) && f.2.isQuery q)+(unsent x).toNat ≤
        (unsent (n.queries q)).toNat ∨
      (∃ d i, ev = .receive d (.query q i) ∧ n.answerNow d q i = none ∧
        gs.countP (fun f => decide (f.1 = c) && f.2.isQuery q)+(unsent x).toNat ≤ 1) ∨
      ev = .ask q ∧
        gs.countP (fun f => decide (f.1 = c) && f.2.isQuery q)+(unsent x).toNat ≤ 1 := by
  have hmap {r : ReachabilityResult} {d : C} :
      unsent ((n.queries q).map fun o => {o with query := o.query.reply d r}) =
        unsent (n.queries q) := by
    cases n.queries q <;> rfl
  have hcount {cs : List C} {i : I} (hcs : cs.Nodup) :
      (cs.map (·,(Message.query q i : Message I Q P))).countP
        (fun f => decide (f.1 = c) && f.2.isQuery q) ≤ 1 := by
    rw [List.countP_map]
    refine le_trans (le_of_eq ?_) (List.nodup_iff_count_le_one.mp hcs c)
    exact List.countP_congr fun d _ => by simp [Message.isQuery]
  cases h with
  | kept ev => exact .inl (by simp)
  | dropped ev d hd => exact .inl (by simp [hmap])
  | replied d r => exact .inl (by simp [hmap])
  | answered d i r hr => exact .inl (by simp [Message.isQuery])
  | noTargets d i hr ht => exact .inl (by simp [Message.isQuery])
  | opened d i hr => exact .inr (.inl ⟨d,i,rfl,hr,by simp [unsent]⟩)
  | asked d p k hc =>
    exact .inr (.inr ⟨rfl,hcount ((hn.filter _).filter _)⟩)
  | ownEnded ev => exact .inl (by simp [unsent])
  | forwarded query t source hq =>
    exact .inl (by simpa [unsent,hq] using hcount (ht _ hq))
  | forwardEnded ev query t source r hq hr =>
    refine .inl ?_
    split <;> simp [unsent,Message.isQuery]

end OnQuery

/-- What asking a query does: with nobody to ask, it is answered at once. -/
theorem Effect.asks {fs : List (C × Message I Q P)} (he : Effect up n (.ask q) n' fs) :
    ∃ c i k, n.check = .attempt c i k ∧ n'.upstreamConnections = n.upstreamConnections ∧
      (n.activeNodeConnections = [] ∧ n'.check = .answered c i k .notFound ∧
          n'.queries = n.queries ∨
        n'.check = .asking c i k q ∧
          n'.queries q = some ⟨.new n.activeNodeConnections,i,none,true⟩) := by
  cases he with
  | refused ev c hev hc ha hk => simp at hev
  | askedNobody q c p k hc ht => exact ⟨c,p,k,hc,rfl,.inl ⟨ht,rfl,rfl⟩⟩
  | asked q c p k hc ht => exact ⟨c,p,k,hc,rfl,.inr ⟨rfl,by simp [openQuery]⟩⟩
  | queryEnded ev c p k q' r hc hr => simp at hr
  | forwardEnded ev q' query target source r hq hr => simp at hr

omit [DecidableEq I] [DecidableEq Q] in
@[simp] theorem hold_check (n : CheckState C I Q P) (c : C)
    (m : {m : Message I Q P // isRouted m = true}) (length : ℕ) :
    (n.hold c m length).check = n.check := by
  unfold hold
  split <;> rfl

omit [DecidableEq I] [DecidableEq Q] in
@[simp] theorem handleHello_check (n : CheckState C I Q P) (c : C) (i : I) :
    (n.handleHello c i).check = n.check := by
  unfold handleHello
  split <;> rfl

omit [DecidableEq I] in
@[simp] theorem handleReply_check (n : CheckState C I Q P) (c : C) (q : Q) (r : ReachabilityResult) :
    (n.handleReply c q r).check = n.check := by
  unfold handleReply
  split <;> rfl

theorem Effect.asking_starts {ev : NodeEvent C I Q P} {fs : List (C × Message I Q P)}
    (he : Effect up n ev n' fs) {c : C} {i : I} {k : ℕ} (hc : n'.check = .asking c i k q) :
    n.check = .asking c i k q ∨ ev = .ask q ∧ n.check = .attempt c i k := by
  cases he with
  | held | overLimit | hello | replied | lost | closeConnection => exact .inl (by simpa using hc)
  | refused ev d hev hd ha hk =>
    simp at hc
  | asked q' d p m hd ht =>
    obtain ⟨rfl,rfl,rfl,rfl⟩ : d = c ∧ p = i ∧ m = k ∧ q' = q := by simpa using hc
    exact .inr ⟨rfl,hd⟩
  | _ => first | exact .inl hc | simp at hc

/-- A check gets its answer from its query, or at once if it asks nobody. -/
theorem Effect.answer_starts {ev : NodeEvent C I Q P} {fs : List (C × Message I Q P)}
    (he : Effect up n ev n' fs) {c : C} {i : I} {k : ℕ} {r : ReachabilityResult}
    (hc : n'.check = .answered c i k r) : n.check = .answered c i k r ∨
      (∃ q, n.check = .asking c i k q ∧ ((∃ o, n.queries q = some o ∧ o.query.result = some r) ∨
        ev = .queryTimeout ∧ r = .unknown)) ∨
      (∃ q, ev = .ask q) ∧ n.activeNodeConnections = [] ∧ r = .notFound := by
  cases he with
  | held | overLimit | hello | replied | lost | closeConnection => exact .inl (by simpa using hc)
  | refused ev d hev hd ha hk =>
    simp at hc
  | askedNobody q d p m hd ht =>
    obtain ⟨-,-,-,rfl⟩ : d = c ∧ p = i ∧ m = k ∧ r = .notFound := by simpa [eq_comm] using hc
    exact .inr (.inr ⟨⟨q,rfl⟩,ht,rfl⟩)
  | queryEnded ev d p m q r hd hr =>
    obtain ⟨rfl,rfl,rfl,rfl⟩ : d = c ∧ p = i ∧ m = k ∧ r = _ := by simpa using hc
    exact .inr (.inl ⟨q,hd,hr.imp And.right id⟩)
  | _ => first | exact .inl hc | simp at hc

/-- A check keeps its claim to the connection past its query only if that ended as "not found". -/
theorem Effect.asking_ends {ev : NodeEvent C I Q P} {fs : List (C × Message I Q P)}
    (he : Effect up n ev n' fs) (hn : n.Sound mine up peerId) {c : C} {i : I} {k : ℕ}
    (hc : n.check = .asking c i k q) (hc' : n'.check ≠ .asking c i k q) (hp : n'.Passable c) :
    ∃ o, n.queries q = some o ∧ o.query.result = some .notFound := by
  have same (hk : n'.check = n.check) :
      ∃ o, n.queries q = some o ∧ o.query.result = some .notFound :=
    absurd (hk.trans hc) hc'
  cases he with
  | held | overLimit | hello | replied | lost | closeConnection => exact same (by simp)
  | beginCheck d hd hpd => simp [hc,Check.connection] at hd
  | refused ev d hev hd ha hk => exact absurd hc (ha c i k q)
  | queryEnded ev d j m q' r hd hr =>
    obtain ⟨rfl,rfl,rfl,rfl⟩ : c = d ∧ i = j ∧ k = m ∧ q = q' := by simpa [hc] using hd
    have hpend := hn.underCheck c hp.1 (by simp [hc,Check.connection])
    rcases hp.2 with hnone | hclaims
    · simp [show n.pending c = none from hnone] at hpend
    · obtain rfl : r = .notFound := by simpa [Check.Claims] using hclaims
      rcases hr with ⟨-,hr⟩ | ⟨-,hr⟩
      · exact hr
      · simp at hr
  | abandonedQuery d j m q' hd hnone =>
    obtain ⟨rfl,-⟩ : c = d ∧ i = j ∧ k = m ∧ q = q' := by simpa [hc] using hd
    have hpend := hn.underCheck c hp.1 (by simp [hc,Check.connection])
    simp [hnone] at hpend
  | abandoned d hd hnone ha => exact absurd hc (ha c i k q)
  | _ => first | exact same rfl | simp_all

end CheckState
end SoftwareBus
