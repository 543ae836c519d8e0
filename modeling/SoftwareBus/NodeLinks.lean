import SoftwareBus.BusCheck

/-! The links `find_links` returns are the connections between nodes, each once, and its counts
are those of the node ends that face nobody known. -/
namespace SoftwareBus
namespace BusCheck

theorem strLt_flip {a b : Str} (h : a ≠ b) : strLt b a = !strLt a b := by
  induction a generalizing b with
  | nil =>
    cases b with
    | nil => exact absurd rfl h
    | cons y ys => rfl
  | cons x xs ih =>
    cases b with
    | nil => rfl
    | cons y ys =>
      simp only [strLt]
      by_cases hxy : x = y
      · subst y
        rw [if_pos rfl,if_pos rfl]
        apply ih
        rintro rfl
        exact h rfl
      · rw [if_neg hxy,if_neg (Ne.symm hxy),← decide_not]
        apply decide_eq_decide.mpr
        have hval : x.val ≠ y.val := fun heq => hxy (Fin.ext heq)
        simp only [Fin.lt_def]
        omega

theorem addressLt_flip {a b : Address} (h : a ≠ b) : addressLt b a = !addressLt a b := by
  unfold addressLt
  by_cases hhost : a.1 = b.1
  · have hport : a.2 ≠ b.2 := fun heq => h (Prod.ext hhost heq)
    rw [if_pos hhost,if_pos hhost.symm,← decide_not]
    apply decide_eq_decide.mpr
    omega
  · rw [if_neg hhost,if_neg (Ne.symm hhost)]
    exact strLt_flip hhost

/-- Of a pair of ends and the opposite pair exactly one is the smaller one. -/
theorem endsLt_swap {e : Ends} (h : e.1 ≠ e.2) : endsLt e.swap e = !endsLt e e.swap := by
  simp only [endsLt,Prod.fst_swap,Prod.snd_swap]
  rw [if_neg h,if_neg (Ne.symm h)]
  exact addressLt_flip h

/-- An end of a connection that belongs to a node. -/
def IsNodeEnd (connections : List TcpConnection) (nodes : Pid → Option Node) (e : Ends)
    (pid : Pid) : Prop :=
  (e,some pid) ∈ established connections ∧ (nodes pid).isSome

/-- Both ends belong to nodes, and one of them is on an address its node listens on. -/
def IsLink (connections : List TcpConnection) (nodes : Pid → Option Node) (e : Ends) : Prop :=
  ∃ pid otherPid node other,
    (e,some pid) ∈ established connections ∧ nodes pid = some node ∧
    (e.swap,some otherPid) ∈ established connections ∧ nodes otherPid = some other ∧
    (listensOn node e.1 ∨ listensOn other e.2)

/-- How the opposite end of an end is listed: as a node's, without a process, not at all, or as
that of a process that is not a node. -/
inductive Opposite
  | node | hidden | unlisted | process
  deriving DecidableEq

def Faces (connections : List TcpConnection) (nodes : Pid → Option Node) (e : Ends) :
    Opposite → Prop
  | .node => ∃ pid, IsNodeEnd connections nodes e.swap pid
  | .hidden => (e.swap,none) ∈ established connections
  | .unlisted => ∀ pid, (e.swap,pid) ∉ established connections
  | .process => ∃ pid, (e.swap,some pid) ∈ established connections ∧ nodes pid = none

def endsFacing (connections : List TcpConnection) (nodes : Pid → Option Node) (o : Opposite) :
    Set Ends :=
  {e | (∃ pid, IsNodeEnd connections nodes e pid) ∧ Faces connections nodes e o}

/-- No two ends have the same addresses, and none has the same address twice. -/
structure AsListed (connections : List TcpConnection) : Prop where
  once : ((established connections).map Prod.fst).Nodup
  apart : ∀ c ∈ established connections, c.1.1 ≠ c.1.2

variable {connections : List TcpConnection} {nodes : Pid → Option Node}

theorem IsLink.swap {e : Ends} (h : IsLink connections nodes e) :
    IsLink connections nodes e.swap := by
  obtain ⟨p,q,n,m,hp,hn,hq,hm,hl⟩ := h
  exact ⟨q,p,m,n,hq,hm,by simpa using hp,hn,hl.symm⟩

theorem AsListed.pid_eq (h : AsListed connections) {e : Ends} {p q : Option Pid}
    (hp : (e,p) ∈ established connections) (hq : (e,q) ∈ established connections) : p = q := by
  have heq := List.inj_on_of_nodup_map h.once hp hq rfl
  exact congrArg Prod.snd heq

theorem mem_nodeItems {e : Ends} {pid : Pid} :
    (e,pid) ∈ nodeItems nodes (established connections) ↔ IsNodeEnd connections nodes e pid := by
  unfold nodeItems
  rw [List.mem_filterMap]
  constructor
  · rintro ⟨⟨e',p⟩,hc,hitem⟩
    cases p with
    | none => cases hitem
    | some p =>
      simp only at hitem
      by_cases hnode : (nodes p).isSome
      · rw [if_pos hnode] at hitem
        cases hitem
        exact ⟨hc,hnode⟩
      · rw [if_neg hnode] at hitem
        cases hitem
  · rintro ⟨hc,hnode⟩
    exact ⟨(e,some pid),hc,by simp [hnode]⟩

theorem nodeItems_keys (cs : List (Ends × Option Pid)) :
    ((nodeItems nodes cs).map Prod.fst).Sublist (cs.map Prod.fst) := by
  induction cs with
  | nil => exact List.Sublist.slnil
  | cons c cs ih =>
    obtain ⟨e,p⟩ := c
    cases p with
    | none => exact ih.cons _
    | some p =>
      by_cases hnode : (nodes p).isSome
      · simpa [nodeItems,hnode] using ih
      · simpa [nodeItems,hnode] using ih.cons e

theorem AsListed.nodeItems_once (h : AsListed connections) :
    ((nodeItems nodes (established connections)).map Prod.fst).Nodup :=
  h.once.sublist (nodeItems_keys _)

def linkOf (nodes : Pid → Option Node) (nodeEnds : List (Ends × Pid)) (e : Ends × Pid) :
    Option (Pid × Pid) :=
  (Dict.get nodeEnds e.1.swap).bind fun otherPid =>
    if isBusLink nodes e.1 e.2 otherPid = some true ∧ endsLt e.1 e.1.swap then some (e.2,otherPid)
    else none

def countsHidden (hiddenEnds : List Ends) (nodeEnds : List (Ends × Pid)) (e : Ends × Pid) : Bool :=
  decide (Dict.get nodeEnds e.1.swap = none) && decide (e.1.swap ∈ hiddenEnds)

def countsUnchecked (allEnds hiddenEnds : List Ends) (nodeEnds : List (Ends × Pid))
    (e : Ends × Pid) : Bool :=
  decide (Dict.get nodeEnds e.1.swap = none) && decide (e.1.swap ∉ hiddenEnds) &&
    decide (e.1.swap ∉ allEnds)

theorem isBusLink_eq {e : Ends} {p q : Pid} {n m : Node} (hn : nodes p = some n)
    (hm : nodes q = some m) :
    isBusLink nodes e p q = some (listensOn n e.1 || listensOn m e.2) := by
  unfold isBusLink
  rw [hn,hm]
  cases h : listensOn n e.1 <;> simp [h]

theorem countEnd_eq (allEnds hiddenEnds : List Ends) {nodeEnds : List (Ends × Pid)}
    (hnodes : ∀ e ∈ nodeEnds, (nodes e.2).isSome) (s : Links) {e : Ends × Pid}
    (he : e ∈ nodeEnds) :
    countEnd nodes allEnds hiddenEnds nodeEnds s e =
      some ⟨s.links++(linkOf nodes nodeEnds e).toList,
        s.uncheckedRemote+(if countsUnchecked allEnds hiddenEnds nodeEnds e then 1 else 0),
        s.hidden+(if countsHidden hiddenEnds nodeEnds e then 1 else 0)⟩ := by
  unfold countEnd linkOf countsUnchecked countsHidden
  cases hget : Dict.get nodeEnds e.1.swap with
  | none =>
    by_cases hhidden : e.1.swap ∈ hiddenEnds
    · simp [hhidden]
    · by_cases hall : e.1.swap ∈ allEnds <;> simp [hhidden,hall]
  | some otherPid =>
    have hother : (e.1.swap,otherPid) ∈ nodeEnds := Dict.mem_of_get hget
    obtain ⟨n,hn⟩ := Option.isSome_iff_exists.mp (hnodes e he)
    obtain ⟨m,hm⟩ := Option.isSome_iff_exists.mp (hnodes _ hother)
    have hlink := isBusLink_eq (e := e.1) hn hm
    by_cases hcount : listensOn n e.1.1 || listensOn m e.1.2
    · by_cases hlt : endsLt e.1 e.1.swap <;> simp [hlink,hcount,hlt]
    · simp [hlink,hcount]

theorem countEnds_eq (allEnds hiddenEnds : List Ends) {nodeEnds es : List (Ends × Pid)}
    (hnodes : ∀ e ∈ nodeEnds, (nodes e.2).isSome) (hes : ∀ e ∈ es, e ∈ nodeEnds) (s : Links) :
    es.foldlM (countEnd nodes allEnds hiddenEnds nodeEnds) s =
      some ⟨s.links++es.filterMap (linkOf nodes nodeEnds),
        s.uncheckedRemote+es.countP (countsUnchecked allEnds hiddenEnds nodeEnds),
        s.hidden+es.countP (countsHidden hiddenEnds nodeEnds)⟩ := by
  induction es generalizing s with
  | nil => simp
  | cons e es ih =>
    obtain ⟨he,hes⟩ := List.forall_mem_cons.mp hes
    rw [List.foldlM_cons,countEnd_eq allEnds hiddenEnds hnodes s he]
    simp only [Option.bind_eq_bind,Option.bind_some]
    rw [ih hes,List.countP_cons,List.countP_cons]
    simp only [Option.some_inj,Links.mk.injEq]
    refine ⟨?_,by omega,by omega⟩
    cases hlink : linkOf nodes nodeEnds e <;> simp [hlink]

def nodeEndsOf (connections : List TcpConnection) (nodes : Pid → Option Node) :
    List (Ends × Pid) :=
  nodeItems nodes (established connections)

def hiddenEndsOf (connections : List TcpConnection) : List Ends :=
  ((established connections).filter fun c => c.2.isNone).map Prod.fst

theorem mem_nodeEndsOf {e : Ends} {pid : Pid} :
    (e,pid) ∈ nodeEndsOf connections nodes ↔ IsNodeEnd connections nodes e pid :=
  mem_nodeItems

theorem AsListed.nodeEnds_once (h : AsListed connections) :
    ((nodeEndsOf connections nodes).map Prod.fst).Nodup :=
  h.nodeItems_once

theorem mem_hiddenEndsOf {e : Ends} :
    e ∈ hiddenEndsOf connections ↔ (e,none) ∈ established connections := by
  simp [hiddenEndsOf]

theorem AsListed.findLinks_eq (h : AsListed connections) :
    findLinks connections nodes =
      some ⟨(nodeEndsOf connections nodes).filterMap (linkOf nodes (nodeEndsOf connections nodes)),
        (nodeEndsOf connections nodes).countP (countsUnchecked
          ((established connections).map Prod.fst) (hiddenEndsOf connections)
          (nodeEndsOf connections nodes)),
        (nodeEndsOf connections nodes).countP
          (countsHidden (hiddenEndsOf connections) (nodeEndsOf connections nodes))⟩ := by
  have hdict : Dict.ofItems (nodeItems nodes (established connections)) =
      nodeEndsOf connections nodes := Dict.ofItems_eq h.nodeItems_once
  have hnodes : ∀ e ∈ nodeEndsOf connections nodes, (nodes e.2).isSome :=
    fun e he => (mem_nodeItems.mp he).2
  have hrun := countEnds_eq ((established connections).map Prod.fst) (hiddenEndsOf connections)
    hnodes (fun e he => he) ⟨[],0,0⟩
  simp only [List.nil_append,Nat.zero_add] at hrun
  simp only [findLinks,hdict]
  exact hrun

theorem AsListed.get_eq_some (h : AsListed connections) {e : Ends} {pid : Pid} :
    Dict.get (nodeEndsOf connections nodes) e = some pid ↔ IsNodeEnd connections nodes e pid := by
  rw [Dict.get_eq_some_iff h.nodeEnds_once]
  exact mem_nodeEndsOf

theorem AsListed.get_eq_none (h : AsListed connections) {e : Ends} :
    Dict.get (nodeEndsOf connections nodes) e = none ↔ ¬∃ pid, IsNodeEnd connections nodes e pid := by
  rw [Option.eq_none_iff_forall_ne_some,not_exists]
  apply forall_congr'
  intro pid
  rw [ne_eq,h.get_eq_some]

/-- A node end adds a link when it is the smaller end of one. -/
theorem AsListed.linkOf_eq_some (h : AsListed connections) {e : Ends} {p q r : Pid} :
    linkOf nodes (nodeEndsOf connections nodes) (e,p) = some (q,r) ↔
      q = p ∧ IsNodeEnd connections nodes e.swap r ∧ isBusLink nodes e p r = some true ∧
        endsLt e e.swap := by
  unfold linkOf
  rw [Option.bind_eq_some_iff]
  constructor
  · rintro ⟨r',hget,hlink⟩
    by_cases hc : isBusLink nodes e p r' = some true ∧ endsLt e e.swap
    · rw [if_pos hc] at hlink
      cases hlink
      exact ⟨rfl,h.get_eq_some.mp hget,hc⟩
    · rw [if_neg hc] at hlink
      cases hlink
  · rintro ⟨rfl,hend,hc⟩
    exact ⟨r,h.get_eq_some.mpr hend,if_pos hc⟩

def countedEnds (connections : List TcpConnection) (nodes : Pid → Option Node) : List Ends :=
  ((nodeEndsOf connections nodes).filter fun e =>
    (linkOf nodes (nodeEndsOf connections nodes) e).isSome).map Prod.fst

theorem AsListed.mem_countedEnds (h : AsListed connections) {e : Ends} :
    e ∈ countedEnds connections nodes ↔ IsLink connections nodes e ∧ endsLt e e.swap := by
  unfold countedEnds
  rw [List.mem_map]
  constructor
  · rintro ⟨⟨e,p⟩,he,rfl⟩
    obtain ⟨he,hsome⟩ := List.mem_filter.mp he
    obtain ⟨⟨q,r⟩,hlink⟩ := Option.isSome_iff_exists.mp hsome
    obtain ⟨rfl,hswap,hbus,hlt⟩ := h.linkOf_eq_some.mp hlink
    have hend := mem_nodeEndsOf.mp he
    obtain ⟨n,hn⟩ := Option.isSome_iff_exists.mp hend.2
    obtain ⟨m,hm⟩ := Option.isSome_iff_exists.mp hswap.2
    rw [isBusLink_eq hn hm,Option.some_inj,Bool.or_eq_true] at hbus
    exact ⟨⟨q,r,n,m,hend.1,hn,hswap.1,hm,hbus⟩,hlt⟩
  · rintro ⟨⟨p,r,n,m,hp,hn,hr,hm,hbus⟩,hlt⟩
    have hlink : linkOf nodes (nodeEndsOf connections nodes) (e,p) = some (p,r) := by
      apply h.linkOf_eq_some.mpr
      refine ⟨rfl,⟨hr,by simp [hm]⟩,?_,hlt⟩
      rw [isBusLink_eq hn hm,Option.some_inj,Bool.or_eq_true]
      exact hbus
    refine ⟨(e,p),List.mem_filter.mpr ⟨?_,by simp [hlink]⟩,rfl⟩
    exact mem_nodeEndsOf.mpr ⟨hp,by simp [hn]⟩

theorem AsListed.apart_swap (h : AsListed connections) {e : Ends}
    (he : IsLink connections nodes e) : endsLt e.swap e = !endsLt e e.swap := by
  obtain ⟨p,q,n,m,hp,hrest⟩ := he
  exact endsLt_swap (h.apart _ hp)

/-- Each result of a partial function, next to what it comes from. -/
theorem forall₂_filterMap {A B : Type} (f : A → Option B) (xs : List A) :
    List.Forall₂ (fun y x => x ∈ xs ∧ f x = some y) (xs.filterMap f)
      (xs.filter fun x => (f x).isSome) := by
  induction xs with
  | nil => exact .nil
  | cons x xs ih =>
    have hmono : List.Forall₂ (fun y z => z ∈ x::xs ∧ f z = some y) (xs.filterMap f)
        (xs.filter fun x => (f x).isSome) :=
      ih.imp fun y z h => ⟨List.mem_cons_of_mem _ h.1,h.2⟩
    cases hf : f x with
    | none => simpa [hf] using hmono
    | some y => simpa [hf] using List.Forall₂.cons ⟨List.mem_cons_self ..,hf⟩ hmono

theorem AsListed.links_ends (h : AsListed connections) :
    List.Forall₂ (fun link e => IsNodeEnd connections nodes e link.1 ∧
        IsNodeEnd connections nodes e.swap link.2)
      ((nodeEndsOf connections nodes).filterMap (linkOf nodes (nodeEndsOf connections nodes)))
      (countedEnds connections nodes) := by
  unfold countedEnds
  rw [List.forall₂_map_right_iff]
  apply (forall₂_filterMap (linkOf nodes (nodeEndsOf connections nodes)) _).imp
  rintro ⟨q,r⟩ ⟨e,p⟩ ⟨he,hlink⟩
  obtain ⟨rfl,hswap,-⟩ := h.linkOf_eq_some.mp hlink
  exact ⟨mem_nodeEndsOf.mp he,hswap⟩

theorem AsListed.faces_one (h : AsListed connections) (e : Ends) :
    ∃! o, Faces connections nodes e o := by
  by_cases hlisted : ∃ pid, (e.swap,pid) ∈ established connections
  · obtain ⟨pid,hpid⟩ := hlisted
    have hsame {p : Option Pid} (hp : (e.swap,p) ∈ established connections) : p = pid :=
      h.pid_eq hp hpid
    cases pid with
    | none =>
      refine ⟨.hidden,hpid,?_⟩
      intro o ho
      cases o with
      | node => cases hsame ho.choose_spec.1
      | hidden => rfl
      | unlisted => exact absurd hpid (ho _)
      | process => cases hsame ho.choose_spec.1
    | some pid =>
      cases hnode : nodes pid with
      | none =>
        refine ⟨.process,⟨pid,hpid,hnode⟩,?_⟩
        intro o ho
        cases o with
        | node =>
          obtain ⟨p,hp,hsome⟩ := ho
          cases hsame hp
          simp [hnode] at hsome
        | hidden => cases hsame ho
        | unlisted => exact absurd hpid (ho _)
        | process => rfl
      | some n =>
        refine ⟨.node,⟨pid,hpid,by simp [hnode]⟩,?_⟩
        intro o ho
        cases o with
        | node => rfl
        | hidden => cases hsame ho
        | unlisted => exact absurd hpid (ho _)
        | process =>
          obtain ⟨p,hp,hnone⟩ := ho
          cases hsame hp
          simp [hnode] at hnone
  · refine ⟨.unlisted,not_exists.mp hlisted,?_⟩
    intro o ho
    cases o with
    | node => exact absurd ⟨_,ho.choose_spec.1⟩ hlisted
    | hidden => exact absurd ⟨_,ho⟩ hlisted
    | unlisted => rfl
    | process => exact absurd ⟨_,ho.choose_spec.1⟩ hlisted

theorem AsListed.countP_facing (h : AsListed connections) {p : Ends × Pid → Bool} {o : Opposite}
    (hp : ∀ e pid, IsNodeEnd connections nodes e pid →
      (p (e,pid) = true ↔ Faces connections nodes e o)) :
    (nodeEndsOf connections nodes).countP p = (endsFacing connections nodes o).ncard := by
  rw [Dict.countP_eq_ncard h.nodeEnds_once]
  congr 1
  ext e
  simp only [endsFacing,Set.mem_ofPred_eq,mem_nodeEndsOf,exists_and_right.symm]
  apply exists_congr
  intro pid
  apply and_congr_right
  exact hp e pid

theorem AsListed.hidden_eq (h : AsListed connections) :
    (nodeEndsOf connections nodes).countP
      (countsHidden (hiddenEndsOf connections) (nodeEndsOf connections nodes)) =
      (endsFacing connections nodes .hidden).ncard := by
  apply h.countP_facing
  intro e pid he
  simp only [Faces,countsHidden,Bool.and_eq_true,decide_eq_true_eq,mem_hiddenEndsOf]
  constructor
  · exact And.right
  · intro hhidden
    refine ⟨h.get_eq_none.mpr ?_,hhidden⟩
    rintro ⟨p,hp,-⟩
    cases h.pid_eq hp hhidden

theorem AsListed.unchecked_eq (h : AsListed connections) :
    (nodeEndsOf connections nodes).countP (countsUnchecked
      ((established connections).map Prod.fst) (hiddenEndsOf connections)
      (nodeEndsOf connections nodes)) = (endsFacing connections nodes .unlisted).ncard := by
  apply h.countP_facing
  intro e pid he
  simp only [Faces,countsUnchecked,Bool.and_eq_true,decide_eq_true_eq,mem_hiddenEndsOf]
  have hall : e.swap ∉ (established connections).map Prod.fst ↔
      ∀ pid, (e.swap,pid) ∉ established connections := by
    simp
  rw [hall]
  constructor
  · exact And.right
  · intro hno
    refine ⟨⟨h.get_eq_none.mpr ?_,hno none⟩,hno⟩
    rintro ⟨p,hp,-⟩
    exact hno _ hp

theorem established_perm {connections' : List TcpConnection}
    (hperm : connections'.Perm connections) :
    (established connections').Perm (established connections) :=
  hperm.filterMap _

theorem AsListed.perm {connections' : List TcpConnection} (h : AsListed connections)
    (hperm : connections'.Perm connections) : AsListed connections' := by
  have hp := established_perm hperm
  refine ⟨(hp.map Prod.fst).nodup_iff.mpr h.once,?_⟩
  intro c hc
  exact h.apart c (hp.mem_iff.mp hc)

theorem endsFacing_perm {connections' : List TcpConnection}
    (hperm : connections'.Perm connections) (o : Opposite) :
    endsFacing connections' nodes o = endsFacing connections nodes o := by
  have hmem (c : Ends × Option Pid) : c ∈ established connections' ↔ c ∈ established connections :=
    (established_perm hperm).mem_iff
  cases o <;> simp only [endsFacing,Faces,IsNodeEnd,hmem]

/-- What `find_links` returns, whatever the order of the connections. -/
theorem find_links_exact (connections : List TcpConnection) (nodes : Pid → Option Node)
    (h : AsListed connections) :
    ∃ s counted, findLinks connections nodes = some s ∧
      List.Forall₂ (fun link e => IsNodeEnd connections nodes e link.1 ∧
        IsNodeEnd connections nodes e.swap link.2) s.links counted ∧
      counted.Nodup ∧ (∀ e ∈ counted, e.swap ∉ counted) ∧
      (∀ e, IsLink connections nodes e ↔ e ∈ counted ∨ e.swap ∈ counted) ∧
      s.hidden = (endsFacing connections nodes .hidden).ncard ∧
      s.uncheckedRemote = (endsFacing connections nodes .unlisted).ncard ∧
      (∀ e pid, IsNodeEnd connections nodes e pid → ∃! o, Faces connections nodes e o) ∧
      ∀ connections' : List TcpConnection, connections'.Perm connections →
        ∃ s', findLinks connections' nodes = some s' ∧ s'.links.Perm s.links ∧
          s'.hidden = s.hidden ∧ s'.uncheckedRemote = s.uncheckedRemote := by
  refine ⟨_,countedEnds connections nodes,h.findLinks_eq,h.links_ends,
    h.nodeEnds_once.sublist (List.filter_sublist.map _),?_,?_,h.hidden_eq,h.unchecked_eq,
    fun e pid _ => h.faces_one e,?_⟩
  · intro e he hswap
    obtain ⟨hlink,hlt⟩ := h.mem_countedEnds.mp he
    have hlt' := (h.mem_countedEnds.mp hswap).2
    rw [Prod.swap_swap,h.apart_swap hlink,hlt] at hlt'
    cases hlt'
  · intro e
    rw [h.mem_countedEnds,h.mem_countedEnds,Prod.swap_swap]
    constructor
    · intro hlink
      cases hlt : endsLt e e.swap with
      | true => exact .inl ⟨hlink,rfl⟩
      | false =>
        refine .inr ⟨hlink.swap,?_⟩
        rw [h.apart_swap hlink,hlt]
        rfl
    · rintro (hlink | hlink)
      · exact hlink.1
      · simpa using hlink.1.swap
  · intro connections' hperm
    have h' := h.perm hperm
    refine ⟨_,h'.findLinks_eq,?_,?_,?_⟩
    · have hitems : (nodeEndsOf connections' nodes).Perm (nodeEndsOf connections nodes) :=
        (established_perm hperm).filterMap _
      have hlinkOf : linkOf nodes (nodeEndsOf connections' nodes) =
          linkOf nodes (nodeEndsOf connections nodes) := by
        funext e
        unfold linkOf
        rw [Dict.get_perm hitems h'.nodeEnds_once]
      rw [hlinkOf]
      exact hitems.filterMap _
    · rw [h'.hidden_eq,h.hidden_eq,endsFacing_perm hperm]
    · rw [h'.unchecked_eq,h.unchecked_eq,endsFacing_perm hperm]

/-- A node that listens on port 80 of host "h" and another that connected to it. -/
theorem find_links_exact_pair :
    let connections : List TcpConnection := [⟨some 1,([104],5000),some ([104],80),false⟩,
      ⟨some 2,([104],80),some ([104],5000),false⟩]
    let nodes : Pid → Option Node := fun p =>
      if p = 1 then some ⟨[]⟩ else if p = 2 then some ⟨[([104],80)]⟩ else none
    AsListed connections ∧ ∃ s counted, findLinks connections nodes = some s ∧
      List.Forall₂ (fun link e => IsNodeEnd connections nodes e link.1 ∧
        IsNodeEnd connections nodes e.swap link.2) s.links counted := by
  intro connections nodes
  have h : AsListed connections := ⟨by decide,by decide⟩
  obtain ⟨s,counted,hs,hlinks,-⟩ := find_links_exact connections nodes h
  exact ⟨h,s,counted,hs,hlinks⟩

end BusCheck
end SoftwareBus
