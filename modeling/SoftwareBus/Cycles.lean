import SoftwareBus.TreePath
import SoftwareBus.LinkGraph
import Mathlib.SetTheory.Cardinal.Finite

/-! `find_cycles` returns one genuine cycle for each link that joins two nodes which earlier
links connect already. -/
namespace SoftwareBus
namespace BusCheck

open UnionFind WayBack

section Links

variable {P : Type}

def Joined (links : List (P×P)) (p q : P) : Prop := (p,q) ∈ links ∨ (q,p) ∈ links

def Connected (links : List (P×P)) : P → P → Prop :=
  Relation.EqvGen fun p q => (p,q) ∈ links

/-- The cycle that link `k` closes: pids that differ, from one end of the link to the other, each
joined to the next by a link before it. -/
def ClosedBy (links : List (P×P)) (k : ℕ) (cycle : List P) : Prop :=
  ∃ a b, links[k]? = some (a,b) ∧ cycle.Nodup ∧ cycle.head? = some a ∧
    cycle.getLast? = some b ∧ cycle.IsChain (Joined (links.take k))

noncomputable def components (pids : List P) (links : List (P×P)) : ℕ :=
  Nat.card (Quot fun p q : {p // p ∈ pids} => (p.1,q.1) ∈ links)

def multigraph (links : List (P×P)) : LinkGraph.Topology P (Fin links.length) :=
  ⟨fun k => (links.get k).1,fun k => (links.get k).2⟩

def IsForest (links : List (P×P)) : Prop := (multigraph links).Acyclic fun _ => True

theorem Joined.mono {links more : List (P×P)} {p q : P} (h : Joined links p q) :
    Joined (links++more) p q :=
  h.imp (List.mem_append_left _) (List.mem_append_left _)

theorem Joined.connected {links : List (P×P)} {p q : P} (h : Joined links p q) :
    Connected links p q := by
  rcases h with h | h
  · exact .rel _ _ h
  · exact .symm _ _ (.rel _ _ h)

theorem connected_of_chain {links : List (P×P)} {path : List P} {p q : P}
    (hc : path.IsChain (Joined links)) (hp : path.head? = some p) (hq : path.getLast? = some q) :
    Connected links p q := by
  induction path generalizing p with
  | nil => cases hp
  | cons x path ih =>
    cases hp
    cases path with
    | nil =>
      cases hq
      exact .refl x
    | cons y path =>
      obtain ⟨hxy,hc⟩ := List.isChain_cons_cons.mp hc
      exact .trans _ _ _ hxy.connected (ih hc rfl (by simpa using hq))

theorem ClosedBy.connected {links : List (P×P)} {k : ℕ} {cycle : List P} {a b : P}
    (h : ClosedBy links k cycle) (hk : links[k]? = some (a,b)) :
    Connected (links.take k) a b := by
  obtain ⟨a',b',hk',-,hhead,hlast,hc⟩ := h
  rw [hk] at hk'
  cases hk'
  exact connected_of_chain hc hhead hlast

theorem ClosedBy.lt {links : List (P×P)} {k : ℕ} {cycle : List P} (h : ClosedBy links k cycle) :
    k < links.length := by
  obtain ⟨a,b,hk,-⟩ := h
  exact (List.getElem?_eq_some_iff.mp hk).1

theorem ClosedBy.mono {links more : List (P×P)} {k : ℕ} {cycle : List P}
    (h : ClosedBy links k cycle) : ClosedBy (links++more) k cycle := by
  have hlt := h.lt
  obtain ⟨a,b,hk,hn,hhead,hlast,hc⟩ := h
  refine ⟨a,b,?_,hn,hhead,hlast,?_⟩
  · rwa [List.getElem?_append_left hlt]
  · rwa [List.take_append_of_le_length hlt.le]

open LinkGraph

variable {links : List (P×P)}

/-- A walk over links before `k` connects its ends by them. -/
theorem connected_of_reach {k : ℕ} {b : P} {e : End (Fin links.length)}
    (h : (multigraph links).Reach (fun m => True ∧ m.val < k) b e) :
    Connected (links.take k) ((multigraph links).owner e) b := by
  have hone {e : End (Fin links.length)} (hlt : e.link.val < k) :
      Connected (links.take k) ((multigraph links).owner e) ((multigraph links).peer e) := by
    rcases e with ⟨m,side⟩
    have hm : ((links.get m).1,(links.get m).2) ∈ links.take k :=
      List.mem_take_iff_getElem.mpr ⟨m.val,lt_min hlt m.isLt,rfl⟩
    cases side with
    | source => exact .rel _ _ hm
    | target => exact .symm _ _ (.rel _ _ hm)
  induction h with
  | @here e hgood hb => exact hb ▸ hone hgood.2
  | @step e f hgood hf _ ih =>
    rw [hf.1] at ih
    exact .trans _ _ _ (hone hgood.2) ih

/-- Links of which none closes a cycle form a forest. -/
theorem isForest_of_none
    (h : ∀ (k : ℕ) p q, links[k]? = some (p,q) → ¬Connected (links.take k) p q) :
    IsForest links := by
  have hnone (k : Fin links.length) : ¬Connected (links.take k.val) (links.get k).1
      (links.get k).2 := h k.val _ _ (List.getElem?_eq_getElem k.isLt)
  apply LinkGraph.Topology.acyclic_of_ranking _ Fin.val
  · intro k l _ _ hkl
    exact Fin.ext hkl
  · intro k _ heq
    apply hnone k
    have hends : (links.get k).1 = (links.get k).2 := heq
    rw [hends]
    exact .refl _
  · intro k _ e hstart hreach
    apply hnone k
    have hc := connected_of_reach hreach
    rw [hstart] at hc
    exact hc

theorem walk_of_path {k : ℕ} {x : P} {xs : List P} (hn : (x::xs).Nodup)
    (hc : (x::xs).IsChain (Joined (links.take k))) :
    ∃ es, (multigraph links).IsWalk (fun m => m.val < k) es ∧
      es.map (multigraph links).peer = xs ∧ ∀ e ∈ es.head?, (multigraph links).owner e = x := by
  induction xs generalizing x with
  | nil => exact ⟨[],⟨.nil,by simp⟩,rfl,by simp⟩
  | cons y ys ih =>
    obtain ⟨hxy,hc⟩ := List.isChain_cons_cons.mp hc
    obtain ⟨hx,hn⟩ := List.nodup_cons.mp hn
    obtain ⟨es,hw,hpeers,hstart⟩ := ih hn hc
    obtain ⟨e,hlt,howner,hpeer⟩ : ∃ e : End (Fin links.length), e.link.val < k ∧
        (multigraph links).owner e = x ∧ (multigraph links).peer e = y := by
      rcases hxy with hl | hl
      · obtain ⟨i,hi,hget⟩ := List.mem_take_iff_getElem.mp hl
        obtain ⟨hik,hilen⟩ := lt_min_iff.mp hi
        exact ⟨⟨⟨i,hilen⟩,.source⟩,hik,congrArg Prod.fst hget,congrArg Prod.snd hget⟩
      · obtain ⟨i,hi,hget⟩ := List.mem_take_iff_getElem.mp hl
        obtain ⟨hik,hilen⟩ := lt_min_iff.mp hi
        exact ⟨⟨⟨i,hilen⟩,.target⟩,hik,congrArg Prod.snd hget,congrArg Prod.fst hget⟩
    refine ⟨e::es,⟨?_,?_⟩,by rw [List.map_cons,hpeer,hpeers],?_⟩
    · rw [List.isChain_cons]
      refine ⟨?_,hw.chain⟩
      intro f hf
      refine ⟨(hstart f hf).trans hpeer.symm,?_⟩
      -- turning back would pass `x` again
      rintro rfl
      apply hx
      have hmem := List.mem_map_of_mem (f := (multigraph links).peer) (List.mem_of_mem_head? hf)
      rw [hpeers,Topology.peer_flip,howner] at hmem
      exact List.mem_cons_of_mem _ hmem
    · intro f hf
      rcases List.mem_cons.mp hf with rfl | hf
      · exact hlt
      · exact hw.good f hf
    · intro f hf
      cases hf
      exact howner

/-- A cycle that is closed by a link is one of the multigraph. -/
theorem ClosedBy.not_forest {k : ℕ} {cycle : List P} (h : ClosedBy links k cycle) :
    ¬IsForest links := by
  intro hforest
  obtain ⟨a,b,hk,hn,hhead,hlast,hc⟩ := h
  obtain ⟨hlen,hget⟩ := List.getElem?_eq_some_iff.mp hk
  cases cycle with
  | nil => cases hhead
  | cons x xs =>
    cases hhead
    obtain ⟨es,hw,hpeers,hstart⟩ := walk_of_path hn hc
    -- the link that closes the cycle is passed from its target to its source
    let back : End (Fin links.length) := ⟨⟨k,hlen⟩,.target⟩
    have hback : (multigraph links).owner back = b := congrArg Prod.snd hget
    have hreturn : (multigraph links).peer back = a := congrArg Prod.fst hget
    have hend : ∀ e ∈ es.getLast?, (multigraph links).peer e = b := by
      intro e he
      obtain ⟨ys,rfl⟩ := List.mem_getLast?_eq_getLast he |>.elim fun hne heq =>
        (⟨es.dropLast,by rw [heq]; exact (List.dropLast_append_getLast hne).symm⟩ :
          ∃ ys, es = ys++[e])
      rw [← hpeers,List.map_append,List.map_singleton,← List.cons_append,
        List.getLast?_concat] at hlast
      exact Option.some.inj hlast
    refine hforest (es++[back]) ⟨by simp,?_,?_,?_⟩ fun _ _ => trivial
    · rw [List.isChain_append]
      refine ⟨hw.chain.imp fun _ _ hf => hf.1,.singleton back,?_⟩
      intro e he f hf
      cases hf
      rw [hback,hend e he]
    · cases es with
      | nil =>
        obtain rfl : xs = [] := hpeers.symm
        cases hlast
        simp [hback,hreturn]
      | cons e es => simpa [hreturn] using hstart e rfl
    · rw [List.map_append,List.nodup_append]
      refine ⟨hw.once _ (hpeers ▸ (List.nodup_cons.mp hn).2),List.nodup_singleton _,?_⟩
      intro m hm l hl heq
      obtain ⟨e,he,rfl⟩ := List.mem_map.mp hm
      have hlt := hw.good e he
      rw [heq,List.mem_singleton.mp hl] at hlt
      exact absurd hlt (lt_irrefl k)

end Links

variable {P : Type} [DecidableEq P]

/-- The search after some links: the trees of parents and of neighbours both have the connected
components as their trees, and each cycle so far is closed by one of the links. -/
structure Sorted (pids : List P) (links : List (P×P)) (s : CycleSearch P) (rep : P → P)
    (depth : P → ℕ) (closing : List ℕ) : Prop where
  represents : Represents s.parent rep depth
  domain : ∀ p, (s.parent p).isSome ↔ p ∈ pids
  linked : ∀ p q, (p,q) ∈ links → rep p = rep q
  joined : ∀ p q, q ∈ s.tree p → Joined links p q
  symmetric : ∀ p q, q ∈ s.tree p → p ∈ s.tree q
  connects : ∀ p q, p ∈ pids → q ∈ pids → rep p = rep q →
    Relation.ReflTransGen (fun x y => y ∈ s.tree x) p q
  count : s.cycles.length+pids.toFinset.card = links.length+(pids.toFinset.image rep).card
  closed : List.Forall₂ (ClosedBy links) closing s.cycles
  increasing : closing.Pairwise (· < ·)
  all : ∀ k p q, links[k]? = some (p,q) → Connected (links.take k) p q → k ∈ closing

theorem sorted_nil (pids : List P) :
    Sorted pids [] ⟨fun p => if p ∈ pids then some p else none,fun _ => [],[]⟩ id (fun _ => 0)
      [] := by
  constructor
  · exact represents_single fun p => p ∈ pids
  · intro p
    by_cases hp : p ∈ pids <;> simp [hp]
  · intro p q h
    cases h
  · intro p q h
    cases h
  · intro p q h
    cases h
  · intro p q _ _ h
    obtain rfl : p = q := h
    exact .refl
  · simp
  · exact .nil
  · exact .nil
  · intro k p q h
    cases h

namespace Sorted

variable {pids : List P} {links : List (P×P)} {s : CycleSearch P} {rep : P → P} {depth : P → ℕ}
  {closing : List ℕ}

theorem rep_eq (h : Sorted pids links s rep depth closing) {p q : P}
    (hc : Connected links p q) : rep p = rep q := by
  induction hc with
  | rel p q hpq => exact h.linked p q hpq
  | refl p => rfl
  | symm p q _ ih => exact ih.symm
  | trans p q r _ _ ihp ihq => exact ihp.trans ihq

theorem closing_lt (h : Sorted pids links s rep depth closing) :
    ∀ k ∈ closing, k < links.length :=
  ((List.forall₂_and_left _ _).mp (h.closed.imp fun _ _ hc => ⟨hc.lt,hc⟩)).1

/-- The links that close a cycle are still all found, where the next one is dealt with. -/
theorem all_snoc (h : Sorted pids links s rep depth closing) {a b : P} {closing' : List ℕ}
    (hold : ∀ k ∈ closing, k ∈ closing') (hnew : Connected links a b → links.length ∈ closing') :
    ∀ k p q, (links++[(a,b)])[k]? = some (p,q) → Connected ((links++[(a,b)]).take k) p q →
      k ∈ closing' := by
  intro k p q hk hc
  rcases lt_trichotomy k links.length with hlt | rfl | hgt
  · rw [List.getElem?_append_left hlt] at hk
    rw [List.take_append_of_le_length hlt.le] at hc
    exact hold k (h.all k p q hk hc)
  · rw [List.getElem?_append_right le_rfl,Nat.sub_self] at hk
    cases hk
    rw [List.take_left] at hc
    exact hnew hc
  · rw [List.getElem?_append_right hgt.le] at hk
    have hlen := (List.getElem?_eq_some_iff.mp hk).1
    rw [List.length_singleton] at hlen
    omega

/-- A link between two pids that are connected already closes a cycle. -/
theorem close (h : Sorted pids links s rep depth closing) {a b : P} {parent' : P → Option P}
    {cycle : List P} (hrep : Represents parent' rep depth)
    (hdom : ∀ p, (parent' p).isSome = (s.parent p).isSome) (hab : rep a = rep b)
    (hcycle : ClosedBy (links++[(a,b)]) links.length cycle) :
    Sorted pids (links++[(a,b)]) ⟨parent',s.tree,s.cycles++[cycle]⟩ rep depth
      (closing++[links.length]) := by
  constructor
  · exact hrep
  · intro p
    rw [hdom]
    exact h.domain p
  · intro p q hpq
    rcases List.mem_append.mp hpq with hpq | hpq
    · exact h.linked p q hpq
    · cases List.mem_singleton.mp hpq
      exact hab
  · intro p q hpq
    exact (h.joined p q hpq).mono
  · exact h.symmetric
  · exact h.connects
  · have hcount := h.count
    rw [List.length_append,List.length_append,List.length_singleton,List.length_singleton]
    omega
  · exact List.rel_append (h.closed.imp fun _ _ hc => hc.mono) (.cons hcycle .nil)
  · refine List.pairwise_append.mpr ⟨h.increasing,List.pairwise_singleton ..,?_⟩
    intro k hk n hn
    rw [List.mem_singleton.mp hn]
    exact h.closing_lt k hk
  · apply h.all_snoc
    · intro k hk
      exact List.mem_append_left _ hk
    · intro _
      exact List.mem_append_right _ (List.mem_singleton_self _)

theorem mem_joinTree {tree : P → List P} {a b p q : P} (hab : a ≠ b) :
    q ∈ joinTree tree a b p ↔ q ∈ tree p ∨ p = a ∧ q = b ∨ p = b ∧ q = a := by
  unfold joinTree
  by_cases hpa : p = a
  · subst p
    rw [Function.update_of_ne hab,Function.update_self]
    simp [hab]
  · by_cases hpb : p = b
    · subst p
      rw [Function.update_self,Function.update_of_ne hpa]
      simp [hpa]
    · rw [Function.update_of_ne hpb,Function.update_of_ne hpa]
      simp [hpa,hpb]

/-- Programs of one set are connected in the tree, also once two sets are joined. -/
theorem connects_join (h : Sorted pids links s rep depth closing) {a b p q : P} (ha : a ∈ pids)
    (hb : b ∈ pids) (hne : a ≠ b) (hp : p ∈ pids) (hq : q ∈ pids)
    (hpq : Represents.joined rep (rep a) (rep b) p = Represents.joined rep (rep a) (rep b) q) :
    Relation.ReflTransGen (fun x y => y ∈ joinTree s.tree a b x) p q := by
  have hmono {p q : P} (hp : Relation.ReflTransGen (fun x y => y ∈ s.tree x) p q) :
      Relation.ReflTransGen (fun x y => y ∈ joinTree s.tree a b x) p q :=
    Relation.ReflTransGen.mono (r := fun x y => y ∈ s.tree x)
      (fun _ _ hxy => (mem_joinTree hne).mpr (.inl hxy)) p q hp
  have hforth : Relation.ReflTransGen (fun x y => y ∈ joinTree s.tree a b x) a b :=
    .single ((mem_joinTree hne).mpr (.inr (.inl ⟨rfl,rfl⟩)))
  have hback : Relation.ReflTransGen (fun x y => y ∈ joinTree s.tree a b x) b a :=
    .single ((mem_joinTree hne).mpr (.inr (.inr ⟨rfl,rfl⟩)))
  unfold Represents.joined at hpq
  by_cases hpa : rep p = rep a
  · by_cases hqa : rep q = rep a
    · exact hmono (h.connects p q hp hq (hpa.trans hqa.symm))
    · rw [if_pos hpa,if_neg hqa] at hpq
      exact (hmono (h.connects p a hp ha hpa)).trans
        (hforth.trans (hmono (h.connects b q hb hq hpq)))
  · by_cases hqa : rep q = rep a
    · rw [if_neg hpa,if_pos hqa] at hpq
      exact (hmono (h.connects p b hp hb hpq)).trans
        (hback.trans (hmono (h.connects a q ha hq hqa.symm)))
    · rw [if_neg hpa,if_neg hqa] at hpq
      exact hmono (h.connects p q hp hq hpq)

/-- A link between two pids that are not connected joins their components. -/
theorem join (h : Sorted pids links s rep depth closing) {a b : P} {parent' : P → Option P}
    (hrep : Represents parent' rep depth)
    (hdom : ∀ p, (parent' p).isSome = (s.parent p).isSome) (ha : a ∈ pids) (hb : b ∈ pids)
    (hab : rep a ≠ rep b) :
    ∃ rep' depth', Sorted pids (links++[(a,b)])
      ⟨Function.update parent' (rep a) (some (rep b)),joinTree s.tree a b,s.cycles⟩ rep' depth'
      closing := by
  have hsome {p : P} (hp : p ∈ pids) : (parent' p).isSome := by
    rw [hdom]
    exact (h.domain p).mpr hp
  have hroota := hrep.rep_root (hsome ha)
  have hrootb := hrep.rep_root (hsome hb)
  have hne : a ≠ b := by
    rintro rfl
    exact hab rfl
  obtain ⟨depth',hunion⟩ := hrep.union hroota hrootb hab
  have hjoina : Represents.joined rep (rep a) (rep b) a = rep b := if_pos rfl
  have hjoinb : Represents.joined rep (rep a) (rep b) b = rep b := if_neg hab.symm
  refine ⟨_,depth',hunion,?_,?_,?_,?_,?_,?_,?_,h.increasing,?_⟩
  · intro p
    by_cases hp : p = rep a
    · subst p
      have hin := (h.domain (rep a)).mp (by rw [← hdom,hroota]; rfl)
      simp [hin]
    · show (Function.update parent' (rep a) (some (rep b)) p).isSome ↔ p ∈ pids
      rw [Function.update_of_ne hp,hdom]
      exact h.domain p
  · intro p q hpq
    rcases List.mem_append.mp hpq with hpq | hpq
    · unfold Represents.joined
      rw [h.linked p q hpq]
    · cases List.mem_singleton.mp hpq
      exact hjoina.trans hjoinb.symm
  · intro p q hpq
    rcases (mem_joinTree hne).mp hpq with hpq | ⟨rfl,rfl⟩ | ⟨rfl,rfl⟩
    · exact (h.joined p q hpq).mono
    · exact .inl (List.mem_append_right _ (List.mem_singleton_self _))
    · exact .inr (List.mem_append_right _ (List.mem_singleton_self _))
  · intro p q hpq
    apply (mem_joinTree hne).mpr
    rcases (mem_joinTree hne).mp hpq with hpq | ⟨rfl,rfl⟩ | ⟨rfl,rfl⟩
    · exact .inl (h.symmetric p q hpq)
    · exact .inr (.inr ⟨rfl,rfl⟩)
    · exact .inr (.inl ⟨rfl,rfl⟩)
  · exact fun p q hp hq hpq => h.connects_join ha hb hne hp hq hpq
  · have himage {p : P} (hp : p ∈ pids) : rep p ∈ pids.toFinset.image rep :=
      Finset.mem_image_of_mem rep (List.mem_toFinset.mpr hp)
    have hcard := card_joined (himage ha) (himage hb) hab
    have hcount := h.count
    show s.cycles.length+_ = _
    rw [List.length_append,List.length_singleton]
    omega
  · exact h.closed.imp fun _ _ hc => hc.mono
  · apply h.all_snoc
    · exact fun k hk => hk
    · intro hc
      exact absurd (h.rep_eq hc) hab

end Sorted

section Run

variable {pids : List P} {links : List (P×P)} {s : CycleSearch P} {rep : P → P} {depth : P → ℕ}
  {closing : List ℕ}

theorem takeLink_spec (h : Sorted pids links s rep depth closing)
    (hinside : ∀ l ∈ links, l.1 ∈ pids ∧ l.2 ∈ pids) {a b : P} (ha : a ∈ pids) (hb : b ∈ pids) :
    ∃ s' rep' depth' closing', Sorted pids (links++[(a,b)]) s' rep' depth' closing' ∧
      ∃ least, ∀ fuel, least ≤ fuel → takeLink fuel s (a,b) = some s' := by
  have hlast : (links++[(a,b)])[links.length]? = some (a,b) := by simp
  by_cases hself : a = b
  · subst b
    have hcycle : ClosedBy (links++[(a,a)]) links.length [a] :=
      ⟨a,a,hlast,List.nodup_singleton a,rfl,rfl,.singleton a⟩
    refine ⟨_,rep,depth,_,h.close h.represents (fun p => rfl) rfl hcycle,0,?_⟩
    intro fuel _
    exact if_pos rfl
  have hdom {parent' : P → Option P} (hd : ∀ q, (parent' q).isSome = (s.parent q).isSome) {p : P}
      (hp : p ∈ pids) : (parent' p).isSome := by
    rw [hd]
    exact (h.domain p).mpr hp
  obtain ⟨parent₁,hrep₁,hd₁,hrun₁⟩ := root_spec h.represents (hdom (fun _ => rfl) ha)
  obtain ⟨parent₂,hrep₂,hd₂,hrun₂⟩ := root_spec hrep₁ (hdom hd₁ hb)
  have hd₂' (q : P) : (parent₂ q).isSome = (s.parent q).isSome := (hd₂ q).trans (hd₁ q)
  by_cases hab : rep a = rep b
  · have htree : ∀ p n, n ∈ s.tree p → n ∈ pids.toFinset := by
      intro p n hn
      rw [List.mem_toFinset]
      rcases h.joined p n hn with hl | hl
      · exact (hinside _ hl).2
      · exact (hinside _ hl).1
    obtain ⟨path,hn,hhead,hlast',hc,least,hpath⟩ :=
      treePath_spec htree (h.connects a b ha hb hab)
    have hcycle : ClosedBy (links++[(a,b)]) links.length path := by
      refine ⟨a,b,hlast,hn,hhead,hlast',?_⟩
      rw [List.take_left]
      exact hc.imp fun x y hxy => h.joined x y hxy
    refine ⟨_,rep,depth,_,h.close hrep₂ hd₂' hab hcycle,
      max (max (depth a+1) (depth b+1)) least,?_⟩
    intro fuel hfuel
    rw [takeLink,if_neg hself,hrun₁ fuel (by omega)]
    simp only [Option.bind_eq_bind,Option.bind_some]
    rw [hrun₂ fuel (by omega)]
    simp only [Option.bind_some,if_pos hab]
    rw [hpath fuel (by omega)]
    rfl
  · obtain ⟨parent₃,hrep₃,hd₃,hrun₃⟩ := root_spec hrep₂ (hdom hd₂' hb)
    have hd₃' (q : P) : (parent₃ q).isSome = (s.parent q).isSome := (hd₃ q).trans (hd₂' q)
    obtain ⟨parent₄,hrep₄,hd₄,hrun₄⟩ := root_spec hrep₃ (hdom hd₃' ha)
    have hd₄' (q : P) : (parent₄ q).isSome = (s.parent q).isSome := (hd₄ q).trans (hd₃' q)
    obtain ⟨rep',depth',hs'⟩ := h.join hrep₄ hd₄' ha hb hab
    refine ⟨_,rep',depth',closing,hs',max (depth a+1) (depth b+1),?_⟩
    intro fuel hfuel
    rw [takeLink,if_neg hself,hrun₁ fuel (by omega)]
    simp only [Option.bind_eq_bind,Option.bind_some]
    rw [hrun₂ fuel (by omega)]
    simp only [Option.bind_some,if_neg hab]
    rw [hrun₃ fuel (by omega)]
    simp only [Option.bind_some]
    rw [hrun₄ fuel (by omega)]
    rfl

theorem takeLinks_spec (rest : List (P×P)) (h : Sorted pids links s rep depth closing)
    (hinside : ∀ l ∈ links++rest, l.1 ∈ pids ∧ l.2 ∈ pids) :
    ∃ s' rep' depth' closing', Sorted pids (links++rest) s' rep' depth' closing' ∧
      ∃ least, ∀ fuel, least ≤ fuel → rest.foldlM (takeLink fuel) s = some s' := by
  induction rest generalizing links s rep depth closing with
  | nil => exact ⟨s,rep,depth,closing,by simpa using h,0,fun fuel _ => rfl⟩
  | cons l rest ih =>
    obtain ⟨a,b⟩ := l
    obtain ⟨ha,hb⟩ := hinside (a,b) (by simp)
    obtain ⟨s₁,rep₁,depth₁,closing₁,h₁,least₁,hrun₁⟩ :=
      takeLink_spec h (fun l hl => hinside l (List.mem_append_left _ hl)) ha hb
    have hsnoc : links++(a,b)::rest = links++[(a,b)]++rest := by simp
    rw [hsnoc] at hinside ⊢
    obtain ⟨s₂,rep₂,depth₂,closing₂,h₂,least₂,hrun₂⟩ := ih h₁ hinside
    refine ⟨s₂,rep₂,depth₂,closing₂,h₂,max least₁ least₂,?_⟩
    intro fuel hfuel
    rw [List.foldlM_cons,hrun₁ fuel (by omega)]
    exact hrun₂ fuel (by omega)

/-- The representatives are as many as the connected components. -/
theorem Sorted.card_eq (h : Sorted pids links s rep depth closing)
    (hinside : ∀ l ∈ links, l.1 ∈ pids ∧ l.2 ∈ pids) :
    (pids.toFinset.image rep).card = components pids links := by
  let joins : {p // p ∈ pids} → {p // p ∈ pids} → Prop := fun p q => (p.1,q.1) ∈ links
  have hpath {p q : P} (hp : p ∈ pids) (hpq : Relation.ReflTransGen (fun x y => y ∈ s.tree x) p q) :
      ∃ hq : q ∈ pids, Quot.mk joins ⟨p,hp⟩ = Quot.mk joins ⟨q,hq⟩ := by
    induction hpq with
    | refl => exact ⟨hp,rfl⟩
    | @tail x y _ hxy ih =>
      obtain ⟨hx,heq⟩ := ih
      rcases h.joined x y hxy with hl | hl
      · have hy := (hinside _ hl).2
        exact ⟨hy,heq.trans (Quot.sound (show joins ⟨x,hx⟩ ⟨y,hy⟩ from hl))⟩
      · have hy := (hinside _ hl).1
        exact ⟨hy,heq.trans (Quot.sound (show joins ⟨y,hy⟩ ⟨x,hx⟩ from hl)).symm⟩
  let toRep : Quot joins → {y // y ∈ pids.toFinset.image rep} :=
    Quot.lift (fun p => ⟨rep p.1,Finset.mem_image_of_mem rep (List.mem_toFinset.mpr p.2)⟩)
      fun p q hpq => Subtype.ext (h.linked p.1 q.1 hpq)
  have hbij : Function.Bijective toRep := by
    constructor
    · intro x y
      induction x using Quot.ind with
      | _ p =>
        induction y using Quot.ind with
        | _ q =>
          intro hpq
          have hrep : rep p.1 = rep q.1 := congrArg Subtype.val hpq
          obtain ⟨_,heq⟩ := hpath p.2 (h.connects p.1 q.1 p.2 q.2 hrep)
          exact heq
    · rintro ⟨y,hy⟩
      obtain ⟨p,hp,rfl⟩ := Finset.mem_image.mp hy
      exact ⟨Quot.mk joins ⟨p,List.mem_toFinset.mp hp⟩,rfl⟩
  have hcard := Nat.card_congr (Equiv.ofBijective toRep hbij)
  rw [Nat.card_eq_fintype_card (α := {y // y ∈ pids.toFinset.image rep}),Fintype.card_coe] at hcard
  exact hcard.symm

end Run

/-- `find_cycles` ends without an error. It returns one cycle for each link between two pids that
links before it connect, in the order of these links. -/
theorem find_cycles_exact (pids : List P) (links : List (P×P))
    (hinside : ∀ l ∈ links, l.1 ∈ pids ∧ l.2 ∈ pids) :
    ∃ cycles closing least, (∀ fuel, least ≤ fuel → findCycles fuel pids links = some cycles) ∧
      cycles.length+pids.toFinset.card = links.length+components pids links ∧
      (cycles = [] ↔ IsForest links) ∧
      List.Forall₂ (ClosedBy links) closing cycles ∧ closing.Pairwise (· < ·) ∧
      ∀ k p q, links[k]? = some (p,q) → (k ∈ closing ↔ Connected (links.take k) p q) := by
  obtain ⟨s,rep,depth,closing,h,least,hrun⟩ :=
    takeLinks_spec links (sorted_nil pids) (by simpa using hinside)
  rw [List.nil_append] at h
  have hclosing {k : ℕ} {p q : P} (hk : links[k]? = some (p,q)) (hm : k ∈ closing) :
      Connected (links.take k) p q := by
    obtain ⟨i,hi,rfl⟩ := List.getElem_of_mem hm
    have hcycle := h.closed.get hi (h.closed.length_eq ▸ hi)
    exact hcycle.connected hk
  refine ⟨s.cycles,closing,least,?_,?_,?_,h.closed,h.increasing,?_⟩
  · intro fuel hfuel
    rw [findCycles,hrun fuel hfuel]
    rfl
  · rw [h.count,h.card_eq hinside]
  · constructor
    · intro hnil
      apply isForest_of_none
      intro k p q hk hc
      have hm := h.all k p q hk hc
      have hclosed := h.closed
      rw [hnil,List.forall₂_nil_right_iff] at hclosed
      rw [hclosed] at hm
      cases hm
    · intro hforest
      have hclosed := h.closed
      cases hcycles : s.cycles with
      | nil => rfl
      | cons cycle cycles =>
        rw [hcycles] at hclosed
        cases hclosed with
        | cons hcycle _ => exact absurd hforest hcycle.not_forest
  · intro k p q hk
    exact ⟨hclosing hk,h.all k p q hk⟩

/-- Two links between the same two pids, and a link of one of them to itself. -/
theorem find_cycles_exact_pair :
    (∀ l ∈ [((1 : ℕ),(2 : ℕ)),(2,1),(1,1)], l.1 ∈ [1,2] ∧ l.2 ∈ [1,2]) ∧
    findCycles 5 [1,2] [(1,2),(2,1),(1,1)] = some [[2,1],[1]] ∧
    ∃ cycles closing least,
      (∀ fuel, least ≤ fuel → findCycles fuel [1,2] [(1,2),(2,1),(1,1)] = some cycles) ∧
      List.Forall₂ (ClosedBy [(1,2),(2,1),(1,1)]) closing cycles := by
  have hinside : ∀ l ∈ [((1 : ℕ),(2 : ℕ)),(2,1),(1,1)], l.1 ∈ [1,2] ∧ l.2 ∈ [1,2] := by decide
  obtain ⟨cycles,closing,least,hrun,_,_,hclosed,_⟩ :=
    find_cycles_exact [1,2] [((1 : ℕ),(2 : ℕ)),(2,1),(1,1)] hinside
  exact ⟨hinside,by decide,cycles,closing,least,hrun,hclosed⟩

end BusCheck
end SoftwareBus
