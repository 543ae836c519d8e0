import Mathlib.Data.List.Chain
import Mathlib.Data.List.Nodup
import Mathlib.Data.Finset.Max
import Mathlib.Data.Fintype.Defs
import Mathlib.Data.Set.Card

/-! Undirected multigraphs given by links, each with a source end and a target
end. An end stands for the traversal of its link that leaves through it, so a
walk is a list of ends; walks never turn back on the link they came over. -/
namespace LinkGraph

inductive Side
  | source | target
  deriving DecidableEq

instance sideFintype : Fintype Side := ⟨{.source,.target},fun s => by cases s <;> simp⟩

def Side.flip : Side → Side
  | .source => .target
  | .target => .source

structure End (L : Type) where
  link : L
  side : Side
  deriving DecidableEq

variable {V L : Type}

instance lawfulBEq_end [DecidableEq L] : LawfulBEq (End L) := inferInstance

def End.flip (e : End L) : End L := ⟨e.link,e.side.flip⟩

@[simp] theorem Side.flip_flip (s : Side) : s.flip.flip = s := by cases s <;> rfl
@[simp] theorem End.flip_flip (e : End L) : e.flip.flip = e := by simp [End.flip]
@[simp] theorem End.flip_link (e : End L) : e.flip.link = e.link := rfl

@[simp] theorem End.flip_inj {e f : End L} : e.flip = f.flip ↔ e = f :=
  ⟨fun h => by simpa using congrArg End.flip h,fun h => h ▸ rfl⟩

theorem End.eq_or_flip {e f : End L} (h : e.link = f.link) : e = f ∨ e = f.flip := by
  rcases e with ⟨l,s⟩
  rcases f with ⟨m,r⟩
  obtain rfl : l = m := h
  cases s <;> cases r <;> simp [End.flip,Side.flip]

/-- Where the two ends of each link are. -/
structure Topology (V L : Type) where
  source : L → V
  target : L → V

namespace Topology

variable (t : Topology V L)

def owner (e : End L) : V :=
  match e.side with
  | .source => t.source e.link
  | .target => t.target e.link

def peer (e : End L) : V := t.owner e.flip

@[simp] theorem peer_flip (e : End L) : t.peer e.flip = t.owner e := by simp [peer]
@[simp] theorem owner_flip (e : End L) : t.owner e.flip = t.peer e := rfl

/-- `f` leaves the vertex that `e` leads to, and does not turn back. -/
def Follows (e f : End L) : Prop := t.owner f = t.peer e ∧ f ≠ e.flip

theorem Follows.reverse {e f : End L} (h : t.Follows e f) : t.Follows f.flip e.flip := by
  refine ⟨?_,?_⟩
  · simpa using h.1.symm
  · intro he
    exact h.2 (by simpa using he.symm)

/-- A walk over good links that never turns back. -/
structure IsWalk (good : L → Prop) (es : List (End L)) : Prop where
  chain : es.IsChain t.Follows
  good : ∀ e ∈ es, good e.link

/-- A walk over good links leaving through this end leads to `b`. -/
inductive Reach (good : L → Prop) (b : V) : End L → Prop
  | here {e : End L} : good e.link → t.peer e = b → Reach good b e
  | step {e f : End L} : good e.link → t.Follows e f → Reach good b f → Reach good b e

theorem Reach.good {good : L → Prop} {b : V} {e : End L} (h : t.Reach good b e) :
    good e.link := by
  cases h <;> assumption

theorem Reach.last {good : L → Prop} {b : V} {e : End L} (h : t.Reach good b e) :
    ∃ f : End L, good f.link ∧ t.peer f = b := by
  induction h with
  | here hl hb => exact ⟨_,hl,hb⟩
  | step _ _ _ ih => exact ih

theorem Reach.mono {good good' : L → Prop} (hg : ∀ l, good l → good' l) {b : V} {e : End L}
    (h : t.Reach good b e) : t.Reach good' b e := by
  induction h with
  | here hl hb => exact .here (hg _ hl) hb
  | step hl hf _ ih => exact .step (hg _ hl) hf ih

theorem reach_of_walk {good : L → Prop} {es : List (End L)} (hne : es ≠ [])
    (hw : t.IsWalk good es) : t.Reach good (t.peer (es.getLast hne)) (es.head hne) := by
  induction es with
  | nil => exact absurd rfl hne
  | cons e es ih =>
    cases es with
    | nil => exact .here (hw.good e (by simp)) rfl
    | cons f fs =>
      obtain ⟨hf,hc⟩ := List.isChain_cons_cons.mp hw.chain
      have hr := ih (by simp) ⟨hc,fun x hx => hw.good x (by simp [hx])⟩
      exact .step (hw.good e (by simp)) hf (by simpa using hr)

theorem walk_of_reach {good : L → Prop} {b : V} {e : End L} (h : t.Reach good b e) :
    ∃ es, t.IsWalk good (e::es) ∧ t.peer ((e::es).getLast (by simp)) = b := by
  induction h with
  | here hl hb => exact ⟨[],⟨by simp,by simpa using hl⟩,by simpa using hb⟩
  | @step e f hl hf _ ih =>
    obtain ⟨es,hw,hb⟩ := ih
    refine ⟨f::es,⟨List.isChain_cons_cons.mpr ⟨hf,hw.chain⟩,?_⟩,by simpa using hb⟩
    intro x hx
    rcases List.mem_cons.mp hx with rfl | hx
    · exact hl
    · exact hw.good x hx

theorem IsWalk.reverse {good : L → Prop} {es : List (End L)} (h : t.IsWalk good es) :
    t.IsWalk good (es.map End.flip).reverse := by
  refine ⟨?_,by simpa using h.good⟩
  rw [List.isChain_reverse,List.isChain_map]
  exact h.chain.imp fun e f hf => hf.reverse

theorem IsWalk.tail {good : L → Prop} {e : End L} {es : List (End L)}
    (h : t.IsWalk good (e::es)) : t.IsWalk good es :=
  ⟨h.chain.tail,fun f hf => h.good f (by simp [hf])⟩

theorem IsWalk.left {good : L → Prop} {es fs : List (End L)}
    (h : t.IsWalk good (es++fs)) : t.IsWalk good es :=
  ⟨h.chain.left_of_append,fun f hf => h.good f (by simp [hf])⟩

/-- A closed trail: consecutive, back to its start, and using no link twice.
One self-link, two parallel links and every longer cycle are closed trails. -/
structure IsCycle (es : List (End L)) : Prop where
  nonempty : es ≠ []
  chain : es.IsChain (fun e f => t.owner f = t.peer e)
  closed : t.owner (es.head nonempty) = t.peer (es.getLast nonempty)
  once : (es.map End.link).Nodup

def Acyclic (good : L → Prop) : Prop := ∀ es, t.IsCycle es → ¬∀ e ∈ es, good e.link

theorem IsCycle.rotate {es fs : List (End L)} (h : t.IsCycle (es++fs)) : t.IsCycle (fs++es) := by
  rcases es.eq_nil_or_concat with rfl | ⟨xs,e,rfl⟩
  · simpa using h
  rcases fs with _ | ⟨f,fs⟩
  · simpa using h
  obtain ⟨hx,hf,hj⟩ := List.isChain_append.mp h.chain
  refine ⟨by simp,List.isChain_append.mpr ⟨hf,hx,?_⟩,?_,?_⟩
  · intro x hxl y hyl
    have hc := h.closed
    rw [List.getLast_append_of_ne_nil (by simp) (by simp)] at hc
    rw [List.getLast?_eq_getLast_of_ne_nil (by simp),Option.mem_def,Option.some.injEq] at hxl
    rw [List.head?_eq_some_head (by simp),Option.mem_def,Option.some.injEq] at hyl
    rw [← hxl,← hyl,← hc,List.head_append_of_ne_nil]
  · simpa using hj e (by simp) f (by simp)
  · have hn := h.once
    rw [List.map_append] at hn ⊢
    exact (List.perm_append_comm.nodup_iff).mp hn

/-- Before each traversal of a cycle there is one that leads to where it starts. -/
theorem IsCycle.before {es : List (End L)} (h : t.IsCycle es) {e : End L} (he : e ∈ es) :
    ∃ f ∈ es, t.peer f = t.owner e ∧ (f = e ∨ f.link ≠ e.link) := by
  obtain ⟨xs,ys,rfl⟩ := List.append_of_mem he
  have hrot : t.IsCycle (e::(ys++xs)) := by simpa using h.rotate
  have hmem {f : End L} (hf : f ∈ e::(ys++xs)) : f ∈ xs++e::ys := by
    simp only [List.mem_cons,List.mem_append] at hf ⊢
    tauto
  refine ⟨_,hmem (List.getLast_mem hrot.nonempty),hrot.closed.symm,?_⟩
  have hn := (List.nodup_cons.mp hrot.once).1
  rcases List.mem_cons.mp (List.getLast_mem hrot.nonempty) with heq | hlast
  · exact .inl heq
  · exact .inr fun hf => hn (List.mem_map.mpr ⟨_,hlast,hf⟩)

theorem IsCycle.after {es : List (End L)} (h : t.IsCycle es) {e : End L} (he : e ∈ es) :
    ∃ f ∈ es, t.owner f = t.peer e := by
  obtain ⟨xs,ys,rfl⟩ := List.append_of_mem he
  have hrot : t.IsCycle (ys++xs++[e]) := by
    have h1 : t.IsCycle (e::ys++xs) := h.rotate
    have h2 : t.IsCycle ([e]++(ys++xs)) := by simpa using h1
    exact h2.rotate
  refine ⟨(ys++xs++[e]).head hrot.nonempty,?_,by simpa using hrot.closed⟩
  have hm := List.head_mem hrot.nonempty
  simp only [List.mem_cons,List.mem_append,List.not_mem_nil,or_false] at hm ⊢
  tauto

theorem isChain_and {A : Type} {R S : A → A → Prop} {xs : List A} (hr : xs.IsChain R)
    (hs : xs.IsChain S) : xs.IsChain fun x y => R x y ∧ S x y := by
  induction xs with
  | nil => simp
  | cons x xs ih =>
    cases xs with
    | nil => simp
    | cons y ys =>
      obtain ⟨hxy,hr⟩ := List.isChain_cons_cons.mp hr
      obtain ⟨hxy',hs⟩ := List.isChain_cons_cons.mp hs
      exact List.isChain_cons_cons.mpr ⟨⟨hxy,hxy'⟩,ih hr hs⟩

/-- The part of a cycle after one of its links leads back without turning. -/
theorem IsCycle.walk {good : L → Prop} {e : End L} {es : List (End L)} (h : t.IsCycle (e::es))
    (hg : ∀ f ∈ es, good f.link) : t.IsWalk good es := by
  refine ⟨?_,hg⟩
  have hp : es.Pairwise fun f g => f.link ≠ g.link :=
    List.pairwise_map.mp (List.nodup_cons.mp h.once).2
  refine (isChain_and h.chain.tail hp.isChain).imp ?_
  rintro f g ⟨ho,hl⟩
  exact ⟨ho,fun he => hl (by simp [he])⟩

/-- Links ranked so that none closes a walk over links of smaller rank form a forest. -/
theorem acyclic_of_ranking {good : L → Prop} (rank : L → ℕ)
    (hinj : ∀ l m, good l → good m → rank l = rank m → l = m)
    (hloop : ∀ l, good l → t.source l ≠ t.target l)
    (hno : ∀ l, good l → ∀ e, t.owner e = t.source l →
      ¬t.Reach (fun m => good m ∧ rank m < rank l) (t.target l) e) :
    t.Acyclic good := by
  classical
  intro es hc hg
  obtain ⟨e,he,hmax⟩ := Finset.exists_max_image es.toFinset (fun f => rank f.link)
    (by simpa [List.toFinset_nonempty_iff] using hc.nonempty)
  obtain ⟨xs,ys,rfl⟩ := List.append_of_mem (List.mem_toFinset.mp he)
  have hrot : t.IsCycle (e::(ys++xs)) := by simpa using hc.rotate
  have hsmall : ∀ f ∈ ys++xs, good f.link ∧ rank f.link < rank e.link := by
    intro f hf
    have hmem : f ∈ xs++e::ys := by
      rcases List.mem_append.mp hf with hf | hf <;> simp [hf]
    have hne : e.link ≠ f.link := by
      intro heq
      exact (List.nodup_cons.mp hrot.once).1 (heq ▸ List.mem_map_of_mem hf)
    have hle := hmax f (List.mem_toFinset.mpr hmem)
    refine ⟨hg f hmem,lt_of_le_of_ne hle fun heq => hne ?_⟩
    exact (hinj _ _ (hg f hmem) (hg e (by simp)) heq).symm
  have hw : t.IsWalk (fun m => good m ∧ rank m < rank e.link) (ys++xs) := hrot.walk t hsmall
  have hge := hg e (by simp)
  generalize ys++xs = rest at hrot hw
  by_cases hnil : rest = []
  · subst rest
    have hself : t.owner e = t.peer e := by simpa using hrot.closed
    refine hloop e.link hge ?_
    rcases e with ⟨l,s⟩
    cases s
    · exact hself
    · exact hself.symm
  have hstart : t.owner (rest.head hnil) = t.peer e := by
    obtain ⟨f,fs,rfl⟩ := List.exists_cons_of_ne_nil hnil
    exact (List.isChain_cons_cons.mp hrot.chain).1
  have hend : t.peer (rest.getLast hnil) = t.owner e := by
    simpa [List.getLast_cons hnil] using hrot.closed.symm
  rcases e with ⟨l,s⟩
  cases s with
  | target =>
    have hr := reach_of_walk t hnil hw
    rw [hend] at hr
    exact hno l hge _ hstart hr
  | source =>
    -- traversed from source to target, so the rest has to be read backwards
    have hr := reach_of_walk t (by simpa using hnil) hw.reverse
    simp only [List.getLast_reverse,List.head_map,List.head_reverse,List.getLast_map,peer_flip,
      hstart] at hr
    exact hno l hge _ hend hr

def vertices (e : End L) (es : List (End L)) : List V := t.owner e :: (e::es).map t.peer

/-- A walk that passes no vertex twice uses no link twice. -/
theorem IsWalk.once {good : L → Prop} {es : List (End L)} (h : t.IsWalk good es)
    (hn : (es.map t.peer).Nodup) : (es.map End.link).Nodup := by
  induction es with
  | nil => simp
  | cons e es ih =>
    obtain ⟨hpe,hn⟩ := List.nodup_cons.mp hn
    refine List.nodup_cons.mpr ⟨?_,ih h.tail hn⟩
    intro hmem
    obtain ⟨x,hx,hl⟩ := List.mem_map.mp hmem
    rcases End.eq_or_flip hl with rfl | rfl
    · exact hpe (List.mem_map_of_mem hx)
    -- `e` traversed the other way: the vertex before it is the one `e` led to
    obtain ⟨as,bs,rfl⟩ := List.append_of_mem hx
    rcases as.eq_nil_or_concat with rfl | ⟨cs,y,rfl⟩
    · exact (List.isChain_cons_cons.mp h.chain).1.2 rfl
    · have hj := (List.isChain_append.mp h.tail.chain).2.2
      have hy := (hj y (by simp) e.flip (by simp)).1
      exact hpe (List.mem_map.mpr ⟨y,by simp,hy.symm⟩)

/-- A walk that never turns back passes no vertex of a forest twice. -/
theorem IsWalk.nodup {good : L → Prop} (ha : t.Acyclic good) {e : End L} {es : List (End L)}
    (h : t.IsWalk good (e::es)) : (t.vertices e es).Nodup := by
  have hclose : ∀ {f : End L} {fs : List (End L)}, t.IsWalk good (f::fs) →
      ((f::fs).map t.peer).Nodup → t.owner f ∉ (f::fs).map t.peer := by
    intro f fs hw hn hmem
    obtain ⟨g,hg,hgo⟩ := List.mem_map.mp hmem
    obtain ⟨xs,ys,hsplit⟩ := List.append_of_mem hg
    have hsub : (xs++[g]).Sublist (f::fs) := by
      rw [hsplit]
      simp
    have hw' : t.IsWalk good ((xs++[g])++ys) := by simpa [← hsplit] using hw
    have hpre : t.IsWalk good (xs++[g]) := hw'.left
    refine ha (xs++[g]) ⟨by simp,hpre.chain.imp fun _ _ hf => hf.1,?_,
      hpre.once t (hn.sublist (hsub.map _))⟩ hpre.good
    have hhead : (xs++[g]).head (by simp) = f := by
      have := congrArg List.head? hsplit
      cases xs <;> simp_all
    simpa [hhead] using hgo.symm
  induction es generalizing e with
  | nil => simpa [vertices] using hclose h (by simp)
  | cons f fs ih =>
    obtain ⟨hf,-⟩ := List.isChain_cons_cons.mp h.chain
    have hn : ((e::f::fs).map t.peer).Nodup := by simpa [vertices,hf.1] using ih h.tail
    exact List.nodup_cons.mpr ⟨hclose h hn,hn⟩

/-- No walk in a forest that never turns back returns to its start. -/
theorem IsWalk.not_closed {good : L → Prop} (ha : t.Acyclic good) {es : List (End L)}
    (h : t.IsWalk good es) (hne : es ≠ []) : t.peer (es.getLast hne) ≠ t.owner (es.head hne) := by
  obtain ⟨e,fs,rfl⟩ := List.exists_cons_of_ne_nil hne
  intro hc
  refine (List.nodup_cons.mp (h.nodup t ha)).1 (List.mem_map.mpr ⟨_,List.getLast_mem hne,?_⟩)
  simpa using hc

theorem IsWalk.nodup_owners {good : L → Prop} (ha : t.Acyclic good) {es : List (End L)}
    (h : t.IsWalk good es) : (es.map t.owner).Nodup := by
  have hr := h.reverse
  cases hes : (es.map End.flip).reverse with
  | nil =>
    obtain rfl : es = [] := by simpa using hes
    simp
  | cons e fs =>
    rw [hes] at hr
    have hn := (List.nodup_cons.mp (hr.nodup t ha)).2
    rw [← hes] at hn
    simpa [List.map_reverse,Function.comp_def] using hn

/-- In a forest, where every end of a kind leads to a wanted vertex or is followed
by another end of the kind, each of these ends leads to a wanted vertex in the end. -/
theorem reach_of_forward {good : L → Prop} (ha : t.Acyclic good) {vs : Set V} (hvs : vs.Finite)
    (kind : End L → Prop) (wanted : V → Prop)
    (hkind : ∀ e, kind e → good e.link ∧ t.owner e ∈ vs)
    (hstep : ∀ e, kind e → wanted (t.peer e) ∨ ∃ f, t.Follows e f ∧ kind f) {e : End L}
    (he : kind e) : ∃ b, wanted b ∧ t.Reach good b e := by
  classical
  -- the walk so far passes a vertex of `vs` at each step and none twice
  have main (k : ℕ) : ∀ (es : List (End L)) (e : End L), t.IsWalk good (es++[e]) →
      (∀ f ∈ es, t.owner f ∈ vs) → kind e → vs.ncard ≤ k+es.length →
      ∃ b, wanted b ∧ t.Reach good b e := by
    induction k with
    | zero =>
      intro es e hw hes hke hlen
      have hn : ((es++[e]).map t.owner).Nodup := hw.nodup_owners t ha
      have hsub : (((es++[e]).map t.owner).toFinset : Set V) ⊆ vs := by
        intro v hv
        obtain ⟨f,hf,rfl⟩ : ∃ f ∈ es++[e], t.owner f = v := by
          rw [Finset.mem_coe,List.mem_toFinset] at hv
          exact List.mem_map.mp hv
        rcases List.mem_append.mp hf with hf | hf
        · exact hes f hf
        · exact List.mem_singleton.mp hf ▸ (hkind e hke).2
      have hle := Set.ncard_le_ncard hsub hvs
      rw [Set.ncard_coe_finset,List.toFinset_card_of_nodup hn] at hle
      simp at hle
      omega
    | succ k ih =>
      intro es e hw hes hke hlen
      rcases hstep e hke with hq | ⟨f,hf,hkf⟩
      · exact ⟨_,hq,.here (hkind e hke).1 rfl⟩
      · have hw' : t.IsWalk good (es++[e]++[f]) := by
          refine ⟨List.isChain_append.mpr ⟨hw.chain,.singleton f,by simpa using hf⟩,?_⟩
          intro x hx
          rcases List.mem_append.mp hx with hx | hx
          · exact hw.good x hx
          · exact List.mem_singleton.mp hx ▸ (hkind f hkf).1
        have hes' : ∀ x ∈ es++[e], t.owner x ∈ vs := by
          intro x hx
          rcases List.mem_append.mp hx with hx | hx
          · exact hes x hx
          · exact List.mem_singleton.mp hx ▸ (hkind e hke).2
        obtain ⟨b,hb,hr⟩ := ih (es++[e]) f hw' hes' hkf (by simp; omega)
        exact ⟨b,hb,.step (hkind e hke).1 hf hr⟩
  exact main vs.ncard [] e ⟨.singleton e,by simpa using (hkind e he).1⟩ (by simp) he (by simp)

/-- A walk from `a` to `b`, empty if they are the same vertex. -/
structure IsWalkBetween (good : L → Prop) (a b : V) (es : List (End L)) : Prop where
  walk : t.IsWalk good es
  start : ∀ e ∈ es.head?, t.owner e = a
  finish : (es.getLast?.elim a t.peer) = b

theorem IsWalkBetween.reverse {good : L → Prop} {a b : V} {es : List (End L)}
    (h : t.IsWalkBetween good a b es) : t.IsWalkBetween good b a (es.map End.flip).reverse := by
  refine ⟨h.walk.reverse,?_,?_⟩
  · intro e he
    have hf := h.finish
    cases hl : es.getLast? <;> simp_all [List.getLast?_map]
    subst he
    simpa using hf
  · have hs := h.start
    have hf := h.finish
    cases es with
    | nil => simpa using hf.symm
    | cons e es => simpa using hs

/-- Two walks join where the second does not turn back on the last link of the first. -/
theorem IsWalkBetween.append {good : L → Prop} {a b c : V} {es fs : List (End L)}
    (he : t.IsWalkBetween good a b es) (hf : t.IsWalkBetween good b c fs)
    (hj : ∀ x ∈ es.getLast?, ∀ y ∈ fs.head?, y ≠ x.flip) : t.IsWalkBetween good a c (es++fs) := by
  refine ⟨⟨List.isChain_append.mpr ⟨he.walk.chain,hf.walk.chain,?_⟩,?_⟩,?_,?_⟩
  · intro x hx y hy
    have hb := he.finish
    rw [Option.mem_def.mp hx] at hb
    exact ⟨(hf.start y hy).trans hb.symm,hj x hx y hy⟩
  · intro e hm
    rcases List.mem_append.mp hm with hm | hm
    · exact he.walk.good e hm
    · exact hf.walk.good e hm
  · intro e hm
    cases es with
    | nil =>
      obtain rfl : a = b := by simpa using he.finish
      exact hf.start e hm
    | cons x xs => exact he.start e hm
  · have hb := he.finish
    have hc := hf.finish
    cases hl : fs.getLast? with
    | none =>
      obtain rfl := List.getLast?_eq_none_iff.mp hl
      obtain rfl : b = c := by simpa using hc
      simpa using hb
    | some y => simpa [List.getLast?_append,hl] using hc

theorem IsWalkBetween.nil (good : L → Prop) (a : V) : t.IsWalkBetween good a a [] :=
  ⟨⟨.nil,by simp⟩,by simp,rfl⟩

theorem IsWalkBetween.snoc {good : L → Prop} {a : V} {es : List (End L)} {x : End L}
    (h : t.IsWalkBetween good a (t.owner x) es) (hx : good x.link) (hj : x.flip ∉ es.getLast?) :
    t.IsWalkBetween good a (t.peer x) (es++[x]) := by
  refine h.append t ⟨⟨List.isChain_singleton x,by simpa using hx⟩,by simp,by simp⟩ ?_
  intro y hy z hz
  obtain rfl : x = z := by simpa using hz
  rintro rfl
  exact hj (by simpa using hy)

/-- A walk between two different vertices leaves the first one through some end. -/
theorem IsWalkBetween.reach {good : L → Prop} {a b : V} {es : List (End L)}
    (h : t.IsWalkBetween good a b es) (hab : a ≠ b) : ∃ e, t.owner e = a ∧ t.Reach good b e := by
  rcases es with _ | ⟨e,es⟩
  · exact absurd h.finish hab
  · have hr := reach_of_walk t (List.cons_ne_nil e es) h.walk
    have hb := h.finish
    rw [List.getLast?_eq_getLast_of_ne_nil (List.cons_ne_nil e es)] at hb
    exact ⟨e,h.start e (by simp),by simpa [show t.peer _ = b from hb] using hr⟩

theorem IsWalkBetween.init {good : L → Prop} {a b : V} {es : List (End L)} {x : End L}
    (h : t.IsWalkBetween good a b (es++[x])) : t.IsWalkBetween good a (t.owner x) es := by
  refine ⟨h.walk.left,?_,?_⟩
  · intro e he
    cases es with
    | nil => simp at he
    | cons f fs => exact h.start e he
  · rcases es.eq_nil_or_concat with rfl | ⟨fs,y,rfl⟩
    · simpa using (h.start x (by simp)).symm
    · have hj := (List.isChain_append.mp h.walk.chain).2.2
      simpa using (hj y (by simp) x (by simp)).1.symm

theorem IsWalkBetween.peer_last {good : L → Prop} {a b : V} {es : List (End L)} {x : End L}
    (h : t.IsWalkBetween good a b (es++[x])) : t.peer x = b := by
  simpa using h.finish

theorem IsWalkBetween.closed {good : L → Prop} (ha : t.Acyclic good) {a : V}
    {es : List (End L)} (h : t.IsWalkBetween good a a es) : es = [] := by
  by_contra hne
  refine h.walk.not_closed t ha hne ?_
  rw [h.start _ (List.head_mem_head? hne)]
  simpa [List.getLast?_eq_getLast_of_ne_nil hne] using h.finish

/-- In a forest there is at most one walk between two vertices. -/
theorem IsWalkBetween.unique {good : L → Prop} (ha : t.Acyclic good) {a b : V}
    {es fs : List (End L)} (he : t.IsWalkBetween good a b es) (hf : t.IsWalkBetween good a b fs) :
    es = fs := by
  induction es using List.reverseRecOn generalizing b fs with
  | nil =>
    obtain rfl : a = b := by simpa using he.finish
    exact (hf.closed t ha).symm
  | append_singleton es x ih =>
    rcases fs.eq_nil_or_concat with rfl | ⟨fs,y,rfl⟩
    · obtain rfl : a = b := by simpa using hf.finish
      exact he.closed t ha
    by_cases hxy : x = y
    · subst y
      rw [ih he.init (IsWalkBetween.init t (by simpa using hf)),List.concat_eq_append]
    · have hloop := he.append t hf.reverse (by simpa using fun h => hxy h.symm)
      simpa using hloop.closed t ha

end Topology
end LinkGraph
