import SoftwareBus.BusCheck
import SoftwareBus.UnionFind
import SoftwareBus.WayBack

/-! The two loops under `find_cycles` end: `root` at the representative of a set, and `_tree_path`
with a path of the tree. -/
namespace SoftwareBus
namespace BusCheck

open UnionFind WayBack

variable {P : Type} [DecidableEq P]

/-- Following the parents ends at the representative and keeps all representatives. -/
theorem root_spec {rep : P → P} {depth : P → ℕ} {parent : P → Option P} {p : P}
    (h : Represents parent rep depth) (hp : (parent p).isSome) :
    ∃ parent', Represents parent' rep depth ∧ (∀ q, (parent' q).isSome = (parent q).isSome) ∧
      ∀ fuel, depth p < fuel → root fuel parent p = some (parent',rep p) := by
  induction hd : depth p using Nat.strong_induction_on generalizing p parent with
  | _ n ih =>
    obtain ⟨above,habove⟩ := Option.isSome_iff_exists.mp hp
    by_cases htop : above = p
    · subst above
      refine ⟨parent,h,fun q => rfl,?_⟩
      intro fuel hfuel
      cases fuel with
      | zero => omega
      | succ fuel => simp [root,habove,h.root habove]
    · obtain ⟨next,hnext⟩ := Option.isSome_iff_exists.mp (h.inside habove)
      have hfall : depth next < depth p := by
        have habovep := (h.falls habove).resolve_left htop
        rcases h.falls hnext with rfl | hlt
        · exact habovep
        · exact hlt.trans habovep
      have hdom (q : P) :
          (Function.update parent p (some next) q).isSome = (parent q).isSome := by
        by_cases hq : q = p
        · subst q
          simp [habove]
        · rw [Function.update_of_ne hq]
      have hhalf := h.halve habove htop hnext
      obtain ⟨parent',h',hdom',hrun⟩ := ih (depth next) (hd ▸ hfall) hhalf
        (by rw [hdom]; exact h.inside hnext) rfl
      refine ⟨parent',h',fun q => (hdom' q).trans (hdom q),?_⟩
      intro fuel hfuel
      cases fuel with
      | zero => omega
      | succ fuel =>
        have hrep : rep next = rep p := (h.same hnext).trans (h.same habove)
        rw [root,habove]
        simp only [Option.bind_eq_bind,Option.bind_some,if_neg htop,hnext]
        rw [hrun fuel (by omega),hrep]

theorem visit_all (pid : P) (ns : List P) (cameFrom : P → Option P) (queue : List P) :
    ∃ cameFrom' new, ns.foldl (visit pid) (cameFrom,queue) = (cameFrom',queue++new) ∧
      Found (fun _ => ns) cameFrom cameFrom' pid new := by
  induction ns generalizing cameFrom queue with
  | nil => exact ⟨cameFrom,[],by simp,by simp,by simp,by simp,by simp⟩
  | cons n ns ih =>
    rw [List.foldl_cons]
    by_cases hn : cameFrom n = none
    · obtain ⟨cameFrom',new,hrun,hf⟩ := ih (Function.update cameFrom n (some pid)) (queue++[n])
      have hnew : n ∉ new := by
        intro hm
        have hfresh := (hf.fresh n hm).2.1
        rw [Function.update_self] at hfresh
        cases hfresh
      refine ⟨cameFrom',n::new,?_,List.nodup_cons.mpr ⟨hnew,hf.nodup⟩,?_,?_,?_⟩
      · rw [visit,if_pos hn]
        simpa using hrun
      · intro x hx
        rcases List.mem_cons.mp hx with rfl | hx
        · refine ⟨List.mem_cons_self ..,hn,?_⟩
          rw [hf.keep x hnew,Function.update_self]
        · obtain ⟨hm,hnone,hcame⟩ := hf.fresh x hx
          have hne : x ≠ n := fun heq => hnew (heq ▸ hx)
          rw [Function.update_of_ne hne] at hnone
          exact ⟨List.mem_cons_of_mem _ hm,hnone,hcame⟩
      · intro x hx
        rw [List.mem_cons,not_or] at hx
        rw [hf.keep x hx.2,Function.update_of_ne hx.1]
      · intro x hx
        rcases List.mem_cons.mp hx with rfl | hx
        · rw [hf.keep x hnew,Function.update_self]
          simp
        · exact hf.all x hx
    · obtain ⟨cameFrom',new,hrun,hf⟩ := ih cameFrom queue
      refine ⟨cameFrom',new,?_,hf.nodup,?_,hf.keep,?_⟩
      · rw [visit,if_neg hn]
        exact hrun
      · intro x hx
        obtain ⟨hm,hrest⟩ := hf.fresh x hx
        exact ⟨List.mem_cons_of_mem _ hm,hrest⟩
      · intro x hx
        rcases List.mem_cons.mp hx with rfl | hx
        · exact hf.seen hn
        · exact hf.all x hx

/-- The search finds what it looks for where that can be reached at all. -/
theorem search_spec {tree : P → List P} {start finish : P} {pids : Finset P}
    (hpids : ∀ p n, n ∈ tree p → n ∈ pids)
    (hreach : Relation.ReflTransGen (fun x y => y ∈ tree x) start finish) (k : ℕ) :
    ∀ cameFrom queue, Searching tree start cameFrom queue →
      (pids.filter fun x => cameFrom x = none).card+queue.length ≤ k →
      ∃ cameFrom' queue', Searching tree start cameFrom' queue' ∧ cameFrom' finish ≠ none ∧
        ∀ fuel, k ≤ fuel → search tree finish fuel cameFrom queue = some cameFrom' := by
  induction k with
  | zero =>
    intro cameFrom queue hs hk
    obtain rfl : queue = [] := List.eq_nil_of_length_eq_zero (by omega)
    exact ⟨cameFrom,[],hs,hs.complete hreach,fun fuel _ => by cases fuel <;> rfl⟩
  | succ k ih =>
    intro cameFrom queue hs hk
    cases queue with
    | nil => exact ⟨cameFrom,[],hs,hs.complete hreach,fun fuel _ => by cases fuel <;> rfl⟩
    | cons pid queue =>
      by_cases hfinish : pid = finish
      · subst pid
        refine ⟨cameFrom,_,hs,hs.queued finish (List.mem_cons_self ..),?_⟩
        intro fuel hfuel
        cases fuel with
        | zero => omega
        | succ fuel => rw [search,if_pos rfl]
      · obtain ⟨cameFrom',new,hrun,hf⟩ := visit_all pid (tree pid) cameFrom queue
        have hfound : Found tree cameFrom cameFrom' pid new :=
          ⟨hf.nodup,hf.fresh,hf.keep,hf.all⟩
        have hless := hfound.unseen (hpids pid)
        obtain ⟨cameFrom'',queue'',hs'',hseen,hrest⟩ := ih cameFrom' (queue++new)
          (hs.step hfound) (by simp only [List.length_cons,List.length_append] at hk ⊢; omega)
        refine ⟨cameFrom'',queue'',hs'',hseen,?_⟩
        intro fuel hfuel
        cases fuel with
        | zero => omega
        | succ fuel =>
          rw [search,if_neg hfinish,hrun]
          exact hrest fuel (by omega)

theorem walkBack_spec {cameFrom : P → Option P} {start p : P} {path : List P}
    (h : Leads cameFrom start p path) (rest : List P) :
    ∀ fuel, path.length ≤ fuel → walkBack cameFrom start fuel p rest = some (path++rest) := by
  induction h generalizing rest with
  | here =>
    intro fuel hfuel
    cases fuel with
    | zero => cases hfuel
    | succ fuel => rw [walkBack,if_pos rfl]; rfl
  | @step p q path hne hcame _ ih =>
    intro fuel hfuel
    cases fuel with
    | zero => simp at hfuel
    | succ fuel =>
      rw [walkBack,if_neg hne,hcame]
      simp only [Option.bind_eq_bind,Option.bind_some]
      rw [ih (p::rest) fuel (by simpa using hfuel)]
      simp

/-- `_tree_path` finds a path between two ends that the tree connects. -/
theorem treePath_spec {tree : P → List P} {start finish : P} {pids : Finset P}
    (hpids : ∀ p n, n ∈ tree p → n ∈ pids)
    (hreach : Relation.ReflTransGen (fun x y => y ∈ tree x) start finish) :
    ∃ path, path.Nodup ∧ path.head? = some start ∧ path.getLast? = some finish ∧
      (path.IsChain fun x y => y ∈ tree x) ∧
      ∃ least, ∀ fuel, least ≤ fuel → treePath fuel tree start finish = some path := by
  let cameFrom : P → Option P := Function.update (fun _ => none) start (some start)
  obtain ⟨k,hk⟩ : ∃ k, (pids.filter fun x => cameFrom x = none).card+[start].length ≤ k :=
    ⟨_,le_rfl⟩
  obtain ⟨cameFrom',queue,hs,hseen,hsearch⟩ :=
    search_spec hpids hreach k _ _ (searching_start tree start) hk
  obtain ⟨path,hl,hn,hc⟩ := hs.paths finish hseen
  refine ⟨path,hn,hl.head,hl.last,hc,max k path.length,?_⟩
  intro fuel hfuel
  rw [treePath,hsearch fuel (le_trans (Nat.le_max_left ..) hfuel)]
  simp only [Option.bind_eq_bind,Option.bind_some]
  rw [walkBack_spec hl [] fuel (le_trans (Nat.le_max_right ..) hfuel),List.append_nil]

end BusCheck
end SoftwareBus
