import Mathlib.Data.List.Chain
import Mathlib.Data.Finset.Card
import Mathlib.Logic.Relation
import Mathlib.Logic.Function.Basic

/-! What the back-pointers of a search lead back to. -/
namespace WayBack

variable {P : Type}

/-- The back-pointers from `p` lead back to `start` along `path`, which they find in reverse. -/
inductive Leads (cameFrom : P → Option P) (start : P) : P → List P → Prop
  | here : Leads cameFrom start start [start]
  | step {p q : P} {path : List P} : p ≠ start → cameFrom p = some q →
      Leads cameFrom start q path → Leads cameFrom start p (path++[p])

namespace Leads

variable {cameFrom cameFrom' : P → Option P} {start p : P} {path : List P}

theorem mono (h : Leads cameFrom start p path)
    (hmore : ∀ x y, cameFrom x = some y → cameFrom' x = some y) :
    Leads cameFrom' start p path := by
  induction h with
  | here => exact .here
  | step hne hcame _ ih => exact .step hne (hmore _ _ hcame) ih

theorem head (h : Leads cameFrom start p path) : path.head? = some start := by
  induction h with
  | here => rfl
  | step _ _ _ ih =>
    rw [List.head?_append,ih]
    rfl

theorem last (h : Leads cameFrom start p path) : path.getLast? = some p := by
  cases h with
  | here => rfl
  | step _ _ _ => simp

theorem mem_seen (h : Leads cameFrom start p path) (hstart : cameFrom start ≠ none) {x : P}
    (hx : x ∈ path) : cameFrom x ≠ none := by
  induction h with
  | here =>
    rw [List.mem_singleton] at hx
    rwa [hx]
  | step _ hcame _ ih =>
    rcases List.mem_append.mp hx with hx | hx
    · exact ih hx
    · rw [List.mem_singleton.mp hx,hcame]
      simp

end Leads

/-- A search that has come so far: what it has found has a way back without repetition, along
the edges of `adj`, and what is not in the queue any more has only neighbours that are found. -/
structure Searching (adj : P → List P) (start : P) (cameFrom : P → Option P) (queue : List P) :
    Prop where
  started : cameFrom start ≠ none
  paths : ∀ p, cameFrom p ≠ none →
    ∃ path, Leads cameFrom start p path ∧ path.Nodup ∧ path.IsChain fun x y => y ∈ adj x
  queued : ∀ p ∈ queue, cameFrom p ≠ none
  closed : ∀ p, cameFrom p ≠ none → p ∈ queue ∨ ∀ n ∈ adj p, cameFrom n ≠ none

variable {adj : P → List P} {start : P} {cameFrom : P → Option P} {queue : List P}

/-- A search with an empty queue has found all that can be reached. -/
theorem Searching.complete (h : Searching adj start cameFrom []) {p : P}
    (hp : Relation.ReflTransGen (fun x y => y ∈ adj x) start p) : cameFrom p ≠ none := by
  induction hp with
  | refl => exact h.started
  | tail _ hxy ih => exact (h.closed _ ih).resolve_left List.not_mem_nil _ hxy

structure Found (adj : P → List P) (cameFrom cameFrom' : P → Option P) (p : P) (new : List P) :
    Prop where
  nodup : new.Nodup
  fresh : ∀ n ∈ new, n ∈ adj p ∧ cameFrom n = none ∧ cameFrom' n = some p
  keep : ∀ x, x ∉ new → cameFrom' x = cameFrom x
  all : ∀ n ∈ adj p, cameFrom' n ≠ none

variable {cameFrom' : P → Option P} {p : P} {new : List P}

theorem Found.more (h : Found adj cameFrom cameFrom' p new) (x y : P)
    (hx : cameFrom x = some y) : cameFrom' x = some y := by
  have hnew : x ∉ new := by
    intro hm
    have hnone := (h.fresh x hm).2.1
    rw [hnone] at hx
    cases hx
  rw [h.keep x hnew,hx]

theorem Found.seen (h : Found adj cameFrom cameFrom' p new) {x : P} (hx : cameFrom x ≠ none) :
    cameFrom' x ≠ none := by
  obtain ⟨y,hy⟩ := Option.ne_none_iff_exists'.mp hx
  rw [h.more x y hy]
  simp

theorem Found.seen_or_new (h : Found adj cameFrom cameFrom' p new) {x : P}
    (hx : cameFrom' x ≠ none) : cameFrom x ≠ none ∨ x ∈ new := by
  by_cases hm : x ∈ new
  · exact .inr hm
  · rw [h.keep x hm] at hx
    exact .inl hx

theorem Searching.step (h : Searching adj start cameFrom (p::queue))
    (hf : Found adj cameFrom cameFrom' p new) :
    Searching adj start cameFrom' (queue++new) := by
  constructor
  · exact hf.seen h.started
  · intro x hx
    rcases hf.seen_or_new hx with hold | hnew
    · obtain ⟨path,hl,hn,hc⟩ := h.paths x hold
      exact ⟨path,hl.mono hf.more,hn,hc⟩
    · obtain ⟨path,hl,hn,hc⟩ := h.paths p (h.queued p (List.mem_cons_self ..))
      obtain ⟨hadj,hnone,hcame⟩ := hf.fresh x hnew
      have hne : x ≠ start := by
        rintro rfl
        exact h.started hnone
      have hx : x ∉ path := fun hm => hl.mem_seen h.started hm hnone
      refine ⟨path++[x],.step hne hcame (hl.mono hf.more),?_,?_⟩
      · rw [List.nodup_append]
        refine ⟨hn,List.nodup_singleton x,?_⟩
        intro a ha b hb heq
        rw [List.mem_singleton] at hb
        exact hx (hb ▸ heq ▸ ha)
      · rw [List.isChain_append]
        refine ⟨hc,.singleton x,?_⟩
        intro a ha b hb
        rw [hl.last] at ha
        cases ha
        cases hb
        exact hadj
  · intro x hx
    rcases List.mem_append.mp hx with hx | hx
    · exact hf.seen (h.queued x (List.mem_cons_of_mem _ hx))
    · rw [(hf.fresh x hx).2.2]
      simp
  · intro x hx
    rcases hf.seen_or_new hx with hold | hnew
    · rcases h.closed x hold with hq | hall
      · rcases List.mem_cons.mp hq with rfl | hq
        · exact .inr hf.all
        · exact .inl (List.mem_append_left _ hq)
      · exact .inr fun n hn => hf.seen (hall n hn)
    · exact .inl (List.mem_append_right _ hnew)

/-- Each found element leaves one less to find. -/
theorem Found.unseen [DecidableEq P] (h : Found adj cameFrom cameFrom' p new) {xs : Finset P}
    (hadj : ∀ n ∈ adj p, n ∈ xs) :
    (xs.filter fun x => cameFrom' x = none).card+new.length ≤
      (xs.filter fun x => cameFrom x = none).card := by
  have hdisjoint : Disjoint (xs.filter fun x => cameFrom' x = none) new.toFinset := by
    rw [Finset.disjoint_left]
    intro x hx hnew
    have hcame := (h.fresh x (List.mem_toFinset.mp hnew)).2.2
    rw [(Finset.mem_filter.mp hx).2] at hcame
    cases hcame
  rw [← List.toFinset_card_of_nodup h.nodup,← Finset.card_union_of_disjoint hdisjoint]
  apply Finset.card_le_card
  intro x hx
  rw [Finset.mem_filter]
  rcases Finset.mem_union.mp hx with hx | hx
  · obtain ⟨hm,hnone⟩ := Finset.mem_filter.mp hx
    refine ⟨hm,?_⟩
    by_contra hold
    exact h.seen hold hnone
  · obtain ⟨hn,hnone,-⟩ := h.fresh x (List.mem_toFinset.mp hx)
    exact ⟨hadj x hn,hnone⟩

theorem searching_start [DecidableEq P] (adj : P → List P) (start : P) :
    Searching adj start (Function.update (fun _ => none) start (some start)) [start] := by
  have hseen {p : P} (hp : Function.update (fun _ => none) start (some start) p ≠ none) :
      p = start := by
    by_contra hne
    rw [Function.update_of_ne hne] at hp
    exact hp rfl
  constructor
  · simp
  · intro p hp
    obtain rfl := hseen hp
    exact ⟨[p],.here,List.nodup_singleton p,.singleton p⟩
  · intro p hp
    rw [List.mem_singleton.mp hp]
    simp
  · intro p hp
    exact .inl (List.mem_singleton.mpr (hseen hp))

end WayBack
