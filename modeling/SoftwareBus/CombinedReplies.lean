import SoftwareBus.PubSubNode
import Mathlib.Data.List.Induction

/-! What a reachability query makes of the replies to it. The first reply of each target counts,
and neither the order of the first replies nor anything else that is recorded matters. -/
namespace SoftwareBus
namespace Query

variable {C : Type} [DecidableEq C]

/-- The query after a sequence of replies, each with the connection it came from. A connection
that fails counts as one that has replied "not found". -/
def replies (q : Query C) (es : List (C × ReachabilityResult)) : Query C :=
  es.foldl (fun q e => q.reply e.1 e.2) q

def firstReply (es : List (C × ReachabilityResult)) (c : C) : Option ReachabilityResult :=
  (es.find? fun e => decide (e.1 = c)).map Prod.snd

/-- A target has replied "found" first, or all targets have replied. -/
def Decided (targets : List C) (es : List (C × ReachabilityResult)) : Prop :=
  (∃ c ∈ targets, firstReply es c = some .found) ∨ ∀ c ∈ targets, firstReply es c ≠ none

/-- The result, by the first replies alone. -/
def combined (targets : List C) (first : C → Option ReachabilityResult) :
    Option ReachabilityResult :=
  if ∃ c ∈ targets, first c = some .found then some .found
  else if ∀ c ∈ targets, first c ≠ none then
    some (if ∃ c ∈ targets, first c = some .unknown then .unknown else .notFound)
  else none

theorem firstReply_append (es : List (C × ReachabilityResult)) (e : C × ReachabilityResult)
    (c : C) : firstReply (es++[e]) c =
      match firstReply es c with
      | some r => some r
      | none => if e.1 = c then some e.2 else none := by
  unfold firstReply
  rw [List.find?_append]
  cases es.find? fun e => decide (e.1 = c) with
  | some f => rfl
  | none =>
    by_cases he : e.1 = c
    · simp [he]
    · simp [he]

theorem firstReply_stays {es : List (C × ReachabilityResult)} {c : C} {r : ReachabilityResult}
    (h : firstReply es c = some r) (fs : List (C × ReachabilityResult)) :
    firstReply (es++fs) c = some r := by
  obtain ⟨e,he,rfl⟩ := Option.map_eq_some_iff.mp h
  rw [firstReply,List.find?_append,he]
  rfl

theorem combined_ne_none {targets : List C} {es : List (C × ReachabilityResult)} :
    combined targets (firstReply es) ≠ none ↔ Decided targets es := by
  unfold combined Decided
  by_cases hfound : ∃ c ∈ targets, firstReply es c = some .found
  · rw [if_pos hfound]
    exact ⟨fun _ => .inl hfound,fun _ => by simp⟩
  · by_cases hall : ∀ c ∈ targets, firstReply es c ≠ none
    · simp only [if_neg hfound,if_pos hall]
      exact ⟨fun _ => .inr hall,fun _ => by simp⟩
    · simp only [if_neg hfound,if_neg hall]
      exact ⟨fun h => absurd rfl h,fun h => absurd h (not_or.mpr ⟨hfound,hall⟩)⟩

omit [DecidableEq C] in
theorem combined_congr {targets : List C} {first first' : C → Option ReachabilityResult}
    (h : ∀ c ∈ targets, first c = first' c) : combined targets first = combined targets first' := by
  have hex (r : ReachabilityResult) : (∃ c ∈ targets, first c = some r) ↔
      ∃ c ∈ targets, first' c = some r :=
    exists_congr fun c => and_congr_right fun hc => by rw [h c hc]
  have hall : (∀ c ∈ targets, first c ≠ none) ↔ ∀ c ∈ targets, first' c ≠ none :=
    forall₂_congr fun c hc => by rw [h c hc]
  simp only [combined,hex,hall]

omit [DecidableEq C] in
theorem combined_mono {targets : List C} {first first' : C → Option ReachabilityResult}
    (h : ∀ c r, first c = some r → first' c = some r) (hsome : combined targets first ≠ none) :
    combined targets first' = combined targets first := by
  by_cases hfound : ∃ c ∈ targets, first c = some .found
  · obtain ⟨c,hc,hr⟩ := hfound
    rw [combined,if_pos ⟨c,hc,h c _ hr⟩,combined,if_pos ⟨c,hc,hr⟩]
  · have hall : ∀ c ∈ targets, first c ≠ none := by
      by_contra hall
      exact hsome (by rw [combined,if_neg hfound,if_neg hall])
    refine (combined_congr fun c hc => ?_).symm
    obtain ⟨r,hr⟩ := Option.ne_none_iff_exists'.mp (hall c hc)
    rw [hr,h c r hr]

/-- What a query has recorded of the replies that have come, while it has no result. -/
structure Tally (targets : List C) (first : C → Option ReachabilityResult) (q : Query C) :
    Prop where
  waiting : ∀ c, c ∈ q.waiting ↔ c ∈ targets ∧ first c = none
  sawUnknown : q.sawUnknown = true ↔ ∃ c ∈ targets, first c = some .unknown
  noneFound : ∀ c ∈ targets, first c ≠ some .found

omit [DecidableEq C] in
theorem Tally.congr {targets : List C} {first first' : C → Option ReachabilityResult} {q : Query C}
    (h : Tally targets first q) (hfirst : ∀ c ∈ targets, first c = first' c) :
    Tally targets first' q := by
  refine ⟨fun c => (h.waiting c).trans ?_,h.sawUnknown.trans ?_,fun c hc => ?_⟩
  · exact and_congr_right fun hc => by rw [hfirst c hc]
  · exact exists_congr fun c => and_congr_right fun hc => by rw [hfirst c hc]
  · exact hfirst c hc ▸ h.noneFound c hc

/-- The first reply of a target that a query waits for. -/
theorem Tally.reply {targets : List C} {first : C → Option ReachabilityResult} {q : Query C}
    (h : Tally targets first q) (hq : q.result = none) {c : C} (hc : c ∈ q.waiting)
    (r : ReachabilityResult) :
    (q.reply c r).result = combined targets (Function.update first c (some r)) ∧
      ((q.reply c r).result = none →
        Tally targets (Function.update first c (some r)) (q.reply c r)) := by
  obtain ⟨hct,hnone⟩ := (h.waiting c).mp hc
  have hreply : ¬(q.result.isSome = true ∨ c ∉ q.waiting) := by simp [hq,hc]
  have hwaiting (d : C) : d ∈ q.waiting.filter (· ≠ c) ↔
      d ∈ targets ∧ Function.update first c (some r) d = none := by
    rw [List.mem_filter,h.waiting]
    by_cases hd : d = c
    · simp [hd]
    · simp [hd]
  by_cases hr : r = .found
  · subst hr
    have hresult : (q.reply c .found).result = some .found := by rw [Query.reply,if_neg hreply]
    rw [hresult,combined,if_pos ⟨c,hct,by simp⟩]
    exact ⟨rfl,nofun⟩
  · have hnotFound : ∀ d ∈ targets, Function.update first c (some r) d ≠ some .found := by
      intro d hd
      by_cases hdc : d = c
      · simpa [hdc] using hr
      · simpa [hdc] using h.noneFound d hd
    have hunknown : (q.sawUnknown || decide (r = .unknown)) = true ↔
        ∃ d ∈ targets, Function.update first c (some r) d = some .unknown := by
      rw [Bool.or_eq_true,h.sawUnknown,decide_eq_true_eq]
      constructor
      · rintro (⟨d,hd,hu⟩ | hu)
        · have hdc : d ≠ c := by
            rintro rfl
            rw [hnone] at hu
            cases hu
          exact ⟨d,hd,by simpa [hdc] using hu⟩
        · exact ⟨c,hct,by simp [hu]⟩
      · rintro ⟨d,hd,hu⟩
        by_cases hdc : d = c
        · exact .inr (by simpa [hdc] using hu)
        · exact .inl ⟨d,hd,by simpa [hdc] using hu⟩
    have heq : q.reply c r = {q with
        waiting := q.waiting.filter (· ≠ c)
        sawUnknown := q.sawUnknown || decide (r = .unknown)
        result := if q.waiting.filter (· ≠ c) = [] then
          some (if q.sawUnknown || decide (r = .unknown) then .unknown else .notFound)
          else none} := by
      rw [Query.reply,if_neg hreply]
      cases r with
      | found => contradiction
      | notFound => rfl
      | unknown => rfl
    rw [heq]
    refine ⟨?_,fun _ => ⟨hwaiting,hunknown,hnotFound⟩⟩
    have hnone : ¬∃ d ∈ targets, Function.update first c (some r) d = some .found :=
      fun ⟨d,hd,hf⟩ => hnotFound d hd hf
    have hall : q.waiting.filter (· ≠ c) = [] ↔
        ∀ d ∈ targets, Function.update first c (some r) d ≠ none := by
      simp only [List.eq_nil_iff_forall_not_mem,hwaiting,not_and]
    simp only [combined,if_neg hnone,hall,hunknown]

theorem replies_tally {targets : List C} (hne : targets ≠ [])
    (es : List (C × ReachabilityResult)) :
    ((Query.new targets).replies es).result = combined targets (firstReply es) ∧
      (((Query.new targets).replies es).result = none →
        Tally targets (firstReply es) ((Query.new targets).replies es)) := by
  induction es using List.reverseRecOn with
  | nil =>
    obtain ⟨c,hc⟩ := List.exists_mem_of_ne_nil _ hne
    have hnone : combined targets (firstReply []) = none := by
      rw [combined,if_neg (by simp [firstReply]),if_neg fun h => h c hc rfl]
    exact ⟨hnone.symm,fun _ => ⟨fun d => by simp [replies,Query.new,firstReply],
      by simp [replies,Query.new,firstReply],by simp [firstReply]⟩⟩
  | append_singleton es e ih =>
    obtain ⟨c,r⟩ := e
    obtain ⟨hresult,htally⟩ := ih
    have hstep : (Query.new targets).replies (es++[(c,r)]) =
        ((Query.new targets).replies es).reply c r := by simp [replies]
    rw [hstep]
    generalize (Query.new targets).replies es = q at *
    cases hq : q.result with
    | some x =>
      have hsame : q.reply c r = q := by rw [Query.reply,if_pos (.inl (by simp [hq]))]
      have hmono := combined_mono (fun d x hx => firstReply_stays hx [(c,r)])
        (by rw [← hresult,hq]; simp : combined targets (firstReply es) ≠ none)
      rw [hsame,hq,hmono,← hresult,hq]
      exact ⟨rfl,nofun⟩
    | none =>
      have h := htally hq
      by_cases hc : c ∈ q.waiting
      · obtain ⟨hct,hnone⟩ := (h.waiting c).mp hc
        have hfirst : firstReply (es++[(c,r)]) = Function.update (firstReply es) c (some r) := by
          funext d
          rw [firstReply_append]
          by_cases hd : d = c
          · subst d
            simp [hnone]
          · rw [Function.update_of_ne hd]
            cases firstReply es d <;> simp [Ne.symm hd]
        rw [hfirst]
        exact h.reply hq hc r
      · have hsame : q.reply c r = q := by rw [Query.reply,if_pos (.inr hc)]
        have hfirst (d : C) (hd : d ∈ targets) :
            firstReply es d = firstReply (es++[(c,r)]) d := by
          rw [firstReply_append]
          cases hr : firstReply es d with
          | some x => rfl
          | none =>
            rw [if_neg]
            rintro rfl
            exact hc ((h.waiting _).mpr ⟨hd,hr⟩)
        rw [hsame,hq,← combined_congr hfirst,← hresult,hq]
        exact ⟨rfl,fun _ => h.congr hfirst⟩

/-- Combining replies does not depend on their order. A query has a result once a target has
replied "found" first or all targets have replied, it keeps that result, and the result is that of
the reply that decides, or else what the first replies of the targets combine to. -/
theorem combining_replies {targets : List C} (hne : targets ≠ []) :
    (∀ es fs x, ((Query.new targets).replies es).result = some x →
      ((Query.new targets).replies (es++fs)).result = some x) ∧
    (∀ es, ((Query.new targets).replies es).result ≠ none ↔ Decided targets es) ∧
    (∀ es e, ¬Decided targets es → Decided targets (es++[e]) →
      ((Query.new targets).replies (es++[e])).result = some (if e.2 = .found then .found
        else if ∃ c ∈ targets, firstReply (es++[e]) c = some .unknown then .unknown
        else .notFound)) ∧
    ∀ es fs, (∀ c ∈ targets, firstReply es c = firstReply fs c ∧ firstReply es c ≠ none) →
      ((Query.new targets).replies es).result = ((Query.new targets).replies fs).result := by
  have hresult (es : List (C × ReachabilityResult)) := (replies_tally hne es).1
  refine ⟨fun es fs x hx => ?_,fun es => ?_,fun es e hno hyes => ?_,fun es fs h => ?_⟩
  · rw [hresult] at hx ⊢
    rw [combined_mono (fun c r hr => firstReply_stays hr fs) (by simp [hx]),hx]
  · rw [hresult,combined_ne_none]
  · rw [hresult]
    have hnone : combined targets (firstReply es) = none := by
      simpa using mt combined_ne_none.mp hno
    -- the reply that decides is the first one of a target
    have hnew : e.1 ∈ targets ∧ firstReply es e.1 = none := by
      by_contra hcon
      refine combined_ne_none.mpr hyes ((combined_congr fun c hc => ?_).trans hnone)
      rw [firstReply_append]
      cases hr : firstReply es c with
      | some r => rfl
      | none =>
        refine if_neg ?_
        rintro rfl
        exact hcon ⟨hc,hr⟩
    have hlast : firstReply (es++[e]) e.1 = some e.2 := by
      rw [firstReply_append,hnew.2]
      exact if_pos rfl
    have hfound : (∃ c ∈ targets, firstReply (es++[e]) c = some .found) ↔ e.2 = .found := by
      constructor
      · rintro ⟨c,hc,hr⟩
        rw [firstReply_append] at hr
        cases hold : firstReply es c with
        | some r =>
          rw [hold] at hr
          exact absurd (.inl ⟨c,hc,hold.trans hr⟩) hno
        | none =>
          rw [hold] at hr
          by_cases he : e.1 = c
          · simpa [he] using hr
          · simp [he] at hr
      · intro he
        exact ⟨e.1,hnew.1,he ▸ hlast⟩
    by_cases he : e.2 = .found
    · rw [combined,if_pos (hfound.mpr he),if_pos he]
    · have hall : ∀ c ∈ targets, firstReply (es++[e]) c ≠ none :=
        hyes.resolve_left fun h => he (hfound.mp h)
      rw [combined,if_neg fun h => he (hfound.mp h),if_pos hall,if_neg he]
  · rw [hresult,hresult,combined_congr fun c hc => (h c hc).1]

/-- A stranger's reply and a second one do not count. -/
theorem combining_replies_pair :
    ((Query.new [0,1]).replies [(0,.unknown),(2,.found),(0,.found),(1,.notFound)]).result =
      ((Query.new [0,1]).replies [(1,.notFound),(0,.unknown)]).result :=
  (combining_replies (show [0,1] ≠ [] by decide)).2.2.2 _ _ (by decide)

end Query
end SoftwareBus
