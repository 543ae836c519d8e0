import SoftwareBus.Matching
import SoftwareBus.WireFormat

/-! Which subjects are Derived Reply Subjects, and of which request subject. -/
namespace SoftwareBus

open SubjectMatcher

def uniqueIdLength : ℕ := 32

/-- `_UNIQUE_ID_ALPHABET`: the digits, then the capital letters, then the small ones. -/
def uniqueIdAlphabet : Str :=
  (List.range' 48 10++List.range' 65 26++List.range' 97 26).map (Fin.ofNat _)

def isUniqueId (value : Str) : Bool :=
  decide (value.length = uniqueIdLength) && value.all fun c => decide (c ∈ uniqueIdAlphabet)

def isValidReplySubject (subject : Str) : Bool :=
  let parts := split subject
  decide (3 ≤ parts.length) && decide (parts.head? = some replyPrefix) &&
    parts.getLast?.any isUniqueId && !hasWildcard subject

def isReplySubjectFor (replySubject requestSubject : Str) : Bool :=
  let start := replyPrefix++46::(requestSubject++[46])
  isValidReplySubject replySubject && start.isPrefixOf replySubject &&
    isUniqueId (replySubject.drop start.length)

/-- `on_request`: the arguments that the callback of an `accept_request` is called with for a
matching publish, if it is called. -/
def onRequest (requestSubject : Str) (payload : Bytes) : Option (Str × Str × Bytes) :=
  match Wire.decodeRequest payload with
  | .error _ => none
  | .ok message =>
    if isReplySubjectFor message.replySubject requestSubject then
      some (requestSubject,message.replySubject,message.payload)
    else none

theorem isUniqueId_iff {i : Str} :
    isUniqueId i = true ↔ i.length = uniqueIdLength ∧ ∀ c ∈ i, c ∈ uniqueIdAlphabet := by
  simp [isUniqueId]

theorem dot_not_mem_uniqueId {i : Str} (hi : isUniqueId i = true) : (46 : CodePoint) ∉ i :=
  fun h => absurd ((isUniqueId_iff.mp hi).2 46 h) (by decide)

theorem uniqueId_ne_wildcard {i : Str} (hi : isUniqueId i = true) : i ≠ wildcard := by
  rintro rfl
  exact absurd hi (by decide)

theorem split_derivedReplySubject (rs : Str) {i : Str} (hi : isUniqueId i = true) :
    split (derivedReplySubject rs i) = replyPrefix::(split rs++[i]) := by
  rw [derivedReplySubject,split_join,split_join,split_literal (dot_not_mem_uniqueId hi),
    split_literal (by decide)]
  rfl

theorem hasWildcard_derivedReplySubject (rs : Str) {i : Str} (hi : isUniqueId i = true) :
    hasWildcard (derivedReplySubject rs i) = hasWildcard rs := by
  have hfirst : wildcard ≠ replyPrefix := by decide
  simp [hasWildcard,split_derivedReplySubject rs hi,hfirst,(uniqueId_ne_wildcard hi).symm]

theorem derivedReplySubject_valid {rs i : Str} (hrs : hasWildcard rs = false)
    (hi : isUniqueId i = true) : isValidReplySubject (derivedReplySubject rs i) = true := by
  have hpos := List.length_pos_iff.mpr (split_ne_nil rs)
  simp only [isValidReplySubject,split_derivedReplySubject rs hi,
    hasWildcard_derivedReplySubject rs hi,hrs]
  simp only [List.length_cons,List.length_append,List.length_nil,List.head?_cons,
    List.getLast?_cons,List.getLast?_append]
  simp [hi]
  omega

theorem derivedReplySubject_eq (rs i : Str) :
    derivedReplySubject rs i = replyPrefix++46::(rs++[46])++i := by
  simp [derivedReplySubject]

theorem isReplySubjectFor_iff {rs : Str} (hrs : hasWildcard rs = false) (x : Str) :
    isReplySubjectFor x rs = true ↔
      ∃ i, isUniqueId i = true ∧ x = derivedReplySubject rs i := by
  simp only [isReplySubjectFor,Bool.and_eq_true,List.isPrefixOf_iff_prefix]
  constructor
  · rintro ⟨⟨-,rest,rfl⟩,hi⟩
    rw [List.drop_left] at hi
    exact ⟨rest,hi,(derivedReplySubject_eq rs rest).symm⟩
  · rintro ⟨i,hi,rfl⟩
    refine ⟨⟨derivedReplySubject_valid hrs hi,i,(derivedReplySubject_eq rs i).symm⟩,?_⟩
    rw [derivedReplySubject_eq,List.drop_left]
    exact hi

theorem derivedReplySubject_inj {rs rs' i i' : Str} (hi : isUniqueId i = true)
    (hi' : isUniqueId i' = true) (h : derivedReplySubject rs i = derivedReplySubject rs' i') :
    rs = rs' ∧ i = i' := by
  have hlen := (isUniqueId_iff.mp hi).1.trans (isUniqueId_iff.mp hi').1.symm
  have hrest := (List.cons.inj (List.append_cancel_left h)).2
  obtain ⟨hrs,hcons⟩ := List.append_inj' hrest (by simp [hlen])
  exact ⟨hrs,(List.cons.inj hcons).2⟩

theorem onRequest_derived {rs rs' i : Str} (hrs : hasWildcard rs = false)
    (hi : isUniqueId i = true) {payload data : Bytes}
    (hdata : Wire.encodeRequest ⟨derivedReplySubject rs' i,payload⟩ = .ok data) :
    onRequest rs data = if rs' = rs then some (rs,derivedReplySubject rs i,payload) else none := by
  rw [onRequest,Wire.decodeRequest_eq_ok.mpr hdata]
  dsimp only
  by_cases h : rs' = rs
  · subst h
    rw [if_pos ((isReplySubjectFor_iff hrs _).mpr ⟨i,hi,rfl⟩),if_pos rfl]
  · rw [if_neg h,if_neg]
    intro hfor
    obtain ⟨i',hi',he⟩ := (isReplySubjectFor_iff hrs _).mp hfor
    exact h (derivedReplySubject_inj hi hi' he).1

/-- Derived Reply Subjects are recognised for the request subject they are derived from and for no
other, they determine it and the unique id, and they are literal subjects: nothing but a publish to
one of them reaches its subscribers. -/
theorem reply_subjects_exact :
    (∀ rs, hasWildcard rs = false → ∀ x, isReplySubjectFor x rs = true ↔
      ∃ i, isUniqueId i = true ∧ x = derivedReplySubject rs i) ∧
    (∀ rs rs' i payload data, hasWildcard rs = false → isUniqueId i = true →
      Wire.encodeRequest ⟨derivedReplySubject rs' i,payload⟩ = .ok data → onRequest rs data =
        if rs' = rs then some (rs,derivedReplySubject rs i,payload) else none) ∧
    (∀ rs rs' i i', isUniqueId i = true → isUniqueId i' = true →
      derivedReplySubject rs i = derivedReplySubject rs' i' → rs = rs' ∧ i = i') ∧
    ∀ rs i, hasWildcard rs = false → isUniqueId i = true →
      isValidReplySubject (derivedReplySubject rs i) = true ∧
      hasWildcard (derivedReplySubject rs i) = false ∧
      ∀ x, patternMatch x (derivedReplySubject rs i) = true ↔ x = derivedReplySubject rs i := by
  refine ⟨fun rs hrs => isReplySubjectFor_iff hrs,
    fun rs rs' i payload data hrs hi hdata => onRequest_derived hrs hi hdata,
    fun rs rs' i i' hi hi' => derivedReplySubject_inj hi hi',fun rs i hrs hi => ?_⟩
  have hliteral := (hasWildcard_derivedReplySubject rs hi).trans hrs
  refine ⟨derivedReplySubject_valid hrs hi,hliteral,fun x => ?_⟩
  rw [patternMatch_literal hliteral,exactMatch,decide_eq_true_eq]

end SoftwareBus
