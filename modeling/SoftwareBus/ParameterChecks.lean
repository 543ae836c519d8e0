import SoftwareBus.Framing
import SoftwareBus.ReplySubjects

/-! The checks that the operations of the clients make of their parameters, against what the
encoders make of the same parameters later. -/
namespace SoftwareBus

open SubjectMatcher Wire

/-- The `ValueError`s that a parameter is refused with. -/
inductive ParameterError
  | codec (err : CodecError)
  /-- `PayloadTooLong` -/
  | payloadTooLong (length : ℕ)
  | requestWildcard
  | derivedTooLong (length : ℕ)
  | publishWildcard
  | negativeTimeout
  | invalidReplySubject
  deriving DecidableEq

namespace ParameterChecks

def ofCodec {α : Type} : Except CodecError α → Except ParameterError α
  | .ok a => .ok a
  | .error err => .error (.codec err)

def checkPayloadLength (length : ℕ) : Except ParameterError Unit :=
  if length > maxPayloadLength then .error (.payloadTooLong length) else .ok ()

def checkSubject (subject : Str) : Except ParameterError Unit := do
  let _ ← ofCodec (encodeSubject subject "subject")

def checkPublishSubject (subject : Str) : Except ParameterError Unit := do
  checkSubject subject
  if hasWildcard subject then .error .publishWildcard else .ok ()

def checkPublishLength (subject : Str) (payloadLength : ℕ) : Except ParameterError Unit := do
  let bs ← ofCodec (encodeUtf8 subject)
  checkPayloadLength (1+subjectLengthSize+bs.length+payloadLength)

def checkRequestSubject (requestSubject longestDerived : Str) : Except ParameterError Unit :=
  if hasWildcard requestSubject then .error .requestWildcard
  else do
    let bs ← ofCodec (encodeUtf8 longestDerived)
    if bs.length > maxSubjectLength then .error (.derivedTooLong bs.length) else .ok ()

variable {T : Type} [Zero T] [LT T] [DecidableLT T]

/-- The checks at the start of `send_request`, with a timeout of any ordered type. -/
def checkSendRequest (requestSubject uniqueId : Str) (payload : Bytes) (timeout : T) :
    Except ParameterError Unit := do
  let replySubject := derivedReplySubject requestSubject uniqueId
  checkRequestSubject requestSubject replySubject
  if timeout < 0 then .error .negativeTimeout
  else
    let bs ← ofCodec (encodeUtf8 replySubject)
    checkPublishLength (derivedRequestSubject requestSubject)
      (subjectLengthSize+bs.length+payload.length)

/-- The check at the start of `accept_request` and of `stop_accept_request`. -/
def checkAcceptRequest (requestSubject : Str) : Except ParameterError Unit :=
  checkRequestSubject requestSubject (derivedRequestSubject requestSubject)

def checkPublish (subject : Str) (payload : Bytes) : Except ParameterError Unit := do
  checkPublishSubject subject
  checkPublishLength subject payload.length

def checkSendReply (replySubject : Str) (payload : Bytes) : Except ParameterError Unit :=
  if isValidReplySubject replySubject then checkPublishLength replySubject payload.length
  else .error .invalidReplySubject

theorem ofCodec_eq_ok {α : Type} {x : Except CodecError α} {a : α} :
    ofCodec x = .ok a ↔ x = .ok a := by
  cases x <;> simp [ofCodec]

theorem checkPayloadLength_eq_ok {n : ℕ} {u : Unit} :
    checkPayloadLength n = .ok u ↔ n ≤ maxPayloadLength := by
  unfold checkPayloadLength
  split_ifs with h
  · simp only [false_iff]
    omega
  · exact ⟨fun _ => by omega,fun _ => rfl⟩

theorem encodeUtf8_eq_ok {s : Str} {bs : Bytes} :
    encodeUtf8 s = .ok bs ↔ Utf8.encode s = some bs := by
  unfold encodeUtf8
  cases Utf8.encode s <;> simp

theorem checkPublishLength_eq_ok {s : Str} {n : ℕ} {u : Unit} :
    checkPublishLength s n = .ok u ↔ ∃ bs, Utf8.encode s = some bs ∧
      1+subjectLengthSize+bs.length+n ≤ maxPayloadLength := by
  simp only [checkPublishLength,bind_eq_ok,ofCodec_eq_ok,encodeUtf8_eq_ok,
    checkPayloadLength_eq_ok]

theorem checkRequestSubject_eq_ok {rs derived : Str} {u : Unit} :
    checkRequestSubject rs derived = .ok u ↔ hasWildcard rs = false ∧
      ∃ bs, Utf8.encode derived = some bs ∧ bs.length ≤ maxSubjectLength := by
  unfold checkRequestSubject
  split_ifs with h
  · simp [h]
  · simp only [Bool.not_eq_true] at h
    simp only [bind_eq_ok,ofCodec_eq_ok,encodeUtf8_eq_ok,h,true_and]
    refine exists_congr fun bs => and_congr_right fun _ => ?_
    split_ifs with hlong
    · simp only [false_iff]
      omega
    · exact ⟨fun _ => by omega,fun _ => rfl⟩

theorem encode_publish_length {s : Str} {p e bs : Bytes} (hbs : Utf8.encode s = some bs)
    (h : encodeMessage (.publish s p) = .ok e) :
    e.length = 1+subjectLengthSize+bs.length+p.length := by
  obtain ⟨header,hs,he⟩ := bind_eq_ok.mp h
  obtain rfl := Except.ok.inj he
  obtain ⟨bs',hbs',-,rfl⟩ := encodeSubject_eq_ok.mp hs
  obtain rfl := Option.some.inj (hbs.symm.trans hbs')
  simp only [List.length_cons,List.length_append,Bytes.ofNat_length]
  omega

/-- `check_publish_length` accepts the publishes whose encoding is short enough to send. -/
theorem checkPublishLength_exact {s : Str} (hs : ValidSubject s) (p : Bytes) :
    checkPublishLength s p.length = .ok () ↔
      ∃ e, encodeMessage (.publish s p) = .ok e ∧ e.length ≤ maxPayloadLength := by
  rw [checkPublishLength_eq_ok]
  obtain ⟨bs,hbs⟩ := encode_isSome_iff.mpr hs.noSurrogate
  obtain ⟨e,he⟩ := encodeMessage_isOk.mpr (show (WireMessage.publish s p).Valid from hs)
  have hlen := encode_publish_length hbs he
  constructor
  · rintro ⟨bs',hbs',hle⟩
    obtain rfl := Option.some.inj (hbs.symm.trans hbs')
    exact ⟨e,he,hlen ▸ hle⟩
  · rintro ⟨e',he',hle⟩
    obtain rfl := Except.ok.inj (he.symm.trans he')
    exact ⟨bs,hbs,hlen ▸ hle⟩

theorem encode_append {s t : Str} {bs : Bytes} : Utf8.encode (s++t) = some bs ↔
    ∃ as cs, Utf8.encode s = some as ∧ Utf8.encode t = some cs ∧ bs = as++cs := by
  induction s generalizing bs with
  | nil => simp [Utf8.encode,eq_comm]
  | cons c s ih =>
    simp only [List.cons_append,Utf8.encode,Option.bind_eq_some_iff,Option.map_eq_some_iff,ih]
    constructor
    · rintro ⟨x,hx,-,⟨as,cs,has,hcs,rfl⟩,rfl⟩
      exact ⟨x++as,cs,⟨x,hx,as,has,rfl⟩,hcs,by simp⟩
    · rintro ⟨-,cs,⟨x,hx,as,has,rfl⟩,hcs,rfl⟩
      exact ⟨x,hx,as++cs,⟨as,cs,has,hcs,rfl⟩,by simp⟩

theorem length_le_encode {s : Str} {bs : Bytes} (h : Utf8.encode s = some bs) :
    s.length ≤ bs.length := by
  induction s generalizing bs with
  | nil => simp
  | cons c s ih =>
    obtain ⟨e,he,h⟩ := Option.bind_eq_some_iff.mp h
    obtain ⟨es,hes,rfl⟩ := Option.map_eq_some_iff.mp h
    have hpos := List.length_pos_iff.mpr (Utf8.encodeChar_ne_nil he)
    have hrest := ih hes
    rw [List.length_cons,List.length_append]
    omega

theorem encode_derived {rs i : Str} {bs : Bytes} (hi : isUniqueId i = true)
    (h : Utf8.encode (derivedReplySubject rs i) = some bs) :
    ∃ cs, Utf8.encode (derivedRequestSubject rs) = some cs ∧ cs.length ≤ bs.length := by
  have hreply : derivedReplySubject rs i = (replyPrefix++[46])++(rs++([46]++i)) := by
    simp [derivedReplySubject]
  have hrequest : derivedRequestSubject rs = (requestPrefix++[46])++rs := by
    simp [derivedRequestSubject]
  rw [hreply] at h
  obtain ⟨as,_,has,h1,rfl⟩ := encode_append.mp h
  obtain ⟨rsBytes,_,hrs,h2,rfl⟩ := encode_append.mp h1
  obtain ⟨_,is,_,his,rfl⟩ := encode_append.mp h2
  have hstart : Utf8.encode (requestPrefix++[46]) =
      some [95,114,101,113,117,101,115,116,46] := by decide
  refine ⟨_,hrequest ▸ encode_append.mpr ⟨_,rsBytes,hstart,hrs,rfl⟩,?_⟩
  have hlen := length_le_encode his
  have has' := length_le_encode has
  rw [(isUniqueId_iff.mp hi).1] at hlen
  simp only [List.length_append,List.length_cons,List.length_nil,replyPrefix,uniqueIdLength]
    at hlen has' ⊢
  omega

theorem encodeRequest_length {s : Str} {p r bs : Bytes} (hbs : Utf8.encode s = some bs)
    (h : encodeRequest ⟨s,p⟩ = .ok r) : r.length = subjectLengthSize+bs.length+p.length := by
  obtain ⟨header,hs,hr⟩ := bind_eq_ok.mp h
  obtain rfl := Except.ok.inj hr
  obtain ⟨bs',hbs',-,rfl⟩ := encodeSubject_eq_ok.mp hs
  obtain rfl := Option.some.inj (hbs.symm.trans hbs')
  simp only [List.length_append,Bytes.ofNat_length]

/-- The checks of `send_request` pass if the subscribe to the reply subject, the Request Message
and its publish can all be encoded, the latter in the length that can be sent. -/
theorem checkSendRequest_exact {rs i : Str} (hi : isUniqueId i = true) (payload : Bytes)
    {timeout : T} (ht : ¬timeout < 0) : checkSendRequest rs i payload timeout = .ok () ↔
      hasWildcard rs = false ∧
      (∃ e, encodeMessage (.subscription (derivedReplySubject rs i) true) = .ok e) ∧
      ∃ r, encodeRequest ⟨derivedReplySubject rs i,payload⟩ = .ok r ∧
        ∃ e, encodeMessage (.publish (derivedRequestSubject rs) r) = .ok e ∧
          e.length ≤ maxPayloadLength := by
  simp only [checkSendRequest,bind_eq_ok,checkRequestSubject_eq_ok,if_neg ht,
    ofCodec_eq_ok,encodeUtf8_eq_ok,checkPublishLength_eq_ok]
  constructor
  · rintro ⟨_,⟨hw,bs,hbs,hlen⟩,_,hbs',cs,hcs,hle⟩
    obtain rfl := Option.some.inj (hbs.symm.trans hbs')
    obtain ⟨cs',hcs',hshort⟩ := encode_derived hi hbs
    obtain rfl := Option.some.inj (hcs.symm.trans hcs')
    have hreply (name : String) : encodeSubject (derivedReplySubject rs i) name =
        .ok (Bytes.ofNat subjectLengthSize bs.length++bs) :=
      encodeSubject_eq_ok.mpr ⟨bs,hbs,hlen,rfl⟩
    have hrequest : encodeSubject (derivedRequestSubject rs) "subject" =
        .ok (Bytes.ofNat subjectLengthSize cs.length++cs) :=
      encodeSubject_eq_ok.mpr ⟨cs,hcs,by omega,rfl⟩
    refine ⟨hw,⟨_,bind_eq_ok.mpr ⟨_,hreply _,rfl⟩⟩,_,bind_eq_ok.mpr ⟨_,hreply _,rfl⟩,_,
      bind_eq_ok.mpr ⟨_,hrequest,rfl⟩,?_⟩
    simp only [List.length_cons,List.length_append,Bytes.ofNat_length]
    omega
  · rintro ⟨hw,⟨e,he⟩,r,hr,p,hp,hle⟩
    obtain ⟨header,hs,-⟩ := bind_eq_ok.mp he
    obtain ⟨bs,hbs,hlen,-⟩ := encodeSubject_eq_ok.mp hs
    obtain ⟨header',hs',-⟩ := bind_eq_ok.mp hp
    obtain ⟨cs,hcs,-,-⟩ := encodeSubject_eq_ok.mp hs'
    refine ⟨(),⟨hw,bs,hbs,hlen⟩,bs,hbs,cs,hcs,?_⟩
    rw [← encodeRequest_length hbs hr,← encode_publish_length hcs hp]
    exact hle

theorem checkAcceptRequest_exact (rs : Str) (b : Bool) : checkAcceptRequest rs = .ok () ↔
    hasWildcard rs = false ∧
      ∃ e, encodeMessage (.subscription (derivedRequestSubject rs) b) = .ok e := by
  rw [checkAcceptRequest,checkRequestSubject_eq_ok]
  refine and_congr_right fun _ => ⟨?_,?_⟩
  · rintro ⟨bs,hbs,hlen⟩
    exact ⟨_,bind_eq_ok.mpr ⟨_,encodeSubject_eq_ok.mpr ⟨bs,hbs,hlen,rfl⟩,rfl⟩⟩
  · rintro ⟨e,he⟩
    obtain ⟨header,hs,-⟩ := bind_eq_ok.mp he
    obtain ⟨bs,hbs,hlen,-⟩ := encodeSubject_eq_ok.mp hs
    exact ⟨bs,hbs,hlen⟩

theorem checkPublishSubject_eq_ok {s : Str} {u : Unit} :
    checkPublishSubject s = .ok u ↔ hasWildcard s = false ∧ ValidSubject s := by
  simp only [checkPublishSubject,checkSubject,bind_eq_ok,ofCodec_eq_ok]
  constructor
  · rintro ⟨-,⟨e,he,-⟩,h⟩
    cases hw : hasWildcard s with
    | true => simp [hw] at h
    | false => exact ⟨rfl,(encodeSubject_isOk _).mp ⟨e,he⟩⟩
  · rintro ⟨hw,hs⟩
    obtain ⟨e,he⟩ := (encodeSubject_isOk _).mpr hs
    exact ⟨(),⟨e,he,rfl⟩,by simp [hw]⟩

theorem checkPublish_exact {s : Str} {p : Bytes} : checkPublish s p = .ok () ↔
    hasWildcard s = false ∧
      ∃ e, encodeMessage (.publish s p) = .ok e ∧ e.length ≤ maxPayloadLength := by
  simp only [checkPublish,bind_eq_ok,checkPublishSubject_eq_ok]
  constructor
  · rintro ⟨-,⟨hw,hs⟩,hlen⟩
    exact ⟨hw,(checkPublishLength_exact hs p).mp hlen⟩
  · rintro ⟨hw,e,he,hlen⟩
    have hs : ValidSubject s := encodeMessage_isOk.mp ⟨e,he⟩
    exact ⟨(),⟨hw,hs⟩,(checkPublishLength_exact hs p).mpr ⟨e,he,hlen⟩⟩

theorem hasWildcard_derivedRequestSubject (rs : Str) :
    hasWildcard (derivedRequestSubject rs) = hasWildcard rs := by
  have hfirst : wildcard ≠ requestPrefix := by decide
  simp [hasWildcard,derivedRequestSubject,split_join,split_literal (s := requestPrefix) (by decide),
    hfirst]

theorem checkSendRequest_timeout {rs i : Str} {payload : Bytes} {timeout : T} {u : Unit}
    (h : checkSendRequest rs i payload timeout = .ok u) : ¬timeout < 0 := by
  intro ht
  obtain ⟨-,-,h⟩ := bind_eq_ok.mp h
  rw [if_pos ht] at h
  cases h

end ParameterChecks
end SoftwareBus
