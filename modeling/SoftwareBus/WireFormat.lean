import SoftwareBus.Wire

/-! The wire format decodes what it encodes and nothing else. -/
namespace SoftwareBus

def CodePoint.IsSurrogate (c : CodePoint) : Prop := 0xD800 ≤ c.val ∧ c.val < 0xE000

/-- A subject with an encoding of at most 65535 bytes. -/
structure ValidSubject (s : Str) : Prop where
  noSurrogate : ∀ c ∈ s, ¬CodePoint.IsSurrogate c
  short : ∀ n, utf8Length s = some n → n ≤ maxSubjectLength

def WireMessage.Valid : WireMessage → Prop
  | .subscription s _ | .publish s _ => ValidSubject s
  | .hello i => i.length = 16
  | .query q i => q.length = 16 ∧ i.length = 16
  | .reply q r => q.length = 16 ∧ (r = 0 ∨ r = 1 ∨ r = 2)

def WireMessage.takesRest : WireMessage → Bool
  | .publish _ _ => true
  | _ => false

namespace Wire

theorem utf8Length_cons (c : CodePoint) (s : Str) :
    utf8Length (c::s) = (CodePoint.utf8Length c).bind fun n => (utf8Length s).map (n+·) := by
  simp only [utf8Length,List.mapM_cons]
  cases CodePoint.utf8Length c with
  | none => rfl
  | some n => cases s.mapM CodePoint.utf8Length <;> rfl

theorem encodeChar_length (c : CodePoint) :
    (Utf8.encodeChar c).map List.length = CodePoint.utf8Length c := by
  unfold Utf8.encodeChar CodePoint.utf8Length
  split_ifs <;> rfl

theorem encode_length (s : Str) : (Utf8.encode s).map List.length = utf8Length s := by
  induction s with
  | nil => rfl
  | cons c s ih =>
    rw [utf8Length_cons,← encodeChar_length,← ih,Utf8.encode]
    cases Utf8.encodeChar c with
    | none => rfl
    | some bs => cases Utf8.encode s <;> simp

theorem utf8Length_eq_none {c : CodePoint} :
    CodePoint.utf8Length c = none ↔ CodePoint.IsSurrogate c := by
  unfold CodePoint.utf8Length CodePoint.IsSurrogate
  split_ifs <;> simp <;> omega

/-- A string has an encoding unless it holds a surrogate. -/
theorem encode_isSome_iff {s : Str} :
    (∃ bs, Utf8.encode s = some bs) ↔ ∀ c ∈ s, ¬CodePoint.IsSurrogate c := by
  induction s with
  | nil => simp [Utf8.encode]
  | cons c s ih =>
    rw [List.forall_mem_cons,← ih,← utf8Length_eq_none,← encodeChar_length,Utf8.encode]
    cases Utf8.encodeChar c with
    | none => simp
    | some bs => simp

theorem encodeSubject_eq_ok {s : Str} {name : String} {e : Bytes} :
    encodeSubject s name = .ok e ↔ ∃ bs, Utf8.encode s = some bs ∧ bs.length ≤ maxSubjectLength ∧
      e = Bytes.ofNat subjectLengthSize bs.length++bs := by
  unfold encodeSubject encodeUtf8
  cases Utf8.encode s with
  | none => simp [bind,Except.bind]
  | some bs =>
    simp only [bind,Except.bind,Option.some.injEq,exists_eq_left']
    split_ifs with h
    · simp only [false_iff,not_and]
      omega
    · simp only [Except.ok.injEq]
      exact ⟨fun he => ⟨by omega,he.symm⟩,fun he => he.2.symm⟩

theorem encodeSubject_isOk {s : Str} (name : String) :
    (∃ e, encodeSubject s name = .ok e) ↔ ValidSubject s := by
  simp only [encodeSubject_eq_ok]
  constructor
  · rintro ⟨-,bs,hbs,hlen,-⟩
    refine ⟨encode_isSome_iff.mp ⟨bs,hbs⟩,fun n hn => ?_⟩
    rw [← encode_length,hbs] at hn
    exact Option.some.inj hn ▸ hlen
  · rintro ⟨hno,hshort⟩
    obtain ⟨bs,hbs⟩ := encode_isSome_iff.mpr hno
    exact ⟨_,bs,hbs,hshort _ (by rw [← encode_length,hbs]; rfl),rfl⟩

theorem decodeSubject_of_encode {s : Str} {name : String} {e : Bytes}
    (h : encodeSubject s name = .ok e) (front rest : Bytes) :
    decodeSubject (front++(e++rest)) front.length = .ok (s,front.length+e.length) := by
  obtain ⟨bs,hbs,hlen,rfl⟩ := encodeSubject_eq_ok.mp h
  have hnum : Bytes.toNat (Bytes.ofNat subjectLengthSize bs.length) = bs.length :=
    Bytes.toNat_ofNat (by
      simp only [subjectLengthSize,maxSubjectLength] at *
      omega)
  have hsize := Bytes.ofNat_length subjectLengthSize bs.length
  have hhead : Bytes.slice (front++(Bytes.ofNat subjectLengthSize bs.length++bs++rest)) front.length
      (front.length+subjectLengthSize) = Bytes.ofNat subjectLengthSize bs.length := by
    rw [Bytes.slice_append,List.append_assoc]
    exact List.take_left' hsize
  have hbody : Bytes.slice (front++(Bytes.ofNat subjectLengthSize bs.length++bs++rest))
      (front.length+subjectLengthSize) (front.length+subjectLengthSize+bs.length) = bs := by
    have happ : front++(Bytes.ofNat subjectLengthSize bs.length++bs++rest) =
        (front++Bytes.ofNat subjectLengthSize bs.length)++(bs++rest) := by simp
    have hfront : front.length+subjectLengthSize =
        (front++Bytes.ofNat subjectLengthSize bs.length).length := by simp [hsize]
    rw [happ,hfront,Bytes.slice_append]
    exact List.take_left' rfl
  have hdec := Utf8.decode_of_encode hbs
  simp only [decodeSubject,hhead,hnum,hbody,hdec,List.length_append,hsize]
  rw [if_neg (by omega),if_neg (by omega)]
  congr 2
  omega

theorem encode_of_decodeSubject {data : Bytes} {n k : ℕ} {s : Str} (name : String)
    (h : decodeSubject data n = .ok (s,k)) :
    ∃ e, encodeSubject s name = .ok e ∧ k = n+e.length ∧ data.drop n = e++data.drop k := by
  simp only [decodeSubject] at h
  split_ifs at h with h1 h2
  split at h <;> try contradiction
  rename_i t hdec
  obtain ⟨rfl,rfl⟩ := Prod.mk.inj (Except.ok.inj h)
  have hbs := Utf8.encode_of_decode hdec
  have hhead : (data.slice n (n+subjectLengthSize)).length = subjectLengthSize :=
    (Bytes.slice_length (by omega)).trans (by omega)
  have hofNat := Bytes.ofNat_toNat (data.slice n (n+subjectLengthSize))
  have hlt := Bytes.toNat_lt (data.slice n (n+subjectLengthSize))
  rw [hhead] at hofNat hlt
  generalize Bytes.toNat (data.slice n (n+subjectLengthSize)) = len at *
  have hbody : (data.slice (n+subjectLengthSize) (n+subjectLengthSize+len)).length = len :=
    (Bytes.slice_length (by omega)).trans (by omega)
  refine ⟨_,encodeSubject_eq_ok.mpr ⟨_,hbs,?_,rfl⟩,?_,?_⟩
  · rw [hbody]
    simp only [subjectLengthSize,maxSubjectLength] at *
    omega
  · rw [List.length_append,Bytes.ofNat_length,hbody]
    omega
  · rw [hbody,hofNat,List.append_assoc,Bytes.slice_append_drop _ (by omega),
      Bytes.slice_append_drop _ (by omega)]

theorem bind_eq_ok {ε α β : Type} {x : Except ε α} {f : α → Except ε β} {b : β} :
    (x >>= f) = .ok b ↔ ∃ a, x = .ok a ∧ f a = .ok b := by
  cases x with
  | error e => simp [bind,Except.bind]
  | ok a => simp [bind,Except.bind]

theorem checkId_eq_ok {value i : Bytes} {name : String} :
    checkId value name = .ok i ↔ value.length = idSize ∧ i = value := by
  unfold checkId
  split_ifs with h <;> simp_all [eq_comm]

theorem checkResult_eq_ok {v : ℤ} {r : ReachabilityResult} :
    checkResult v = .ok r ↔ v = r.value.val := by
  unfold checkResult ReachabilityResult.ofValue
  cases r <;> simp only [ReachabilityResult.value] <;> split_ifs <;> simp_all

/-- The messages that can be encoded are the valid ones. -/
theorem encodeMessage_isOk {m : WireMessage} : (∃ e, encodeMessage m = .ok e) ↔ m.Valid := by
  cases m with
  | subscription s b =>
    simp only [encodeMessage,bind_eq_ok,WireMessage.Valid]
    rw [← encodeSubject_isOk "subject"]
    exact ⟨fun ⟨_,h,hh,_⟩ => ⟨h,hh⟩,fun ⟨h,hh⟩ => ⟨_,h,hh,rfl⟩⟩
  | publish s p =>
    simp only [encodeMessage,bind_eq_ok,WireMessage.Valid]
    rw [← encodeSubject_isOk "subject"]
    exact ⟨fun ⟨_,h,hh,_⟩ => ⟨h,hh⟩,fun ⟨h,hh⟩ => ⟨_,h,hh,rfl⟩⟩
  | hello i =>
    simp only [encodeMessage,bind_eq_ok,WireMessage.Valid,checkId_eq_ok]
    exact ⟨fun ⟨_,_,h,_⟩ => h.1,fun h => ⟨_,i,⟨h,rfl⟩,rfl⟩⟩
  | query q i =>
    simp only [encodeMessage,bind_eq_ok,WireMessage.Valid,checkId_eq_ok]
    exact ⟨fun ⟨_,_,hq,_,hi,_⟩ => ⟨hq.1,hi.1⟩,fun ⟨hq,hi⟩ => ⟨_,q,⟨hq,rfl⟩,i,⟨hi,rfl⟩,rfl⟩⟩
  | reply q r =>
    simp only [encodeMessage,bind_eq_ok,WireMessage.Valid,checkId_eq_ok,checkResult_eq_ok]
    constructor
    · rintro ⟨_,_,hq,x,rfl,_⟩
      exact ⟨hq.1,by cases x <;> simp [ReachabilityResult.value]⟩
    · rintro ⟨hq,rfl | rfl | rfl⟩
      · exact ⟨_,q,⟨hq,rfl⟩,.notFound,rfl,rfl⟩
      · exact ⟨_,q,⟨hq,rfl⟩,.found,rfl,rfl⟩
      · exact ⟨_,q,⟨hq,rfl⟩,.unknown,rfl,rfl⟩

theorem decodeSubscription_eq_ok {bs : Bytes} {m : WireMessage} :
    decodeSubscription (msgSubscription::bs) = .ok m ↔ ∃ s b header rest,
      encodeSubject s "subject" = .ok header ∧ bs = (if b then 1 else 0)::(header++rest) ∧
        m = .subscription s b := by
  constructor
  · intro h
    simp only [decodeSubscription] at h
    cases bs with
    | nil => cases h
    | cons state bs =>
      rw [if_neg (by simp)] at h
      obtain ⟨_,hstate,h⟩ := bind_eq_ok.mp h
      obtain rfl := Except.ok.inj hstate
      split_ifs at h with hs
      obtain ⟨⟨s,k⟩,hdec,h⟩ := bind_eq_ok.mp h
      obtain rfl := Except.ok.inj h
      obtain ⟨header,hheader,hk,hdata⟩ := encode_of_decodeSubject "subject" hdec
      refine ⟨s,decide (state = 1),header,(msgSubscription::state::bs).drop k,hheader,?_,rfl⟩
      rw [← hdata,List.drop_succ_cons,List.drop_succ_cons,List.drop_zero]
      congr 1
      by_cases hone : state = 1
      · simp [hone]
      · simpa [hone] using hs
  · rintro ⟨s,b,header,rest,hheader,rfl,rfl⟩
    have hdec := decodeSubject_of_encode hheader [msgSubscription,if b then 1 else 0] rest
    rw [decodeSubscription,if_neg (by simp)]
    refine bind_eq_ok.mpr ⟨if b then 1 else 0,rfl,?_⟩
    rw [if_neg (by cases b <;> simp)]
    refine bind_eq_ok.mpr ⟨_,hdec,?_⟩
    cases b <;> rfl

theorem decodePublish_eq_ok {bs : Bytes} {m : WireMessage} :
    decodePublish (msgPublish::bs) = .ok m ↔ ∃ s header p,
      encodeSubject s "subject" = .ok header ∧ bs = header++p ∧ m = .publish s p := by
  simp only [decodePublish,bind_eq_ok]
  constructor
  · rintro ⟨⟨s,k⟩,hdec,h⟩
    obtain rfl := Except.ok.inj h
    obtain ⟨header,hheader,-,hdata⟩ := encode_of_decodeSubject "subject" hdec
    exact ⟨s,header,_,hheader,hdata,rfl⟩
  · rintro ⟨s,header,p,hheader,rfl,rfl⟩
    have hdec := decodeSubject_of_encode hheader [msgPublish] p
    refine ⟨_,hdec,?_⟩
    have hdrop : (msgPublish::(header++p)).drop (1+header.length) = p := by
      rw [Nat.add_comm,List.drop_succ_cons,List.drop_left]
    exact congrArg (fun bs => Except.ok (WireMessage.publish s bs)) hdrop

theorem expectLength_eq_ok {data : Bytes} {n : ℕ} {name : String} {u : Unit} :
    expectLength data n name = .ok u ↔ n ≤ data.length := by
  unfold expectLength
  split_ifs with h
  · simp only [false_iff]
    omega
  · exact ⟨fun _ => by omega,fun _ => rfl⟩

theorem item_eq_ok {data : Bytes} {i : ℕ} {b : Byte} :
    item data i = .ok b ↔ data[i]? = some b := by
  unfold item
  cases data[i]? <;> simp

theorem slice_tag (tag : Byte) (bs : Bytes) (n : ℕ) : Bytes.slice (tag::bs) 1 (1+n) = bs.take n :=
  Bytes.slice_append [tag] bs n

theorem take_eq_append {bs front rest : Bytes} {n : ℕ} (hn : front.length = n)
    (h : bs = front++rest) : bs.take n = front := by
  subst h
  exact List.take_left' hn

theorem decodeHello_eq_ok {bs : Bytes} {m : WireMessage} :
    decodeHello (msgHello::bs) = .ok m ↔ ∃ i rest,
      i.length = idSize ∧ bs = i++rest ∧ m = .hello i := by
  simp only [decodeHello,bind_eq_ok,expectLength_eq_ok,slice_tag,List.length_cons]
  constructor
  · rintro ⟨-,hlen,h⟩
    obtain rfl := Except.ok.inj h
    refine ⟨bs.take idSize,bs.drop idSize,?_,(List.take_append_drop ..).symm,rfl⟩
    rw [List.length_take]
    omega
  · rintro ⟨i,rest,hi,rfl,rfl⟩
    refine ⟨(),by rw [List.length_append]; omega,?_⟩
    rw [take_eq_append hi rfl]
    rfl

theorem decodeQuery_eq_ok {bs : Bytes} {m : WireMessage} :
    decodeQuery (msgQuery::bs) = .ok m ↔ ∃ q i rest,
      q.length = idSize ∧ i.length = idSize ∧ bs = q++(i++rest) ∧ m = .query q i := by
  have hslice : Bytes.slice (msgQuery::bs) (1+idSize) (1+2*idSize) =
      (bs.drop idSize).take idSize := by
    simp only [Bytes.slice,idSize,List.take_succ_cons,List.drop_succ_cons,List.drop_take]
  simp only [decodeQuery,bind_eq_ok,expectLength_eq_ok,slice_tag,List.length_cons,hslice]
  constructor
  · rintro ⟨-,hlen,h⟩
    obtain rfl := Except.ok.inj h
    refine ⟨bs.take idSize,(bs.drop idSize).take idSize,(bs.drop idSize).drop idSize,?_,?_,?_,rfl⟩
    · rw [List.length_take]
      omega
    · rw [List.length_take,List.length_drop]
      omega
    · rw [List.take_append_drop,List.take_append_drop]
  · rintro ⟨q,i,rest,hq,hi,rfl,rfl⟩
    refine ⟨(),by simp only [List.length_append]; omega,?_⟩
    rw [take_eq_append hq rfl,List.drop_left' hq,take_eq_append hi rfl]
    rfl

theorem decodeReply_eq_ok {bs : Bytes} {m : WireMessage} :
    decodeReply (msgReply::bs) = .ok m ↔ ∃ q, ∃ r : ReachabilityResult, ∃ rest, q.length = idSize ∧
      bs = q++(r.value.castLE (by decide)::rest) ∧ m = .reply q r.value.val := by
  simp only [decodeReply,bind_eq_ok,expectLength_eq_ok,slice_tag,List.length_cons,item_eq_ok,
    checkResult_eq_ok]
  constructor
  · rintro ⟨-,hlen,b,hb,r,hr,h⟩
    obtain rfl := Except.ok.inj h
    rw [Nat.add_comm,List.getElem?_cons_succ] at hb
    obtain ⟨hi,hget⟩ := List.getElem?_eq_some_iff.mp hb
    have hcast : r.value.castLE (by decide) = b := Fin.ext (by exact_mod_cast hr.symm)
    refine ⟨bs.take idSize,r,bs.drop (idSize+1),?_,?_,rfl⟩
    · rw [List.length_take]
      omega
    · rw [hcast,← hget,← List.drop_eq_getElem_cons hi,List.take_append_drop]
  · rintro ⟨q,r,rest,hq,rfl,rfl⟩
    refine ⟨(),by simp only [List.length_append,List.length_cons]; omega,
      r.value.castLE (by decide),?_,r,rfl,?_⟩
    · rw [Nat.add_comm,List.getElem?_cons_succ,← hq]
      simp
    · rw [take_eq_append hq rfl]
      rfl

/-- What is decoded starts with its encoding; only a publish has to be all of the data. -/
theorem decodeMessage_eq_ok {data : Bytes} {m : WireMessage} :
    decodeMessage data = .ok m ↔ ∃ e rest, encodeMessage m = .ok e ∧ data = e++rest ∧
      (m.takesRest = true → rest = []) := by
  constructor
  · intro h
    match data,h with
    | tag::bs,h =>
      simp only [decodeMessage] at h
      split_ifs at h with h1 h2 h3 h4 h5
      · subst h1
        obtain ⟨s,b,header,rest,hs,rfl,rfl⟩ := decodeSubscription_eq_ok.mp h
        exact ⟨_,rest,bind_eq_ok.mpr ⟨header,hs,rfl⟩,rfl,nofun⟩
      · subst h2
        obtain ⟨s,header,p,hs,rfl,rfl⟩ := decodePublish_eq_ok.mp h
        exact ⟨_,[],bind_eq_ok.mpr ⟨header,hs,rfl⟩,by simp,fun _ => rfl⟩
      · subst h3
        obtain ⟨i,rest,hi,rfl,rfl⟩ := decodeHello_eq_ok.mp h
        exact ⟨_,rest,bind_eq_ok.mpr ⟨i,checkId_eq_ok.mpr ⟨hi,rfl⟩,rfl⟩,rfl,nofun⟩
      · subst h4
        obtain ⟨q,i,rest,hq,hi,rfl,rfl⟩ := decodeQuery_eq_ok.mp h
        exact ⟨msgQuery::(q++i),rest,bind_eq_ok.mpr ⟨q,checkId_eq_ok.mpr ⟨hq,rfl⟩,
          bind_eq_ok.mpr ⟨i,checkId_eq_ok.mpr ⟨hi,rfl⟩,rfl⟩⟩,by simp,nofun⟩
      · subst h5
        obtain ⟨q,r,rest,hq,rfl,rfl⟩ := decodeReply_eq_ok.mp h
        exact ⟨msgReply::(q++[r.value.castLE (by decide)]),rest,
          bind_eq_ok.mpr ⟨q,checkId_eq_ok.mpr ⟨hq,rfl⟩,
          bind_eq_ok.mpr ⟨r,checkResult_eq_ok.mpr rfl,rfl⟩⟩,by simp,nofun⟩
  · rintro ⟨e,rest,he,rfl,hrest⟩
    cases m with
    | subscription s b =>
      obtain ⟨header,hs,he⟩ := bind_eq_ok.mp he
      obtain rfl := Except.ok.inj he
      exact decodeSubscription_eq_ok.mpr ⟨s,b,header,rest,hs,rfl,rfl⟩
    | publish s p =>
      obtain ⟨header,hs,he⟩ := bind_eq_ok.mp he
      obtain rfl := Except.ok.inj he
      obtain rfl := hrest rfl
      exact decodePublish_eq_ok.mpr ⟨s,header,p,hs,List.append_nil _,rfl⟩
    | hello i =>
      obtain ⟨_,hi,he⟩ := bind_eq_ok.mp he
      obtain rfl := Except.ok.inj he
      obtain ⟨hi,rfl⟩ := checkId_eq_ok.mp hi
      exact decodeHello_eq_ok.mpr ⟨_,rest,hi,rfl,rfl⟩
    | query q i =>
      obtain ⟨_,hq,he⟩ := bind_eq_ok.mp he
      obtain ⟨_,hi,he⟩ := bind_eq_ok.mp he
      obtain rfl := Except.ok.inj he
      obtain ⟨hq,rfl⟩ := checkId_eq_ok.mp hq
      obtain ⟨hi,rfl⟩ := checkId_eq_ok.mp hi
      exact decodeQuery_eq_ok.mpr ⟨_,_,rest,hq,hi,List.append_assoc ..,rfl⟩
    | reply q v =>
      obtain ⟨_,hq,he⟩ := bind_eq_ok.mp he
      obtain ⟨r,hr,he⟩ := bind_eq_ok.mp he
      obtain rfl := Except.ok.inj he
      obtain ⟨hq,rfl⟩ := checkId_eq_ok.mp hq
      obtain rfl := checkResult_eq_ok.mp hr
      exact decodeReply_eq_ok.mpr ⟨_,r,rest,hq,List.append_assoc ..,rfl⟩

theorem decodeRequest_eq_ok {data : Bytes} {r : RequestMessage} :
    decodeRequest data = .ok r ↔ encodeRequest r = .ok data := by
  constructor
  · intro h
    obtain ⟨⟨s,k⟩,hdec,h⟩ := bind_eq_ok.mp h
    obtain rfl := Except.ok.inj h
    obtain ⟨header,hs,-,hdata⟩ := encode_of_decodeSubject "reply subject" hdec
    rw [List.drop_zero] at hdata
    exact bind_eq_ok.mpr ⟨header,hs,congrArg Except.ok hdata.symm⟩
  · intro h
    obtain ⟨header,hs,h⟩ := bind_eq_ok.mp h
    obtain rfl := Except.ok.inj h
    have hdec := decodeSubject_of_encode hs [] r.payload
    refine bind_eq_ok.mpr ⟨_,hdec,?_⟩
    simp [pure,Except.pure]

theorem bind_eq_error {ε α β : Type} {x : Except ε α} {f : α → Except ε β} {err : ε} :
    (x >>= f) = .error err ↔ x = .error err ∨ ∃ a, x = .ok a ∧ f a = .error err := by
  cases x with
  | error e => simp [bind,Except.bind]
  | ok a => simp [bind,Except.bind]

/-- A `ValueError` other than `UnknownMessageType`. -/
structure Malformed (err : CodecError) : Prop where
  valueError : err.isValueError = true
  known : ∀ tag, err ≠ .unknownMessageType tag

theorem decodeSubject_malformed {data : Bytes} {n : ℕ} {err : CodecError}
    (h : decodeSubject data n = .error err) : Malformed err := by
  simp only [decodeSubject] at h
  split_ifs at h
  · obtain rfl := Except.error.inj h
    exact ⟨rfl,nofun⟩
  · obtain rfl := Except.error.inj h
    exact ⟨rfl,nofun⟩
  · split at h
    · cases h
    · obtain rfl := Except.error.inj h
      exact ⟨rfl,nofun⟩

theorem expectLength_malformed {data : Bytes} {n : ℕ} {name : String} {err : CodecError}
    (h : expectLength data n name = .error err) : Malformed err := by
  unfold expectLength at h
  split_ifs at h
  obtain rfl := Except.error.inj h
  exact ⟨rfl,nofun⟩

theorem checkResult_malformed {v : ℤ} {err : CodecError} (h : checkResult v = .error err) :
    Malformed err := by
  unfold checkResult at h
  split at h
  · cases h
  · obtain rfl := Except.error.inj h
    exact ⟨rfl,nofun⟩

theorem item_ne_error {data : Bytes} {i : ℕ} (hi : i < data.length) (err : CodecError) :
    item data i ≠ .error err := by
  rw [item,List.getElem?_eq_getElem hi]
  exact nofun

theorem decodeSubscription_malformed {data : Bytes} {err : CodecError}
    (h : decodeSubscription data = .error err) : Malformed err := by
  unfold decodeSubscription at h
  split_ifs at h with hlen
  · obtain rfl := Except.error.inj h
    exact ⟨rfl,nofun⟩
  · rcases bind_eq_error.mp h with h | ⟨state,-,h⟩
    · exact absurd h (item_ne_error (by omega) err)
    · split_ifs at h
      · obtain rfl := Except.error.inj h
        exact ⟨rfl,nofun⟩
      · rcases bind_eq_error.mp h with h | ⟨_,-,h⟩
        · exact decodeSubject_malformed h
        · cases h

theorem decodePublish_malformed {data : Bytes} {err : CodecError}
    (h : decodePublish data = .error err) : Malformed err := by
  rcases bind_eq_error.mp h with h | ⟨_,-,h⟩
  · exact decodeSubject_malformed h
  · cases h

theorem decodeHello_malformed {data : Bytes} {err : CodecError}
    (h : decodeHello data = .error err) : Malformed err := by
  rcases bind_eq_error.mp h with h | ⟨_,-,h⟩
  · exact expectLength_malformed h
  · cases h

theorem decodeQuery_malformed {data : Bytes} {err : CodecError}
    (h : decodeQuery data = .error err) : Malformed err := by
  rcases bind_eq_error.mp h with h | ⟨_,-,h⟩
  · exact expectLength_malformed h
  · cases h

theorem decodeReply_malformed {data : Bytes} {err : CodecError}
    (h : decodeReply data = .error err) : Malformed err := by
  rcases bind_eq_error.mp h with h | ⟨_,hlen,h⟩
  · exact expectLength_malformed h
  · have hlen := expectLength_eq_ok.mp hlen
    rcases bind_eq_error.mp h with h | ⟨_,-,h⟩
    · exact absurd h (item_ne_error (by omega) err)
    · rcases bind_eq_error.mp h with h | ⟨_,-,h⟩
      · exact checkResult_malformed h
      · cases h

/-- Data is decoded, or it starts with a tag out of range, or it is malformed. -/
theorem decodeMessage_error {data : Bytes} {err : CodecError}
    (h : decodeMessage data = .error err) : Malformed err ∨
      ∃ tag bs, data = tag::bs ∧ ¬(1 ≤ tag.val ∧ tag.val ≤ 5) ∧
        err = .unknownMessageType tag := by
  match data,h with
  | [],h =>
    obtain rfl := Except.error.inj h
    exact .inl ⟨rfl,nofun⟩
  | tag::bs,h =>
    simp only [decodeMessage] at h
    split_ifs at h with h1 h2 h3 h4 h5
    · exact .inl (decodeSubscription_malformed h)
    · exact .inl (decodePublish_malformed h)
    · exact .inl (decodeHello_malformed h)
    · exact .inl (decodeQuery_malformed h)
    · exact .inl (decodeReply_malformed h)
    · refine .inr ⟨tag,bs,rfl,fun hrange => ?_,(Except.error.inj h).symm⟩
      simp only [msgSubscription,msgPublish,msgHello,msgQuery,msgReply,Fin.ext_iff] at h1 h2 h3 h4 h5
      simp at h1 h2 h3 h4 h5
      omega

theorem decodeMessage_unknown {tag : Byte} (htag : ¬(1 ≤ tag.val ∧ tag.val ≤ 5)) (bs : Bytes) :
    decodeMessage (tag::bs) = .error (.unknownMessageType tag) := by
  have hne (t : Byte) (ht : 1 ≤ t.val ∧ t.val ≤ 5) : tag ≠ t := fun he => htag (he ▸ ht)
  simp only [decodeMessage]
  rw [if_neg (hne _ (by decide)),if_neg (hne _ (by decide)),if_neg (hne _ (by decide)),
    if_neg (hne _ (by decide)),if_neg (hne _ (by decide))]

theorem encodeSubject_malformed {s : Str} {name : String} {err : CodecError}
    (h : encodeSubject s name = .error err) : Malformed err := by
  rcases bind_eq_error.mp h with h | ⟨bs,-,h⟩
  · unfold encodeUtf8 at h
    split at h
    · cases h
    · obtain rfl := Except.error.inj h
      exact ⟨rfl,nofun⟩
  · split_ifs at h
    obtain rfl := Except.error.inj h
    exact ⟨rfl,nofun⟩

theorem checkId_malformed {value : Bytes} {name : String} {err : CodecError}
    (h : checkId value name = .error err) : Malformed err := by
  unfold checkId at h
  split_ifs at h
  obtain rfl := Except.error.inj h
  exact ⟨rfl,nofun⟩

theorem encodeMessage_malformed {m : WireMessage} {err : CodecError}
    (h : encodeMessage m = .error err) : Malformed err := by
  cases m with
  | subscription s b | publish s p =>
    rcases bind_eq_error.mp h with h | ⟨_,-,h⟩
    · exact encodeSubject_malformed h
    · cases h
  | hello i =>
    rcases bind_eq_error.mp h with h | ⟨_,-,h⟩
    · exact checkId_malformed h
    · cases h
  | query q i =>
    rcases bind_eq_error.mp h with h | ⟨_,-,h⟩
    · exact checkId_malformed h
    · rcases bind_eq_error.mp h with h | ⟨_,-,h⟩
      · exact checkId_malformed h
      · cases h
  | reply q r =>
    rcases bind_eq_error.mp h with h | ⟨_,-,h⟩
    · exact checkId_malformed h
    · rcases bind_eq_error.mp h with h | ⟨_,-,h⟩
      · exact checkResult_malformed h
      · cases h

/-- What is decoded is a message that a node routes or a cycle check handles. -/
theorem decodeMessage_message {data : Bytes} {m : WireMessage} (h : decodeMessage data = .ok m) :
    ∃ m' : Message Bytes Bytes Bytes, m = .ofMessage m' := by
  obtain ⟨e,rest,he,-,-⟩ := decodeMessage_eq_ok.mp h
  have hvalid := encodeMessage_isOk.mp ⟨e,he⟩
  cases m with
  | subscription s b => exact ⟨.subscription s b,rfl⟩
  | publish s p => exact ⟨.publish s p,rfl⟩
  | hello i => exact ⟨.hello i,rfl⟩
  | query q i => exact ⟨.query q i,rfl⟩
  | reply q r =>
    obtain ⟨-,rfl | rfl | rfl⟩ := hvalid
    · exact ⟨.reply q .notFound,rfl⟩
    · exact ⟨.reply q .found,rfl⟩
    · exact ⟨.reply q .unknown,rfl⟩

/-- The wire format decodes exactly what it encodes. A message can be encoded if it is valid, and
data that is not the encoding of a message, with anything after it unless that is a publish,
raises `UnknownMessageType` if its tag is none of the five, and another `ValueError` otherwise. -/
theorem wire_format :
    (∀ (data : Bytes) (m : WireMessage), decodeMessage data = .ok m ↔
      ∃ e rest, encodeMessage m = .ok e ∧ data = e++rest ∧ (m.takesRest = true → rest = [])) ∧
    (∀ m : WireMessage, (∃ e, encodeMessage m = .ok e) ↔ m.Valid) ∧
    (∀ (m : WireMessage) (err : CodecError), encodeMessage m = .error err →
      err.isValueError = true) ∧
    (∀ data : Bytes, (∃ tag, decodeMessage data = .error (.unknownMessageType tag)) ↔
      ∃ tag bs, data = tag::bs ∧ ¬(1 ≤ tag.val ∧ tag.val ≤ 5)) ∧
    (∀ (data : Bytes) (err : CodecError), decodeMessage data = .error err →
      err.isValueError = true) ∧
    ∀ (data : Bytes) (r : RequestMessage), decodeRequest data = .ok r ↔
      encodeRequest r = .ok data := by
  refine ⟨fun _ _ => decodeMessage_eq_ok,fun _ => encodeMessage_isOk,
    fun _ _ h => (encodeMessage_malformed h).valueError,fun data => ⟨?_,?_⟩,fun data err h => ?_,
    fun _ _ => decodeRequest_eq_ok⟩
  · rintro ⟨tag,h⟩
    rcases decodeMessage_error h with h | ⟨tag',bs,hdata,htag,-⟩
    · exact absurd rfl (h.known tag)
    · exact ⟨tag',bs,hdata,htag⟩
  · rintro ⟨tag,bs,rfl,htag⟩
    exact ⟨tag,decodeMessage_unknown htag bs⟩
  · rcases decodeMessage_error h with h | ⟨tag,bs,-,-,rfl⟩
    · exact h.valueError
    · rfl

end Wire
end SoftwareBus
