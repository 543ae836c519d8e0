import SoftwareBus.Bytes

/-! How messages are cut out of a stream: `Connection.send` puts the length of a payload before
it, and `Connection.receive` reads that many bytes, in whatever pieces they arrive. -/
namespace SoftwareBus

def lengthPrefixSize : ℕ := 4

def maxPayloadLength : ℕ := 16*1024*1024

inductive ReadError
  /-- `IncompleteReadError`: what was left when the stream ended, and how much was asked for. -/
  | incompleteRead (partialBytes : Bytes) (expected : ℕ)
  | receivedTooLong (length : ℕ)
  deriving DecidableEq

/-- What `Connection.send` writes. Its callers have checked the length, so it fits in the prefix. -/
def frame (data : Bytes) : Bytes := Bytes.ofNat lengthPrefixSize data.length++data

/-- A stream that ends after the chunks that are still to arrive. -/
structure StreamReader where
  buffer : Bytes
  chunks : List Bytes

namespace StreamReader

def new (chunks : List Bytes) : StreamReader := ⟨[],chunks⟩

def bytes (r : StreamReader) : Bytes := r.buffer++r.chunks.flatten

/-- `readexactly(n)`, waiting for one chunk after the other. -/
def readFrom (n : ℕ) (buffer : Bytes) : List Bytes → Except ReadError Bytes × StreamReader
  | [] =>
    if n ≤ buffer.length then (.ok (buffer.take n),⟨buffer.drop n,[]⟩)
    else (.error (.incompleteRead buffer n),⟨[],[]⟩)
  | c::cs =>
    if n ≤ buffer.length then (.ok (buffer.take n),⟨buffer.drop n,c::cs⟩)
    else readFrom n (buffer++c) cs

def readexactly (r : StreamReader) (n : ℕ) : Except ReadError Bytes × StreamReader :=
  readFrom n r.buffer r.chunks

def receive (r : StreamReader) : Except ReadError Bytes × StreamReader :=
  match r.readexactly lengthPrefixSize with
  | (.error err,r) => (.error err,r)
  | (.ok header,r) =>
    if Bytes.toNat header > maxPayloadLength then
      (.error (.receivedTooLong (Bytes.toNat header)),r)
    else r.readexactly (Bytes.toNat header)

theorem readFrom_ok {n : ℕ} {buffer : Bytes} {chunks : List Bytes}
    (h : n ≤ (buffer++chunks.flatten).length) : ∃ r : StreamReader,
      readFrom n buffer chunks = (.ok ((buffer++chunks.flatten).take n),r) ∧
        r.bytes = (buffer++chunks.flatten).drop n := by
  induction chunks generalizing buffer with
  | nil =>
    have hn : n ≤ buffer.length := by simpa using h
    refine ⟨⟨buffer.drop n,[]⟩,?_,?_⟩
    · simp [readFrom,hn]
    · simp [bytes]
  | cons c cs ih =>
    by_cases hn : n ≤ buffer.length
    · refine ⟨⟨buffer.drop n,c::cs⟩,?_,?_⟩
      · rw [readFrom,if_pos hn,List.take_append_of_le_length hn]
      · rw [bytes,List.drop_append_of_le_length hn]
    · have happ : buffer++(c::cs).flatten = buffer++c++cs.flatten := by simp
      rw [happ] at h ⊢
      obtain ⟨r,hr,hbytes⟩ := ih h
      exact ⟨r,by rw [readFrom,if_neg hn,hr],hbytes⟩

theorem readFrom_error {n : ℕ} {buffer : Bytes} {chunks : List Bytes}
    (h : (buffer++chunks.flatten).length < n) : readFrom n buffer chunks =
      (.error (.incompleteRead (buffer++chunks.flatten) n),⟨[],[]⟩) := by
  induction chunks generalizing buffer with
  | nil =>
    have hn : ¬n ≤ buffer.length := by simpa using h
    simp [readFrom,hn]
  | cons c cs ih =>
    have happ : buffer++(c::cs).flatten = buffer++c++cs.flatten := by simp
    have hn : ¬n ≤ buffer.length := by
      rw [List.length_append] at h
      omega
    rw [happ] at h ⊢
    rw [readFrom,if_neg hn,ih h]

/-- `readexactly(n)` returns the next bytes, however they are cut. -/
theorem readexactly_ok {r : StreamReader} {n : ℕ} (h : n ≤ r.bytes.length) : ∃ r' : StreamReader,
    r.readexactly n = (.ok (r.bytes.take n),r') ∧ r'.bytes = r.bytes.drop n := readFrom_ok h

theorem readexactly_error {r : StreamReader} {n : ℕ} (h : r.bytes.length < n) :
    r.readexactly n = (.error (.incompleteRead r.bytes n),⟨[],[]⟩) := readFrom_error h

/-- How the rest of a stream starts. -/
inductive Next (d : Bytes) : Except ReadError Bytes → Bytes → Prop
  | frame (data rest : Bytes) (hd : d = SoftwareBus.frame data++rest)
    (hlen : data.length ≤ maxPayloadLength) : Next d (.ok data) rest
  /-- The stream ends at the next frame, or inside it. -/
  | ended (left : Bytes) (n : ℕ) (hd : d.length < lengthPrefixSize ∨
      Bytes.toNat (d.take lengthPrefixSize) ≤ maxPayloadLength ∧
        d.length < lengthPrefixSize+Bytes.toNat (d.take lengthPrefixSize)) :
    Next d (.error (.incompleteRead left n)) []
  | tooLong (hd : lengthPrefixSize ≤ d.length)
    (hlen : maxPayloadLength < Bytes.toNat (d.take lengthPrefixSize)) :
    Next d (.error (.receivedTooLong (Bytes.toNat (d.take lengthPrefixSize))))
      (d.drop lengthPrefixSize)

theorem receive_next (r : StreamReader) : Next r.bytes r.receive.1 r.receive.2.bytes := by
  unfold receive
  by_cases h4 : lengthPrefixSize ≤ r.bytes.length
  · obtain ⟨r',hr',hbytes⟩ := readexactly_ok h4
    rw [hr']
    dsimp only
    split_ifs with hlong
    · rw [hbytes]
      exact .tooLong h4 hlong
    · generalize hn : Bytes.toNat (r.bytes.take lengthPrefixSize) = n at *
      by_cases hlen : n ≤ r'.bytes.length
      · obtain ⟨r'',hr'',hbytes'⟩ := readexactly_ok hlen
        rw [hr'',hbytes']
        have htake : (r'.bytes.take n).length = n := by rw [List.length_take]; omega
        have hhead : (r.bytes.take lengthPrefixSize).length = lengthPrefixSize := by
          rw [List.length_take]
          omega
        have hofNat := Bytes.ofNat_toNat (r.bytes.take lengthPrefixSize)
        rw [hhead,hn] at hofNat
        refine .frame _ _ ?_ (by omega)
        rw [SoftwareBus.frame,htake,hofNat,List.append_assoc,List.take_append_drop,hbytes,
          List.take_append_drop]
      · rw [readexactly_error (by omega)]
        refine .ended _ _ (.inr ⟨by omega,?_⟩)
        rw [hn]
        rw [hbytes,List.length_drop] at hlen
        omega
  · rw [readexactly_error (by omega)]
    exact .ended _ _ (.inl (by omega))

theorem frame_length (data : Bytes) :
    (SoftwareBus.frame data).length = lengthPrefixSize+data.length := by
  rw [SoftwareBus.frame,List.length_append,Bytes.ofNat_length]

theorem frame_take (data rest : Bytes) (h : data.length ≤ maxPayloadLength) :
    Bytes.toNat ((SoftwareBus.frame data++rest).take lengthPrefixSize) = data.length := by
  rw [SoftwareBus.frame,List.append_assoc,List.take_left' (Bytes.ofNat_length ..)]
  refine Bytes.toNat_ofNat ?_
  simp only [maxPayloadLength,lengthPrefixSize] at *
  omega

theorem Next.of_frame {data rest left : Bytes} {x : Except ReadError Bytes}
    (hlen : data.length ≤ maxPayloadLength) (h : Next (SoftwareBus.frame data++rest) x left) :
    x = .ok data ∧ left = rest := by
  have hsize := frame_take data rest hlen
  have hlong : (SoftwareBus.frame data++rest).length = lengthPrefixSize+data.length+rest.length := by
    rw [List.length_append,frame_length]
  cases h with
  | frame data' _ hd hlen' =>
    have hsame : data.length = data'.length := by
      rw [← hsize,hd,frame_take data' _ hlen']
    obtain ⟨hframe,hrest⟩ := List.append_inj hd (by rw [frame_length,frame_length,hsame])
    obtain ⟨-,hdata⟩ := List.append_inj hframe (by simp)
    exact ⟨by rw [hdata],hrest.symm⟩
  | ended left n hd =>
    rw [hsize,hlong] at hd
    omega
  | tooLong hd hlong' =>
    rw [hsize] at hlong'
    omega

theorem Next.of_error {d left : Bytes} {err : ReadError} (h : Next d (.error err) left) :
    (∃ front n, err = .incompleteRead front n) ∧ (d.length < 4 ∨
        Bytes.toNat (d.take 4) ≤ maxPayloadLength ∧ d.length < 4+Bytes.toNat (d.take 4)) ∨
      err = .receivedTooLong (Bytes.toNat (d.take 4)) ∧ 4 ≤ d.length ∧
        maxPayloadLength < Bytes.toNat (d.take 4) ∧ left = d.drop 4 := by
  cases h with
  | ended front n hd => exact .inl ⟨⟨front,n,rfl⟩,hd⟩
  | tooLong hd hlen => exact .inr ⟨rfl,hd,hlen,rfl⟩

theorem receive_shrinks {r r' : StreamReader} {data : Bytes} (h : r.receive = (.ok data,r')) :
    r'.bytes.length < r.bytes.length := by
  have hnext := h ▸ receive_next r
  cases hnext with
  | frame _ _ hd _ =>
    rw [hd,List.length_append,frame_length]
    simp only [lengthPrefixSize]
    omega

/-- `receive`, again and again until it raises: the payloads, the error and what is left. -/
def receiveAll (r : StreamReader) : List Bytes × ReadError × StreamReader :=
  match _h : r.receive with
  | (.ok data,r') => (data::(receiveAll r').1,(receiveAll r').2)
  | (.error err,r') => ([],err,r')
termination_by r.bytes.length
decreasing_by all_goals exact receive_shrinks _h

theorem receiveAll_of_ok {r r' : StreamReader} {data : Bytes} (h : r.receive = (.ok data,r')) :
    r.receiveAll = (data::r'.receiveAll.1,r'.receiveAll.2) := by
  rw [receiveAll]
  split
  · rename_i h'
    obtain ⟨hdata,rfl⟩ := Prod.mk.inj (h.symm.trans h')
    obtain rfl := Except.ok.inj hdata
    rfl
  · rename_i h'
    cases h.symm.trans h'

theorem receiveAll_of_error {r r' : StreamReader} {err : ReadError}
    (h : r.receive = (.error err,r')) : r.receiveAll = ([],err,r') := by
  rw [receiveAll]
  split
  · rename_i h'
    cases h.symm.trans h'
  · rename_i h'
    obtain ⟨herr,rfl⟩ := Prod.mk.inj (h.symm.trans h')
    obtain rfl := Except.error.inj herr
    rfl

def frames (ps : List Bytes) : Bytes := (ps.map SoftwareBus.frame).flatten

theorem frames_cons (p : Bytes) (ps : List Bytes) :
    frames (p::ps) = SoftwareBus.frame p++frames ps := rfl

/-- What has been read are the first frames of the stream, and what ends the reading is how the
rest starts. -/
theorem receiveAll_frames (r : StreamReader) : ∃ rest,
    r.bytes = frames r.receiveAll.1++rest ∧ (∀ p ∈ r.receiveAll.1, p.length ≤ maxPayloadLength) ∧
      Next rest (.error r.receiveAll.2.1) r.receiveAll.2.2.bytes := by
  induction r using receiveAll.induct with
  | case1 r data r' h ih =>
    have hnext := h ▸ receive_next r
    obtain ⟨rest,hbytes,hps,herr⟩ := ih
    rw [receiveAll_of_ok h]
    cases hnext with
    | frame _ _ hd hlen =>
      refine ⟨rest,?_,fun p hp => ?_,herr⟩
      · rw [frames_cons,List.append_assoc,← hbytes]
        exact hd
      · rcases List.mem_cons.mp hp with rfl | hp
        · exact hlen
        · exact hps p hp
  | case2 r err r' h =>
    have hnext := h ▸ receive_next r
    rw [receiveAll_of_error h]
    exact ⟨r.bytes,rfl,by simp,hnext⟩

theorem prefix_receiveAll {r : StreamReader} {ps : List Bytes} {rest : Bytes}
    (hps : ∀ p ∈ ps, p.length ≤ maxPayloadLength) (h : r.bytes = frames ps++rest) :
    ps <+: r.receiveAll.1 := by
  induction ps generalizing r with
  | nil => exact List.nil_prefix
  | cons p ps ih =>
    have hnext := receive_next r
    rw [h,frames_cons,List.append_assoc] at hnext
    obtain ⟨hp,hbytes⟩ := hnext.of_frame (hps p (by simp))
    rw [receiveAll_of_ok (Prod.ext hp rfl : r.receive = (.ok p,r.receive.2))]
    exact List.cons_prefix_cons.mpr ⟨rfl,ih (fun q hq => hps q (by simp [hq])) hbytes⟩

/-- Frames are read as the payloads they were made from, wherever they are cut. -/
theorem receiveAll_of_frames {ps : List Bytes} (hps : ∀ p ∈ ps, p.length ≤ maxPayloadLength)
    {chunks : List Bytes} (h : chunks.flatten = frames ps) :
    (new chunks).receiveAll.1 = ps ∧ ∃ left n,
      (new chunks).receiveAll.2.1 = .incompleteRead left n := by
  have hbytes : (new chunks).bytes = frames ps++[] := by simp [new,bytes,h]
  obtain ⟨more,hmore⟩ := prefix_receiveAll hps hbytes
  obtain ⟨rest,hall,-,hnext⟩ := receiveAll_frames (new chunks)
  have hnone : frames more++rest = [] := by
    have happ : frames (ps++more) = frames ps++frames more := by simp [frames]
    rw [← hmore,happ,hbytes,List.append_assoc] at hall
    exact (List.append_cancel_left hall).symm
  obtain ⟨hm,rfl⟩ := List.append_eq_nil_iff.mp hnone
  have hnil : more = [] := by
    cases more with
    | nil => rfl
    | cons p more =>
      have hlen := congrArg List.length hm
      rw [frames_cons,List.length_append,frame_length] at hlen
      simp [lengthPrefixSize] at hlen
  refine ⟨by rw [← hmore,hnil,List.append_nil],?_⟩
  rcases hnext.of_error with ⟨herr,-⟩ | ⟨-,hlen,-⟩
  · exact herr
  · simp at hlen

/-- Framing is transparent: payloads are read as they were sent, and from any stream the longest
sequence of frames within the limit is read, up to one that is incomplete or too long. Of the
latter only the length is consumed. -/
theorem framing :
    (∀ (ps chunks : List Bytes), (∀ p ∈ ps, p.length ≤ maxPayloadLength) →
      chunks.flatten = (ps.map SoftwareBus.frame).flatten →
      (new chunks).receiveAll.1 = ps ∧
        ∃ left n, (new chunks).receiveAll.2.1 = .incompleteRead left n) ∧
    ∀ (chunks : List Bytes), ∃ rest, let (ps,err,r) := (new chunks).receiveAll
      chunks.flatten = (ps.map SoftwareBus.frame).flatten++rest ∧
      (∀ p ∈ ps, p.length ≤ maxPayloadLength) ∧
      (∀ qs : List Bytes, (∀ q ∈ qs, q.length ≤ maxPayloadLength) →
        (qs.map SoftwareBus.frame).flatten <+: chunks.flatten → qs <+: ps) ∧
      ((∃ left n, err = .incompleteRead left n) ∧ (rest.length < 4 ∨
          Bytes.toNat (rest.take 4) ≤ maxPayloadLength ∧
            rest.length < 4+Bytes.toNat (rest.take 4)) ∨
        err = .receivedTooLong (Bytes.toNat (rest.take 4)) ∧ 4 ≤ rest.length ∧
          maxPayloadLength < Bytes.toNat (rest.take 4) ∧ r.bytes = rest.drop 4) := by
  refine ⟨fun ps chunks hps h => receiveAll_of_frames hps h,fun chunks => ?_⟩
  obtain ⟨rest,hall,hps,hnext⟩ := receiveAll_frames (new chunks)
  have hbytes : (new chunks).bytes = chunks.flatten := List.nil_append _
  refine ⟨rest,hbytes ▸ hall,hps,fun qs hqs ⟨more,hmore⟩ => ?_,hnext.of_error⟩
  exact prefix_receiveAll hqs (hbytes.trans hmore.symm)

end StreamReader
end SoftwareBus
