import SoftwareBus.Message
import SoftwareBus.RequestSubjects
import SoftwareBus.Utf8

/-! The wire format: `encode_message` and `decode_message`, and the Request Message that the
payload of a request is. Every error here but `IndexError` is a `ValueError` in the source. -/
namespace SoftwareBus

inductive CodecError
  | indexError
  /-- `UnicodeEncodeError` and `UnicodeDecodeError` -/
  | unicode
  | empty
  | invalidState
  | tooShortForLength
  | shorterThanLength
  | subjectTooLong (name : String) (length : ℕ)
  | wrongIdLength (name : String) (length : ℕ)
  | tooShort (name : String) (length got : ℕ)
  | invalidResult (value : ℤ)
  /-- `UnknownMessageType` -/
  | unknownMessageType (msgType : Byte)
  deriving DecidableEq

def CodecError.isValueError : CodecError → Bool
  | .indexError => false
  | _ => true

def ReachabilityResult.value : ReachabilityResult → Fin 3
  | .notFound => 0
  | .found => 1
  | .unknown => 2

def ReachabilityResult.ofValue (v : ℤ) : Option ReachabilityResult :=
  if v = 0 then some .notFound else if v = 1 then some .found
  else if v = 2 then some .unknown else none

/-- A message with whatever its fields were set to. -/
inductive WireMessage
  | subscription (subject : Str) (subscribe : Bool)
  | publish (subject : Str) (payload : Bytes)
  | hello (nodeId : Bytes)
  | query (queryId targetNodeId : Bytes)
  | reply (queryId : Bytes) (result : ℤ)
  deriving DecidableEq

/-- A decoded message, as it is handed to the routing and the cycle check. -/
def WireMessage.ofMessage : Message Bytes Bytes Bytes → WireMessage
  | .subscription s b => .subscription s b
  | .publish s p => .publish s p
  | .hello i => .hello i
  | .query q i => .query q i
  | .reply q r => .reply q r.value.val

structure RequestMessage where
  replySubject : Str
  payload : Bytes
  deriving DecidableEq

namespace Wire

def msgSubscription : Byte := 1
def msgPublish : Byte := 2
def msgHello : Byte := 3
def msgQuery : Byte := 4
def msgReply : Byte := 5

def subjectLengthSize : ℕ := 2

def idSize : ℕ := 16

def item (data : Bytes) (i : ℕ) : Except CodecError Byte :=
  match data[i]? with
  | some b => .ok b
  | none => .error .indexError

def checkId (value : Bytes) (name : String) : Except CodecError Bytes :=
  if value.length ≠ idSize then .error (.wrongIdLength name value.length) else .ok value

def encodeUtf8 (subject : Str) : Except CodecError Bytes :=
  match Utf8.encode subject with
  | some bs => .ok bs
  | none => .error .unicode

def encodeSubject (subject : Str) (name : String) : Except CodecError Bytes := do
  let bs ← encodeUtf8 subject
  if bs.length > maxSubjectLength then .error (.subjectTooLong name bs.length)
  else .ok (Bytes.ofNat subjectLengthSize bs.length++bs)

def checkResult (v : ℤ) : Except CodecError ReachabilityResult :=
  match ReachabilityResult.ofValue v with
  | some r => .ok r
  | none => .error (.invalidResult v)

def encodeMessage : WireMessage → Except CodecError Bytes
  | .hello nodeId => do
    let i ← checkId nodeId "node_id"
    return msgHello::i
  | .query queryId targetNodeId => do
    let q ← checkId queryId "query_id"
    let i ← checkId targetNodeId "target_node_id"
    return msgQuery::(q++i)
  | .reply queryId result => do
    let q ← checkId queryId "query_id"
    let r ← checkResult result
    return msgReply::(q++[r.value.castLE (by decide)])
  | .subscription subject subscribe => do
    let header ← encodeSubject subject "subject"
    return msgSubscription::(if subscribe then 1 else 0)::header
  | .publish subject payload => do
    let header ← encodeSubject subject "subject"
    return msgPublish::(header++payload)

/-- `_decode_subject`: the subject and the offset after it. -/
def decodeSubject (data : Bytes) (offset : ℕ) : Except CodecError (Str × ℕ) :=
  let start := offset+subjectLengthSize
  if data.length < start then .error .tooShortForLength
  else
    let stop := start+Bytes.toNat (data.slice offset start)
    if data.length < stop then .error .shorterThanLength
    else
      match Utf8.decode (data.slice start stop) with
      | some subject => .ok (subject,stop)
      | none => .error .unicode

def expectLength (data : Bytes) (length : ℕ) (name : String) : Except CodecError Unit :=
  if data.length < length then .error (.tooShort name length data.length) else .ok ()

/-- The branches of `decode_message`, by kind of message. -/
def decodeSubscription (data : Bytes) : Except CodecError WireMessage :=
  if data.length < 2 then .error .invalidState
  else do
    let state ← item data 1
    if state ≠ 0 ∧ state ≠ 1 then .error .invalidState
    else
      let (subject,_) ← decodeSubject data 2
      return .subscription subject (decide (state = 1))

def decodePublish (data : Bytes) : Except CodecError WireMessage := do
  let (subject,payloadStart) ← decodeSubject data 1
  return .publish subject (data.drop payloadStart)

def decodeHello (data : Bytes) : Except CodecError WireMessage := do
  expectLength data (1+idSize) "hello"
  return .hello (data.slice 1 (1+idSize))

def decodeQuery (data : Bytes) : Except CodecError WireMessage := do
  expectLength data (1+2*idSize) "reachability query"
  return .query (data.slice 1 (1+idSize)) (data.slice (1+idSize) (1+2*idSize))

def decodeReply (data : Bytes) : Except CodecError WireMessage := do
  expectLength data (1+idSize+1) "reachability reply"
  let b ← item data (1+idSize)
  let result ← checkResult b.val
  return .reply (data.slice 1 (1+idSize)) result.value.val

def decodeMessage (data : Bytes) : Except CodecError WireMessage :=
  match data with
  | [] => .error .empty
  | msgType::_ =>
    if msgType = msgSubscription then decodeSubscription data
    else if msgType = msgPublish then decodePublish data
    else if msgType = msgHello then decodeHello data
    else if msgType = msgQuery then decodeQuery data
    else if msgType = msgReply then decodeReply data
    else .error (.unknownMessageType msgType)

def encodeRequest (message : RequestMessage) : Except CodecError Bytes := do
  let header ← encodeSubject message.replySubject "reply subject"
  return header++message.payload

def decodeRequest (data : Bytes) : Except CodecError RequestMessage := do
  let (replySubject,payloadStart) ← decodeSubject data 0
  return ⟨replySubject,data.drop payloadStart⟩

example : encodeMessage (.subscription [97,0xE9] true) = .ok [1,1,0,3,97,0xC3,0xA9] := by decide

example : encodeMessage (.subscription [0xD800] true) = .error .unicode := by decide

end Wire
end SoftwareBus
