import SoftwareBus.ParameterChecks
import SoftwareBus.Registrations

/-! What the operations of a request/reply client do with parameters, and in which order: what they
check, register, start and send. While an operation waits, other tasks may do anything to the
client; the environment stands for them and for the base layer client. -/
namespace SoftwareBus

open SubjectMatcher Wire ParameterChecks

inductive OtherError
  | runtimeError | osError | keyError | cancelled
  deriving DecidableEq

inductive CallError
  | value (err : ParameterError)
  | other (err : OtherError)
  deriving DecidableEq

structure RequestClient (B O : Type) where
  /-- `_subscribe_callbacks` of the publish/subscribe client -/
  registrations : Registrations O
  /-- `_acceptors` -/
  acceptors : Str × B → Option O
  /-- The keys of `_requests`. -/
  requests : List Str
  ended : Str → Bool
  closedMeanwhile : Str → Bool
  /-- The requests with a timer. -/
  timers : List Str
  sent : List Bytes
  /-- The publishes that have been given to the client's own subscribers. -/
  delivered : List (Str × Bytes)

/-- What happens while an operation waits: to what it waits for, and to the client. -/
structure Environment (B O : Type) where
  connected : RequestClient B O → Bool
  send : Bytes → RequestClient B O → Option OtherError × RequestClient B O
  deliver : Str → Bytes → RequestClient B O → Option OtherError × RequestClient B O
  callback : Str → RequestClient B O → Option OtherError × RequestClient B O

abbrev Call (B O : Type) := ExceptT CallError (StateM (RequestClient B O))

namespace RequestCalls

variable {B O α : Type}

def check (x : Except ParameterError α) : Call B O α :=
  match x with
  | .ok a => pure a
  | .error err => throw (.value err)

def wait (x : RequestClient B O → Option OtherError × RequestClient B O) : Call B O Unit := do
  let (err,s) := x (← get)
  set s
  match err with
  | none => pure ()
  | some err => throw (.other err)

def send (env : Environment B O) (data : Bytes) : Call B O Unit := do
  if !env.connected (← get) then throw (.other .runtimeError)
  else
    check (checkPayloadLength data.length)
    modify fun s => {s with sent := s.sent++[data]}
    wait (env.send data)

variable [DecidableEq B] [DecidableEq O]

def subscribe (env : Environment B O) (subject : Str) (callback : O) : Call B O Unit := do
  let wireMessage ← check (ofCodec (encodeMessage (.subscription subject true)))
  let isFirst := (← get).registrations.callbacks subject = []
  modify fun s => {s with registrations := s.registrations.register subject callback}
  if isFirst then
    try send env wireMessage
    catch err =>
      modify fun s => {s with registrations := s.registrations.remove subject callback}
      throw err

def unsubscribe (env : Environment B O) (subject : Str) (callback : O) : Call B O Unit := do
  let isLast := (← get).registrations.isLast subject callback
  modify fun s => {s with registrations := s.registrations.remove subject callback}
  if isLast then
    let wireMessage ← check (ofCodec (encodeMessage (.subscription subject false)))
    send env wireMessage

omit [DecidableEq B] [DecidableEq O] in
def publish (env : Environment B O) (subject : Str) (payload : Bytes) : Call B O Unit := do
  check (checkPublish subject payload)
  let data ← check (ofCodec (encodeMessage (.publish subject payload)))
  send env data
  modify fun s => {s with delivered := s.delivered++[(subject,payload)]}
  wait (env.deliver subject payload)

def sendReply (env : Environment B O) (replySubject : Str) (payload : Bytes) : Call B O Unit := do
  check (checkSendReply replySubject payload)
  publish env replySubject payload

/-- `accept_request`; `onRequest` is the subscription callback that it makes. -/
def acceptRequest (env : Environment B O) (requestSubject : Str) (callback : B) (onRequest : O) :
    Call B O Unit := do
  check (checkAcceptRequest requestSubject)
  let key := (requestSubject,callback)
  if ((← get).acceptors key).isNone then
    modify fun s => {s with acceptors := Function.update s.acceptors key (some onRequest)}
    try subscribe env (derivedRequestSubject requestSubject) onRequest
    catch err =>
      if ((← get).acceptors key).isNone then throw (.other .keyError)
      else
        modify fun s => {s with acceptors := Function.update s.acceptors key none}
        throw err

def stopAcceptRequest (env : Environment B O) (requestSubject : Str) (callback : B) :
    Call B O Unit := do
  check (checkAcceptRequest requestSubject)
  let key := (requestSubject,callback)
  let onRequest := (← get).acceptors key
  modify fun s => {s with acceptors := Function.update s.acceptors key none}
  match onRequest with
  | some onRequest => unsubscribe env (derivedRequestSubject requestSubject) onRequest
  | none => pure ()

def endWait (env : Environment B O) (replySubject : Str) (onReply : O) : Call B O Unit := do
  modify fun s => {s with
    ended := Function.update s.ended replySubject true
    requests := s.requests.erase replySubject
    timers := s.timers.erase replySubject}
  try unsubscribe env replySubject onReply
  catch err =>
    match err with
    | .other .osError | .other .runtimeError => pure ()
    | err => throw err

def endOpenWait (env : Environment B O) (replySubject : Str) (onReply : O) : Call B O Unit := do
  if (← get).ended replySubject then pure () else endWait env replySubject onReply

/-- The end of a request that was sent, but closed meanwhile. -/
def endIfClosed (env : Environment B O) (replySubject : Str) (onReply : O) : Call B O Unit := do
  let s ← get
  if s.closedMeanwhile replySubject && !s.ended replySubject then
    endWait env replySubject onReply
    wait (env.callback replySubject)

variable {T : Type} [Zero T] [LT T] [DecidableLT T]

omit [DecidableEq B] [DecidableEq O] in
def startTimer (replySubject : Str) (timeout : T) : Call B O Unit :=
  if 0 < timeout then modify fun s => {s with timers := s.timers++[replySubject]} else pure ()

/-- `send_request`; `onReply` is the subscription callback that it makes. -/
def sendRequest (env : Environment B O) (requestSubject uniqueId : Str) (payload : Bytes)
    (timeout : T) (onReply : O) : Call B O Str := do
  check (checkSendRequest requestSubject uniqueId payload timeout)
  let replySubject := derivedReplySubject requestSubject uniqueId
  modify fun s => {s with requests := s.requests++[replySubject]}
  try
    subscribe env replySubject onReply
    startTimer replySubject timeout
    let message ← check (ofCodec (encodeRequest ⟨replySubject,payload⟩))
    publish env (derivedRequestSubject requestSubject) message
  catch err =>
    endOpenWait env replySubject onReply
    throw err
  endIfClosed env replySubject onReply
  return replySubject

end RequestCalls
end SoftwareBus
