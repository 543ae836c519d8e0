import SoftwareBus.Registrations
import SoftwareBus.ReplySubjects
import SoftwareBus.RequestLife

/-! The requests of a request/reply client, whose calls, timers and receive loops are tasks that
take turns where they wait. A task is the stack of the calls it is in. A step is no more than what
a task does from one wait to the next, and often less. -/
namespace SoftwareBus

/-- The timer of a request: none has been started, or it has not fired, or it is over. -/
inductive RequestTimer
  | absent | running | cancelled | fired
  deriving DecidableEq

structure PendingRequest where
  timer : RequestTimer
  sending : Bool
  closedMeanwhile : Option ReplyStatus
  ended : Bool

inductive TaskError
  /-- An `OSError` or a `RuntimeError`. -/
  | notSent
  /-- Any other `Exception`. -/
  | other
  | cancelled
  deriving DecidableEq

/-- What `_end_all_without_reply` is called for. -/
inductive EndingAll (C : Type)
  | close
  /-- The error of a connection. -/
  | lost (c : C)
  deriving DecidableEq

def EndingAll.status {C : Type} : EndingAll C → ReplyStatus
  | .close => .closed
  | .lost _ => .connectionLost

/-- A call that a task is in, and what it waits for or has still to do. A request goes by its reply
subject. -/
inductive RequestFrame (C : Type)
  /-- Code of the application. -/
  | code
  /-- The received reply callback of a request. -/
  | callback (r : Str) (status : ReplyStatus)
  /-- `BaseLayerClient.send` -/
  | send (c : C)
  /-- `send_request`: the rest, from the end of `subscribe` on. -/
  | subscribing (r requestSubject : Str) (timed : Bool)
  /-- `send_request`: the rest, from the end of `publish` on. -/
  | publishing (r : Str)
  /-- `send_request`: the end of the `except`, and the `finally`. -/
  | failing (r : Str) (err : TaskError)
  /-- `send_request`: the return. -/
  | returning (r : Str)
  /-- `_unsubscribe_quietly` -/
  | unsubscribing
  /-- `_end_without_reply`: the call of the callback. -/
  | ending (r : Str) (status : ReplyStatus)
  /-- `_end_all_without_reply`: the rest of the loop. -/
  | endingAll (rs : List Str) (why : EndingAll C)
  /-- `BaseLayerClient.close`, with the connection being closed. -/
  | closing
  /-- `_on_connection_error`, in the connection error callback. -/
  | reporting (c : C)
  /-- A publish that is to be given to `_deliver`. -/
  | published (subject : Str)
  /-- `_deliver`: the rest of the loop over the subjects. -/
  | delivering (subjects : List Str)
  /-- `_deliver`: the rest of the loop over the callbacks of a subject. -/
  | replying (rs : List Str)
  /-- `_receive_loop` -/
  | receiving (c : C)
  /-- An error that leaves the call above. -/
  | raising (err : TaskError)
  deriving DecidableEq

namespace RequestFrame

variable {C : Type}

def isCode : RequestFrame C → Bool
  | .code | .callback _ _ => true
  | _ => false

def delivers : RequestFrame C → Bool
  | .delivering _ | .replying _ => true
  | _ => false

end RequestFrame

inductive RequestOutcome
  | returned | raised
  deriving DecidableEq

structure RequestTasks (C K : Type) where
  /-- `BaseLayerClient.connection` -/
  connection : Option C
  /-- The connections that have been made. -/
  connections : List C
  /-- What `_subscribe_callbacks` holds of requests: their `on_reply` callbacks. -/
  registrations : Registrations Str
  /-- The keys of `_requests`. -/
  requests : List Str
  /-- The requests that have been made. -/
  made : Str → Bool
  request : Str → PendingRequest
  stack : K → List (RequestFrame C)
  events : Str → List RequestEvent
  /-- How the `send_request` of a request has ended. -/
  outcome : Str → Option RequestOutcome
  /-- The connections that something of a request has been sent on. -/
  sentOn : Str → List C
  /-- A `close` has returned since the request was made. -/
  closed : Str → Bool
  /-- The error of the connection has been handled, to the end. -/
  handled : C → Bool

inductive RequestAction (C K : Type)
  /-- A task of the application starts. -/
  | begin (k : K)
  /-- With parameters that pass the checks; `timed` if the timeout is not 0. -/
  | sendRequest (k : K) (requestSubject uniqueId : Str) (timed : Bool)
  | cancelRequest (k : K) (r : Str)
  | close (k : K)
  /-- A connection is made, with its receive loop `l`. -/
  | connect (k : K) (c : C) (l : K)
  /-- Any publish by the application, so any reply. -/
  | publish (k : K) (subject : Str)
  /-- Anything else that the application sends. -/
  | send (k : K)
  /-- The application returns to its caller. -/
  | returns (k : K) (value : Bool)
  | raises (k : K) (err : TaskError)
  | sent (k : K)
  | sendFailed (k : K)
  | receive (k : K) (subject : Str)
  | receiveFailed (k : K)
  /-- `_deliver` calls a callback that belongs to no request. -/
  | subscriber (k : K)
  /-- A timer fires; `k` is its task. -/
  | fire (k : K) (r : Str)
  /-- The task is cancelled. -/
  | cancel (k : K)
  /-- The task goes on where no call of it waits. -/
  | resume (k : K)

namespace RequestTasks

open SubjectMatcher

variable {C K : Type}

def init : RequestTasks C K where
  connection := none
  connections := []
  registrations := .empty
  requests := []
  made _ := false
  request _ := ⟨.absent,false,none,false⟩
  stack _ := []
  events _ := []
  outcome _ := none
  sentOn _ := []
  closed _ := false
  handled _ := false

def sendFrames (s : RequestTasks C K) : List (RequestFrame C) :=
  match s.connection with
  | none => [.raising .notSent]
  | some c => [.send c]

def noteSent (s : RequestTasks C K) (r : Str) : RequestTasks C K :=
  {s with sentOn := Function.update s.sentOn r (s.sentOn r++s.connection.toList)}

def makeRequest (s : RequestTasks C K) (r : Str) : RequestTasks C K :=
  {s with
    registrations := s.registrations.register r r
    requests := s.requests++[r]
    made := Function.update s.made r true
    request := Function.update s.request r ⟨.absent,true,none,false⟩}

def unregister (s : RequestTasks C K) (r : Str) : RequestTasks C K :=
  {s with registrations := s.registrations.remove r r}

def setRequest (s : RequestTasks C K) (r : Str) (q : PendingRequest) : RequestTasks C K :=
  {s with request := Function.update s.request r q}

def note (s : RequestTasks C K) (r : Str) (e : RequestEvent) : RequestTasks C K :=
  {s with events := Function.update s.events r (s.events r++[e])}

/-- The `finally` of `send_request`, and its end. -/
def finish (s : RequestTasks C K) (r : Str) (o : RequestOutcome) : RequestTasks C K :=
  {s.setRequest r {s.request r with sending := false} with
    outcome := Function.update s.outcome r (some o)}

def startTimer (s : RequestTasks C K) (r : Str) : RequestTasks C K :=
  s.setRequest r {s.request r with timer := .running}

def stopTimer : RequestTimer → RequestTimer
  | .running => .cancelled
  | t => t

/-- `_end_wait`, up to where it tells the node. -/
def endWait (s : RequestTasks C K) (r : Str) (why : EndOfWait) : RequestTasks C K :=
  let q := {s.request r with ended := true, timer := stopTimer (s.request r).timer}
  {((s.setRequest r q).unregister r).note r (.ended why) with requests := s.requests.erase r}

def endWaitFrames (s : RequestTasks C K) (r : Str) : List (RequestFrame C) :=
  if s.registrations.isLast r r then s.sendFrames++[.unsubscribing] else []

def flag (s : RequestTasks C K) (r : Str) (status : ReplyStatus) : RequestTasks C K :=
  s.setRequest r {s.request r with closedMeanwhile := some status}

/-- `_deliver`: the subscribed subjects that a publish matches. -/
def subscribed (s : RequestTasks C K) (subject : Str) : List Str :=
  (s.registrations.items.map Prod.fst).filter (patternMatch subject)

def noteClosed (s : RequestTasks C K) : RequestTasks C K :=
  {s with closed := fun r => s.closed r || s.made r}

variable [DecidableEq K]

def setStack (s : RequestTasks C K) (k : K) (fs : List (RequestFrame C)) : RequestTasks C K :=
  {s with stack := Function.update s.stack k fs}

/-- The `except` of `send_request`. -/
def fail (s : RequestTasks C K) (k : K) (r : Str) (err : TaskError) (fs : List (RequestFrame C)) :
    RequestTasks C K :=
  if (s.request r).ended then s.setStack k (.failing r err::fs)
  else (s.endWait r .failed).setStack k (s.endWaitFrames r++.failing r err::fs)

def endWithoutReply (s : RequestTasks C K) (k : K) (r : Str) (status : ReplyStatus)
    (fs : List (RequestFrame C)) : RequestTasks C K :=
  (s.endWait r (.without status)).setStack k (s.endWaitFrames r++.ending r status::fs)

/-- What an error does to the call it reaches. -/
def raise (s : RequestTasks C K) (k : K) (err : TaskError) (f : RequestFrame C)
    (fs : List (RequestFrame C)) : RequestTasks C K :=
  match f with
  -- the application may catch it
  | .code | .callback _ _ => s.setStack k (f::fs)
  | .subscribing r _ _ => (s.unregister r).fail k r err fs
  | .publishing r => s.fail k r err fs
  | .failing r _ | .returning r => (s.finish r .raised).setStack k (.raising err::fs)
  | .unsubscribing => s.setStack k (if err = .notSent then fs else .raising err::fs)
  -- `_call_logging_failure` of the base layer client
  | .endingAll _ (.lost _) => s.setStack k (if err = .cancelled then .raising err::fs else fs)
  | .reporting _ | .delivering _ | .replying _ =>
    s.setStack k (if err = .cancelled then .raising err::fs else f::fs)
  | .receiving _ => s.setStack k (if err = .cancelled then fs else f::fs)
  | .send _ | .ending _ _ | .endingAll _ .close | .closing | .published _ | .raising _ =>
    s.setStack k (.raising err::fs)

variable [DecidableEq C]

/-- What a task does next in a call that does not wait. -/
def resume (s : RequestTasks C K) (k : K) (f : RequestFrame C) (fs : List (RequestFrame C)) :
    Option (RequestTasks C K) :=
  match f with
  | .code | .callback _ _ | .send _ | .receiving _ => none
  | .subscribing r requestSubject timed =>
    let t := if timed then s.startTimer r else s
    some ((t.noteSent r).setStack k
      (s.sendFrames++.published (derivedRequestSubject requestSubject)::.publishing r::fs))
  | .publishing r =>
    let t := s.setRequest r {s.request r with sending := false}
    match (s.request r).closedMeanwhile,(s.request r).ended with
    | some status,false => some (t.endWithoutReply k r status (.returning r::fs))
    | _,_ => some ((s.finish r .returned).setStack k fs)
  | .failing r err => some ((s.finish r .raised).setStack k (.raising err::fs))
  | .returning r => some ((s.finish r .returned).setStack k fs)
  | .unsubscribing => some (s.setStack k fs)
  | .ending r status => some ((s.note r (.called status)).setStack k (.callback r status::fs))
  | .endingAll [] .close =>
    if s.connection.isSome then some (s.setStack k (.closing::fs))
    else some (s.noteClosed.setStack k fs)
  | .endingAll [] (.lost c) => some (s.setStack k (.code::.reporting c::fs))
  | .endingAll (r::rs) why =>
    if (s.request r).ended then some (s.setStack k (.endingAll rs why::fs))
    else if (s.request r).sending then
      some ((s.flag r why.status).setStack k (.endingAll rs why::fs))
    else some (s.endWithoutReply k r why.status (.endingAll rs why::fs))
  | .closing => some ({s.noteClosed with connection := none}.setStack k fs)
  | .reporting c => some ({s with handled := Function.update s.handled c true}.setStack k fs)
  | .published subject => some (s.setStack k (.delivering (s.subscribed subject)::fs))
  | .delivering [] => some (s.setStack k fs)
  | .delivering (subject::subjects) =>
    some (s.setStack k (.replying (s.registrations.callbacks subject)::.delivering subjects::fs))
  | .replying [] => some (s.setStack k fs)
  | .replying (r::rs) =>
    if (s.request r).ended then some (s.setStack k (.replying rs::fs))
    else some ((s.note r (.called .reply)).setStack k (.callback r .reply::.replying rs::fs))
  | .raising err =>
    match fs with
    | [] => some (s.setStack k [])
    | f::fs => some (s.raise k err f fs)

/-- `_handle_connection_error`, up to where it ends the requests. -/
def loseConnection (s : RequestTasks C K) (c : C) : RequestTasks C K :=
  if s.connection = some c then {s with connection := none} else s

def lossFrames (s : RequestTasks C K) (c : C) : List (RequestFrame C) :=
  if s.connection = some c then [.endingAll s.requests (.lost c)] else []

def step (s : RequestTasks C K) : RequestAction C K → Option (RequestTasks C K)
  | .begin k => if s.stack k = [] then some (s.setStack k [.code]) else none
  | .sendRequest k requestSubject uniqueId timed =>
    let r := derivedReplySubject requestSubject uniqueId
    let t := (s.makeRequest r).noteSent r
    match s.stack k with
    | f::fs =>
      -- a unique id is never used twice
      if f.isCode ∧ isUniqueId uniqueId ∧ s.made r = false then
        match s.connection with
        | some c => some (t.setStack k (.send c::.subscribing r requestSubject timed::f::fs))
        | none =>
          -- all of this before the first wait
          some ((((t.unregister r).endWait r .failed).finish r .raised).setStack k
            (.raising .notSent::f::fs))
      else none
    | [] => none
  | .cancelRequest k r =>
    match s.stack k with
    | f::fs =>
      if f.isCode then
        if r ∈ s.requests ∧ (s.request r).ended = false then
          some ((s.endWait r .cancelled).setStack k (s.endWaitFrames r++f::fs))
        else some s
      else none
    | [] => none
  | .close k =>
    match s.stack k with
    | f::fs => if f.isCode then some (s.setStack k (.endingAll s.requests .close::f::fs)) else none
    | [] => none
  | .connect k c l =>
    match s.stack k with
    | f::_ =>
      if f.isCode ∧ s.connection = none ∧ c ∉ s.connections ∧ s.stack l = [] then
        some ({s with connection := some c, connections := c::s.connections}.setStack l
          [.receiving c])
      else none
    | [] => none
  | .publish k subject =>
    match s.stack k with
    | f::fs =>
      if f.isCode then some (s.setStack k (s.sendFrames++.published subject::f::fs)) else none
    | [] => none
  | .send k =>
    match s.stack k with
    | f::fs => if f.isCode then some (s.setStack k (s.sendFrames++f::fs)) else none
    | [] => none
  | .returns k value =>
    match s.stack k with
    | .code::fs => some (s.setStack k fs)
    | .callback r .reply::fs =>
      if value ∧ (s.request r).ended = false then
        some ((s.endWait r .accepted).setStack k (s.endWaitFrames r++fs))
      else some (s.setStack k fs)
    | .callback _ _::fs => some (s.setStack k fs)
    | _ => none
  | .raises k err =>
    match s.stack k with
    | .code::fs => some (s.setStack k (.raising err::fs))
    | .callback _ _::fs => some (s.setStack k (if err = .cancelled then .raising err::fs else fs))
    | _ => none
  | .sent k =>
    match s.stack k with
    | .send _::fs => some (s.setStack k fs)
    | _ => none
  | .sendFailed k =>
    match s.stack k with
    | .send c::fs => some ((s.loseConnection c).setStack k (s.lossFrames c++.raising .notSent::fs))
    | _ => none
  | .receive k subject =>
    match s.stack k with
    | .receiving c::fs => some (s.setStack k (.published subject::.receiving c::fs))
    | _ => none
  | .receiveFailed k =>
    match s.stack k with
    | .receiving c::fs => some ((s.loseConnection c).setStack k (s.lossFrames c++fs))
    | _ => none
  | .subscriber k =>
    match s.stack k with
    | f::fs => if f.delivers then some (s.setStack k (.code::f::fs)) else none
    | [] => none
  | .fire k r =>
    if s.stack k = [] ∧ (s.request r).timer = .running then
      let t := s.setRequest r {s.request r with timer := .fired}
      some (if (s.request r).ended then t else t.endWithoutReply k r .timedOut [])
    else none
  | .cancel k =>
    match s.stack k with
    | f::fs => some (s.setStack k (.raising .cancelled::f::fs))
    | [] => none
  | .resume k =>
    match s.stack k with
    | f::fs => s.resume k f fs
    | [] => none

end RequestTasks
end SoftwareBus
