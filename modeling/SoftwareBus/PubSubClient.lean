import SoftwareBus.ClientTracking
import SoftwareBus.Registrations

/-! A publish/subscribe client on a base layer client: what its `connect`, `subscribe` and
`unsubscribe` calls do between two points where they wait. `Connection.send` is run by a task of
its own, so a message is written once its task starts; the tasks start in the order they are made
in, and each of them before the call that waits for it resumes, even if that has been cancelled. A
subject too long to encode is refused before anything else, and left out. -/
namespace SoftwareBus

/-- A subscription message that its task has not written yet. -/
structure Outgoing (C K : Type) where
  call : K
  target : C
  subject : Str
  subscribe : Bool

/-- What a call that waits in the base layer client goes on with. -/
inductive SubscriberCall (C O : Type)
  | connect
  /-- The loop of `connect`, with the subjects after the one it sends. -/
  | resubscribe (c : C) (subjects : List Str)
  | subscribe (s : Str) (callback : O)
  | unsubscribe

structure PubSubClient (C K O D : Type) where
  client : BaseLayerClient C K D
  /-- `_subscribe_callbacks` -/
  registrations : Registrations O
  outbox : List (Outgoing C K)
  /-- The subscription messages written to a connection. -/
  written : C → List (Str × Bool)
  /-- The calls that wait, each with the connection whose loop made it, if one did. -/
  calls : K → Option (SubscriberCall C O × Option C)
  /-- The call has been cancelled, and waits for the task of its `Connection.send` to end. -/
  stopped : K → Bool

inductive SubscriberAction (C K O D : Type)
  | connect (k : K) (task : Option C)
  | opened (k : K) (c : C)
  | subscribe (k : K) (task : Option C) (s : Str) (callback : O)
  | unsubscribe (k : K) (task : Option C) (s : Str) (callback : O)
  /-- The next task of a `Connection.send` starts. -/
  | write
  | sent (k : K)
  | stop (k : K)
  /-- Any other step of the base layer client, that of a `publish` or a `close` among them. -/
  | client (a : ClientAction C K D)

/-- The call that a step of a client is about. -/
def ClientAction.call {C K D : Type} : ClientAction C K D → Option K
  | .connect k _ | .opened k _ | .send k _ | .sent k | .sendFailed k | .reported k => some k
  | .close k _ | .closed k | .interrupt k => some k
  | .loop _ _ | .loopFailed _ | .loopReported _ | .loopClosed _ => none

/-- The last of some messages that is about a subject; none counts as unsubscribe. -/
def lastTold (s : Str) (ms : List (Str × Bool)) : Bool :=
  ms.foldl (fun told m => if m.1 = s then m.2 else told) false

namespace PubSubClient

variable {C K O D : Type}

def init : PubSubClient C K O D where
  client := .init
  registrations := .empty
  outbox := []
  written _ := []
  calls _ := none
  stopped _ := false

variable [DecidableEq C] [DecidableEq K] [DecidableEq O]

def endCall (s : PubSubClient C K O D) (k : K) : PubSubClient C K O D :=
  {s with calls := Function.update s.calls k none, stopped := Function.update s.stopped k false}

/-- The task of the call's `Connection.send`, if it has one, has started. -/
def hasWritten (s : PubSubClient C K O D) (k : K) : Bool :=
  s.outbox.all fun e => decide (e.call ≠ k)

/-- `BaseLayerClient.send`, up to where it waits; none if it raises `RuntimeError`. -/
def send (s : PubSubClient C K O D) (k : K) (task : Option C) (u : Str) (subscribe : Bool)
    (call : SubscriberCall C O) : Option (PubSubClient C K O D) :=
  s.client.connection.map fun c => {s with
    client := s.client.setCall k (.sending c) task
    outbox := s.outbox++[⟨k,c,u,subscribe⟩]
    calls := Function.update s.calls k (some (call,task))}

/-- The loop of `connect` for the connection it has made. -/
def resubscribe (s : PubSubClient C K O D) (k : K) (task : Option C) (c : C) :
    List Str → PubSubClient C K O D
  | [] => s.endCall k
  | u::us =>
    if s.registrations.callbacks u ≠ [] then
      (s.send k task u true (.resubscribe c us)).getD (s.endCall k)
    else s.resubscribe k task c us

/-- A call raises what its `send` or its `BaseLayerClient.connect` has raised. -/
def raise (s : PubSubClient C K O D) (k : K) : PubSubClient C K O D :=
  match s.calls k with
  | some (.subscribe u o,_) => {s.endCall k with registrations := s.registrations.remove u o}
  | _ => s.endCall k

def canCall (s : PubSubClient C K O D) (k : K) (task : Option C) : Bool :=
  (s.client.calls k).isNone && (s.calls k).isNone && s.client.canCall task

/-- A step of the base layer client, and what a call does that it ends. -/
def follow (s : PubSubClient C K O D) (a : ClientAction C K D) (b : BaseLayerClient C K D) :
    PubSubClient C K O D :=
  match a.call with
  | none => {s with client := b}
  | some k =>
    if (s.calls k).isSome ∧ (b.calls k).isNone then {s with client := b}.raise k
    else {s with client := b}

def other (s : PubSubClient C K O D) : ClientAction C K D → Bool
  | .connect _ _ | .opened _ _ => false
  | .send k _ | .close k _ | .sent k => (s.calls k).isNone
  | .sendFailed k => !s.stopped k
  | _ => true

def step (s : PubSubClient C K O D) : SubscriberAction C K O D → Option (PubSubClient C K O D)
  | .connect k task =>
    if s.canCall k task = true then
      (s.client.step (.connect k task)).map fun b =>
        if (b.calls k).isSome then
          {s with client := b, calls := Function.update s.calls k (some (.connect,task))}
        else {s with client := b}
    else none
  | .opened k c =>
    match s.calls k with
    | some (.connect,task) =>
      (s.client.step (.opened k c)).map fun b =>
        if (b.calls k).isSome then {s with client := b}
        else {s with client := b}.resubscribe k task c (s.registrations.items.map Prod.fst)
    | _ => none
  | .subscribe k task u o =>
    if s.canCall k task = true then
      let t := {s with registrations := s.registrations.register u o}
      some (if s.registrations.callbacks u = [] then
          (t.send k task u true (.subscribe u o)).getD
            {t with registrations := t.registrations.remove u o}
        else t)
    else none
  | .unsubscribe k task u o =>
    if s.canCall k task = true then
      let t := {s with registrations := s.registrations.remove u o}
      some (if s.registrations.isLast u o = true then
          (t.send k task u false .unsubscribe).getD t
        else t)
    else none
  | .write =>
    match s.outbox with
    | [] => none
    | e::es => some {s with
        outbox := es
        written := Function.update s.written e.target (s.written e.target++[(e.subject,e.subscribe)])}
  | .sent k =>
    match s.calls k with
    | some (call,task) =>
      if s.stopped k = false ∧ s.hasWritten k = true then
        (s.client.step (.sent k)).map fun b =>
          match call with
          | .resubscribe c us => {s with client := b}.resubscribe k task c us
          | _ => {s with client := b}.endCall k
      else none
    | none => none
  | .stop k =>
    if (s.calls k).isSome ∧ (s.client.sending k).isSome ∧ s.hasWritten k = true then
      some {s with stopped := Function.update s.stopped k true}
    else none
  | .client a =>
    if s.other a = true ∧ a.call.all s.hasWritten = true then (s.client.step a).map (s.follow a)
    else none

end PubSubClient
end SoftwareBus
