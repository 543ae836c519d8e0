import SoftwareBus.SubjectMatcher

/-! The messages of the publish/subscribe layer, as `decode_message` returns them.
Node IDs, query IDs and payloads are opaque to the routing and the cycle check. -/
namespace SoftwareBus

inductive ReachabilityResult
  | notFound | found | unknown
  deriving DecidableEq

inductive Message (I Q P : Type)
  | subscription (subject : Str) (subscribe : Bool)
  | publish (subject : Str) (payload : P)
  | hello (nodeId : I)
  | query (queryId : Q) (targetNodeId : I)
  | reply (queryId : Q) (result : ReachabilityResult)
  deriving DecidableEq

namespace Message

variable {I Q P : Type}

def queryId : Message I Q P → Option Q
  | .query q _ | .reply q _ => some q
  | _ => none

def isQuery [DecidableEq Q] (q : Q) : Message I Q P → Bool
  | .query q' _ => decide (q' = q)
  | _ => false

def isReply [DecidableEq Q] (q : Q) : Message I Q P → Bool
  | .reply q' _ => decide (q' = q)
  | _ => false

/-- What a message tells about a subject, if it is a subscription message for it. -/
def about (s : Str) : Message I Q P → Option Bool
  | .subscription t b => if t = s then some b else none
  | _ => none

/-- The last thing a sequence of messages tells about a subject; `d` if nothing. -/
def lastSaid (d : Bool) (s : Str) (ms : List (Message I Q P)) : Bool :=
  ((ms.filterMap (about s)).getLast?).getD d

@[simp] theorem lastSaid_nil (d : Bool) (s : Str) : lastSaid d s ([] : List (Message I Q P)) = d :=
  rfl

theorem lastSaid_append (d : Bool) (s : Str) (ms ns : List (Message I Q P)) :
    lastSaid d s (ms++ns) = lastSaid (lastSaid d s ms) s ns := by
  simp only [lastSaid,List.filterMap_append,List.getLast?_append]
  cases (ns.filterMap (about s)).getLast? <;> simp

theorem lastSaid_cons (d : Bool) (s : Str) (m : Message I Q P) (ms : List (Message I Q P)) :
    lastSaid d s (m::ms) = lastSaid ((about s m).getD d) s ms := by
  have h := lastSaid_append d s [m] ms
  rw [List.singleton_append] at h
  rw [h]
  congr 1
  cases hm : about s m <;> simp [lastSaid,hm]

end Message
end SoftwareBus
