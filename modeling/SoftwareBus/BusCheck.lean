import SoftwareBus.SubjectMatcher
import SoftwareBus.Dict
import Mathlib.Logic.Function.Basic

/-! `bus_check`: the links between the bus nodes of a machine, as the operating system lists its
connections, and the cycles among them. -/
namespace SoftwareBus
namespace BusCheck

abbrev Pid := ℤ
abbrev Address := Str × ℤ

/-- `(local, remote)` -/
abbrev Ends := Address × Address

instance lawfulBEq_ends : LawfulBEq Ends := inferInstance

structure Node where
  listening : List Address

/-- One end of a TCP connection, as seen by the process `pid` (none if hidden). -/
structure TcpConnection where
  pid : Option Pid
  localAddress : Address
  remote : Option Address
  listening : Bool

def wildcardHosts : List Str := [[48,46,48,46,48,46,48],[58,58],[]]

def listensOn (node : Node) (address : Address) : Bool :=
  node.listening.any fun listen =>
    decide (address.2 = listen.2) &&
      (decide (address.1 = listen.1) || decide (listen.1 ∈ wildcardHosts))

/-- Strings compare by their first different code point, and a proper beginning comes first. -/
def strLt : Str → Str → Bool
  | _,[] => false
  | [],_::_ => true
  | a::as,b::bs => if a = b then strLt as bs else decide (a < b)

def addressLt (a b : Address) : Bool :=
  if a.1 = b.1 then decide (a.2 < b.2) else strLt a.1 b.1

def endsLt (a b : Ends) : Bool :=
  if a.1 = b.1 then addressLt a.2 b.2 else addressLt a.1 b.1

/-- The ends of connections that are not listening sockets, each with its process. -/
def established (connections : List TcpConnection) : List (Ends × Option Pid) :=
  connections.filterMap fun c =>
    if c.listening then none else c.remote.map fun remote => ((c.localAddress,remote),c.pid)

def nodeItems (nodes : Pid → Option Node) (cs : List (Ends × Option Pid)) : List (Ends × Pid) :=
  cs.filterMap fun c =>
    match c.2 with
    | some pid => if (nodes pid).isSome then some (c.1,pid) else none
    | none => none

structure Links where
  links : List (Pid × Pid)
  uncheckedRemote : ℕ
  hidden : ℕ
  deriving DecidableEq

def isBusLink (nodes : Pid → Option Node) (e : Ends) (pid otherPid : Pid) : Option Bool := do
  let node ← nodes pid
  if listensOn node e.1 then pure true
  else do
    let other ← nodes otherPid
    pure (listensOn other e.2)

/-- The body of the loop over the node ends. -/
def countEnd (nodes : Pid → Option Node) (allEnds hiddenEnds : List Ends)
    (nodeEnds : List (Ends × Pid)) (s : Links) (e : Ends × Pid) : Option Links :=
  match Dict.get nodeEnds e.1.swap with
  | some otherPid => do
    let busLink ← isBusLink nodes e.1 e.2 otherPid
    if busLink && endsLt e.1 e.1.swap then pure { s with links := s.links++[(e.2,otherPid)] }
    else pure s
  | none =>
    if e.1.swap ∈ hiddenEnds then pure { s with hidden := s.hidden+1 }
    else if e.1.swap ∉ allEnds then pure { s with uncheckedRemote := s.uncheckedRemote+1 }
    else pure s

/-- `find_links`; none for a `KeyError`. -/
def findLinks (connections : List TcpConnection) (nodes : Pid → Option Node) : Option Links :=
  let cs := established connections
  let allEnds := cs.map Prod.fst
  let hiddenEnds := (cs.filter fun c => c.2.isNone).map Prod.fst
  let nodeEnds := Dict.ofItems (nodeItems nodes cs)
  nodeEnds.foldlM (countEnd nodes allEnds hiddenEnds nodeEnds) ⟨[],0,0⟩

section Cycles

variable {P : Type} [DecidableEq P]

/-- `root`, which halves the path it follows; none for a `KeyError`, or out of fuel. -/
def root : ℕ → (P → Option P) → P → Option ((P → Option P) × P)
  | 0,_,_ => none
  | fuel+1,parent,pid => do
    let above ← parent pid
    if above = pid then pure (parent,pid)
    else do
      let next ← parent above
      root fuel (Function.update parent pid (some next)) next

/-- One neighbour in `_tree_path`: `came_from` and the queue. -/
def visit (pid : P) (s : (P → Option P) × List P) (neighbour : P) : (P → Option P) × List P :=
  if s.1 neighbour = none then (Function.update s.1 neighbour (some pid),s.2++[neighbour]) else s

/-- The search of `_tree_path`, up to where its queue is empty or `finish` is reached. -/
def search (tree : P → List P) (finish : P) : ℕ → (P → Option P) → List P → Option (P → Option P)
  | _,cameFrom,[] => some cameFrom
  | 0,_,_::_ => none
  | fuel+1,cameFrom,pid::queue =>
    if pid = finish then some cameFrom
    else
      let s := (tree pid).foldl (visit pid) (cameFrom,queue)
      search tree finish fuel s.1 s.2

/-- The way back of `_tree_path`. `path` is kept in reverse, as it is returned. -/
def walkBack (cameFrom : P → Option P) (start : P) : ℕ → P → List P → Option (List P)
  | 0,_,_ => none
  | fuel+1,pid,path =>
    if pid = start then some (pid::path)
    else do
      let before ← cameFrom pid
      walkBack cameFrom start fuel before (pid::path)

def treePath (fuel : ℕ) (tree : P → List P) (start finish : P) : Option (List P) := do
  let cameFrom ← search tree finish fuel (Function.update (fun _ => none) start (some start)) [start]
  walkBack cameFrom start fuel finish []

structure CycleSearch (P : Type) where
  parent : P → Option P
  tree : P → List P
  cycles : List (List P)

def joinTree (tree : P → List P) (a b : P) : P → List P :=
  let tree := Function.update tree a (tree a++[b])
  Function.update tree b (tree b++[a])

/-- The body of the loop over the links. -/
def takeLink (fuel : ℕ) (s : CycleSearch P) (link : P × P) : Option (CycleSearch P) :=
  if link.1 = link.2 then some { s with cycles := s.cycles++[[link.1]] }
  else do
    let (parent,rootA) ← root fuel s.parent link.1
    let (parent,rootB) ← root fuel parent link.2
    if rootA = rootB then do
      let path ← treePath fuel s.tree link.1 link.2
      pure ⟨parent,s.tree,s.cycles++[path]⟩
    else do
      -- the value assigned is worked out before the key it is assigned to
      let (parent,rootB) ← root fuel parent link.2
      let (parent,rootA) ← root fuel parent link.1
      pure ⟨Function.update parent rootA (some rootB),joinTree s.tree link.1 link.2,s.cycles⟩

/-- `find_cycles`; none for a `KeyError`, or out of fuel. -/
def findCycles (fuel : ℕ) (pids : List P) (links : List (P × P)) : Option (List (List P)) := do
  let s ← links.foldlM (takeLink fuel) ⟨fun p => if p ∈ pids then some p else none,fun _ => [],[]⟩
  pure s.cycles

end Cycles
end BusCheck
end SoftwareBus
