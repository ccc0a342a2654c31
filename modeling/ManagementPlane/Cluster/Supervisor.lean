import ManagementPlane.Cluster.Node
import ManagementPlane.Data.OrderedMap
import ManagementPlane.Mode

/-!
# Who is master

`Supervisor` keeps the nodes of a cluster and elects one of them master: of the nodes that are alive
the one of least priority, and of several such the one whose id comes first.

* `register`, `heartbeat` : nodes join and are heard of;
* `evaluate` : a master that is lost gives way to another node, if one is alive;
* `promote` : a node becomes master by request.
-/

namespace ManagementPlane

/-- Why a node became master. -/
inductive FailoverReason where
  | startup
  | manual
  | heartbeatTimeout
  | missing
  deriving DecidableEq, Repr

def FailoverReason.label : FailoverReason → String
  | startup => "startup"
  | manual => "manual"
  | heartbeatTimeout => "heartbeat-timeout"
  | missing => "missing"

/-- A node became master. -/
structure FailoverEvent where
  cluster : String
  promoted : String
  previous : Option String
  reason : FailoverReason
  deriving DecidableEq, Repr

/-- The nodes of a cluster and its master. -/
structure Supervisor where
  cluster : String
  master : Option String := none
  nodes : OrderedMap String NodeState := ∅

namespace Supervisor

def modify (s : Supervisor) (id : String) (f : NodeState → NodeState) : Supervisor :=
  match s.nodes.get? id with
  | some n => { s with nodes := s.nodes.insert id (f n) }
  | none => s

def register (s : Supervisor) (context : NodeContext) : Supervisor :=
  match s.nodes.get? context.id with
  | some n => { s with nodes := s.nodes.insert context.id { n with context } }
  | none => { s with nodes := s.nodes.insert context.id { context } }

/-- A heartbeat arrives; one of an unknown node is missing. -/
def heartbeat (s : Supervisor) (id : String) (now : Nat) : HeartbeatStatus × Supervisor :=
  match s.nodes.get? id with
  | none => (.missing 0, s)
  | some n =>
    let (status, n) := n.heartbeat now
    (status, { s with nodes := s.nodes.insert id n })

def isMaster (s : Supervisor) (id : String) : Bool := s.master = some id

def modeOf (s : Supervisor) (id : String) : ManagementMode :=
  if s.isMaster id then .master else .hotStandby

/-! ## Election -/

def precedes (a b : NodeContext) : Bool :=
  a.priority < b.priority || (a.priority = b.priority && a.id < b.id)

def best : List NodeState → Option NodeState
  | [] => none
  | n :: r =>
    match best r with
    | none => some n
    | some m => some (if precedes m.context n.context then m else n)

/-- The nodes that may become master: those that are alive, are no master and are not excluded. -/
def candidates (s : Supervisor) (now : Nat) (excluded : Option String) : List NodeState :=
  s.nodes.values.filter fun n =>
    !n.isMaster && excluded ≠ some n.context.id && n.isAlive now

def activate (s : Supervisor) (id : String) (reason : FailoverReason) :
    FailoverEvent × Supervisor :=
  let demoted := match s.master with
    | some old => s.modify old fun n => { n with isMaster := false }
    | none => s
  ({ cluster := s.cluster, promoted := id, previous := s.master, reason },
    { demoted.modify id fun n => { n with isMaster := true } with master := some id })

/-- Make the best candidate master; without one the cluster has no master. -/
def promoteNext (s : Supervisor) (now : Nat) (reason : FailoverReason) (excluded : Option String) :
    Option FailoverEvent × Supervisor :=
  match best (s.candidates now excluded) with
  | none => (none, { s with master := none })
  | some n =>
    let (event, s) := s.activate n.context.id reason
    (some event, s)

def evaluate (s : Supervisor) (now : Nat) : Option FailoverEvent × Supervisor :=
  match s.master with
  | none => s.promoteNext now .startup none
  | some id =>
    match s.nodes.get? id with
    | none => s.promoteNext now .missing (some id)
    | some n =>
      match n.evaluate now with
      | (.missing _, n) =>
        { s with nodes := s.nodes.insert id { n with isMaster := false } }.promoteNext now
          .heartbeatTimeout (some id)
      | (_, n) => (none, { s with nodes := s.nodes.insert id n })

/-- Make a node master by request; nothing happens if it is unknown. -/
def promote (s : Supervisor) (id : String) : Option FailoverEvent × Supervisor :=
  if s.nodes.contains id then
    let (event, s) := s.activate id .manual
    (some event, s)
  else (none, s)

end Supervisor

end ManagementPlane
