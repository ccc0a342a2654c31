/-!
# Nodes of a cluster

A node sends heartbeats. `NodeState` remembers the last one and judges the next by the interval between
heartbeats and the time after which a silent node counts as lost. Times are instants in milliseconds
after a common start; where one lies before another, nothing has passed between them. Of the unit only
`grace` makes use.

* `NodeState.heartbeat` : a heartbeat arrives;
* `NodeState.evaluate` : the watchdog looks at the node;
* `NodeState.isAlive` : whether the node is heard of often enough.
-/

namespace ManagementPlane

/-- What a node is told by its configuration. -/
structure NodeContext where
  id : String
  /-- The lower of two nodes becomes master. -/
  priority : Nat
  /-- The time between heartbeats. -/
  interval : Nat
  /-- The time after which a silent node is lost. -/
  watchdog : Nat
  deriving DecidableEq, Repr

/-- How a heartbeat or its absence is judged. -/
inductive HeartbeatStatus where
  | onTime
  | late (by' : Nat)
  | missing (by' : Nat)
  deriving DecidableEq, Repr

/-- What is known of a node. -/
structure NodeState where
  context : NodeContext
  lastHeartbeat : Option Nat := none
  isMaster : Bool := false
  /-- How often in a row the watchdog found the node missing. -/
  missed : Nat := 0
  deriving DecidableEq, Repr

namespace NodeState

/-- What is allowed on top of the interval before a heartbeat is late. -/
def grace : Nat := 50

def heartbeat (s : NodeState) (now : Nat) : HeartbeatStatus × NodeState :=
  let status := match s.lastHeartbeat with
    | none => .onTime
    | some last =>
      if now - last ≤ s.context.interval + grace then .onTime
      else .late (now - last - s.context.interval)
  (status, { s with lastHeartbeat := some now, missed := 0 })

def isAlive (s : NodeState) (now : Nat) : Bool :=
  s.lastHeartbeat.any fun last => now - last ≤ s.context.watchdog

/-- How the watchdog judges the node; one that has never sent a heartbeat is missing. -/
def judge (s : NodeState) (now : Nat) : HeartbeatStatus :=
  match s.lastHeartbeat with
  | none => .missing s.context.watchdog
  | some last =>
    if s.context.watchdog < now - last then .missing (now - last - s.context.watchdog) else .onTime

def evaluate (s : NodeState) (now : Nat) : HeartbeatStatus × NodeState :=
  match s.judge now with
  | .missing by' => (.missing by', { s with missed := s.missed + 1 })
  | status => (status, s)

theorem isAlive_eq_true_iff (s : NodeState) (now : Nat) :
    s.isAlive now = true ↔ s.judge now = .onTime := by
  cases h : s.lastHeartbeat with
  | none => simp [isAlive, judge, h]
  | some last => simp [isAlive, judge, h]

theorem evaluate_of_isAlive {s : NodeState} {now : Nat} (h : s.isAlive now = true) :
    s.evaluate now = (.onTime, s) := by
  rw [evaluate, (isAlive_eq_true_iff s now).1 h]

theorem evaluate_of_not_isAlive {s : NodeState} {now : Nat} (h : s.isAlive now = false) :
    ∃ by', s.evaluate now = (.missing by', { s with missed := s.missed + 1 }) := by
  have hjudge : s.judge now ≠ .onTime := by
    rw [Ne, ← isAlive_eq_true_iff, h]
    exact Bool.false_ne_true
  unfold evaluate
  unfold judge at hjudge ⊢
  split at hjudge
  · exact ⟨_, rfl⟩
  · split at hjudge
    · next hlost => exact ⟨_, by rw [if_pos hlost]⟩
    · exact absurd rfl hjudge

end NodeState

end ManagementPlane
