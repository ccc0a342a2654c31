import ManagementPlane.Cluster.Supervisor
import ManagementPlane.Json.Literal

/-!
# Clusters as JSON
-/

namespace ManagementPlane

open Json (Value)

/-- How a heartbeat or its absence is judged, with the milliseconds in question. -/
def HeartbeatStatus.view : HeartbeatStatus → Value
  | onTime => "on_time"
  | late by' => .object [("late", by')]
  | missing by' => .object [("missing", by')]

def FailoverEvent.view (e : FailoverEvent) : Value :=
  .object [("cluster", e.cluster), ("promoted", e.promoted), ("previous", e.previous),
    ("reason", e.reason.label)]

def NodeState.fields (s : NodeState) : List (String × Value) :=
  [("missed", s.missed), ("master", s.isMaster)]

def Supervisor.fields (s : Supervisor) : List (String × Value) :=
  [("master", s.master),
    ("modes", s.nodes.keys.map fun (id : String) => [(id : Value), (s.modeOf id).label, s.isMaster id])]

end ManagementPlane
