import ManagementPlane.Cluster.Node
import ManagementPlane.Pass.Basic
import ManagementPlane.Text.Blank
import ManagementPlane.Text.Span

/-!
# The configuration of a node

`AppConfig` has a section for each concern; what is not configured has a default.

* `HaConfig.validate`, `AppConfig.validate` : what is asked of a configuration beyond its form;
* `AppConfig.rebindSettings`, `HaConfig.nodeContext`, `AppConfig.nodeContext` : what passes and the cluster take from it.
-/

namespace ManagementPlane

/-- Where persisted state lives and what takes part in it. -/
structure PersistenceConfig where
  directory : String := "target/trellis-state"
  features : Features := {}
  inferCatalogItem : Bool := true
  deriving DecidableEq, Repr

/-- Where the catalog is taken from. -/
structure CatalogConfig where
  loadMode : CatalogLoadMode := .defaultCatalogIfNoPersistedState
  defaultSource : Option String := none
  deriving DecidableEq, Repr

/-- What the default handler does about problems. -/
structure RebindConfig where
  failureMode : FailureMode := .failAtEnd
  danglingMode : FailureMode := .carryOn
  deriving DecidableEq, Repr

/-- How a node takes part in elections; times in milliseconds. -/
structure HaConfig where
  priority : Nat := 0
  interval : Nat := 500
  watchdog : Nat := 2000
  deriving DecidableEq, Repr

/-- How log entries are written. -/
inductive LogFormat where
  | structuredJson
  | pretty
  deriving DecidableEq, Repr, Inhabited

namespace LogFormat

def label : LogFormat → String
  | structuredJson => "structured-json"
  | pretty => "pretty"

def ofLabel? (s : String) : Option LogFormat := [structuredJson, pretty].find? fun f => f.label = s

end LogFormat

/-- Where and how log entries are written. -/
structure LoggingConfig where
  directory : String := "target/logs"
  format : LogFormat := .structuredJson
  filePrefix : Option String := none
  level : String := "info"
  deriving DecidableEq, Repr

/-- The configuration of a node. -/
structure AppConfig where
  nodeId : String := "trellis-node"
  mode : ManagementMode := .master
  persistence : PersistenceConfig := {}
  catalog : CatalogConfig := {}
  rebind : RebindConfig := {}
  ha : HaConfig := {}
  logging : LoggingConfig := {}
  metrics : Bool := true
  deriving DecidableEq, Repr

/-- What is wrong with the text of a configuration. -/
inductive ConfigFault where
  /-- It is no document of the right form. -/
  | malformed
  /-- The node has no name. -/
  | namelessNode
  /-- The watchdog would bark between two heartbeats. -/
  | watchdogTooShort (watchdog interval : Nat)
  deriving DecidableEq, Repr

def ConfigFault.message : ConfigFault → String
  | malformed => "not a configuration in TOML"
  | namelessNode => "configuration must name the management node"
  | watchdogTooShort watchdog interval =>
    "ha watchdog timeout (" ++ Text.span watchdog ++ ") must exceed the heartbeat interval ("
      ++ Text.span interval ++ ")"

namespace HaConfig

/-- The watchdog has to wait for longer than the time between heartbeats. -/
def validate (c : HaConfig) : Except ConfigFault HaConfig :=
  if c.watchdog ≤ c.interval then .error (.watchdogTooShort c.watchdog c.interval) else .ok c

def nodeContext (c : HaConfig) (id : String) : NodeContext where
  id := id
  priority := c.priority
  interval := c.interval
  watchdog := c.watchdog

end HaConfig

namespace AppConfig

/-- A configuration that names its node and takes part in elections as it should. -/
def validate (c : AppConfig) : Except ConfigFault AppConfig :=
  if Text.isBlankText c.nodeId then .error .namelessNode
  else c.ha.validate.map fun _ => c

def rebindSettings (c : AppConfig) : RebindSettings where
  features := c.persistence.features
  inferCatalogItem := c.persistence.inferCatalogItem
  catalogLoadMode := c.catalog.loadMode
  failureMode := c.rebind.failureMode
  danglingMode := c.rebind.danglingMode

def nodeContext (c : AppConfig) : NodeContext := c.ha.nodeContext c.nodeId

end AppConfig

end ManagementPlane
