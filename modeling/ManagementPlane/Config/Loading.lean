import ManagementPlane.Config.Basic
import ManagementPlane.Files.Tree
import ManagementPlane.Toml.Document

/-!
# Reading and finding the configuration

* `AppConfig.parse` : the configuration in a text;
* `AppConfig.load` : the configuration in the file that the environment names, or else in the first of
  some files that exists;
* `ConfigError.chain` : why there is none, outermost reason first.
-/

namespace ManagementPlane

open Toml (Value Record)

/-! ## Reading -/

def Features.ofToml? (v : Value) : Option Features := do
  let r ← v.record? ["catalog_items", "policies", "enrichers", "feeds"]
  some {
    catalogItems := ← r.default? "catalog_items" true Value.bool?
    policies := ← r.default? "policies" true Value.bool?
    enrichers := ← r.default? "enrichers" true Value.bool?
    feeds := ← r.default? "feeds" true Value.bool? }

def PersistenceConfig.ofToml? (v : Value) : Option PersistenceConfig := do
  let r ← v.record? ["directory", "features", "infer_catalog_item_on_rebind"]
  let d : PersistenceConfig := {}
  some {
    directory := ← r.default? "directory" d.directory Value.text?
    features := ← r.default? "features" d.features Features.ofToml?
    inferCatalogItem :=
      ← r.default? "infer_catalog_item_on_rebind" d.inferCatalogItem Value.bool? }

def CatalogConfig.ofToml? (v : Value) : Option CatalogConfig := do
  let r ← v.record? ["load_mode", "default_source"]
  let d : CatalogConfig := {}
  some {
    loadMode := ← r.default? "load_mode" d.loadMode (Value.choice? CatalogLoadMode.ofLabel?)
    defaultSource := ← r.optional? "default_source" Value.text? }

def RebindConfig.ofToml? (v : Value) : Option RebindConfig := do
  let r ← v.record? ["failure_mode", "dangling_ref_failure_mode"]
  let d : RebindConfig := {}
  let mode := Value.choice? FailureMode.ofLabel?
  some {
    failureMode := ← r.default? "failure_mode" d.failureMode mode
    danglingMode := ← r.default? "dangling_ref_failure_mode" d.danglingMode mode }

def HaConfig.ofToml? (v : Value) : Option HaConfig := do
  let r ← v.record? ["priority", "heartbeat_interval_ms", "watchdog_timeout_ms"]
  let d : HaConfig := {}
  some {
    priority := ← r.default? "priority" d.priority (Value.natural? UInt32.size)
    interval := ← r.default? "heartbeat_interval_ms" d.interval (Value.natural? UInt64.size)
    watchdog := ← r.default? "watchdog_timeout_ms" d.watchdog (Value.natural? UInt64.size) }

def LoggingConfig.ofToml? (v : Value) : Option LoggingConfig := do
  let r ← v.record? ["directory", "format", "file_prefix", "level"]
  let d : LoggingConfig := {}
  some {
    directory := ← r.default? "directory" d.directory Value.text?
    format := ← r.default? "format" d.format (Value.choice? LogFormat.ofLabel?)
    filePrefix := ← r.optional? "file_prefix" Value.text?
    level := ← r.default? "level" d.level Value.text? }

namespace AppConfig

/-- The section on metrics: whether they are reported. -/
def metricsOfToml? (v : Value) : Option Bool := do
  (← v.record? ["enabled"]).default? "enabled" true Value.bool?

def ofToml? (v : Value) : Option AppConfig := do
  let r ← v.record? []
  let d : AppConfig := {}
  some {
    nodeId := ← r.default? "node_id" d.nodeId Value.text?
    mode := ← r.default? "mode" d.mode (Value.choice? ManagementMode.ofLabel?)
    persistence := ← r.default? "persistence" d.persistence PersistenceConfig.ofToml?
    catalog := ← r.default? "catalog" d.catalog CatalogConfig.ofToml?
    rebind := ← r.default? "rebind" d.rebind RebindConfig.ofToml?
    ha := ← r.default? "ha" d.ha HaConfig.ofToml?
    logging := ← r.default? "logging" d.logging LoggingConfig.ofToml?
    metrics := ← r.default? "metrics" d.metrics metricsOfToml? }

def parse (text : String) : Except ConfigFault AppConfig :=
  match (Toml.parse? text).bind ofToml? with
  | none => .error .malformed
  | some c => c.validate

end AppConfig

/-! ## Finding -/

/-- Why there is no configuration. -/
inductive ConfigError where
  | faulty (fault : ConfigFault)
  | faultyFile (path : String) (fault : ConfigFault)
  | unreadableFile (path : String) (error : FileError)
  | noFile (inspected : List String)
  deriving DecidableEq, Repr

/-- The reasons, outermost first. `malformed` is the wording for a text that is no configuration, and
`unreadable` the one for a file that cannot be read. -/
def ConfigError.chain (malformed : String) (unreadable : FileError → String) :
    ConfigError → List String :=
  let wording (f : ConfigFault) : String := if f = .malformed then malformed else f.message
  fun
  | faulty f => [wording f]
  | faultyFile path f => ["failed to parse config file " ++ path, wording f]
  | unreadableFile path e => ["unable to read config file " ++ path, unreadable e]
  | noFile inspected =>
    ["no configuration files found. inspected: " ++ ", ".intercalate inspected]

namespace AppConfig

def ofFile (files : FileTree) (path : String) : Except ConfigError AppConfig :=
  match files.read (.ofString path) with
  | .error e => .error (.unreadableFile path e)
  | .ok text =>
    match parse text with
    | .error f => .error (.faultyFile path f)
    | .ok c => .ok c

/-- The file that the configuration is read from: the one that the environment names, unless that is
blank, or else the first candidate that exists. -/
def source? (files : FileTree) (environment : Option String) (candidates : List String) :
    Option String :=
  (environment.filter fun path => !Text.isBlankText path).or
    (candidates.find? fun path => files.isPresent (.ofString path))

/-- The configuration with the file it was read from. -/
def load (files : FileTree) (environment : Option String) (candidates : List String) :
    Except ConfigError (String × AppConfig) :=
  match source? files environment candidates with
  | none => .error (.noFile candidates)
  | some path => (ofFile files path).map fun c => (path, c)

end AppConfig

end ManagementPlane
