import ManagementPlane.Config.Loading
import ManagementPlane.View.Manager

/-!
# The configuration as JSON

Every section is shown with the keys that it has in a file, except that times are shown with their
units.
-/

namespace ManagementPlane

open Json (Value)

def ManagementMode.view (m : ManagementMode) : Value :=
  .object [("mode", m.label), ("hot_proxy", m.isHotProxy), ("read_only", m.isReadOnly),
    ("may_write_store", m.mayWriteStore)]

def PersistenceConfig.view (c : PersistenceConfig) : Value :=
  .object [("directory", c.directory), ("features", .object c.features.fields),
    ("infer_catalog_item_on_rebind", c.inferCatalogItem)]

def CatalogConfig.view (c : CatalogConfig) : Value :=
  .object [("load_mode", c.loadMode.label), ("default_source", c.defaultSource)]

def RebindConfig.view (c : RebindConfig) : Value :=
  .object [("failure_mode", c.failureMode.label),
    ("dangling_ref_failure_mode", c.danglingMode.label)]

def HaConfig.view (c : HaConfig) : Value :=
  .object [("priority", c.priority), ("heartbeat_interval", Text.span c.interval),
    ("watchdog_timeout", Text.span c.watchdog)]

def LoggingConfig.view (c : LoggingConfig) : Value :=
  .object [("directory", c.directory), ("format", c.format.label), ("file_prefix", c.filePrefix),
    ("level", c.level)]

def AppConfig.view (c : AppConfig) : Value :=
  .object [("node_id", c.nodeId), ("mode", c.mode.view), ("persistence", c.persistence.view),
    ("catalog", c.catalog.view), ("rebind", c.rebind.view), ("ha", c.ha.view),
    ("logging", c.logging.view), ("metrics", .object [("enabled", c.metrics)])]

end ManagementPlane
