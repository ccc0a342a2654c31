import ManagementPlane.Manager
import ManagementPlane.View.Failure
import ManagementPlane.View.Object

/-!
# The live manager as JSON

* `Plane.view`, `Manager.fields` : the registries, the catalog, the counters and the last report;
* `RebindSettings.fields`, `PassMetrics.fields`, `Summary.view` : the settings of passes, and counts;
* `LogEntry.view` : a log entry.
-/

namespace ManagementPlane

open Json (Value)

/-- Which kinds of objects take part in persistence. -/
def Features.fields (f : Features) : List (String × Value) :=
  [("catalog_items", f.catalogItems), ("policies", f.policies), ("enrichers", f.enrichers),
    ("feeds", f.feeds)]

def RebindSettings.fields (s : RebindSettings) : List (String × Value) :=
  [("features", .object s.features.fields), ("infer", s.inferCatalogItem),
    ("catalog_load_mode", s.catalogLoadMode.label), ("failure", s.failureMode.label),
    ("dangling", s.danglingMode.label)]

/-- A log entry; `wording` says how messages are shown. -/
def LogEntry.view (wording : String → String) (e : LogEntry) : Value :=
  .array [e.level.label, e.node, e.mode.label, (e.iteration.getD 0 : Int), e.phase,
    wording e.message]

/-- The counts of passes, and what is known of the last ones. -/
def PassMetrics.fields (m : PassMetrics) : List (String × Value) :=
  [("successes", m.successes), ("failures", m.failures), ("has_success", m.successes != 0),
    ("has_failure", m.failures != 0), ("last_ms", (m.lastTime.map fun t => (t : Value))),
    ("has_report", m.lastReport.isSome), ("messages", m.messages)]

def Summary.view (s : Summary) : Value :=
  .array [s.applications, s.entities, s.locations, s.policies, s.enrichers, s.feeds, s.catalogItems]

namespace Plane

/-- Managed objects, in full or only by id, transition and whether they are read-only. -/
def registryView (p : Plane) (brief : Bool) (keys : List String) (r : Registry) : Value :=
  r.objects.values.map fun e =>
    let o := p.read e.object
    if brief then Value.array [o.id, e.mode.label, o.readOnly]
    else .object [("mode", e.mode.label), ("object", o.view p.heap keys)]

def view (p : Plane) (brief : Bool) (keys : List String) : Value :=
  let items := p.catalog.items.values.map p.read
  .object [
    ("entities", p.registryView brief keys p.entities),
    ("locations", p.registryView brief keys p.locations),
    ("catalog", if brief then items.map Object.id else items.map Object.itemView),
    ("pending", .array [p.entities.pending.size, p.locations.pending.size]),
    ("primary", .array [p.entities.hasPrimary p.heap, p.locations.hasPrimary p.heap])]

def applicationsView (p : Plane) (applications : List Handle) : Value :=
  applications.map fun h => [((p.read h).id : Value), (p.read h).readOnly]

end Plane

/-- The state that outlives passes; `wording` says how messages are shown. -/
def Manager.fields (m : Manager) (wording : String → String) (brief : Bool) (keys : List String) :
    List (String × Value) :=
  [("state", m.plane.view brief keys), ("read_only_count", m.hotPasses),
    ("metrics", .array [m.metrics.successes, m.metrics.failures, m.metrics.messages.map wording])]

end ManagementPlane
