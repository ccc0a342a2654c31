import ManagementPlane.Json.Printer
import ManagementPlane.Pass.Exposition
import ManagementPlane.Site
import ManagementPlane.Text.Quoted
import ManagementPlane.Json.Literal

/-!
# What the program prints

* `Report` : what came of a pass, in words and in JSON;
* `Manifest.lines` : the persisted state at a glance.
-/

namespace ManagementPlane

open Json (Value)

/-- What came of a pass. -/
structure Report where
  node : String
  mode : ManagementMode
  store : String
  applications : List String
  entities : Nat
  locations : Nat
  catalogItems : Nat
  writable : Bool
  /-- How long the pass took, in milliseconds. -/
  elapsed : Nat
  errors : List String
  warnings : List String
  deriving Repr

namespace Report

/-- The report in one line, and a line for each error and warning. -/
def lines (r : Report) : List String :=
  (r.node ++ " (" ++ r.mode.label ++ ") rebound " ++ toString r.applications.length
      ++ " application(s), " ++ toString r.entities ++ " entit(ies), " ++ toString r.locations
      ++ " location(s), " ++ toString r.catalogItems ++ " catalog item(s) from " ++ r.store ++ " in "
      ++ toString r.elapsed ++ " ms; store writable: " ++ toString r.writable)
    :: r.errors.map ("  error: " ++ ·) ++ r.warnings.map ("  warning: " ++ ·)

def toValue (r : Report) : Value := .object
  [("node", r.node), ("mode", r.mode.label), ("store", r.store), ("applications", r.applications),
    ("entities", r.entities), ("locations", r.locations), ("catalog_items", r.catalogItems),
    ("writable", r.writable), ("elapsed_ms", r.elapsed), ("errors", r.errors),
    ("warnings", r.warnings)]

end Report

def EntitySummary.line (e : EntitySummary) : String :=
  "  " ++ e.id ++ " " ++ e.type ++ ((e.parent.map fun p => " (parent " ++ p ++ ")").getD "")

def Manifest.lines (m : Manifest) (store : String) : List String :=
  ["store: " ++ store, "entities: " ++ toString m.entities.size]
    ++ m.entities.values.map EntitySummary.line
    ++ ["locations: " ++ toString m.locationTypes.size,
      "catalog items: " ++ Text.quoteList m.catalogItemIds]

end ManagementPlane
