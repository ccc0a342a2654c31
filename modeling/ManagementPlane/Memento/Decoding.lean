import ManagementPlane.Json.Record
import ManagementPlane.Memento.Basic

/-!
# Reading mementos

Three readings of a payload take different fields of it: the full memento, the summary of an entity,
and the probe of a location, which is its id and type. Fields that a reading does not declare are
skipped.
-/

namespace ManagementPlane

open Json (Tree Record depthLimit)

/-- A table of free-form values inside `depth` containers. -/
def settings? (depth : Nat) : Tree → Option Settings
  | .object fields => Tree.entries? (depthLimit - depth - 1) fields
  | _ => none

namespace Memento

def fieldNames : List String :=
  ["id", "type", "catalogItemId", "displayName", "parent", "children", "config", "attributes",
    "locations", "policies", "enrichers", "feeds", "tags"]

/-- The free-form values of an array that is a field. -/
def tags? : Tree → Option (List Json.Value)
  | .array items => Tree.values? (depthLimit - 2) items
  | _ => none

def ofRecord? (r : Record) : Option Memento := do
  some {
    id := ← r.required? "id" Tree.text?
    type := ← r.required? "type" Tree.text?
    catalogItemId := ← r.optional? "catalogItemId"
    displayName := ← r.optional? "displayName"
    parent := ← r.optional? "parent"
    children := ← r.default? "children" [] Tree.texts?
    config := ← r.default? "config" ∅ (settings? 1)
    attributes := ← r.default? "attributes" ∅ (settings? 1)
    locations := ← r.default? "locations" [] Tree.texts?
    policies := ← r.default? "policies" [] Tree.texts?
    enrichers := ← r.default? "enrichers" [] Tree.texts?
    feeds := ← r.default? "feeds" [] Tree.texts?
    tags := ← r.default? "tags" [] tags?
  }

def ofTree? (t : Tree) : Option Memento := do ofRecord? (← t.record? fieldNames)

def decode? (payload : String) : Option Memento := do ofTree? (← Tree.parse? payload)

end Memento

namespace EntitySummary

def fieldNames : List String := ["id", "type", "catalogItemId", "parent"]

def ofRecord? (r : Record) : Option EntitySummary := do
  some {
    id := ← r.required? "id" Tree.text?
    type := ← r.required? "type" Tree.text?
    catalogItemId := ← r.optional? "catalogItemId"
    parent := ← r.optional? "parent"
  }

def ofTree? (t : Tree) : Option EntitySummary := do ofRecord? (← t.record? fieldNames)

def decode? (payload : String) : Option EntitySummary := do ofTree? (← Tree.parse? payload)

end EntitySummary

/-- What is read of a location before its full state. -/
structure LocationProbe where
  id : String
  type : String
  deriving DecidableEq, Repr

namespace LocationProbe

def fieldNames : List String := ["id", "type"]

def ofRecord? (r : Record) : Option LocationProbe := do
  some {
    id := ← r.required? "id" Tree.text?
    type := ← r.required? "type" Tree.text?
  }

def ofTree? (t : Tree) : Option LocationProbe := do ofRecord? (← t.record? fieldNames)

def decode? (payload : String) : Option LocationProbe := do ofTree? (← Tree.parse? payload)

end LocationProbe

namespace CatalogItem

def fieldNames : List String :=
  ["id", "type", "symbolicName", "version", "registeredType", "libraries", "plan", "displayName",
    "description", "deprecated"]

def ofRecord? (r : Record) : Option CatalogItem := do
  some {
    id := ← r.required? "id" Tree.text?
    type := ← r.required? "type" Tree.text?
    symbolicName := ← r.required? "symbolicName" Tree.text?
    version := ← r.required? "version" Tree.text?
    registeredType := ← r.optional? "registeredType"
    libraries := ← r.default? "libraries" [] Tree.texts?
    plan := ← r.optional? "plan"
    displayName := ← r.optional? "displayName"
    description := ← r.optional? "description"
    deprecated := ← r.default? "deprecated" false Tree.bool?
  }

def ofTree? (t : Tree) : Option CatalogItem := do ofRecord? (← t.record? fieldNames)

def decode? (payload : String) : Option CatalogItem := do ofTree? (← Tree.parse? payload)

end CatalogItem

end ManagementPlane
