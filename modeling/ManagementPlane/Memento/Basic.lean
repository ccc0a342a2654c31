import ManagementPlane.Data.OrderedMap
import ManagementPlane.Data.PerKind
import ManagementPlane.Json.Value

/-!
# Mementos

What is persisted of an object.

* `Memento` : an entity, location, policy, enricher or feed;
* `CatalogItem` : a catalog entry;
* `EntitySummary`, `Manifest` : what is read of a store first;
* `Snapshot` : everything in a store.
-/

namespace ManagementPlane

open Json (Value)

abbrev Settings := SortedMap Value

/-- The persisted state of an entity, location, policy, enricher or feed. -/
structure Memento where
  id : String
  type : String
  catalogItemId : Option String := none
  displayName : Option String := none
  parent : Option String := none
  children : List String := []
  config : Settings := ∅
  attributes : Settings := ∅
  locations : List String := []
  policies : List String := []
  enrichers : List String := []
  feeds : List String := []
  tags : List Value := []
  deriving DecidableEq, Inhabited

namespace Memento

/-- A memento with an id and a type and nothing else. -/
def new (id type : String) : Memento := { id, type }

def withParent (m : Memento) (parent : String) : Memento := { m with parent := some parent }

def withCatalogItem (m : Memento) (item : String) : Memento := { m with catalogItemId := some item }

/-- The same memento with one more configuration value. -/
def withConfig (m : Memento) (key : String) (v : Value) : Memento :=
  { m with config := m.config.insert key v }

/-- The ids of the adjuncts of kind `k` that an entity refers to. -/
def adjunctIds (m : Memento) : ObjectKind → List String
  | .policy => m.policies
  | .enricher => m.enrichers
  | .feed => m.feeds
  | _ => []

end Memento

/-- A persisted catalog entry. -/
structure CatalogItem where
  id : String
  type : String
  symbolicName : String
  version : String
  registeredType : Option String := none
  libraries : List String := []
  plan : Option String := none
  displayName : Option String := none
  description : Option String := none
  deprecated : Bool := false
  deriving DecidableEq, Repr, Inhabited

namespace CatalogItem

def canonicalId (symbolicName version : String) : String := symbolicName ++ ":" ++ version

/-- The item `symbolicName:version`, implemented by `type`. -/
def new (symbolicName version type : String) : CatalogItem :=
  { id := canonicalId symbolicName version, type, symbolicName, version }

/-- What an item holds before it has been populated. -/
def blank : CatalogItem := { id := "", type := "", symbolicName := "", version := "" }

end CatalogItem

/-- What is read of an entity before its full state. -/
structure EntitySummary where
  id : String
  type : String
  catalogItemId : Option String := none
  parent : Option String := none
  deriving DecidableEq, Repr, Inhabited

/-- What is read of a store first: the entities' summaries, the types of the locations, and the
catalog items, each under its id. -/
structure Manifest where
  entities : OrderedMap String EntitySummary := ∅
  locationTypes : OrderedMap String String := ∅
  catalogItems : OrderedMap String CatalogItem := ∅

namespace Manifest

/-- Whether the store shows no entity, no location and no catalog item. -/
def isEmpty (m : Manifest) : Bool :=
  m.entities.isEmpty && m.locationTypes.isEmpty && m.catalogItems.isEmpty

def catalogItemIds (m : Manifest) : List String := m.catalogItems.keys

end Manifest

/-- Everything persisted, each object under its id. Catalog items have a table of their own. -/
structure Snapshot where
  mementos : PerKind (OrderedMap String Memento) := ∅
  catalogItems : OrderedMap String CatalogItem := ∅

namespace Snapshot

def ofKind (s : Snapshot) (k : ObjectKind) : OrderedMap String Memento := s.mementos.get k

def entities (s : Snapshot) : OrderedMap String Memento := s.mementos.entity

def locations (s : Snapshot) : OrderedMap String Memento := s.mementos.location

/-- The ids of the top-level applications: the entities without a parent. -/
def applicationIds (s : Snapshot) : List String :=
  (s.entities.values.filter fun m => m.parent.isNone).map Memento.id

end Snapshot

end ManagementPlane
