import ManagementPlane.Json.Literal
import ManagementPlane.Plane.Scratch

/-!
# Objects as JSON

Objects are shown with what identifies them and what they hold by their kind. Of free-form settings
only the keys that are asked for are shown, and of those the ones that are set.
-/

namespace ManagementPlane

open Json (Value)

def settingsView (keys : List String) (m : Settings) : Value :=
  .object (keys.filterMap fun k => (m.get? k).map fun v => (k, v))

/-- A value for each kind, under the names of the directories. -/
def kindsView (f : ObjectKind → Value) : Value :=
  .object (ObjectKind.all.map fun k => (k.directory, f k))

namespace Object

def identityFields (o : Object) : List (String × Value) :=
  [("id", o.id), ("type", o.type), ("catalog_item_id", o.catalogItemId), ("read_only", o.readOnly)]

def itemView (o : Object) : Value :=
  .record o.identityFields [("symbolic_name", o.item.symbolicName), ("version", o.item.version),
    ("libraries", o.item.libraries), ("registered_type", o.item.registeredType)]

def adjunctView (keys : List String) (o : Object) : Value :=
  .record o.identityFields [("entity", o.owner), ("config", settingsView keys o.config)]

def treeFields (keys : List String) (o : Object) : List (String × Value) :=
  o.identityFields ++ ([("children", o.children), ("parent", o.parent),
    ("display_name", o.displayName), ("config", settingsView keys o.config)] : List (String × Value))

def adjunctsView (heap : Heap) (keys : List String) (k : ObjectKind) (o : Object) : Value :=
  (o.adjuncts k).map fun h => (heap.read h).adjunctView keys

def view (heap : Heap) (keys : List String) (o : Object) : Value :=
  match o.kind with
  | .entity => .record (o.treeFields keys) [("locations", o.locations),
      ("attributes", settingsView keys o.attributes),
      ("policies", o.adjunctsView heap keys .policy),
      ("enrichers", o.adjunctsView heap keys .enricher),
      ("feeds", o.adjunctsView heap keys .feed)]
  | .location => .object (o.treeFields keys)
  | .catalogItem => o.itemView
  | _ => o.adjunctView keys

def brief (o : Object) : Value :=
  .array [o.kind.code, o.id, o.type, o.catalogItemId, o.readOnly, o.children]

/-- Whether an object is an entity, a location, an adjunct or a catalog item. -/
def roles (o : Object) : Value :=
  .array [o.kind == .entity, o.kind == .location, o.kind.isAdjunct, o.kind == .catalogItem]

/-- An object with its kind and how it is described. -/
def liveFields (heap : Heap) (keys : List String) (o : Object) : List (String × Value) :=
  [("kind", o.kind.code), ("display", o.describe), ("object", o.view heap keys)]

end Object

/-- What is found under a kind and id: among the shells of a pass, in its context and among what is
managed. -/
def Scratch.lookupView (s : Scratch) (p : Plane) (k : ObjectKind) (id : String) : Value :=
  let idOf (h : Option Handle) : Option String := h.map fun h => (p.read h).id
  .object [("scratch", s.contains k id), ("read_only", s.isReadOnly k id),
    ("context", s.known p k id), ("live", p.contains k id), ("catalog_item", idOf (s.item? p id)),
    ("adjunct", idOf (if k.isAdjunct then s.get? k id else none)), ("rebinding", true)]

/-- The shells of a pass by kind, each with its id, its type and whether the pass holds it
read-only. -/
def Scratch.view (s : Scratch) (p : Plane) : Value :=
  kindsView fun k => (s.shells k).map fun h =>
    let o := p.read h
    [(o.id : Value), o.type, s.isReadOnly k o.id]

end ManagementPlane
