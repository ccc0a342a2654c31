import ManagementPlane.Memento.Decoding
import ManagementPlane.Store.Basic

/-!
# Decoding a store

Payloads become a manifest first and a snapshot later. A payload that cannot be decoded, or that
declares another id than the one it is stored under, is reported and skipped.

* `decodeOne` : one payload;
* `Manifest.decode`, `Snapshot.decode` : all payloads of the kinds each of them reads;
* `Snapshot.references` : what the entities and locations of a snapshot refer to, in the order in
  which it is looked up.
-/

namespace ManagementPlane

variable {σ α : Type}

def decodeOne (read : String → Option α) (declared : α → String) (kind : ObjectKind)
    (id payload : String) : Except StoreError α :=
  match read payload with
  | none => .error (.json "not a readable object")
  | some a =>
    if declared a = id then .ok a else .error (.idMismatch kind id (declared a))

def decodeAll (read : String → Option α) (declared : α → String) (kind : ObjectKind)
    (listener : Listener σ) :
    List (String × String) → OrderedMap String α → Step σ StoreError (OrderedMap String α)
  | [], table => pure table
  | (id, payload) :: r, table =>
    match decodeOne read declared kind id payload with
    | .ok a => decodeAll read declared kind listener r (table.insert id a)
    | .error e => do
      listener.loadFailed kind (subject kind id) e
      decodeAll read declared kind listener r table

/-- Read the summaries of the entities, the types of the locations, and the catalog items. -/
def Manifest.decode (raw : RawData) (listener : Listener σ) : Step σ StoreError Manifest := do
  let entities ← decodeAll EntitySummary.decode? EntitySummary.id .entity listener
    raw.entity.entries ∅
  let probes ← decodeAll LocationProbe.decode? LocationProbe.id .location listener
    raw.location.entries ∅
  let catalogItems ← decodeAll CatalogItem.decode? CatalogItem.id .catalogItem listener
    raw.catalogItem.entries ∅
  pure { entities, locationTypes := probes.mapValues LocationProbe.type, catalogItems }

namespace Snapshot

/-- What an entity refers to: its parent, children, locations and catalog item. -/
def entityReferences (m : Memento) : List (ObjectKind × String) :=
  m.parent.toList.map (.entity, ·) ++ m.children.map (.entity, ·)
    ++ m.locations.map (.location, ·) ++ m.catalogItemId.toList.map (.catalogItem, ·)

/-- What a location refers to: its parent and children. -/
def locationReferences (m : Memento) : List (ObjectKind × String) :=
  m.parent.toList.map (.location, ·) ++ m.children.map (.location, ·)

/-- What the entities and then the locations refer to. -/
def references (s : Snapshot) : List (ObjectKind × String) :=
  s.entities.values.flatMap entityReferences ++ s.locations.values.flatMap locationReferences

def decodeKind (raw : RawData) (listener : Listener σ) (kind : ObjectKind) :
    Step σ StoreError (OrderedMap String Memento) :=
  decodeAll Memento.decode? Memento.id kind listener (raw.get kind).entries ∅

/-- Read every payload, then report the references that `known` does not resolve. References to
adjuncts are not looked up here, since adjuncts do not exist yet. -/
def decode (raw : RawData) (known : ObjectKind → String → Bool) (listener : Listener σ) :
    Step σ StoreError Snapshot := do
  let entity ← decodeKind raw listener .entity
  let location ← decodeKind raw listener .location
  let policy ← decodeKind raw listener .policy
  let enricher ← decodeKind raw listener .enricher
  let feed ← decodeKind raw listener .feed
  let catalogItems ← decodeAll CatalogItem.decode? CatalogItem.id .catalogItem listener
    raw.catalogItem.entries ∅
  let snapshot : Snapshot :=
    { mementos := { entity, location, policy, enricher, feed, catalogItem := ∅ }, catalogItems }
  Step.forEach (snapshot.references.filter fun r => !known r.1 r.2) fun r =>
    listener.dangling r.1 r.2
  pure snapshot

end Snapshot

end ManagementPlane
