import ManagementPlane.Json.Literal
import ManagementPlane.Memento.Codec
import ManagementPlane.Memento.Encoding
import ManagementPlane.Store.File
import ManagementPlane.View.Failure
import ManagementPlane.View.Object

/-!
# The contents of stores as JSON

* `RawData.view`, `Manifest.view`, `Snapshot.view` : what is read of a store, stage by stage;
* `Listener.recording`, `heardView` : a listener that writes down what it hears, and a stage with that;
* `Envelope.shown?` : the contents of a file without the time of writing.
-/

namespace ManagementPlane

open Json (Value)

/-- Payloads by kind, each with its id; kinds without payloads are left out. -/
def RawData.view (raw : RawData) : Value :=
  let kinds := ObjectKind.all.filter fun k => !(raw.get k).isEmpty
  let payloads (k : ObjectKind) : Value :=
    (raw.get k).entries.map fun e => [(e.1 : Value), e.2]
  .object [("objects", .object (kinds.map fun k => (k.directory, payloads k))),
    ("len", raw.size), ("is_empty", raw.isEmpty)]

def EntitySummary.view (key : Option String) (e : EntitySummary) : Value :=
  .object [("key", key), ("id", e.id), ("type", e.type), ("catalog_item_id", e.catalogItemId),
    ("parent", e.parent)]

def Manifest.view (m : Manifest) : Value :=
  .object [("entities", (m.entities.entries.map fun e => e.2.view (some e.1) : List Value)),
    ("location_types", m.locationTypes.entries.map fun e => [(e.1 : Value), e.2]),
    ("catalog_items", m.catalogItems.entries.map fun e => [(e.1 : Value), e.2.toValue]),
    ("catalog_item_ids", m.catalogItemIds), ("is_empty", m.isEmpty)]

def Snapshot.view (s : Snapshot) : Value :=
  let mementos (k : ObjectKind) : List (String × Value) :=
    if k = .catalogItem then s.catalogItems.entries.map fun e => (e.1, e.2.toValue)
    else (s.ofKind k).entries.map fun e => (e.1, e.2.toValue)
  .object [("objects", kindsView fun k => (mementos k).map fun e => [(e.1 : Value), e.2]),
    ("application_ids", s.applicationIds)]

/-- The listener that writes down what it hears and goes on, or rejects it where it is told to. -/
def Listener.recording (wording : String → String) (rejectLoad rejectDangling : Bool) :
    Listener (Array Value) where
  loadFailed kind message error := do
    let line : List Value := ["load_failed", kind.code, message, error.view wording]
    Step.update fun events => events.push (.array line)
    if rejectLoad then Step.stop (.rejected message)
  dangling kind id := do
    let line : List Value := ["dangling", kind.code, id]
    Step.update fun events => events.push (.array line)
    if rejectDangling then Step.stop (.rejected id)

/-- The result of reading, and what was written down meanwhile. -/
def heardView {α : Type} (wording : String → String) (shown : α → Value)
    (x : Step (Array Value) StoreError α) : List (String × Value) :=
  let (result, events) := x.on #[]
  let result := match result with
    | .ok a => shown a
    | .error e => e.view wording
  [("result", result), ("events", .array events.toList)]

/-- What a file says of the envelope in it: whether it has a time of writing, and the text of the
payload. -/
def Envelope.shown? (contents : String) : Option Value := do
  let fields ← (← Value.parse? contents).asFields?
  return .object (fields.map fun f =>
    if f.1 = "written_at" then ("has_written_at", f.2.asString?.isSome)
    else if f.1 = "memento" then ("memento", f.2.compact)
    else f)

end ManagementPlane
