import ManagementPlane.Data.Step
import ManagementPlane.Memento.Basic

/-!
# Stores as a pass sees them

* `StoreError` : what can go wrong with a store, and `StoreError.message`;
* `RawData` : the payloads of a store, one per object;
* `Reading`, `Source` : what reading a store comes upon, in order;
* `Listener` : who is told of problems while a store is read, and may stop the reading;
* `Source.load` : the payloads of a source.
-/

namespace ManagementPlane

/-- A failure of a store. -/
inductive StoreError where
  | io (text : String)
  | json (text : String)
  | hashMismatch (kind : ObjectKind) (id : String)
  | readOnly (store : String)
  | idMismatch (kind : ObjectKind) (stored declared : String)
  | rejected (message : String)
  deriving DecidableEq, Repr, Inhabited

def StoreError.message : StoreError → String
  | io text => "io error: " ++ text
  | json text => "serialization error: " ++ text
  | hashMismatch kind id => kind.label ++ " " ++ id ++ " failed integrity verification"
  | readOnly store => "store " ++ store ++ " is read-only"
  | idMismatch kind stored declared =>
    kind.label ++ " stored as " ++ stored ++ " declares id " ++ declared
  | rejected message => "loading aborted: " ++ message

def StoreError.code : StoreError → String
  | io _ => "io"
  | json _ => "json"
  | hashMismatch .. => "hash_mismatch"
  | readOnly _ => "read_only"
  | idMismatch .. => "id_mismatch"
  | rejected _ => "rejected"

/-! ## Payloads -/

abbrev RawData := PerKind (OrderedMap String String)

namespace RawData

/-- Put a payload in place of the one it has, or behind the others of its kind. -/
def put (raw : RawData) (kind : ObjectKind) (id payload : String) : RawData :=
  raw.modify kind fun m => m.insert id payload

/-- The data without the payload of `id`, and that payload. -/
def remove (raw : RawData) (kind : ObjectKind) (id : String) : Option String × RawData :=
  ((raw.get kind).get? id, raw.modify kind fun m => m.erase id)

def size (raw : RawData) : Nat := ObjectKind.all.foldl (fun n k => n + (raw.get k).size) 0

def isEmpty (raw : RawData) : Bool := raw.size == 0

/-- The data that results from putting payloads in order. -/
def ofList (payloads : List (ObjectKind × String × String)) : RawData :=
  payloads.foldl (fun raw p => raw.put p.1 p.2.1 p.2.2) ∅

end RawData

/-! ## Reading -/

def subject (kind : ObjectKind) (id : String) : String := kind.label ++ " " ++ id

/-- Who hears of problems while a store is read. Each is answered by going on, without the object
or the reference, or by an error that ends the reading. -/
structure Listener (σ : Type) where
  /-- A payload could not be read. -/
  loadFailed : ObjectKind → (message : String) → StoreError → Step σ StoreError Unit
  /-- An object refers to another that is not known. -/
  dangling : ObjectKind → (id : String) → Step σ StoreError Unit

/-- What reading a store comes upon: a payload, or a place where one should be and cannot be read. -/
inductive Reading where
  | payload (kind : ObjectKind) (id text : String)
  | unreadable (kind : ObjectKind) (id : String) (error : StoreError)
  deriving DecidableEq, Repr

/-- A store that is about to be read: how it is called in logs, and what reading it comes upon. -/
structure Source where
  description : String
  readings : Except StoreError (List Reading)

namespace Source

variable {σ : Type}

def takeIn (listener : Listener σ) (raw : RawData) : Reading → Step σ StoreError RawData
  | .payload kind id text => pure (raw.put kind id text)
  | .unreadable kind id error => do
    listener.loadFailed kind (subject kind id) error
    pure raw

def takeInAll (listener : Listener σ) : RawData → List Reading → Step σ StoreError RawData
  | raw, [] => pure raw
  | raw, r :: rest => do takeInAll listener (← takeIn listener raw r) rest

def load (source : Source) (listener : Listener σ) : Step σ StoreError RawData :=
  match source.readings with
  | .error e => Step.stop e
  | .ok readings => takeInAll listener ∅ readings

end Source

end ManagementPlane
