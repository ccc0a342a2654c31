import ManagementPlane.Files.Tree
import ManagementPlane.Json.Bytes
import ManagementPlane.Json.Printer
import ManagementPlane.Json.Record
import ManagementPlane.Store.Basic
import ManagementPlane.Text.Digest
import ManagementPlane.Text.Timestamp

/-!
# Stores on disk

`FileStore` keeps every object in an envelope of its own, `<root>/<directory of its kind>/<id>.json`.

* `Envelope` : the payload with the digest of its compact text; `Envelope.payload` accepts bytes only if
  the digest fits;
* `persist`, `delete` : refused until the store has been opened for writing;
* `source` : what reading the store comes upon. Other entries than regular files ending in `.json` are
  passed over.
-/

namespace ManagementPlane

open Json (Tree Record Value depthLimit)

/-! ## Envelopes -/

/-- A persisted payload with what is needed to verify it. -/
structure Envelope where
  version : Nat
  writtenAt : String
  hash : String
  memento : Value

namespace Envelope

def currentVersion : Nat := 1

/-- The digest that an envelope of `memento` carries. -/
def digest (memento : Value) : String := Text.sha256Hex memento.compact

def of (writtenAt : String) (memento : Value) : Envelope :=
  { version := currentVersion, writtenAt, hash := digest memento, memento }

def toValue (e : Envelope) : Value := .object
  [("version", .number (.int e.version)), ("written_at", .string e.writtenAt),
    ("hash", .string e.hash), ("memento", e.memento)]

/-- The contents of the file that holds the envelope. -/
def encode (e : Envelope) : String := e.toValue.pretty

def fieldNames : List String := ["version", "written_at", "hash", "memento"]

def version? : Tree → Option Nat
  | .number n => n.integer?.bind fun i => if 0 ≤ i ∧ i < 65536 then some i.toNat else none
  | _ => none

def writtenAt? (t : Tree) : Option String := t.text?.filter Text.isTimestamp

def ofRecord? (r : Record) : Option Envelope := do
  some {
    version := ← r.required? "version" version?
    writtenAt := ← r.required? "written_at" writtenAt?
    hash := ← r.required? "hash" Tree.text?
    memento := ← r.required? "memento" (Tree.value? (depthLimit - 1))
  }

def decode? (bytes : List UInt8) : Option Envelope := do
  ofRecord? (← (← Tree.ofBytes? bytes).record? fieldNames)

/-- The payload of the envelope that bytes spell, if it is the one that was put there. -/
def payload (kind : ObjectKind) (id : String) (bytes : List UInt8) : Except StoreError String :=
  match decode? bytes with
  | none => .error (.json "not a readable envelope")
  | some e =>
    if digest e.memento = e.hash then .ok e.memento.compact else .error (.hashMismatch kind id)

end Envelope

/-! ## Stores -/

/-- A store in the directory `root`. It starts out closed for writing. -/
structure FileStore where
  root : String
  writable : Bool := false

namespace FileStore

def extension : String := "json"

def directory (s : FileStore) (kind : ObjectKind) : String := Path.join s.root kind.directory

/-- The file of an object. The id is taken as it is. -/
def file (s : FileStore) (kind : ObjectKind) (id : String) : Path :=
  .ofString (Path.join (s.directory kind) (id ++ "." ++ extension))

def failure (e : FileError) : StoreError := .io e.message

/-- Write the envelope of a value at the time `now`; the directories it needs are created first. -/
def persist (s : FileStore) (now : String) (kind : ObjectKind) (id : String) (value : Value)
    (files : FileTree) : Except StoreError Unit × FileTree :=
  if !s.writable then (.error (.readOnly s.root), files)
  else
    let path := s.file kind id
    match files.makeDirectories path.parent with
    | (.error e, files) => (.error (failure e), files)
    | (.ok (), files) =>
      match files.write path (.ofText (Envelope.of now value.sorted).encode) with
      | .ok files => (.ok (), files)
      | .error e => (.error (failure e), files)

/-- Remove the envelope of an object; says whether there was one. -/
def delete (s : FileStore) (kind : ObjectKind) (id : String) (files : FileTree) :
    Except StoreError Bool × FileTree :=
  if !s.writable then (.error (.readOnly s.root), files)
  else match files.remove (s.file kind id) with
    | .ok files => (.ok true, files)
    | .error .notFound => (.ok false, files)
    | .error e => (.error (failure e), files)

def description (s : FileStore) : String := "file store at " ++ s.root

/-- The payload in a regular file, if it can be read and is an envelope. -/
def payload (kind : ObjectKind) (id : String) : FileContents → Except StoreError String
  | .bytes bs => Envelope.payload kind id bs
  | .refused e => .error (failure e)

/-- What a regular file shows, if it is an envelope by its name. -/
def reading? (kind : ObjectKind) (name : String) (contents : FileContents) : Option Reading :=
  match Path.splitExtension name with
  | (id, some ext) =>
    if ext = extension then
      match payload kind id contents with
      | .ok text => some (.payload kind id text)
      | .error e => some (.unreadable kind id e)
    else none
  | _ => none

/-- What the directory of a kind shows, in the order of the file names. -/
def readingsOf (s : FileStore) (files : FileTree) (kind : ObjectKind) : List Reading :=
  match files.locate (.ofString (s.directory kind)) with
  | .error _ => []
  | .ok l =>
    if files.node? l = some .directory then
      (files.filesIn l).entries.filterMap fun e => reading? kind e.1 e.2
    else []

def source (s : FileStore) (files : FileTree) : Source where
  description := s.description
  readings := .ok (ObjectKind.all.flatMap (s.readingsOf files))

end FileStore

end ManagementPlane
