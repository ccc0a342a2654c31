import ManagementPlane.Store.Basic

/-!
# Stores held in memory

`MemoryStore` keeps payloads as they are given. `persist` and `delete` are refused until the store
has been opened for writing; `seed` is not.
-/

namespace ManagementPlane

/-- A store held in memory. It starts out closed for writing. -/
structure MemoryStore where
  name : String
  data : RawData := ∅
  writable : Bool := false

namespace MemoryStore

/-- Put a payload whether or not the store is open. -/
def seed (s : MemoryStore) (kind : ObjectKind) (id payload : String) : MemoryStore :=
  { s with data := s.data.put kind id payload }

def persist (s : MemoryStore) (kind : ObjectKind) (id payload : String) :
    Except StoreError MemoryStore :=
  if s.writable then .ok (s.seed kind id payload) else .error (.readOnly s.name)

def delete (s : MemoryStore) (kind : ObjectKind) (id : String) :
    Except StoreError (Bool × MemoryStore) :=
  if s.writable then
    let (removed, data) := s.data.remove kind id
    .ok (removed.isSome, { s with data })
  else .error (.readOnly s.name)

def description (s : MemoryStore) : String := "in-memory store " ++ s.name

/-- What reading the store comes upon: every payload, by kind and in order. -/
def source (s : MemoryStore) : Source where
  description := s.description
  readings := .ok <| ObjectKind.all.flatMap fun k =>
    (s.data.get k).entries.map fun e => .payload k e.1 e.2

end MemoryStore

end ManagementPlane
