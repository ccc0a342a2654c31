import ManagementPlane.Plane.Basic

/-!
# The shells of a pass

`Scratch` lists the shells a pass has made so far, by kind and id. What an object refers to is looked
up among them first and then in the live manager.

* `Scratch.register`, `Scratch.unregister` : a shell joins or leaves the pass;
* `Scratch.known` : whether an object of a kind and id can be referred to.
-/

namespace ManagementPlane

/-- The shells of a pass, by kind and id, and which of them are read-only. -/
structure Scratch where
  objects : PerKind (OrderedMap String Handle) := ∅
  readOnly : List (ObjectKind × String) := []
  allReadOnly : Bool := false

namespace Scratch

def get? (s : Scratch) (k : ObjectKind) (id : String) : Option Handle := (s.objects.get k).get? id

def contains (s : Scratch) (k : ObjectKind) (id : String) : Bool := (s.objects.get k).contains id

/-- The shells of a kind, in the order in which they joined. -/
def shells (s : Scratch) (k : ObjectKind) : List Handle := (s.objects.get k).values

def count (s : Scratch) (k : ObjectKind) : Nat := (s.objects.get k).size

/-- Whether the shell of a kind and id is read-only. -/
def isReadOnly (s : Scratch) (k : ObjectKind) (id : String) : Bool := s.readOnly.contains (k, id)

/-- Let a shell join the pass under its kind and id. -/
def register (s : Scratch) (p : Plane) (h : Handle) : Scratch × Plane :=
  let o := p.read h
  let joined := { s with objects := s.objects.modify o.kind fun m => m.insert o.id h }
  if s.allReadOnly then
    ({ joined with readOnly := (o.kind, o.id) :: s.readOnly.filter fun e => e ≠ (o.kind, o.id) },
      p.modify h (Object.setReadOnly true))
  else (joined, p)

def unregister (s : Scratch) (k : ObjectKind) (id : String) : Option Handle × Scratch :=
  (s.get? k id,
    { s with
      objects := s.objects.modify k fun m => m.erase id
      readOnly := s.readOnly.filter fun e => e ≠ (k, id) })

/-- The entity or location of an id, a shell before a managed object. -/
def find? (s : Scratch) (p : Plane) (k : ObjectKind) (id : String) : Option Handle :=
  (s.get? k id).or ((p.registry k).get? id)

/-- The catalog item of an id, a shell before one of the live catalog. -/
def item? (s : Scratch) (p : Plane) (id : String) : Option Handle :=
  (s.get? .catalogItem id).or (p.catalog.resolve? p.heap id)

/-- Whether an object of a kind and id can be referred to. -/
def known (s : Scratch) (p : Plane) (k : ObjectKind) (id : String) : Bool :=
  match k with
  | .entity | .location => (s.find? p k id).isSome
  | .catalogItem => (s.item? p id).isSome
  | k => s.contains k id

end Scratch

end ManagementPlane
