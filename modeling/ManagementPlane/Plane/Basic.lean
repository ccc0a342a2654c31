import ManagementPlane.Object.Event
import ManagementPlane.Plane.Catalog

/-!
# The live manager

`Plane` is everything that outlives a pass: the objects, the registries of managed entities and
locations, the catalog, the shells made but not yet managed, and the record of what happened.

* `manage`, `manageWith`, `unmanage` : an object enters or leaves a registry;
* `visit`, `manageTree` : an object enters together with those below it;
* `adopt`, `attach`, `reconstruct` : objects are made, joined and populated.
-/

namespace ManagementPlane

/-- A managed object and the transition it was managed with last. -/
structure Registered where
  object : Handle
  mode : Transition
  deriving DecidableEq, Repr

/-- The managed objects of one kind, and the transitions noted for those that are about to be. -/
structure Registry where
  objects : OrderedMap String Registered := ∅
  pending : OrderedMap String Transition := ∅

namespace Registry

def get? (r : Registry) (id : String) : Option Handle := (r.objects.get? id).map Registered.object

def contains (r : Registry) (id : String) : Bool := r.objects.contains id

def ids (r : Registry) : List String := r.objects.keys

/-- The transition an object was managed with last. -/
def lastTransition? (r : Registry) (id : String) : Option Transition :=
  (r.objects.get? id).map Registered.mode

/-- Note the transition to use when an object is managed next. -/
def setTransition (r : Registry) (id : String) (t : Transition) : Registry :=
  { r with pending := r.pending.insert id t }

def clearPending (r : Registry) : Registry := { r with pending := ∅ }

def hasPrimary (r : Registry) (heap : Heap) : Bool :=
  r.objects.values.any fun e => !(heap.read e.object).readOnly

end Registry

/-- The live manager. -/
structure Plane where
  heap : Heap := {}
  entities : Registry := {}
  locations : Registry := {}
  catalog : Catalog := {}
  preManaged : List (ObjectKind × String) := []
  /-- What happened, the latest first. -/
  trace : List Event := []

namespace Plane

def read (p : Plane) (h : Handle) : Object := p.heap.read h

def registry (p : Plane) : ObjectKind → Registry
  | .location => p.locations
  | _ => p.entities

/-- Replace the registry of entities or of locations. -/
def setRegistry (p : Plane) (k : ObjectKind) (r : Registry) : Plane :=
  match k with
  | .location => { p with locations := r }
  | _ => { p with entities := r }

def modify (p : Plane) (h : Handle) (f : Object → Object) : Plane :=
  { p with heap := p.heap.modify h f }

def record (p : Plane) (e : Event) : Plane := { p with trace := e :: p.trace }

def events (p : Plane) : List Event := p.trace.reverse

theorem events_record (p : Plane) (e : Event) : (p.record e).events = p.events ++ [e] := by
  simp [events, record]

/-- The same live manager without log entries on record. -/
def forgetLog (p : Plane) : Plane :=
  { p with trace := p.trace.filter fun
    | .logged _ => false
    | _ => true }

def forgetTrace (p : Plane) : Plane := { p with trace := [] }

def recordHook (p : Plane) (h : Handle) (call : HookCall) : Plane :=
  let o := p.read h
  p.record (.hook o.behaviour.audited h o.kind o.id call)

def adopt (p : Plane) (o : Object) : Handle × Plane := (p.heap.next, { p with heap := p.heap.alloc o })

def register (p : Plane) (h : Handle) : Plane :=
  { p with catalog := p.catalog.register p.heap h }

def addItem (p : Plane) (i : CatalogItem) : Plane :=
  let (h, p) := p.adopt (.ofItem i)
  p.register h

/-- Whether an object of a kind is managed or in the catalog under an id. -/
def contains (p : Plane) (k : ObjectKind) (id : String) : Bool :=
  match k with
  | .entity => p.entities.contains id
  | .location => p.locations.contains id
  | .catalogItem => (p.catalog.resolve? p.heap id).isSome
  | _ => false

/-! ## Shells that are not managed yet -/

def isPreManaged (p : Plane) (k : ObjectKind) (id : String) : Bool := p.preManaged.contains (k, id)

def preManage (p : Plane) (h : Handle) : Plane :=
  let o := p.read h
  if p.isPreManaged o.kind o.id then p
  else { p with preManaged := p.preManaged ++ [(o.kind, o.id)] }

def clearPreManaged (p : Plane) : Plane := { p with preManaged := [] }

/-! ## Managing -/

/-- Register an object and call its hook; what the hook failed with, if it did. The object is
registered even so. -/
def manageWith (p : Plane) (k : ObjectKind) (h : Handle) (t : Transition) :
    Option ObjectError × Plane :=
  let o := p.read h
  let p := p.modify h (Object.setReadOnly t.isReadOnly)
  let r := p.registry k
  let p := p.setRegistry k { r with objects := r.objects.insert o.id ⟨h, t⟩ }
  let p := (p.recordHook h (.managed t)).modify h (Object.noteManaged (some t))
  (o.behaviour.manageFaultBy t, p)

/-- Manage an object that was made outside of any pass. -/
def manage (p : Plane) (k : ObjectKind) (h : Handle) : Option ObjectError × Plane :=
  p.manageWith k h .creating

/-- Manage an object with the transition noted for it, which is used up. -/
def manageNoted (p : Plane) (k : ObjectKind) (h : Handle) : Option ObjectError × Plane :=
  let id := (p.read h).id
  let r := p.registry k
  let t := (r.pending.get? id).getD .rebindingCreating
  (p.setRegistry k { r with pending := r.pending.erase id }).manageWith k h t

/-- The objects on the stack and those below them in depth-first order, each id once; `visited` ids
are passed over. Every step takes an object off the stack. -/
def visit (idOf : Handle → String) (children : String → List Handle) :
    (steps : Nat) → (visited : List String) → (stack : List Handle) → List Handle
  | 0, _, _ => []
  | _, _, [] => []
  | n + 1, visited, h :: stack =>
    if idOf h ∈ visited then visit idOf children n visited stack
    else h :: visit idOf children n (idOf h :: visited) (children (idOf h) ++ stack)

/-- Manage objects in order, with the transitions noted for them; the first failure, with the object it
concerns. -/
def manageAll (k : ObjectKind) : List Handle → Plane → Option ObjectError × Plane
  | [], p => (none, p)
  | h :: r, p =>
    let id := (p.read h).id
    let (fault, p) := p.manageNoted k h
    let (later, p) := manageAll k r p
    ((fault.map fun e => .manage (k.label ++ " " ++ id ++ ": " ++ e.message)).or later, p)

/-- The root and the objects below it in depth-first order. The children of every id are pushed once at
most, so their number bounds the steps. -/
def treeOrder (p : Plane) (children : OrderedMap String (List Handle)) (root : Handle) : List Handle :=
  visit (fun h => (p.read h).id) (fun id => (children.get? id).getD [])
    (1 + children.values.flatten.length) [] [root]

/-- Manage the root and every object below it; how many there are, or the first failure. A failure
stops nothing. -/
def manageTree (p : Plane) (k : ObjectKind) (children : OrderedMap String (List Handle))
    (root : Handle) : Except ObjectError Nat × Plane :=
  let order := p.treeOrder children root
  match manageAll k order p with
  | (none, p) => (.ok order.length, p)
  | (some e, p) => (.error e, p)

/-- Drop an object from management and call its hook; the object, if there was one. -/
def unmanage (p : Plane) (k : ObjectKind) (id : String) (t : Transition) : Option Handle × Plane :=
  let r := p.registry k
  let removed := r.get? id
  let p := p.setRegistry k { objects := r.objects.erase id, pending := r.pending.erase id }
  match removed with
  | none => (none, p)
  | some h => (some h, (p.recordHook h (.unmanaged t)).modify h (Object.noteManaged none))

/-! ## Populating and joining objects -/

def reconstruct (p : Plane) (known : ObjectKind → String → Bool) (readOnly : Bool) (h : Handle)
    (m : Memento) : Except ObjectError Unit × Plane :=
  let o := p.read h
  if o.kind = .catalogItem then (((o.reconstruct known m).map fun _ => ()), p)
  else
    let p := p.recordHook h (.reconstruct m.id readOnly)
    match o.behaviour.reconstructFault with
    | some e => (.error e, p)
    | none =>
      match o.reconstruct known m with
      | .ok o => (.ok (), p.modify h fun _ => o)
      | .error e => (.error e, p)

def reconstructItem (p : Plane) (h : Handle) (i : CatalogItem) : Except ObjectError Unit × Plane :=
  let o := p.read h
  let p := p.recordHook h (.reconstructItem i.id)
  match o.behaviour.reconstructFault with
  | some e => (.error e, p)
  | none => (.ok (), p.modify h (Object.reconstructItem i))

def attach (p : Plane) (adjunct : Handle) (entity : String) : Except ObjectError Unit × Plane :=
  let o := p.read adjunct
  let p := p.recordHook adjunct (.attach entity)
  match o.behaviour.attachFault with
  | some e => (.error e, p)
  | none =>
    match o.attachTo entity with
    | .ok o => (.ok (), p.modify adjunct fun _ => o)
    | .error e => (.error e, p)

/-- Add an adjunct to those of kind `k` of an entity, which it then belongs to. -/
def addAdjunct (p : Plane) (entity : Handle) (k : ObjectKind) (adjunct : Handle) :
    Except ObjectError Unit × Plane :=
  match p.attach adjunct (p.read entity).id with
  | (.error e, p) => (.error e, p)
  | (.ok (), p) =>
    match (p.read entity).pushAdjunct k adjunct with
    | .ok o => (.ok (), p.modify entity fun _ => o)
    | .error e => (.error e, p)

end Plane

end ManagementPlane
