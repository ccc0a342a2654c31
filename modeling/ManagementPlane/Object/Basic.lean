import ManagementPlane.Object.Error
import ManagementPlane.Transition
import Std.Data.TreeMap.Lemmas

/-!
# Live objects

`Object` is the state of a live object: its identity, how its hooks behave, and a body by kind.

* `Handle`, `Heap` : objects are shared, so tables hold handles and the heap holds the states;
* `Object.blank`, `Object.ofItem`, `Object.ofFlags` : stock objects;
* `Object.reconstruct` : how a memento populates an object;
* `Object.attachTo` : how an adjunct comes to belong to an entity.
-/

namespace ManagementPlane

/-- Where an object lies in the heap. -/
structure Handle where
  index : Nat
  deriving DecidableEq, Repr, Inhabited

/-! ## Bodies -/

/-- What an entity holds. -/
structure EntityState where
  displayName : Option String := none
  parent : Option String := none
  children : List String := []
  locations : List String := []
  config : Settings := ∅
  attributes : Settings := ∅
  policies : List Handle := []
  enrichers : List Handle := []
  feeds : List Handle := []
  managed : Option Transition := none
  deriving DecidableEq, Inhabited

/-- What a location holds. -/
structure LocationState where
  displayName : Option String := none
  parent : Option String := none
  children : List String := []
  config : Settings := ∅
  deriving DecidableEq, Inhabited

/-- What a policy, enricher or feed holds. -/
structure AdjunctState where
  displayName : Option String := none
  config : Settings := ∅
  attributes : Settings := ∅
  entity : Option String := none
  deriving DecidableEq, Inhabited

/-- What an object holds, by its kind. -/
inductive Body where
  | entity (s : EntityState)
  | location (s : LocationState)
  | policy (s : AdjunctState)
  | enricher (s : AdjunctState)
  | feed (s : AdjunctState)
  | catalogItem (item : CatalogItem)
  deriving DecidableEq, Inhabited

namespace Body

def kind : Body → ObjectKind
  | entity _ => .entity
  | location _ => .location
  | policy _ => .policy
  | enricher _ => .enricher
  | feed _ => .feed
  | catalogItem _ => .catalogItem

def entity? : Body → Option EntityState
  | entity s => some s
  | _ => none

def adjunct? : Body → Option AdjunctState
  | policy s | enricher s | feed s => some s
  | _ => none

def item? : Body → Option CatalogItem
  | catalogItem i => some i
  | _ => none

def mapEntity (f : EntityState → EntityState) : Body → Body
  | entity s => entity (f s)
  | b => b

def mapAdjunct (f : AdjunctState → AdjunctState) : Body → Body
  | policy s => policy (f s)
  | enricher s => enricher (f s)
  | feed s => feed (f s)
  | b => b

@[simp] theorem kind_mapEntity (f : EntityState → EntityState) (b : Body) :
    (b.mapEntity f).kind = b.kind := by cases b <;> rfl

@[simp] theorem kind_mapAdjunct (f : AdjunctState → AdjunctState) (b : Body) :
    (b.mapAdjunct f).kind = b.kind := by cases b <;> rfl

end Body

/-! ## Objects -/

/-- How the hooks of an object behave: whether they are journaled, and the failure each ends in. The hook that
is called when the object is managed is told the transition; `manageFaults` lists those it treats differently. -/
structure Behaviour where
  audited : Bool := false
  reconstructFault : Option ObjectError := none
  manageFault : Option ObjectError := none
  manageFaults : List (Transition × Option ObjectError) := []
  attachFault : Option ObjectError := none
  deriving DecidableEq, Repr, Inhabited

/-- What the hook ends in that is called when the object is managed with a transition. -/
def Behaviour.manageFaultBy (b : Behaviour) (t : Transition) : Option ObjectError :=
  (b.manageFaults.lookup t).getD b.manageFault

/-- A live object. -/
structure Object where
  id : String
  type : String
  catalogItemId : Option String := none
  readOnly : Bool := false
  behaviour : Behaviour := {}
  body : Body
  deriving DecidableEq, Inhabited

namespace Object

def kind (o : Object) : ObjectKind := o.body.kind

/-- How the object is shown, as an object of kind `k`. -/
def describeAs (o : Object) (k : ObjectKind) : String := k.label ++ " " ++ o.id ++ " (" ++ o.type ++ ")"

def describe (o : Object) : String := o.describeAs o.kind

def parent (o : Object) : Option String :=
  match o.body with
  | .entity s => s.parent
  | .location s => s.parent
  | _ => none

/-- The children that are managed together with the object. -/
def children (o : Object) : List String :=
  match o.body with
  | .entity s => s.children
  | .location s => s.children
  | _ => []

def locations (o : Object) : List String :=
  match o.body with
  | .entity s => s.locations
  | _ => []

def displayName (o : Object) : Option String :=
  match o.body with
  | .entity s => s.displayName
  | .location s => s.displayName
  | .policy s | .enricher s | .feed s => s.displayName
  | .catalogItem _ => none

def config (o : Object) : Settings :=
  match o.body with
  | .entity s => s.config
  | .location s => s.config
  | .policy s | .enricher s | .feed s => s.config
  | .catalogItem _ => ∅

def attributes (o : Object) : Settings :=
  match o.body with
  | .entity s => s.attributes
  | .policy s | .enricher s | .feed s => s.attributes
  | _ => ∅

def adjuncts (o : Object) (k : ObjectKind) : List Handle :=
  match o.body, k with
  | .entity s, .policy => s.policies
  | .entity s, .enricher => s.enrichers
  | .entity s, .feed => s.feeds
  | _, _ => []

def owner (o : Object) : Option String := o.body.adjunct?.bind AdjunctState.entity

/-- The contents of a catalog item; blank for any other object. -/
def item (o : Object) : CatalogItem := o.body.item?.getD .blank

/-! ### Stock objects -/

/-- The body of kind `k` of an object that has not been populated. -/
def blankBody : ObjectKind → Body
  | .entity => .entity {}
  | .location => .location {}
  | .policy => .policy {}
  | .enricher => .enricher {}
  | .feed => .feed {}
  | .catalogItem => .catalogItem .blank

/-- An object of kind `k` that has not been populated. -/
def blank (k : ObjectKind) (id type : String) : Object := { id, type, body := blankBody k }

def ofItem (i : CatalogItem) : Object := { id := i.id, type := i.type, body := .catalogItem i }

def flagId? (flags : Settings) : Option String := (flags.get? "id").bind Json.Value.asString?

/-- The flags that direct the construction of a location and are no configuration. -/
def locationDirectives : List String := ["id", "deferConstructionChecks"]

/-- The flags that direct the construction of an adjunct and are no configuration. -/
def adjunctDirectives : List String := ["id", "deferConstructionChecks", "noConstructionInit"]

/-- An object of kind `k` made from flags: the id and, for locations and adjuncts, configuration. -/
def ofFlags (k : ObjectKind) (type : String) (flags : Settings) : Object :=
  let id := (flagId? flags).getD ""
  let without (names : List String) : Settings := flags.filter fun key => !names.contains key
  let body : Body := match k with
    | .location => .location { config := without locationDirectives }
    | .policy => .policy { config := without adjunctDirectives }
    | .enricher => .enricher { config := without adjunctDirectives }
    | .feed => .feed { config := without adjunctDirectives }
    | k => blankBody k
  { id, type, body }

@[simp] theorem kind_blank (k : ObjectKind) (id type : String) : (blank k id type).kind = k := by
  cases k <;> rfl

@[simp] theorem kind_ofFlags (k : ObjectKind) (type : String) (flags : Settings) :
    (ofFlags k type flags).kind = k := by cases k <;> rfl

/-! ### Changes -/

/-- Populate an object from a memento. References that `known` does not resolve are dropped. An entity
takes the configuration as it is; the others add it to what they hold. -/
def reconstruct (known : ObjectKind → String → Bool) (m : Memento) (o : Object) :
    Except ObjectError Object :=
  match o.body with
  | .entity s => .ok { o with body := .entity { s with
      displayName := m.displayName
      parent := m.parent.filter (known .entity)
      children := m.children
      config := m.config
      attributes := m.attributes
      locations := m.locations.filter (known .location) } }
  | .location s => .ok { o with body := .location { s with
      displayName := m.displayName
      parent := m.parent.filter (known .location)
      children := m.children
      config := s.config.merge m.config } }
  | .policy _ | .enricher _ | .feed _ => .ok { o with body := o.body.mapAdjunct fun s => { s with
      displayName := m.displayName
      config := s.config.merge m.config
      attributes := m.attributes } }
  | .catalogItem _ =>
    .error (.reconstruct "catalog items are reconstructed from catalog mementos")

def reconstructItem (i : CatalogItem) (o : Object) : Object :=
  match o.body with
  | .catalogItem _ => { o with body := .catalogItem i }
  | _ => o

/-- Let an adjunct belong to an entity; it may not belong to another one already. -/
def attachTo (entity : String) (o : Object) : Except ObjectError Object :=
  match o.owner with
  | some other =>
    if other ≠ entity then .error (.reconstruct (o.id ++ " is already attached to " ++ other))
    else .ok o
  | none => .ok { o with body := o.body.mapAdjunct fun s => { s with entity := some entity } }

/-- Add an adjunct to those of kind `k` of an entity. -/
def pushAdjunct (k : ObjectKind) (h : Handle) (o : Object) : Except ObjectError Object :=
  match k with
  | .policy => .ok { o with body := o.body.mapEntity fun s => { s with policies := s.policies ++ [h] } }
  | .enricher =>
    .ok { o with body := o.body.mapEntity fun s => { s with enrichers := s.enrichers ++ [h] } }
  | .feed => .ok { o with body := o.body.mapEntity fun s => { s with feeds := s.feeds ++ [h] } }
  | k => .error (.reconstruct (k.label ++ " cannot be attached to an entity"))

/-- Note the transition that the live manager applied last; only entities keep it. -/
def noteManaged (t : Option Transition) (o : Object) : Object :=
  { o with body := o.body.mapEntity fun s => { s with managed := t } }

def setReadOnly (readOnly : Bool) (o : Object) : Object := { o with readOnly }

end Object

/-! ## The heap -/

theorem Heap.mem_empty_iff (i : Nat) : i ∈ (∅ : Std.TreeMap Nat Object) ↔ i < 0 := by simp

/-- The states of all objects made so far, numbered from zero. -/
structure Heap where
  size : Nat := 0
  cells : Std.TreeMap Nat Object := ∅
  mem_cells_iff : ∀ i, i ∈ cells ↔ i < size := by exact Heap.mem_empty_iff

namespace Heap

/-- The state of an object; a handle that names none reads as a blank entity. -/
def read (heap : Heap) (h : Handle) : Object := heap.cells.getD h.index (.blank .entity "" "")

def Valid (heap : Heap) (h : Handle) : Prop := h.index < heap.size

def next (heap : Heap) : Handle := ⟨heap.size⟩

def alloc (heap : Heap) (o : Object) : Heap where
  size := heap.size + 1
  cells := heap.cells.insert heap.size o
  mem_cells_iff i := by
    simp only [Std.TreeMap.mem_insert, Nat.compare_eq_eq, heap.mem_cells_iff]
    omega

def modify (heap : Heap) (h : Handle) (f : Object → Object) : Heap where
  size := heap.size
  cells := heap.cells.modify h.index f
  mem_cells_iff i := by simp only [Std.TreeMap.mem_modify, heap.mem_cells_iff]

theorem read_alloc (heap : Heap) (o : Object) (h : Handle) :
    (heap.alloc o).read h = if h = heap.next then o else heap.read h := by
  obtain ⟨i⟩ := h
  simp only [read, alloc, next, Std.TreeMap.getD_insert, Nat.compare_eq_eq, Handle.mk.injEq]
  grind

theorem read_modify (heap : Heap) (h h' : Handle) (f : Object → Object) (hv : heap.Valid h) :
    (heap.modify h f).read h' = if h = h' then f (heap.read h') else heap.read h' := by
  obtain ⟨i⟩ := h
  obtain ⟨j⟩ := h'
  have hi : i ∈ heap.cells := (heap.mem_cells_iff i).2 hv
  simp only [read, modify, Std.TreeMap.getD_modify, Nat.compare_eq_eq, Handle.mk.injEq]
  split
  · next e =>
    subst e
    rw [Std.TreeMap.getElem?_eq_some_getD hi, Option.map_some, Option.getD_some]
  · rfl

theorem valid_modify {heap : Heap} {h h' : Handle} {f : Object → Object} :
    (heap.modify h f).Valid h' ↔ heap.Valid h' := Iff.rfl

theorem valid_alloc {heap : Heap} {o : Object} {h : Handle} :
    (heap.alloc o).Valid h ↔ heap.Valid h ∨ h = heap.next := by
  obtain ⟨i⟩ := h
  simp only [Valid, alloc, next, Handle.mk.injEq]
  omega

end Heap

end ManagementPlane
