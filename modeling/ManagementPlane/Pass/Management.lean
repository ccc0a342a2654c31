import ManagementPlane.Pass.Basic

/-!
# The last phase: managing the shells

Locations and then entities enter their registries, tree by tree; what was managed before and has no
shell is dropped.

* `Pass.family` : the shells below each shell: those it lists, then those that name it as their parent;
* `Pass.manageRoots` : the trees of the given roots, and which of them went without a failure;
* `Pass.manageAll` (8) : the whole phase. Its result are the applications.
-/

namespace ManagementPlane.Pass

variable {σ : Type} (t : Task) (h : Handler σ)

/-! ## Trees -/

/-- The ids of the shells that name `id` as their parent. -/
def declaredChildren (p : Pass σ) (kind : ObjectKind) (id : String) : List String :=
  ((p.scratch.shells kind).map p.plane.read).filterMap fun o =>
    if o.parent = some id then some o.id else none

/-- The ids below an object: those it lists, then those that name it and are not listed. -/
def childIds (p : Pass σ) (kind : ObjectKind) (o : Object) : List String :=
  o.children ++ (p.declaredChildren kind o.id).filter fun id => !o.children.contains id

/-- The shells below each shell of a kind. Ids without a shell are left out. -/
def family (p : Pass σ) (kind : ObjectKind) : OrderedMap String (List Handle) :=
  .ofList <| (p.scratch.shells kind).map fun s =>
    let o := p.plane.read s
    (o.id, (p.childIds kind o).filterMap (p.scratch.get? kind))

/-- Whether the parent that a shell names has no shell. -/
def isRoot (p : Pass σ) (kind : ObjectKind) (shell : Handle) : Bool :=
  ((p.plane.read shell).parent.bind (p.scratch.get? kind)).isNone

/-! ## Before the trees are managed -/

def noteTransition (kind : ObjectKind) (shell : Handle) (p : Pass σ) : Pass σ :=
  let r := p.plane.registry kind
  let id := (p.plane.read shell).id
  let mode := t.transitions kind id (r.lastTransition? id) (p.scratch.isReadOnly kind id)
  { p with plane := p.plane.setRegistry kind (r.setTransition id mode) }

/-- The ids managed so far for which there is no shell. -/
def unused (p : Pass σ) (kind : ObjectKind) : List String :=
  let shells := (p.scratch.shells kind).map fun s => (p.plane.read s).id
  (p.plane.registry kind).ids.filter fun id => !shells.contains id

/-- Note the transitions of all shells of a kind; the ids that are to be dropped. -/
def noteTransitions (kind : ObjectKind) : PassStep σ (List String) :=
  Step.total fun p =>
    (p.unused kind, (p.scratch.shells kind).foldl (fun p s => noteTransition t kind s p) p)

/-! ## Managing trees -/

/-- Manage a tree; whether no hook failed. The first failure is reported for the root. -/
def manageRoot (kind : ObjectKind) (children : OrderedMap String (List Handle)) (root : Handle) :
    PassStep σ Bool := do
  match ← onPlane fun p => p.plane.manageTree kind children root with
  | .ok _ => pure true
  | .error e =>
    manageFailed h kind root e
    pure false

def manageRoots (kind : ObjectKind) (children : OrderedMap String (List Handle))
    (roots : List Handle) : PassStep σ Unit :=
  Step.forEach roots fun root => do
    let _ ← manageRoot h kind children root

/-- Manage the trees of the applications; those of them in whose tree no hook failed. -/
def manageApplications (children : OrderedMap String (List Handle)) :
    List String → PassStep σ (List Handle)
  | [] => pure []
  | id :: r => do
    match ← Step.read fun p => p.scratch.get? .entity id with
    | none =>
      notFound h .entity id
      manageApplications children r
    | some entity =>
      let managed ← manageRoot h .entity children entity
      let others ← manageApplications children r
      pure (if managed then entity :: others else others)

def dropAll (kind : ObjectKind) (ids : List String) (p : Plane) : Plane :=
  ids.foldl (fun p id => (p.unmanage kind id .rebindingDestroyed).2) p

/-- Drop objects that have no shell from management. -/
def destroyUnused (kind : ObjectKind) (ids : List String) : PassStep σ Unit := do
  if !ids.isEmpty then
    let overwriting ← Step.read fun p => p.overwritingMaster
    log t (if overwriting then .warn else .debug) fun _ =>
      "destroying unused " ++ kind.directory ++ " on rebind: " ++ Text.quoteSet ids
    Step.update fun p => { p with plane := dropAll kind ids p.plane }

/-! ## Phase 8 -/

/-- Manage the locations: the trees of those whose parent has no shell. -/
def manageLocations : PassStep σ Unit := do
  logCourse t "managing locations"
  let old ← noteTransitions t .location
  let children ← Step.read fun p => p.family .location
  let roots ← Step.read fun p => (p.scratch.shells .location).filter (p.isRoot .location)
  manageRoots h .location children roots
  destroyUnused t .location old

/-- Manage the entities: the trees of the applications, then of the others whose parent has no shell. -/
def manageEntities (snapshot : Snapshot) : PassStep σ (List Handle) := do
  logCourse t "managing entities"
  let old ← noteTransitions t .entity
  let children ← Step.read fun p => p.family .entity
  let apps := snapshot.applicationIds
  let orphans ← Step.read fun p => (p.scratch.shells .entity).filter fun s =>
    !apps.contains (p.plane.read s).id && p.isRoot .entity s
  let applications ← manageApplications h children apps
  manageRoots h .entity children orphans
  destroyUnused t .entity old
  pure applications

/-- Forget the transitions and shells that were noted for this phase. -/
def release (p : Plane) : Plane :=
  { p with locations := p.locations.clearPending, entities := p.entities.clearPending }.clearPreManaged

def manageAll (snapshot : Snapshot) : PassStep σ (List Handle) := do
  enter 8
  manageLocations t h
  let applications ← manageEntities t h snapshot
  Step.update fun p => { p with plane := release p.plane }
  pure applications

end ManagementPlane.Pass
