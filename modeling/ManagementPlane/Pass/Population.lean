import ManagementPlane.Memento.Lineage
import ManagementPlane.Pass.Basic

/-!
# The middle phases: populating shells and joining them

* `Pass.reconstructAll` (6) : locations, adjuncts and entities take in their mementos, parents first;
* `Pass.attachAdjuncts` (7) : adjuncts come to belong to entities.
-/

namespace ManagementPlane.Pass

variable {σ : Type} (t : Task) (h : Handler σ)

/-! ## Phase 6 -/

def leave (kind : ObjectKind) (id : String) (p : Pass σ) : Pass σ :=
  { p with scratch := (p.scratch.unregister kind id).2 }

/-- Populate a shell. An adjunct that fails leaves the pass; a location or entity stays, since others
may refer to it. -/
def reconstructOne (kind : ObjectKind) (m : Memento) : PassStep σ Unit := do
  match ← Step.read fun p => p.scratch.get? kind m.id with
  | none => notFound h kind m.id
  | some shell =>
    let populated ← onPlane fun p =>
      p.plane.reconstruct (p.scratch.known p.plane) p.scratch.allReadOnly shell m
    match populated with
    | .ok () => pure ()
    | .error e =>
      rebindFailed h kind shell e
      if kind.isAdjunct then Step.update (leave kind m.id)

/-- Populate the adjuncts of a kind, unless the kind takes no part in persistence. -/
def reconstructAdjuncts (snapshot : Snapshot) (kind : ObjectKind) : PassStep σ Unit := do
  if t.settings.features.enabled kind then
    logCourse t ("reconstructing " ++ kind.directory)
    Step.forEach (snapshot.ofKind kind).values (reconstructOne h kind)

def reconstructAll (snapshot : Snapshot) : PassStep σ Unit := do
  enter 6
  logCourse t "reconstructing locations"
  Step.forEach (sortParentFirst snapshot.locations) (reconstructOne h .location)
  Step.forEach ObjectKind.adjuncts (reconstructAdjuncts t h snapshot)
  logCourse t "reconstructing entities"
  Step.forEach (sortParentFirst snapshot.entities) (reconstructOne h .entity)

/-! ## Phase 7 -/

/-- Attach the adjunct of an id to an entity, or report that there is none. -/
def attachOne (entity : Handle) (kind : ObjectKind) (id : String) : PassStep σ Unit := do
  match ← Step.read fun p => p.scratch.get? kind id with
  | none => onStore ((listener h).dangling kind id)
  | some adjunct =>
    match ← onPlane fun p => p.plane.addAdjunct entity kind adjunct with
    | .ok () => pure ()
    | .error e => rebindFailed h .entity entity e

/-- Attach the adjuncts of a kind that an entity refers to. -/
def attachKind (entity : Handle) (m : Memento) (kind : ObjectKind) : PassStep σ Unit := do
  if t.settings.features.enabled kind then Step.forEach (m.adjunctIds kind) (attachOne h entity kind)

def attachAllOf (m : Memento) : PassStep σ Unit := do
  match ← Step.read fun p => p.scratch.get? .entity m.id with
  | none => notFound h .entity m.id
  | some entity => Step.forEach ObjectKind.adjuncts (attachKind t h entity m)

def attachAdjuncts (snapshot : Snapshot) : PassStep σ Unit := do
  enter 7
  logCourse t "associating adjuncts with entities"
  Step.forEach (sortParentFirst snapshot.entities) (attachAllOf t h)

end ManagementPlane.Pass
