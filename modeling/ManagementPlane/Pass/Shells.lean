import ManagementPlane.Pass.Basic

/-!
# The first phases: reading the store and making shells

* `Pass.loadManifest` (1) : the payloads and the manifest;
* `Pass.rebuildCatalog` (2) : the catalog;
* `Pass.makeLocationsAndEntities` (3) : the shells of locations and entities;
* `Pass.loadSnapshot` (4) : the full mementos;
* `Pass.makeAdjuncts` (5) : the shells of policies, enrichers and feeds.
-/

namespace ManagementPlane.Pass

variable {σ : Type} (t : Task) (h : Handler σ)

/-! ## Phase 1 -/

/-- What phase 1 leaves behind for the others to see. A hot node never overwrites a master. -/
def noteManifest (m : Manifest) (p : Pass σ) : Pass σ :=
  { p with
    isEmpty := m.isEmpty
    overwritingMaster := !p.mode.isHotProxy
      && (p.plane.entities.hasPrimary p.plane.heap || p.plane.locations.hasPrimary p.plane.heap) }

def loadManifest : PassStep σ (RawData × Manifest) := do
  enter 1
  logCourse t ("rebinding from " ++ t.source.description)
  let raw ← onStore (t.source.load (listener h))
  let manifest ← onStore (Manifest.decode raw (listener h))
  Step.update (noteManifest manifest)
  pure (raw, manifest)

/-! ## Making shells -/

def instantiator (p : Pass σ) : Instantiator where
  types := t.types
  infer := t.settings.inferCatalogItem
  scratch := p.scratch

def join (shell : Handle) (p : Pass σ) : Pass σ :=
  let (scratch, plane) := p.scratch.register p.plane shell
  { p with scratch, plane }

/-- Make a shell and let it join the pass, or report that it could not be made. -/
def makeShell (kind : ObjectKind) (id type : String)
    (make : Pass σ → Plane → Except ObjectError Handle × Plane) : PassStep σ Unit := do
  match ← onPlane fun p => make p p.plane with
  | .ok shell => Step.update (join shell)
  | .error e => createFailed h kind id type e

/-! ## Phase 2 -/

def makeCatalogItem (item : CatalogItem) : PassStep σ Unit :=
  makeShell h .catalogItem item.id item.type fun p => (instantiator t p).newCatalogItem item

def populateCatalogItem (item : CatalogItem) : PassStep σ Unit := do
  match ← Step.read fun p => p.scratch.get? .catalogItem item.id with
  | none => notFound h .catalogItem item.id
  | some shell =>
    match ← onPlane fun p => p.plane.reconstructItem shell item with
    | .ok () => pure ()
    | .error e => rebindFailed h .catalogItem shell e

def resetCatalog (p : Pass σ) : Pass σ :=
  { p with plane := { p.plane with
      catalog := .ofItems p.plane.heap (p.scratch.shells .catalogItem) } }

def adoptAll : List Object → Plane → List Handle × Plane
  | [], p => ([], p)
  | o :: r, p =>
    let (h, p) := p.adopt o
    let (hs, p) := adoptAll r p
    (h :: hs, p)

/-- Replace the catalog of a live manager by items that are made for it. -/
def fillCatalog (items : List CatalogItem) (p : Plane) : Plane :=
  let (hs, p) := adoptAll (items.map .ofItem) p
  { p with catalog := .ofItems p.heap hs }

/-- Replace the catalog by the contents of its default source, if they can be had. -/
def loadDefaultCatalog : PassStep σ Unit :=
  match CatalogSource.load t.defaultCatalog with
  | .error reason => Step.stop (.defaultCatalog reason)
  | .ok items => Step.update fun p => { p with plane := fillCatalog items p.plane }

/-- Rebuild the catalog, unless catalog items take no part in persistence. -/
def rebuildCatalog (manifest : Manifest) : PassStep σ Unit := do
  enter 2
  if !t.settings.features.enabled .catalogItem then
    logCourse t ("not rebinding catalog; feature disabled: " ++ listed manifest.catalogItemIds)
  else
    logCourse t ("instantiating catalog items: " ++ listed manifest.catalogItemIds)
    Step.forEach manifest.catalogItems.values (makeCatalogItem t h)
    logCourse t "reconstructing catalog items"
    Step.forEach manifest.catalogItems.values (populateCatalogItem h)
    let isEmpty ← Step.read fun p => p.isEmpty
    if t.settings.catalogLoadMode.resetsToPersisted isEmpty then
      logCourse t "resetting catalog to persisted state"
      Step.update resetCatalog
    else
      logCourse t "loading default catalog"
      loadDefaultCatalog t

/-! ## Phase 3 -/

def makeLocation (e : String × String) : PassStep σ Unit :=
  makeShell h .location e.1 e.2 fun p => (instantiator t p).newLocation e.1 e.2

/-- Make the shell of an entity, with the catalog item it came from. -/
def makeEntity (manifest : Manifest) (e : EntitySummary) : PassStep σ Unit :=
  makeShell h .entity e.id e.type fun p =>
    (instantiator t p).newEntity e.id e.type
      (p.plane.provenance? t.types t.settings.inferCatalogItem manifest.entities e)

def makeLocationsAndEntities (manifest : Manifest) : PassStep σ Unit := do
  enter 3
  logCourse t ("instantiating locations: " ++ listed manifest.locationTypes.keys)
  Step.forEach manifest.locationTypes.entries (makeLocation t h)
  logCourse t ("instantiating entities: " ++ listed manifest.entities.keys)
  Step.forEach manifest.entities.values (makeEntity t h manifest)

/-! ## Phase 4 -/

/-- Read the full mementos and report what they refer to in vain. -/
def loadSnapshot (raw : RawData) : PassStep σ Snapshot := do
  enter 4
  let known ← Step.read fun p => p.scratch.known p.plane
  onStore (Snapshot.decode raw known (listener h))

/-! ## Phase 5 -/

def makeAdjunct (kind : ObjectKind) (m : Memento) : PassStep σ Unit :=
  makeShell h kind m.id m.type fun p => (instantiator t p).newAdjunct kind m

/-- Make the shells of the adjuncts of a kind, unless the kind takes no part in persistence. -/
def makeAdjunctsOf (snapshot : Snapshot) (kind : ObjectKind) : PassStep σ Unit := do
  let mementos := snapshot.ofKind kind
  if !t.settings.features.enabled kind then
    logCourse t ("not rebinding " ++ kind.directory ++ "; feature disabled: " ++ listed mementos.keys)
  else
    logCourse t ("instantiating " ++ kind.directory ++ ": " ++ listed mementos.keys)
    Step.forEach mementos.values (makeAdjunct t h kind)

/-- Make the shells of policies, enrichers and feeds. -/
def makeAdjuncts (snapshot : Snapshot) : PassStep σ Unit := do
  enter 5
  Step.forEach ObjectKind.adjuncts (makeAdjunctsOf t h snapshot)

end ManagementPlane.Pass
