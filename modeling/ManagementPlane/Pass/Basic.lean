import ManagementPlane.Handler.Basic
import ManagementPlane.Memento.Codec
import ManagementPlane.Plane.Instantiation
import ManagementPlane.Text.Quoted

/-!
# Passes

A pass rebuilds the live objects from a store in eight phases.

* `RebindSettings`, `Setup`, `Task` : what a pass is given;
* `Iteration` : what can be seen of a pass from outside, while it is under way and afterwards;
* `Pass` : the state its phases work on;
* `Pass.tell`, `Pass.log` : notifications to the handler, which are put on record, and log entries.
-/

namespace ManagementPlane

/-! ## What a pass is given -/

/-- Which kinds of objects take part in persistence. Entities and locations always do. -/
structure Features where
  catalogItems : Bool := true
  policies : Bool := true
  enrichers : Bool := true
  feeds : Bool := true
  deriving DecidableEq, Repr, Inhabited

def Features.enabled (f : Features) : ObjectKind → Bool
  | .catalogItem => f.catalogItems
  | .policy => f.policies
  | .enricher => f.enrichers
  | .feed => f.feeds
  | .entity | .location => true

/-- What can be set about passes. -/
structure RebindSettings where
  features : Features := {}
  inferCatalogItem : Bool := true
  catalogLoadMode : CatalogLoadMode := .defaultCatalogIfNoPersistedState
  failureMode : FailureMode := .failAtEnd
  danglingMode : FailureMode := .carryOn
  deriving DecidableEq, Repr, Inhabited

/-- What all passes of a manager have in common. -/
structure Setup where
  node : String
  types : TypeRegistry
  settings : RebindSettings := {}
  transitions : TransitionChoice := .standard
  defaultCatalog : Option CatalogSource := none

/-- What one pass is given: the store it reads, and how many passes in a row have been read-only. -/
structure Task extends Setup where
  source : Source
  hotPasses : Int

/-! ## The state of a pass -/

/-- What can be seen of a pass: its mode, its shells, the phase it entered last, whether the store
showed nothing, and whether writable objects were managed already when it began. -/
structure Iteration where
  mode : ManagementMode
  scratch : Scratch
  started : Bool := false
  phase : Nat := 0
  isEmpty : Bool := false
  overwritingMaster : Bool := false

def Iteration.new (mode : ManagementMode) : Iteration :=
  { mode, scratch := { allReadOnly := mode.isReadOnly } }

/-- A pass under way, with the live manager and the state of its handler. -/
structure Pass (σ : Type) extends Iteration where
  plane : Plane
  handler : σ

abbrev PassStep (σ α : Type) := Step (Pass σ) RebindError α

namespace Pass

variable {σ : Type}

def record (e : Event) (p : Pass σ) : Pass σ := { p with plane := p.plane.record e }

def tell {ε : Type} (n : Notification) (answer : Step σ ε Unit) : Step (Pass σ) ε Unit := do
  Step.update (record (.notified n))
  Step.within Pass.handler (fun s p => { p with handler := s }) answer

/-- The handler as it hears of problems with a store. -/
def listener (h : Handler σ) : Listener (Pass σ) where
  loadFailed kind message error := tell (.loadFailed kind message error) (h.loadFailed kind message error)
  dangling kind id := tell (.dangling kind id) (h.dangling kind id)

def onStore {α : Type} (x : Step (Pass σ) StoreError α) : PassStep σ α := x.mapStop .store

/-- A change of the live manager that yields a value. -/
def onPlane {α : Type} (f : Pass σ → α × Plane) : PassStep σ α :=
  Step.total fun p =>
    let (a, plane) := f p
    (a, { p with plane })

/-! ## Notifications -/

variable (h : Handler σ)

def createFailed (kind : ObjectKind) (id type : String) (e : ObjectError) : PassStep σ Unit :=
  tell (.createFailed kind id type e) (h.createFailed kind id type e)

def notFound (kind : ObjectKind) (id : String) : PassStep σ Unit :=
  tell (.notFound kind id) (h.notFound kind id)

/-- Report a shell that could not be populated or joined. -/
def rebindFailed (kind : ObjectKind) (shell : Handle) (e : ObjectError) : PassStep σ Unit := do
  let id ← Step.read fun p => (p.plane.read shell).id
  tell (.rebindFailed kind id e) (h.rebindFailed kind id e)

def manageFailed (kind : ObjectKind) (shell : Handle) (e : ObjectError) : PassStep σ Unit := do
  let id ← Step.read fun p => (p.plane.read shell).id
  tell (.manageFailed kind id e) (h.manageFailed kind id e)

/-! ## Log entries -/

/-- Whether passes in this mode are worth a word: those of a hot node only at first, and then now and
again. -/
def worthLogging (mode : ManagementMode) (hotPasses : Int) : Bool :=
  !mode.isHotProxy || hotPasses < 5 || hotPasses % 1000 == 0

def log (t : Task) (level : LogLevel) (message : Pass σ → String) : PassStep σ Unit :=
  Step.update fun p => p.record <| .logged {
    level, node := t.node, mode := p.mode
    iteration := if p.mode.isHotProxy then some t.hotPasses else none
    phase := p.phase, message := message p }

/-- Write a log entry about the course of the pass. -/
def logCourse (t : Task) (message : String) : PassStep σ Unit := do
  let mode ← Step.read fun p => p.mode
  log t (if worthLogging mode t.hotPasses then .debug else .trace) fun _ => message

def enter (phase : Nat) : PassStep σ Unit := Step.update fun p => { p with phase }

/-- How the ids of objects are listed in log entries. -/
def listed (ids : List String) : String := Text.quoteList ids

end Pass

end ManagementPlane
