import ManagementPlane.Config.Loading
import ManagementPlane.Manager
import ManagementPlane.Plane.CatalogFile
import ManagementPlane.Store.Any

/-!
# A node at work

`Site` is a manager with what surrounds it: stores by name, and the files that some of these and the
default catalog lie in.

* `AppConfig.setup` : what a configuration says about passes;
* `Site.rebind` : a pass over a store, which is open for writing afterwards only if it was a master pass
  that went through;
* `Site.run` : a pass that was prepared before; the store stays as open as it was;
* `Site.rebindAgain`, `Site.runAgain` : several passes, and several runs of one.
-/

namespace ManagementPlane

/-- The default catalog that a configuration names, as the files are now. -/
def AppConfig.catalogSource (c : AppConfig) (files : FileTree) : Option CatalogSource :=
  c.catalog.defaultSource.map (CatalogSource.file files)

def AppConfig.setup (c : AppConfig) (types : TypeRegistry) (files : FileTree) : Setup where
  node := c.nodeId
  types := types
  settings := c.rebindSettings
  defaultCatalog := c.catalogSource files

/-- A manager with its stores and the files around it. -/
structure Site where
  /-- What passes have in common, given the files of the moment. -/
  setup : FileTree → Setup
  manager : Manager := {}
  stores : SortedMap Store
  /-- What reading a store ends with, for stores that cannot be read. -/
  broken : List (String × String) := []
  files : FileTree

namespace Site

variable {σ : Type}

/-- The handler that passes have if none is given. -/
def handler (s : Site) : Handler Ledger := (s.setup s.files).handler

def store? (s : Site) (name : String) : Option Store := s.stores.get? name

def putStore (s : Site) (name : String) (store : Store) : Site :=
  { s with stores := s.stores.insert name store }

def source (s : Site) (name : String) (store : Store) : Source :=
  match s.broken.lookup name with
  | none => store.source s.files
  | some message => { store.source s.files with readings := .error (.rejected message) }

def rebind (s : Site) (name : String) (store : Store) (h : Handler σ) (state : σ)
    (mode : ManagementMode) : Manager.Outcome σ × Site :=
  let (outcome, writable) :=
    s.manager.rebind (s.setup s.files) (s.source name store) 0 h state mode
  (outcome, { s.putStore name (store.setWritable writable) with manager := outcome.manager })

def run (s : Site) (name : String) (store : Store) (h : Handler σ) (pass : Iteration) (state : σ) :
    Manager.Outcome σ × Site :=
  let outcome := s.manager.runPass (s.setup s.files) (s.source name store) 0 h pass state
  (outcome, { s with manager := outcome.manager })

def onPlane (f : Plane → Plane) (s : Site) : Site :=
  { s with manager := { s.manager with plane := f s.manager.plane } }

/-- Passes over a store, one after the other; each leaves the store to the next. What is logged before
the last of them is forgotten. -/
def rebindAgain (s : Site) (name : String) (store : Store) (h : Handler σ) (state : σ)
    (mode : ManagementMode) : (more : Nat) → Manager.Outcome σ × Site
  | 0 => (s.onPlane Plane.forgetLog).rebind name store h state mode
  | n + 1 =>
    let s := (s.rebind name store h state mode).2
    s.rebindAgain name ((s.store? name).getD store) h state mode n

/-- Run a prepared pass again and again; all outcomes in order. -/
def runAgain (s : Site) (name : String) (store : Store) (h : Handler σ) (pass : Iteration)
    (state : σ) : (times : Nat) → List (Manager.Outcome σ) × Site
  | 0 => ([], s)
  | n + 1 =>
    let (o, s) := s.run name store h pass state
    let (rest, s) := s.runAgain name store h o.iteration o.handler n
    (o :: rest, s)

end Site

end ManagementPlane
