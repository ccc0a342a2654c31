import ManagementPlane.Pass.Management
import ManagementPlane.Pass.Metrics
import ManagementPlane.Pass.Population
import ManagementPlane.Pass.Shells

/-!
# A whole pass

* `Summary` : the counts a pass ends with;
* `Pass.phases` : the eight phases in order;
* `Pass.begin`, `Pass.verdict` : the first notification, and the phases with the verdict of the handler;
* `Manager.runPass` : a pass with its effect on the counters and reports of the manager.
-/

namespace ManagementPlane

/-- The counts a pass ends with. -/
structure Summary where
  applications : Nat
  entities : Nat
  locations : Nat
  policies : Nat
  enrichers : Nat
  feeds : Nat
  catalogItems : Nat
  deriving DecidableEq, Repr

namespace Summary

def ofScratch (s : Scratch) (applications : Nat) : Summary where
  applications := applications
  entities := s.count .entity
  locations := s.count .location
  policies := s.count .policy
  enrichers := s.count .enricher
  feeds := s.count .feed
  catalogItems := s.count .catalogItem

def describe (s : Summary) (mode : ManagementMode) (iteration : Option Int) : String :=
  let counted := match iteration with
    | some n => ", iteration " ++ toString n
    | none => ""
  "rebind complete (" ++ mode.label ++ counted ++ "): "
    ++ toString s.applications ++ " app(s), "
    ++ toString s.entities ++ " entit(ies), "
    ++ toString s.locations ++ " location(s), "
    ++ toString s.policies ++ " polic(ies), "
    ++ toString s.enrichers ++ " enricher(s), "
    ++ toString s.feeds ++ " feed(s), "
    ++ toString s.catalogItems ++ " catalog item(s)"

end Summary

namespace Pass

variable {σ : Type} (t : Task) (h : Handler σ)

def logSummary (applications : List Handle) : PassStep σ Unit := do
  let mode ← Step.read fun p => p.mode
  log t (if worthLogging mode t.hotPasses then .info else .debug) fun p =>
    (Summary.ofScratch p.scratch applications.length).describe mode
      (if mode.isHotProxy then some t.hotPasses else none)

/-- What is left to do when everything is managed. -/
def finish (snapshot : Snapshot) (applications : List Handle) : PassStep σ Unit := do
  if !(← Step.read fun p => p.isEmpty) then logSummary t applications
  logCourse t ("rebind complete; apps: " ++ listed snapshot.applicationIds)

/-- The eight phases; the applications that are managed now. -/
def phases : PassStep σ (List Handle) := do
  let (raw, manifest) ← loadManifest t h
  rebuildCatalog t h manifest
  makeLocationsAndEntities t h manifest
  let snapshot ← loadSnapshot h raw
  makeAdjuncts t h snapshot
  reconstructAll t h snapshot
  attachAdjuncts t h snapshot
  let applications ← manageAll t h snapshot
  finish t snapshot applications
  pure applications

def begin (p : Pass σ) : Pass σ :=
  let readOnly := p.scratch.allReadOnly
  { p.record (.notified (.start readOnly)) with handler := h.start readOnly p.handler }

/-- The phases, and the handler's verdict on a pass that went through. -/
def verdict : PassStep σ (List Handle) := do
  let applications ← phases t h
  tell .done h.done
  pure applications

/-- Let the handler turn the error that ended the pass into the one its caller sees. -/
def raise (e : RebindError) (p : Pass σ) : RebindError × Pass σ :=
  let (e', s) := h.failed e p.handler
  (e', { p.record (.notified (.failed e)) with handler := s })

def logFailure (e : RebindError) (p : Pass σ) : Pass σ :=
  ((log t .warn fun _ => "rebind failed: " ++ e.message : PassStep σ Unit).on p).2

/-- Whether anything is to be reported of a pass, and what. -/
def report (primary : Option RebindError) (s : σ) : Option (List String) :=
  if primary.isNone && (h.errors s).isEmpty && (h.warnings s).isEmpty then none
  else some ((primary.map RebindError.message).toList ++ h.errors s ++ h.warnings s)

end Pass

/-- The live manager with the record of its passes: their counts, and how many in a row have been
read-only. -/
structure Manager where
  plane : Plane := {}
  metrics : PassMetrics := {}
  hotPasses : Int := 0

namespace Manager

variable {σ : Type}

/-- Count a pass that took `time`, and keep what is to be reported of it. -/
def account (m : PassMetrics) (time : Nat) (failure : Option RebindError)
    (report : Option (List String)) : PassMetrics :=
  let m := match failure with
    | none => m.noteSuccess time
    | some _ => m.noteFailure time
  match report with
  | none => m
  | some messages => m.noteReport messages

/-- What a run leaves behind. -/
structure Outcome (σ : Type) where
  result : Except RebindError (List Handle)
  manager : Manager
  iteration : Iteration
  handler : σ

/-- Run a pass that took `time`. A pass runs only once. -/
def runPass (m : Manager) (setup : Setup) (source : Source) (time : Nat) (h : Handler σ)
    (iteration : Iteration) (s : σ) : Outcome σ :=
  if iteration.started then ⟨.error .alreadyRun, m, iteration, s⟩
  else
    let hotPasses := if iteration.mode.isHotProxy then m.hotPasses + 1 else m.hotPasses
    let t : Task := { toSetup := setup, source, hotPasses }
    let start : Pass σ :=
      { toIteration := { iteration with started := true }, plane := m.plane, handler := s }
    match (Pass.verdict t h).on (Pass.begin h start) with
    | (.ok applications, p) =>
      let metrics := account m.metrics time none (Pass.report h none p.handler)
      ⟨.ok applications, { plane := p.plane, metrics, hotPasses }, p.toIteration, p.handler⟩
    | (.error e, p) =>
      let metrics := account m.metrics time (some e) (Pass.report h (some e) p.handler)
      let (e', p) := Pass.raise h e (Pass.logFailure t e p)
      ⟨.error e', { plane := p.plane, metrics, hotPasses }, p.toIteration, p.handler⟩

end Manager

end ManagementPlane
