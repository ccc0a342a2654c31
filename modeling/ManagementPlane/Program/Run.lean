import ManagementPlane.Program.Arguments
import ManagementPlane.Program.Logging
import ManagementPlane.Program.Report
import ManagementPlane.Text.Lines

/-!
# Runs of the program

`run` is what the program does with its arguments, the environment and the files it finds: what it
prints, the status it ends with, and the files it leaves behind.

* `Surroundings` : what a run is given besides its arguments;
* `Ending` : what is to be seen of a run.
-/

namespace ManagementPlane.Program

/-- What a run is given besides its arguments. -/
structure Surroundings where
  /-- The configuration file that the environment names. -/
  configFile : Option String := none
  files : FileTree
  /-- The day that log files are called after. -/
  day : String
  /-- How long a pass takes, in milliseconds. -/
  elapsed : Nat := 0

/-- What is to be seen of a run. -/
structure Ending where
  status : Nat
  /-- The texts on standard output, each of which ends its last line. -/
  output : List String := []
  /-- Why the run failed, outermost reason first. -/
  failure : List String := []
  files : FileTree

namespace Ending

def failed (reasons output : List String) (files : FileTree) : Ending :=
  { status := 1, output, failure := reasons, files }

/-- The texts on standard error, each of which ends its last line. -/
def errors (e : Ending) : List String :=
  match e.failure with
  | [] => []
  | [reason] => ["Error: " ++ reason]
  | reason :: causes => ("Error: " ++ reason) :: "" :: "Caused by:" :: causes.map ("    " ++ ·)

def outputLines (e : Ending) : List String := e.output.flatMap Text.lines

def errorLines (e : Ending) : List String := e.errors.flatMap Text.lines

end Ending

def candidates (o : Options) : List String :=
  o.config.toList ++ ["configs/trellis.toml", "configs/trellis.example.toml"]

/-- The configuration with what the options set instead. -/
def Options.override (o : Options) (c : AppConfig) : AppConfig :=
  { c with
    mode := o.mode.getD c.mode
    persistence := { c.persistence with directory := o.store.getD c.persistence.directory } }

/-- What the program is called in the names of log files. -/
def service : String := "trellisd"

def report (c : AppConfig) (s : Surroundings) (store : Store) (h : Handler Ledger)
    (o : Manager.Outcome Ledger) : Report :=
  let p := o.manager.plane
  { node := c.nodeId
    mode := c.mode
    store := (store.source s.files).description
    applications := match o.result with
      | .ok applications => applications.map fun a => (p.read a).id
      | .error _ => []
    entities := p.entities.objects.size
    locations := p.locations.objects.size
    catalogItems := p.catalog.items.size
    writable := store.writable
    elapsed := s.elapsed
    errors := h.errors o.handler
    warnings := h.warnings o.handler }

def rebind (c : AppConfig) (s : Surroundings) (store : Store) (json : Bool) : Ending :=
  let setup := c.setup .stock s.files
  let (o, writable) :=
    ({} : Manager).rebind setup (store.source s.files) s.elapsed setup.handler {} c.mode
  let r := report c s (store.setWritable writable) setup.handler o
  let output := (if json then [r.toValue.pretty] else r.lines)
    ++ (if c.metrics then o.manager.metrics.exposition else [])
  match o.result with
  | .ok _ => { status := 0, output, files := s.files }
  | .error e => .failed ["rebind did not complete", e.message] output s.files

def manifest (source : Source) : Step Ledger StoreError Manifest := do
  let h := Handler.default.toListener
  Manifest.decode (← source.load h) h

def inspect (s : Surroundings) (store : Store) : Ending :=
  let source := store.source s.files
  match (manifest source).on {} with
  | (.ok m, _) => { status := 0, output := m.lines source.description, files := s.files }
  | (.error e, _) => .failed [e.message] [] s.files

/-- Carry out a command. Without a log file to write to there is nothing to be done. -/
def execute (c : AppConfig) (s : Surroundings) (command : Command) : Ending :=
  match c.logging.start service c.nodeId s.day s.files with
  | (.error (.noFile _), files) => { status := 101, files }
  | (.error e, files) => .failed [e.message] [] files
  | (.ok (), files) =>
    let s := { s with files }
    let store := Store.file { root := c.persistence.directory }
    match command with
    | .rebind json => rebind c s store json
    | .inspect => inspect s store

def run (arguments : List String) (s : Surroundings) : Ending :=
  match Invocation.parse arguments with
  | .misuse => { status := 2, files := s.files }
  | .inform lines => { status := 0, output := lines, files := s.files }
  | .run options command =>
    match AppConfig.load s.files s.configFile (candidates options) with
    | .error e =>
      .failed (e.chain ConfigFault.malformed.message FileError.message) [] s.files
    | .ok (_, c) => execute (options.override c) s command

end ManagementPlane.Program
