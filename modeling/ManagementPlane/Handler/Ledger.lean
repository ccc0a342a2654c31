import ManagementPlane.Handler.Basic
import ManagementPlane.Mode

/-!
# The default handler

`Handler.byMode` writes every problem into a `Ledger` and acts by two failure modes: one for problems
with objects, one for references that nothing resolves. An object that is missing because it could not
be created is not reported a second time.
-/

namespace ManagementPlane

/-- What the default handler has recorded. -/
structure Ledger where
  errors : List String := []
  warnings : List String := []
  danglingErrors : Nat := 0
  createFailed : List (ObjectKind × String) := []
  deriving DecidableEq, Repr, Inhabited

namespace Ledger

def addError (message : String) (l : Ledger) : Ledger := { l with errors := l.errors ++ [message] }

def addWarning (message : String) (l : Ledger) : Ledger :=
  { l with warnings := l.warnings ++ [message] }

def objectErrors (l : Ledger) : Nat := l.errors.length - l.danglingErrors

/-- Write down a problem with an object, and stop if the mode says so. -/
def problem (mode : FailureMode) (kind : ObjectKind) (id : String) (error : ObjectError) :
    Step Ledger RebindError Unit := do
  Step.update (addError (subject kind id ++ ": " ++ error.message))
  if mode = .failFast then Step.stop (.object kind id error)

def loadFailed (mode : FailureMode) (message : String) (error : StoreError) :
    Step Ledger StoreError Unit := do
  let text := "problem loading " ++ message ++ ": " ++ error.message
  Step.update (addError text)
  if mode = .failFast then Step.stop (.rejected text)

def missing (kind : ObjectKind) (id : String) : String :=
  "no " ++ kind.label ++ " found with id " ++ id

def dangling (mode : FailureMode) (kind : ObjectKind) (id : String) : Step Ledger StoreError Unit :=
  let text := missing kind id
  match mode with
  | .failFast => do
    Step.update (addError text)
    Step.stop (.rejected text)
  | .failAtEnd => Step.update fun l => { l.addError text with danglingErrors := l.danglingErrors + 1 }
  | .carryOn => Step.update (addWarning text)

def noteCreateFailed (mode : FailureMode) (kind : ObjectKind) (id type : String)
    (error : ObjectError) : Step Ledger RebindError Unit := do
  Step.update fun l =>
    if (kind, id) ∈ l.createFailed then l else { l with createFailed := (kind, id) :: l.createFailed }
  problem mode kind id (.construct ("could not create " ++ type ++ ": " ++ error.message))

/-- Write down a missing object, unless its creation has failed. -/
def notFound (mode : FailureMode) (kind : ObjectKind) (id : String) :
    Step Ledger RebindError Unit := do
  if (kind, id) ∈ (← Step.read createFailed) then pure ()
  else problem mode kind id (.reconstruct (missing kind id))

/-- Whether the recorded problems fail a pass that has gone through. -/
def verdict (failure danglingMode : FailureMode) (l : Ledger) : Option RebindError :=
  if (failure = .failAtEnd ∧ 0 < l.objectErrors) ∨ (danglingMode = .failAtEnd ∧ 0 < l.danglingErrors)
  then some (.failed ("rebind failed with " ++ toString l.errors.length ++ " error(s)") l.errors
    l.warnings)
  else none

/-- The error that the caller of an ended pass sees. -/
def raise (error : RebindError) (l : Ledger) : RebindError :=
  match error with
  | .failed .. => error
  | e => if e.isInternal then e else .failed ("rebind failed: " ++ e.message) l.errors l.warnings

end Ledger

/-- The handler that acts by a mode for problems with objects and one for dangling references. -/
def Handler.byMode (failure danglingMode : FailureMode) : Handler Ledger where
  loadFailed _ := Ledger.loadFailed failure
  dangling := Ledger.dangling danglingMode
  start _ _ := {}
  createFailed := Ledger.noteCreateFailed failure
  notFound := Ledger.notFound failure
  rebindFailed := Ledger.problem failure
  manageFailed := Ledger.problem failure
  done := do
    match (← Step.read (Ledger.verdict failure danglingMode)) with
    | some e => Step.stop e
    | none => pure ()
  failed e l := (l.raise e, l)
  errors := Ledger.errors
  warnings := Ledger.warnings

/-- The handler of a pass for which nothing else is configured. -/
def Handler.default : Handler Ledger := .byMode .failAtEnd .carryOn

end ManagementPlane
