import ManagementPlane.Handler.Ledger
import ManagementPlane.Pass.Run

/-!
# The manager

The manager runs passes one at a time.

* `Manager.announce` : a master pass ends the row of read-only passes, even while it has to wait;
* `Manager.rebind` : a pass, and whether its store may be written to afterwards;
* `Queue` : which pass holds the permit to run, and which wait for it.
-/

namespace ManagementPlane

namespace Manager

variable {σ : Type}

def announce (m : Manager) (mode : ManagementMode) : Manager :=
  if mode.isHotProxy then m else { m with hotPasses := 0 }

/-- Run a pass with a new handler; also whether the store is writable from now on: only a master pass
that went through opens it. -/
def rebind (m : Manager) (setup : Setup) (source : Source) (time : Nat) (h : Handler σ) (s : σ)
    (mode : ManagementMode) : Outcome σ × Bool :=
  let outcome := (m.announce mode).runPass setup source time h (.new mode) s
  (outcome, outcome.result.isOk && mode.mayWriteStore)

end Manager

def Setup.handler (s : Setup) : Handler Ledger :=
  .byMode s.settings.failureMode s.settings.danglingMode

/-- The pass that holds the permit to run, and those that wait for it, in order. -/
structure Queue (α : Type) where
  running : Option α := none
  waiting : List α := []

namespace Queue

variable {α : Type}

def request (q : Queue α) (a : α) : Queue α :=
  match q.running with
  | none => { q with running := some a }
  | some _ => { q with waiting := q.waiting ++ [a] }

/-- Give the permit back; it goes to the one that has waited longest. -/
def release (q : Queue α) : Queue α :=
  match q.waiting with
  | [] => {}
  | a :: r => { running := some a, waiting := r }

end Queue

end ManagementPlane
