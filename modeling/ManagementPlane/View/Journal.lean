import ManagementPlane.Json.Literal
import ManagementPlane.Json.Printer
import ManagementPlane.Plane.Basic

/-!
# The journal

What happened in the live manager as lines of text. Constructions and hook calls have a line if they
are journaled; log entries have none.
-/

namespace ManagementPlane

open Json (Value)

/-- The arguments of an older constructor as JSON. -/
def ConstructorArgs.view (args : ConstructorArgs) : Value :=
  let shape := ("shape", (args.shape.label : Value))
  match args with
  | .flags f => .object [("flags", f), shape]
  | .flagsAndParent f p => .object [("flags", f), ("parent", p), shape]
  | .parent p => .object [("parent", p), shape]
  | .noArgs => .object [shape]

def ConstructorCall.line : ConstructorCall → String
  | .canonical id => "canonical " ++ id
  | .legacy args => args.view.compact

/-- A call of a hook of the object of a kind and id. -/
def HookCall.line (kind : ObjectKind) (id : String) : HookCall → String
  | .reconstruct memento readOnly =>
    "reconstruct " ++ subject kind memento ++ " read_only=" ++ toString readOnly
  | .reconstructItem item => "reconstruct " ++ subject kind item
  | .managed t => "manage " ++ subject kind id ++ " " ++ t.label
  | .unmanaged t => "unmanage " ++ subject kind id ++ " " ++ t.label
  | .attach entity => "attach " ++ subject kind id ++ " to " ++ entity

def Notification.line : Notification → String
  | .start readOnly => "start read_only=" ++ toString readOnly
  | .loadFailed kind message e => "load_failed " ++ subject kind message ++ ": " ++ e.message
  | .dangling kind id => "dangling " ++ subject kind id
  | .createFailed kind id _ e => "create_failed " ++ subject kind id ++ ": " ++ e.message
  | .notFound kind id => "not_found " ++ subject kind id
  | .rebindFailed kind id e => "rebind_failed " ++ subject kind id ++ ": " ++ e.message
  | .manageFailed kind id e => "manage_failed " ++ subject kind id ++ ": " ++ e.message
  | .done => "done"
  | .failed e => "failed " ++ e.message

/-- The line of what happened; `notifications` says whether notifications have one. -/
def Event.line? (notifications : Bool) : Event → Option String
  | .constructed audited type call =>
    if audited then some ("construct " ++ type ++ " " ++ call.line) else none
  | .hook audited _ kind id call => if audited then some (call.line kind id) else none
  | .notified n => if notifications then some n.line else none
  | .logged _ => none

def Plane.journal (p : Plane) (notifications : Bool) : List String :=
  p.events.filterMap (Event.line? notifications)

def Plane.logEntries (p : Plane) : List LogEntry :=
  p.events.filterMap fun
    | .logged entry => some entry
    | _ => none

end ManagementPlane
