import ManagementPlane.Mode
import ManagementPlane.Object.Types

/-!
# What happens

The live manager keeps a record of the constructions and hook calls it makes, of the notifications a
pass sends to its handler, and of what it logs, all in one order.
-/

namespace ManagementPlane

/-- What a pass tells its handler. -/
inductive Notification where
  | start (readOnly : Bool)
  | loadFailed (kind : ObjectKind) (message : String) (error : StoreError)
  | dangling (kind : ObjectKind) (id : String)
  | createFailed (kind : ObjectKind) (id type : String) (error : ObjectError)
  | notFound (kind : ObjectKind) (id : String)
  | rebindFailed (kind : ObjectKind) (id : String) (error : ObjectError)
  | manageFailed (kind : ObjectKind) (id : String) (error : ObjectError)
  | done
  | failed (error : RebindError)
  deriving DecidableEq, Repr

/-- How much a log entry matters. -/
inductive LogLevel where
  | trace
  | debug
  | info
  | warn
  deriving DecidableEq, Repr, Inhabited

def LogLevel.label : LogLevel → String
  | trace => "trace"
  | debug => "debug"
  | info => "info"
  | warn => "warn"

/-- A log entry with what it was written in: the node, the mode and phase of the pass and, on a node
that follows a master, the number of the pass. -/
structure LogEntry where
  level : LogLevel
  node : String
  mode : ManagementMode
  iteration : Option Int
  phase : Nat
  message : String
  deriving DecidableEq, Repr

/-- How an object was asked for. -/
inductive ConstructorCall where
  | canonical (id : String)
  | legacy (args : ConstructorArgs)
  deriving DecidableEq

/-- A hook of an object, with what it is given. -/
inductive HookCall where
  | reconstruct (memento : String) (readOnly : Bool)
  | reconstructItem (item : String)
  | managed (t : Transition)
  | unmanaged (t : Transition)
  | attach (entity : String)
  deriving DecidableEq, Repr

/-- Something that happened. Constructions and hook calls say whether they are journaled; a hook call
names the object, its kind and its id at that time. -/
inductive Event where
  | constructed (audited : Bool) (type : String) (call : ConstructorCall)
  | hook (audited : Bool) (object : Handle) (kind : ObjectKind) (id : String) (call : HookCall)
  | notified (n : Notification)
  | logged (entry : LogEntry)
  deriving DecidableEq

end ManagementPlane
