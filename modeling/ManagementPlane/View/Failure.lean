import ManagementPlane.Json.Literal
import ManagementPlane.Object.Error

/-!
# Failures as JSON

A failure is shown with its code and its message. A pass that was ended adds what ended it, or the
errors and warnings of its handler.
-/

namespace ManagementPlane

open Json (Value)

def failureFields (code message : String) : List (String × Value) :=
  [("error", code), ("message", message)]

/-- A failure of a store; `wording` says how messages are shown. -/
def StoreError.view (wording : String → String) (e : StoreError) : Value :=
  .object (failureFields e.code (wording e.message))

def ObjectError.view (e : ObjectError) : Value :=
  .object (failureFields e.code e.message)

/-- What ended a pass; `wording` says how messages are shown. -/
def RebindError.view (wording : String → String) (e : RebindError) : Value :=
  let details : List (String × Value) := match e with
    | .store cause => [("cause", cause.view wording)]
    | .object _ _ cause => [("cause", cause.view)]
    | .failed _ errors warnings =>
      [("errors", errors.map wording), ("warnings", warnings.map wording)]
    | _ => []
  .record (failureFields e.code (wording e.message)) (("internal", ↑e.isInternal) :: details)

end ManagementPlane
