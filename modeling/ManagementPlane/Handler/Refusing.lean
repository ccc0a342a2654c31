import ManagementPlane.Handler.Basic

/-!
# Handlers without a record

`Handler.refusing` keeps nothing and lets a pass go on, except where it is told to refuse; with nothing to
refuse it is the handler that accepts everything.
-/

namespace ManagementPlane

namespace Handler

/-- Go on, unless the notification of this name is to be refused. -/
def unlessNamed {ε : Type} (refused : List String) (name : String) (e : ε) : Step Unit ε Unit :=
  if name ∈ refused then Step.stop e else pure ()

def refusal (name : String) : String := "refused " ++ name

/-- The handler that refuses the notifications of the given names. -/
def refusing (refused : List String) : Handler Unit :=
  let onStore (name : String) : Step Unit StoreError Unit :=
    unlessNamed refused name (.rejected (refusal name))
  let onObject (name : String) (kind : ObjectKind) (id : String) : Step Unit RebindError Unit :=
    unlessNamed refused name (.object kind id (.construct (refusal name)))
  { loadFailed := fun _ _ _ => onStore "load_failed"
    dangling := fun _ _ => onStore "dangling"
    start := fun _ s => s
    createFailed := fun kind id _ _ => onObject "create_failed" kind id
    notFound := onObject "not_found"
    rebindFailed := fun kind id _ => onObject "rebind_failed" kind id
    manageFailed := fun kind id _ => onObject "manage_failed" kind id
    done := unlessNamed refused "done" (.defaultCatalog (refusal "done"))
    failed := fun e s => (e, s)
    errors := fun _ => []
    warnings := fun _ => [] }

end Handler

end ManagementPlane
