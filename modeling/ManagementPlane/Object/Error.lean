import ManagementPlane.Store.Basic

/-!
# Failures of objects and passes

* `ObjectError` : a single object could not be created, populated or managed;
* `RebindError` : a pass was ended.
-/

namespace ManagementPlane

/-- A failure of a single object. -/
inductive ObjectError where
  | typeNotFound (type : String) (via : Option String)
  | catalogItemNotFound (id : String)
  | noConstructor (kind : ObjectKind) (type : String)
  | kindMismatch (type : String) (expected actual : ObjectKind)
  | construct (text : String)
  | reconstruct (text : String)
  | manage (text : String)
  deriving DecidableEq, Repr, Inhabited

def ObjectError.message : ObjectError → String
  | typeNotFound type none => "type " ++ type ++ " cannot be loaded"
  | typeNotFound type (some via) => "type " ++ type ++ " cannot be loaded via " ++ via
  | catalogItemNotFound id => "catalog item " ++ id ++ " required for rebinding is not available"
  | noConstructor kind type => kind.label ++ " type " ++ type ++ " has no usable constructor"
  | kindMismatch type expected actual =>
    "type " ++ type ++ " is a " ++ actual.label ++ ", not a " ++ expected.label
  | construct text => "construction failed: " ++ text
  | reconstruct text => "reconstruction failed: " ++ text
  | manage text => "management failed: " ++ text

/-- The code of an object's failure, for programs. -/
def ObjectError.code : ObjectError → String
  | typeNotFound .. => "type_not_found"
  | catalogItemNotFound _ => "catalog_item_not_found"
  | noConstructor .. => "no_constructor"
  | kindMismatch .. => "kind_mismatch"
  | construct _ => "construct"
  | reconstruct _ => "reconstruct"
  | manage _ => "manage"

/-- What ends a pass. -/
inductive RebindError where
  | alreadyRun
  | phaseMismatch (expected actual : Nat)
  | store (cause : StoreError)
  | object (kind : ObjectKind) (id : String) (cause : ObjectError)
  | defaultCatalog (text : String)
  | failed (message : String) (errors warnings : List String)
  deriving DecidableEq, Repr, Inhabited

namespace RebindError

def message : RebindError → String
  | alreadyRun => "rebind iteration has already run; create a new instance for another pass"
  | phaseMismatch expected actual =>
    "phase mismatch: should be phase " ++ toString expected ++ " but is currently "
      ++ toString actual
  | store cause => "store access failed: " ++ cause.message
  | object kind id cause => kind.label ++ " " ++ id ++ ": " ++ cause.message
  | defaultCatalog text => "default catalog could not be loaded: " ++ text
  | failed message _ _ => message

def code : RebindError → String
  | alreadyRun => "already_run"
  | phaseMismatch .. => "phase_mismatch"
  | store _ => "store"
  | object .. => "object"
  | defaultCatalog _ => "default_catalog"
  | failed .. => "failed"

/-- Whether the error is a fault of the caller's sequence rather than of the objects. -/
def isInternal : RebindError → Bool
  | alreadyRun | phaseMismatch .. => true
  | _ => false

end RebindError

end ManagementPlane
