import ManagementPlane.Kind

/-!
# Transitions

`Transition` says how an object enters or leaves the live manager. `Transition.standard` is the usual
choice for an object that a pass is about to manage, from the transition it had last and from whether
the pass holds it read-only.
-/

namespace ManagementPlane

/-- How an object enters or leaves the live manager. -/
inductive Transition where
  /-- Created outside of any pass. -/
  | creating
  /-- First seen by a pass that owns its objects. -/
  | rebindingCreating
  /-- Held for inspection. -/
  | rebindingReadOnly
  /-- Held read-only or owned before, and owned now. -/
  | rebindingBecomingPrimary
  /-- Owned before, and read-only now. -/
  | rebindingNoLongerPrimary
  /-- Known before, and persisted no longer. -/
  | rebindingDestroyed
  deriving DecidableEq, Repr, Inhabited

namespace Transition

def label : Transition → String
  | creating => "creating"
  | rebindingCreating => "rebinding-creating"
  | rebindingReadOnly => "rebinding-read-only"
  | rebindingBecomingPrimary => "rebinding-becoming-primary"
  | rebindingNoLongerPrimary => "rebinding-no-longer-primary"
  | rebindingDestroyed => "rebinding-destroyed"

def all : List Transition :=
  [creating, rebindingCreating, rebindingReadOnly, rebindingBecomingPrimary,
    rebindingNoLongerPrimary, rebindingDestroyed]

/-- The transition with exactly this written form. -/
def ofLabel? (s : String) : Option Transition := all.find? fun t => t.label = s

def isReadOnly : Transition → Bool
  | rebindingReadOnly | rebindingNoLongerPrimary => true
  | _ => false

def isDestroying : Transition → Bool
  | rebindingDestroyed => true
  | _ => false

/-- The usual choice. An object that was destroyed last counts as new. -/
def standard (previous : Option Transition) (readOnly : Bool) : Transition :=
  match previous.filter fun t => !t.isDestroying with
  | none => if readOnly then rebindingReadOnly else rebindingCreating
  | some last =>
    match last.isReadOnly, readOnly with
    | true, true => rebindingReadOnly
    | false, true => rebindingNoLongerPrimary
    | _, false => rebindingBecomingPrimary

theorem isReadOnly_standard (previous : Option Transition) (readOnly : Bool) :
    (standard previous readOnly).isReadOnly = readOnly := by
  cases previous with
  | none => cases readOnly <;> rfl
  | some t => cases t <;> cases readOnly <;> rfl

end Transition

/-- Chooses the transition of an object from its kind and id, its last transition, and whether the pass
holds it read-only. -/
abbrev TransitionChoice := ObjectKind → String → Option Transition → Bool → Transition

def TransitionChoice.standard : TransitionChoice := fun _ _ => Transition.standard

end ManagementPlane
