import ManagementPlane.Handler.Ledger
import ManagementPlane.Handler.Refusing
import ManagementPlane.Proofs.Steps

/-!
# Handlers that stop nothing

* `Handler.Accepting` : a handler that never stops a pass before its end;
* `Handler.accepting_byMode` : the default handler is one, unless one of its modes is to fail fast;
* `Handler.accepting_refusing` : a handler that refuses none of the problems is one.
-/

namespace ManagementPlane

/-- A handler that never stops a pass before its end. -/
structure Handler.Accepting {σ : Type} (h : Handler σ) : Prop where
  loadFailed : ∀ kind message e, (h.loadFailed kind message e).GoesOn
  dangling : ∀ kind id, (h.dangling kind id).GoesOn
  createFailed : ∀ kind id type e, (h.createFailed kind id type e).GoesOn
  notFound : ∀ kind id, (h.notFound kind id).GoesOn
  rebindFailed : ∀ kind id e, (h.rebindFailed kind id e).GoesOn
  manageFailed : ∀ kind id e, (h.manageFailed kind id e).GoesOn

namespace Ledger

variable {mode : FailureMode}

theorem goesOn_problem (hm : mode ≠ .failFast) (kind : ObjectKind) (id : String) (e : ObjectError) :
    (problem mode kind id e).GoesOn := by
  unfold problem
  rw [if_neg hm]
  exact (Step.GoesOn.update _).bind fun _ => .pure ()

theorem goesOn_loadFailed (hm : mode ≠ .failFast) (message : String) (e : StoreError) :
    (loadFailed mode message e).GoesOn := by
  unfold loadFailed
  simp only [if_neg hm]
  exact (Step.GoesOn.update _).bind fun _ => .pure ()

theorem goesOn_dangling (hm : mode ≠ .failFast) (kind : ObjectKind) (id : String) :
    (dangling mode kind id).GoesOn := by
  unfold dangling
  cases mode with
  | failFast => exact absurd rfl hm
  | failAtEnd => exact .update _
  | carryOn => exact .update _

theorem goesOn_notFound (hm : mode ≠ .failFast) (kind : ObjectKind) (id : String) :
    (notFound mode kind id).GoesOn := by
  refine (Step.GoesOn.read _).bind fun failed => ?_
  split
  · exact .pure ()
  · exact goesOn_problem hm kind id _

end Ledger

namespace Handler

/-- The default handler stops nothing unless one of its modes is to fail fast. -/
theorem accepting_byMode {failure dangling : FailureMode} (hf : failure ≠ .failFast)
    (hd : dangling ≠ .failFast) : (byMode failure dangling).Accepting where
  loadFailed _ message e := Ledger.goesOn_loadFailed hf message e
  dangling kind id := Ledger.goesOn_dangling hd kind id
  createFailed kind id _ _ := (Step.GoesOn.update _).bind fun _ => Ledger.goesOn_problem hf kind id _
  notFound kind id := Ledger.goesOn_notFound hf kind id
  rebindFailed kind id e := Ledger.goesOn_problem hf kind id e
  manageFailed kind id e := Ledger.goesOn_problem hf kind id e

/-- The names of the notifications of problems. -/
def problemNames : List String :=
  ["load_failed", "dangling", "create_failed", "not_found", "rebind_failed", "manage_failed"]

theorem goesOn_unlessNamed {ε : Type} {refused : List String} {name : String} (hn : name ∉ refused)
    (e : ε) : (unlessNamed refused name e).GoesOn := by
  unfold unlessNamed
  rw [if_neg hn]
  exact .pure ()

/-- A handler that refuses none of the problems stops nothing. -/
theorem accepting_refusing {refused : List String} (hr : ∀ name ∈ problemNames, name ∉ refused) :
    (refusing refused).Accepting where
  loadFailed _ _ _ := goesOn_unlessNamed (hr _ (by decide)) _
  dangling _ _ := goesOn_unlessNamed (hr _ (by decide)) _
  createFailed _ _ _ _ := goesOn_unlessNamed (hr _ (by decide)) _
  notFound _ _ := goesOn_unlessNamed (hr _ (by decide)) _
  rebindFailed _ _ _ := goesOn_unlessNamed (hr _ (by decide)) _
  manageFailed _ _ _ := goesOn_unlessNamed (hr _ (by decide)) _

end Handler

end ManagementPlane
