import ManagementPlane.Object.Error

/-!
# Handlers of a pass

A handler hears of every problem with an object and decides whether the pass goes on. It keeps a state
`σ` of its own.
-/

namespace ManagementPlane

/-- Who is told what a pass comes upon. Stopping in a notification ends the pass. -/
structure Handler (σ : Type) extends Listener σ where
  /-- A pass begins; says whether its objects are read-only. -/
  start : (readOnly : Bool) → σ → σ
  /-- The shell of an object could not be made. -/
  createFailed : ObjectKind → (id type : String) → ObjectError → Step σ RebindError Unit
  /-- An object that should have a shell has none. -/
  notFound : ObjectKind → (id : String) → Step σ RebindError Unit
  /-- A shell could not be populated, or not joined with another. -/
  rebindFailed : ObjectKind → (id : String) → ObjectError → Step σ RebindError Unit
  /-- An object, or one below it, could not be managed. -/
  manageFailed : ObjectKind → (id : String) → ObjectError → Step σ RebindError Unit
  /-- The pass got through its last phase. -/
  done : Step σ RebindError Unit
  /-- The pass was ended; the error that its caller sees. -/
  failed : RebindError → σ → RebindError × σ
  /-- The errors recorded so far. -/
  errors : σ → List String
  /-- The warnings recorded so far. -/
  warnings : σ → List String

end ManagementPlane
