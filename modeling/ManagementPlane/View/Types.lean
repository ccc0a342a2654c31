import ManagementPlane.View.Failure
import ManagementPlane.View.Journal
import ManagementPlane.View.Object

/-!
# Types as JSON

A type is shown as it loads in a context: its name and kind, what can be asked of it, and what comes of
asking, with the journal of that.
-/

namespace ManagementPlane

open Json (Value)

/-- What came of a construction, and the live manager that has it on record. -/
def TypeDescriptor.madeView (d : TypeDescriptor) (keys : List String) (call : ConstructorCall)
    (made : Except ObjectError Object) (p : Plane) : Value × Plane :=
  let shown : Value := match made with
    | .ok o => .object (o.liveFields p.heap keys)
    | .error e => e.view
  (shown, p.record (.constructed d.audited d.name call))

/-- What the factory of a type makes under an id; an older type has none. -/
def TypeDescriptor.canonicalView (d : TypeDescriptor) (keys : List String) (id : String)
    (p : Plane) : Value × Plane :=
  match d.recipe with
  | .canonical make => d.madeView keys (.canonical id) (make ⟨id, d.name⟩) p
  | .legacy .. => (.null, p)

/-- What an older constructor of a type makes of arguments, if it has one for their shape. -/
def TypeDescriptor.calledView (d : TypeDescriptor) (keys : List String) (args : ConstructorArgs)
    (p : Plane) : Value × Plane :=
  match d.recipe with
  | .canonical _ => ("unsupported", p)
  | .legacy shapes make =>
    if args.shape ∈ shapes then d.madeView keys (.legacy args) (make args) p else ("unsupported", p)

/-- What a context shows of a type: whether it loads and, if it does, what is made under the id `probe`
and of older arguments. -/
def LoadingContext.view (c : LoadingContext) (types : TypeRegistry) (type : String)
    (keys : List String) (args : Option ConstructorArgs) : Value :=
  let loaded : List (String × Value) := [("can_load", c.canLoad types type), ("label", c.label)]
  match c.load? types type with
  | none => .record loaded [("name", .null), ("kind", .null), ("journal", .array [])]
  | some d =>
    let (canonical, p) := d.canonicalView keys "probe" {}
    let (called, p) : List (String × Value) × Plane := match args with
      | none => ([], p)
      | some args =>
        let (made, p) := d.calledView keys args p
        ([("args_id", args.id?), ("has_flags", args.flags?.isSome), ("called", made)], p)
    let shapes := ConstructorShape.all.filter d.supports
    .record (loaded ++ called) [("name", d.name), ("kind", d.kind.code), ("canonical", canonical),
      ("supports", shapes.map ConstructorShape.label), ("journal", p.journal false)]

end ManagementPlane
