import ManagementPlane.Object.Basic

/-!
# Types of objects

* `TypeDescriptor` : how objects of a type are made, by a factory that is given the id, or by an older
  constructor that takes arguments of certain shapes;
* `TypeRegistry` : the types that load from anywhere, and those that load only through a library;
* `LoadingContext` : the registry seen through the libraries of a catalog item.
-/

namespace ManagementPlane

/-- What a factory is told about the object it makes. -/
structure ShellSpec where
  id : String
  type : String
  deriving DecidableEq, Repr

/-- The shapes of arguments of older constructors. -/
inductive ConstructorShape where
  | flags
  | flagsAndParent
  | parent
  | noArgs
  deriving DecidableEq, Repr, Inhabited

namespace ConstructorShape

def label : ConstructorShape → String
  | flags => "flags"
  | flagsAndParent => "flags_and_parent"
  | parent => "parent"
  | noArgs => "no_args"

def all : List ConstructorShape := [flags, flagsAndParent, parent, noArgs]

def ofLabel? (s : String) : Option ConstructorShape := all.find? fun x => x.label = s

end ConstructorShape

/-- Arguments of an older constructor. -/
inductive ConstructorArgs where
  | flags (flags : Settings)
  | flagsAndParent (flags : Settings) (parent : Option String)
  | parent (parent : Option String)
  | noArgs
  deriving DecidableEq, Inhabited

namespace ConstructorArgs

def shape : ConstructorArgs → ConstructorShape
  | flags _ => .flags
  | flagsAndParent .. => .flagsAndParent
  | parent _ => .parent
  | noArgs => .noArgs

def flags? : ConstructorArgs → Option Settings
  | flags f | flagsAndParent f _ => some f
  | _ => none

def id? (args : ConstructorArgs) : Option String := args.flags?.bind Object.flagId?

end ConstructorArgs

/-- How objects of a type are made. -/
inductive Recipe where
  | canonical (make : ShellSpec → Except ObjectError Object)
  | legacy (shapes : List ConstructorShape) (make : ConstructorArgs → Except ObjectError Object)

/-- A type: its name, the kind it declares, whether its constructions are journaled, and how its
objects are made. -/
structure TypeDescriptor where
  name : String
  kind : ObjectKind
  audited : Bool := false
  recipe : Recipe

namespace TypeDescriptor

/-- Whether there is an older constructor for this shape. -/
def supports (d : TypeDescriptor) (shape : ConstructorShape) : Bool :=
  match d.recipe with
  | .canonical _ => false
  | .legacy shapes _ => shapes.contains shape

def stock (name : String) (k : ObjectKind) : TypeDescriptor :=
  { name, kind := k, recipe := .canonical fun spec => .ok (.blank k spec.id spec.type) }

/-- What the constructors of an audited type make: a stock object of kind `makes` that behaves as told.
An older constructor takes the id from the flags and, for locations and adjuncts, the configuration. -/
def auditedObject (name : String) (makes : ObjectKind) (behaviour : Behaviour)
    (args : ConstructorArgs) : Object :=
  let o := match args.flags? with
    | some flags =>
      if makes = ObjectKind.location ∨ makes.isAdjunct then Object.ofFlags makes name flags
      else Object.blank makes (args.id?.getD "unset") name
    | none => Object.blank makes "unset" name
  { o with behaviour }

/-- A type whose constructions and hooks are journaled. It has the factory or, if `shapes` are given, the
older constructors of these shapes; `fault` is what they fail with. -/
def watched (name : String) (kind makes : ObjectKind) (behaviour : Behaviour)
    (fault : Option ObjectError) (shapes : Option (List ConstructorShape)) : TypeDescriptor :=
  let behaviour := { behaviour with audited := true }
  let checked (o : Object) : Except ObjectError Object :=
    match fault with
    | some e => .error e
    | none => .ok o
  let recipe := match shapes with
    | none => .canonical fun spec => checked { Object.blank makes spec.id spec.type with behaviour }
    | some shapes => .legacy shapes fun args => checked (auditedObject name makes behaviour args)
  { name, kind, audited := true, recipe }

end TypeDescriptor

/-- The known types. -/
structure TypeRegistry where
  classpath : OrderedMap String TypeDescriptor := ∅
  bundles : OrderedMap String (OrderedMap String TypeDescriptor) := ∅

namespace TypeRegistry

def register (r : TypeRegistry) (d : TypeDescriptor) : TypeRegistry :=
  { r with classpath := r.classpath.insert d.name d }

/-- Make a type loadable only through catalog items that list the bundle. -/
def registerInBundle (r : TypeRegistry) (bundle : String) (d : TypeDescriptor) : TypeRegistry :=
  { r with bundles := r.bundles.insert bundle (((r.bundles.get? bundle).getD ∅).insert d.name d) }

/-- The stock type of every kind; applications and other entities are alike. -/
def stock : TypeRegistry :=
  [("trellis.entity.BasicApplication", ObjectKind.entity),
    ("trellis.entity.BasicEntity", .entity),
    ("trellis.location.BasicLocation", .location),
    ("trellis.policy.BasicPolicy", .policy),
    ("trellis.enricher.BasicEnricher", .enricher),
    ("trellis.feed.BasicFeed", .feed),
    ("trellis.catalog.BasicCatalogItem", .catalogItem)].foldl
    (fun r t => r.register (.stock t.1 t.2)) {}

end TypeRegistry

/-- The registry seen through libraries: their types come first, then those that load from anywhere. -/
structure LoadingContext where
  libraries : List String := []
  label : Option String := none
  deriving DecidableEq, Repr

namespace LoadingContext

/-- The view that shows only the types that load from anywhere. -/
def classpath : LoadingContext := {}

def load? (c : LoadingContext) (r : TypeRegistry) (type : String) : Option TypeDescriptor :=
  ((c.libraries.filterMap r.bundles.get?).findSome? fun b => b.get? type).or (r.classpath.get? type)

def canLoad (c : LoadingContext) (r : TypeRegistry) (type : String) : Bool := (c.load? r type).isSome

end LoadingContext

end ManagementPlane
