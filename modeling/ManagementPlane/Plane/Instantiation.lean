import ManagementPlane.Plane.Provenance
import ManagementPlane.Plane.Scratch

/-!
# Making shells

A shell is an object that has its identity and nothing else yet. Its type is looked up through the
catalog item it came from, if one is known, and else among the types that load from anywhere. It is
made by the factory of its type or else by an older constructor whose arguments can be supplied.

* `Instantiator.load` : the type of a new shell;
* `Instantiator.newEntity`, `newLocation`, `newAdjunct`, `newCatalogItem` : the shells.
-/

namespace ManagementPlane

open Json (Value)

/-- What making shells depends on: the types, whether missing catalog items are inferred, and the
shells of the pass. -/
structure Instantiator where
  types : TypeRegistry
  infer : Bool
  scratch : Scratch


namespace Instantiator

/-- A type is only good for objects of the kind it declares. -/
def checkKind (d : TypeDescriptor) (k : ObjectKind) : Except ObjectError TypeDescriptor :=
  if d.kind = k then .ok d else .error (.kindMismatch d.name k d.kind)

/-- The type under a name, as the instantiator's catalog and registry show it. -/
def find (i : Instantiator) (p : Plane) (type : String) (item : Option String) :
    Except ObjectError TypeDescriptor :=
  match item with
  | some id =>
    match i.scratch.item? p id with
    | none => .error (.catalogItemNotFound id)
    | some h =>
      let label := "catalog item " ++ p.itemId h
      match (p.libraryContext h label).load? i.types type with
      | some d => .ok d
      | none => .error (.typeNotFound type (some label))
  | none =>
    match LoadingContext.classpath.load? i.types type with
    | some d => .ok d
    | none =>
      if !i.infer then .error (.typeNotFound type none) else
        match p.catalog.items.values.findSome? fun h =>
          (p.libraryContext h (p.itemId h)).load? i.types type with
        | some d => .ok d
        | none => .error (.typeNotFound type none)

def load (i : Instantiator) (p : Plane) (k : ObjectKind) (type : String) (item : Option String) :
    Except ObjectError TypeDescriptor := do
  checkKind (← i.find p type item) k

/-- Make an object with the factory or with the first arguments of a supported shape. -/
def construct (k : ObjectKind) (d : TypeDescriptor) (id : String) (candidates : List ConstructorArgs)
    (p : Plane) : Except ObjectError Object × Plane :=
  match d.recipe with
  | .canonical make =>
    (make ⟨id, d.name⟩, p.record (.constructed d.audited d.name (.canonical id)))
  | .legacy shapes make =>
    match candidates.find? fun args => shapes.contains args.shape with
    | some args => (make args, p.record (.constructed d.audited d.name (.legacy args)))
    | none => (.error (.noConstructor k d.name), p)

/-- Give a new object its id and catalog item, and note it as a shell. -/
def finish (o : Object) (id : String) (item : Option String) (p : Plane) : Handle × Plane :=
  let o := { o with id, catalogItemId := item.or o.catalogItemId }
  let (h, p) := p.adopt o
  (h, p.preManage h)

def make (k : ObjectKind) (d : TypeDescriptor) (id : String) (item : Option String)
    (candidates : List ConstructorArgs) (p : Plane) : Except ObjectError Handle × Plane :=
  match construct k d id candidates p with
  | (.error e, p) => (.error e, p)
  | (.ok o, p) =>
    let (h, p) := finish o id item p
    (.ok h, p)

def makeLoaded (k : ObjectKind) (d : Except ObjectError TypeDescriptor) (id : String)
    (item : Option String) (candidates : List ConstructorArgs) (p : Plane) :
    Except ObjectError Handle × Plane :=
  match d with
  | .error e => (.error e, p)
  | .ok d => make k d id item candidates p

def idFlags (id : String) : Settings := SortedMap.insert ∅ "id" (.string id)

/-- The arguments with which an older constructor can make an entity. -/
def entityCandidates (id : String) : List ConstructorArgs :=
  [.flags (idFlags id), .flagsAndParent (idFlags id) none, .parent none, .noArgs]

/-- The arguments with which an older constructor can make a location. -/
def locationCandidates (id : String) : List ConstructorArgs :=
  [.flags ((idFlags id).insert "deferConstructionChecks" (.bool true))]

/-- The arguments with which an older constructor can make an adjunct: its configuration as flags.
Feeds have never been made that way. -/
def adjunctCandidates (k : ObjectKind) (m : Memento) : List ConstructorArgs :=
  match k with
  | .policy | .enricher =>
    [.flags (((m.config.insert "id" (.string m.id)).insert "deferConstructionChecks"
      (.bool true)).insert "noConstructionInit" (.bool true))]
  | _ => []

def newEntity (i : Instantiator) (id type : String) (item : Option String) (p : Plane) :
    Except ObjectError Handle × Plane :=
  makeLoaded .entity (i.load p .entity type item) id item (entityCandidates id) p

def newLocation (i : Instantiator) (id type : String) (p : Plane) :
    Except ObjectError Handle × Plane :=
  makeLoaded .location (i.load p .location type none) id none (locationCandidates id) p

def newAdjunct (i : Instantiator) (k : ObjectKind) (m : Memento) (p : Plane) :
    Except ObjectError Handle × Plane :=
  makeLoaded k (i.load p k m.type m.catalogItemId) m.id m.catalogItemId (adjunctCandidates k m) p

/-- The shell of a catalog item, whose type must load from anywhere. -/
def newCatalogItem (i : Instantiator) (item : CatalogItem) (p : Plane) :
    Except ObjectError Handle × Plane :=
  let d := match LoadingContext.classpath.load? i.types item.type with
    | some d => checkKind d .catalogItem
    | none => .error (.typeNotFound item.type none)
  makeLoaded .catalogItem d item.id none [.noArgs] p

end Instantiator

end ManagementPlane
