import ManagementPlane.Object.Basic

/-!
# The catalog

The live catalog keeps items under their ids in the order of registration.

* `Catalog.versioned?`, `Catalog.resolve?` : lookups by name and version, and by an id that may lack its
  version; where no version is asked for, the item that came last will do;
* `CatalogSource` : what the catalog is loaded from when it is not taken from persisted state.
-/

namespace ManagementPlane

def defaultVersion : String := "0.0.0.SNAPSHOT"

/-- The items of the live catalog, under their ids. -/
structure Catalog where
  items : OrderedMap String Handle := ∅

namespace Catalog

def register (c : Catalog) (heap : Heap) (h : Handle) : Catalog :=
  { c with items := c.items.insert (heap.read h).id h }

def get? (c : Catalog) (id : String) : Option Handle := c.items.get? id

/-- The item that came last among those with a symbolic name. -/
def latest? (c : Catalog) (heap : Heap) (name : String) : Option Handle :=
  c.items.values.reverse.find? fun h => (heap.read h).item.symbolicName = name

/-- The item of a name and version. For the default version the latest item of the name is taken if
there is none of just that version. -/
def versioned? (c : Catalog) (heap : Heap) (name version : String) : Option Handle :=
  match c.get? (CatalogItem.canonicalId name version) with
  | some h => some h
  | none => if version = defaultVersion then c.latest? heap name else none

/-- The parts of an id in front of its first colon and behind it. -/
def splitId (id : String) : String × Option String :=
  let name := id.toList.takeWhile (· ≠ ':')
  match id.toList.dropWhile (· ≠ ':') with
  | [] => (id, none)
  | _ :: version => (String.ofList name, some (String.ofList version))

def resolve? (c : Catalog) (heap : Heap) (id : String) : Option Handle :=
  match c.get? id with
  | some h => some h
  | none =>
    match splitId id with
    | (name, some version) => c.versioned? heap name version
    | (name, none) => c.versioned? heap name defaultVersion

def ofItems (heap : Heap) (items : List Handle) : Catalog :=
  items.foldl (fun c h => c.register heap h) {}

end Catalog

/-- What the catalog can be loaded from: how it is called, and its items, or why they cannot be had,
outermost reason first. -/
structure CatalogSource where
  description : String
  items : Except (List String) (List CatalogItem)

namespace CatalogSource

def builtIn (items : List CatalogItem) : CatalogSource where
  description := toString items.length ++ " built-in catalog item(s)"
  items := .ok items

def reason (chain : List String) : String := ": ".intercalate chain

/-- The items the catalog is reset to; without a source there are none. -/
def load (source : Option CatalogSource) : Except String (List CatalogItem) :=
  match source with
  | none => .ok []
  | some s =>
    match s.items with
    | .ok items => .ok items
    | .error chain => .error (reason (("loading " ++ s.description) :: chain))

end CatalogSource

end ManagementPlane
