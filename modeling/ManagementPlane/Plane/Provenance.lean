import ManagementPlane.Memento.Lineage
import ManagementPlane.Plane.Basic

/-!
# Where an entity comes from

`Plane.provenance?` finds the catalog item of an entity that was persisted with or without one. The
first of these rules that applies decides:

1. the entity's own item;
2. the nearest ancestor's item, even if the catalog no longer has it;
3. the catalog item named after the type of the entity or of an ancestor;
4. no item, if the type loads without one;
5. the first item in the catalog whose libraries have the type.
-/

namespace ManagementPlane

namespace Plane

/-- The types seen through the libraries of an item, under a label. -/
def libraryContext (p : Plane) (item : Handle) (label : String) : LoadingContext :=
  { libraries := (p.read item).item.libraries, label := some label }

def itemId (p : Plane) (item : Handle) : String := (p.read item).id

/-- The first item in the catalog whose libraries have a type, or that sees it at all. -/
def providerOf? (p : Plane) (types : TypeRegistry) (type : String) : Option Handle :=
  p.catalog.items.values.find? fun h => (p.libraryContext h (p.itemId h)).canLoad types type

/-- The catalog item of an entity. Without inference only its own counts. -/
def provenance? (p : Plane) (types : TypeRegistry) (infer : Bool)
    (entities : OrderedMap String EntitySummary) (e : EntitySummary) : Option String :=
  match e.catalogItemId with
  | some own => some own
  | none =>
    if !infer then none else
      let lineage := ancestry entities e
      match lineage.findSome? EntitySummary.catalogItemId with
      | some inherited => some (((p.catalog.resolve? p.heap inherited).map p.itemId).getD inherited)
      | none =>
        match lineage.findSome? fun n => p.catalog.versioned? p.heap n.type defaultVersion with
        | some item => some (p.itemId item)
        | none =>
          if LoadingContext.classpath.canLoad types e.type then none
          else (p.providerOf? types e.type).map p.itemId

end Plane

end ManagementPlane
