import ManagementPlane.Files.Tree
import ManagementPlane.Memento.Decoding
import ManagementPlane.Plane.Catalog
import ManagementPlane.Toml.Document

/-!
# Catalogs in files

`CatalogSource.file` takes the default catalog from a file with a list of items, in JSON if the name of
the file ends in `.json`, and else in TOML.
-/

namespace ManagementPlane

namespace CatalogItem

def ofToml? (v : Toml.Value) : Option CatalogItem := do
  let r ← v.record? fieldNames
  some {
    id := ← r.required? "id" Toml.Value.text?
    type := ← r.required? "type" Toml.Value.text?
    symbolicName := ← r.required? "symbolicName" Toml.Value.text?
    version := ← r.required? "version" Toml.Value.text?
    registeredType := ← r.optional? "registeredType" Toml.Value.text?
    libraries := ← r.default? "libraries" [] Toml.Value.texts?
    plan := ← r.optional? "plan" Toml.Value.text?
    displayName := ← r.optional? "displayName" Toml.Value.text?
    description := ← r.optional? "description" Toml.Value.text?
    deprecated := ← r.default? "deprecated" false Toml.Value.bool? }

def listOfToml? (text : String) : Option (List CatalogItem) := do
  let r ← (← Toml.parse? text).record? []
  r.default? "items" [] fun v => do (← v.items?).mapM ofToml?

def listOfTree? : Json.Tree → Option (List CatalogItem)
  | .array items => items.mapM ofTree?
  | _ => none

def listOfJson? (text : String) : Option (List CatalogItem) := do
  let r ← (← Json.Tree.parse? text).record? ["items"]
  r.default? "items" [] listOfTree?

end CatalogItem

namespace CatalogSource

/-- The items of a catalog file, or why they cannot be had, outermost reason first. -/
def readFile (files : FileTree) (path : String) : Except (List String) (List CatalogItem) :=
  let p := Path.ofString path
  match files.read p with
  | .error e => .error ["failed to read catalog " ++ path, e.message]
  | .ok text =>
    let (format, items) :=
      if (p.parts.getLast?.map fun name => (Path.splitExtension name).2) = some (some "json") then
        ("JSON", CatalogItem.listOfJson? text)
      else ("TOML", CatalogItem.listOfToml? text)
    match items with
    | some items => .ok items
    | none => .error ["invalid catalog " ++ format ++ " in " ++ path, "not a list of catalog items"]

def file (files : FileTree) (path : String) : CatalogSource where
  description := "catalog file " ++ path
  items := readFile files path

end CatalogSource

end ManagementPlane
