import ManagementPlane.Json.Printer
import ManagementPlane.Memento.Basic

/-!
# Writing mementos

Mementos are written as JSON objects with their fields in declaration order; optional parts that are
empty are left out.
-/

namespace ManagementPlane

open Json (Value)

/-- A field that is left out when there is nothing to write. -/
def optionalField (name : String) : Option String → List (String × Value)
  | none => []
  | some s => [(name, .string s)]

/-- A list of strings that is left out when it is empty. -/
def listField (name : String) : List String → List (String × Value)
  | [] => []
  | xs => [(name, .array (xs.map .string))]

def tableField (name : String) (m : Settings) : List (String × Value) :=
  if m.isEmpty then [] else [(name, .object m.entries)]

namespace Memento

def toValue (m : Memento) : Value := .object <|
  [("id", .string m.id), ("type", .string m.type)]
    ++ optionalField "catalogItemId" m.catalogItemId
    ++ optionalField "displayName" m.displayName
    ++ optionalField "parent" m.parent
    ++ listField "children" m.children
    ++ tableField "config" m.config
    ++ tableField "attributes" m.attributes
    ++ listField "locations" m.locations
    ++ listField "policies" m.policies
    ++ listField "enrichers" m.enrichers
    ++ listField "feeds" m.feeds
    ++ (if m.tags.isEmpty then [] else [("tags", .array m.tags)])

def encode (m : Memento) : String := m.toValue.compact

end Memento

namespace CatalogItem

/-- The item as a JSON object; whether it is deprecated is always written. -/
def toValue (i : CatalogItem) : Value := .object <|
  [("id", .string i.id), ("type", .string i.type), ("symbolicName", .string i.symbolicName),
    ("version", .string i.version)]
    ++ optionalField "registeredType" i.registeredType
    ++ listField "libraries" i.libraries
    ++ optionalField "plan" i.plan
    ++ optionalField "displayName" i.displayName
    ++ optionalField "description" i.description
    ++ [("deprecated", .bool i.deprecated)]

def encode (i : CatalogItem) : String := i.toValue.compact

end CatalogItem

end ManagementPlane
