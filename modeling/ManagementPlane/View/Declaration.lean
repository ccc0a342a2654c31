import ManagementPlane.Json.Fields
import ManagementPlane.Json.Printer
import ManagementPlane.Memento.Decoding
import ManagementPlane.Object.Types
import ManagementPlane.Pass.Basic

/-!
# What JSON declares

Failures, types, arguments of constructors and settings of passes as objects with the fields that they
need. Where a field is missing, its default holds.
-/

namespace ManagementPlane

open Json (Value)
open Json.Fields

def CatalogItem.ofValue? (v : Value) : Option CatalogItem := CatalogItem.decode? v.compact

def Memento.ofValue? (v : Value) : Option Memento := Memento.decode? v.compact

def Settings.ofValue? (v : Value) : Option Settings := v.asFields?.map .ofList

/-! ## Failures -/

/-- A failure of a store by its code, with its details. -/
def StoreError.ofValue? (v : Value) : Option StoreError := do
  let text ← strOr v "text" ""
  match ← str v "error" with
  | "io" => return .io text
  | "json" => return .json text
  | "hash_mismatch" => return .hashMismatch (← kindAt v "kind") (← str v "id")
  | "read_only" => return .readOnly text
  | "id_mismatch" => return .idMismatch (← kindAt v "kind") (← str v "stored") (← str v "declared")
  | "rejected" => return .rejected text
  | _ => none

/-- A failure of an object by its code, with its details. -/
def ObjectError.ofValue? (v : Value) : Option ObjectError := do
  let text ← strOr v "text" ""
  match ← str v "error" with
  | "type_not_found" => return .typeNotFound (← str v "type") (← strOpt v "context")
  | "catalog_item_not_found" => return .catalogItemNotFound text
  | "no_constructor" => return .noConstructor (← kindAt v "kind") (← str v "type")
  | "kind_mismatch" =>
    return .kindMismatch (← str v "type") (← kindAt v "expected") (← kindAt v "actual")
  | "construct" => return .construct text
  | "reconstruct" => return .reconstruct text
  | "manage" => return .manage text
  | _ => none

/-- What ended a pass by its code, with its details. -/
def RebindError.ofValue? (v : Value) : Option RebindError := do
  match ← str v "error" with
  | "already_run" => return .alreadyRun
  | "phase_mismatch" => return .phaseMismatch (← nat v "expected") (← nat v "actual")
  | "store" => return .store (← (get v "cause").bind StoreError.ofValue?)
  | "object" =>
    return .object (← kindAt v "kind") (← str v "id") (← (get v "cause").bind ObjectError.ofValue?)
  | "default_catalog" => return .defaultCatalog (← strOr v "text" "")
  | "failed" => return .failed (← strOr v "message" "") (← strs v "errors") (← strs v "warnings")
  | _ => none

/-! ## Types -/

def ConstructorArgs.ofValue? (v : Value) : Option ConstructorArgs := do
  let flags := (← opt Settings.ofValue? v "flags").getD ∅
  let parent ← strOpt v "parent"
  match ← word ConstructorShape.ofLabel? v "shape" with
  | .flags => return .flags flags
  | .flagsAndParent => return .flagsAndParent flags parent
  | .parent => return .parent parent
  | .noArgs => return .noArgs

def ConstructorShape.listOfValue? (v : Value) : Option (List ConstructorShape) := do
  (← v.asList?).mapM (ofWord ConstructorShape.ofLabel?)

/-- A watched type, which may fail in any of its hooks. -/
def TypeDescriptor.ofValue? (v : Value) : Option TypeDescriptor := do
  let declared ← kindAt v "kind"
  let behaviour : Behaviour := {
    reconstructFault := (← strOpt v "fail_reconstruct").map .reconstruct
    manageFault := (← strOpt v "fail_manage").map .manage
    attachFault := (← strOpt v "fail_attach").map .reconstruct }
  return .watched (← str v "name") declared ((← opt asKind v "makes").getD declared) behaviour
    ((← strOpt v "fail").map .construct) (← opt ConstructorShape.listOfValue? v "legacy")

def TypeRegistry.declare? (r : TypeRegistry) (v : Value) : Option TypeRegistry := do
  let d ← TypeDescriptor.ofValue? v
  match ← strOpt v "bundle" with
  | some bundle => return r.registerInBundle bundle d
  | none => return r.register d

/-- The stock types, unless they are not wanted, and those that are declared. -/
def TypeRegistry.ofValue? (v : Value) : Option TypeRegistry := do
  (← items v "types").foldlM declare? (if ← flag v "basic" true then .stock else {})

/-! ## Settings -/

def Features.ofValue? (v : Value) : Option Features := do
  return {
    catalogItems := ← flag v "catalog_items" true
    policies := ← flag v "policies" true
    enrichers := ← flag v "enrichers" true
    feeds := ← flag v "feeds" true }

def RebindSettings.ofValue? (v : Value) : Option RebindSettings := do
  let d : RebindSettings := {}
  let mode := ofWord FailureMode.ofLabel?
  return {
    features := (← opt Features.ofValue? v "features").getD d.features
    inferCatalogItem := ← flag v "infer" d.inferCatalogItem
    catalogLoadMode :=
      (← opt (ofWord CatalogLoadMode.ofLabel?) v "catalog_load_mode").getD d.catalogLoadMode
    failureMode := (← opt mode v "failure").getD d.failureMode
    danglingMode := (← opt mode v "dangling").getD d.danglingMode }

end ManagementPlane
