import ManagementPlane.Json.Literal
import ManagementPlane.Kind

/-!
# Taking objects apart

A field is required unless a reading says what its absence means; a field that holds `null` is absent.

* `get`, `str`, `nat`, `word` : a required field;
* `opt`, `strOpt`, `strOr`, `flag`, `items`, `strs` : a field that may be missing.
-/

namespace ManagementPlane.Json.Fields

variable {α : Type}

def get (v : Value) (key : String) : Option Value := v.field? key

def str (v : Value) (key : String) : Option String := (get v key).bind Value.asString?

def nat (v : Value) (key : String) : Option Nat := (get v key).bind Value.asNat?

def opt (read : Value → Option α) (v : Value) (key : String) : Option (Option α) :=
  match get v key with
  | some x => (read x).map some
  | none => some none

def strOpt (v : Value) (key : String) : Option (Option String) := opt Value.asString? v key

def strOr (v : Value) (key default : String) : Option String :=
  (strOpt v key).map fun s => s.getD default

def flag (v : Value) (key : String) (default : Bool) : Option Bool :=
  (opt Value.asBool? v key).map fun b => b.getD default

def items (v : Value) (key : String) : Option (List Value) :=
  (opt Value.asList? v key).map fun l => l.getD []

def strs (v : Value) (key : String) : Option (List String) :=
  (items v key).bind fun l => l.mapM Value.asString?

def ofWord (ofLabel? : String → Option α) (v : Value) : Option α := v.asString?.bind ofLabel?

/-- The thing that a field with a text stands for. -/
def word (ofLabel? : String → Option α) (v : Value) (key : String) : Option α :=
  (get v key).bind (ofWord ofLabel?)

def asKind (v : Value) : Option ObjectKind := ofWord ObjectKind.ofCode? v

def kindAt (v : Value) (key : String) : Option ObjectKind := word ObjectKind.ofCode? v key

end ManagementPlane.Json.Fields
