/-!
# TOML values

`Value` is what a TOML document says, as far as any reader of it asks: of fractional numbers and of
dates and times it is only known that they are there.

* `Value.text?`, `Value.bool?`, `Value.natural?`, `Value.texts?` : plain data;
* `Value.choice?` : one of several words, which may also be the only key of a table;
* `Value.record?` : the declared fields of a record. A record may be written as an array of its
  fields, and a date is taken for a record without any.
-/

namespace ManagementPlane.Toml

/-- A TOML value. -/
inductive Value where
  | string (s : String)
  | integer (n : Int)
  | fractional
  | bool (b : Bool)
  | moment
  | array (items : List Value)
  | table (fields : List (String × Value))
  deriving Repr, Inhabited

abbrev Record := List (String × Value)

namespace Value

def text? : Value → Option String
  | string s => some s
  | _ => none

def bool? : Value → Option Bool
  | bool b => some b
  | _ => none

/-- The integer, if it lies between zero and a bound. -/
def natural? (bound : Nat) : Value → Option Nat
  | integer n => if 0 ≤ n ∧ n < bound then some n.toNat else none
  | _ => none

def items? : Value → Option (List Value)
  | array items => some items
  | _ => none

def texts? (v : Value) : Option (List String) := do (← v.items?).mapM text?

def isEmptyContainer : Value → Bool
  | array items => items.isEmpty
  | table fields => fields.isEmpty
  | _ => false

def choice? {α : Type} (ofLabel? : String → Option α) : Value → Option α
  | string s => ofLabel? s
  | table [(s, v)] => if v.isEmptyContainer then ofLabel? s else none
  | _ => none

/-- The fields of a record with the declared fields `names`. -/
def record? (names : List String) : Value → Option Record
  | table fields => some fields
  | array items => some (names.zip items)
  | moment => some []
  | _ => none

end Value

namespace Record

variable {α : Type}

def required? (r : Record) (name : String) (read : Value → Option α) : Option α :=
  (r.lookup name).bind read

/-- A field that stands for `missing` when it is absent. -/
def default? (r : Record) (name : String) (missing : α) (read : Value → Option α) : Option α :=
  match r.lookup name with
  | some v => read v
  | none => some missing

def optional? (r : Record) (name : String) (read : Value → Option α) : Option (Option α) :=
  r.default? name none fun v => (read v).map some

end Record

end ManagementPlane.Toml
