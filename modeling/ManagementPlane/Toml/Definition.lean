import ManagementPlane.Toml.Value

/-!
# How a TOML document defines its tables

A document is a row of headers and of keys with values. `Definition.assign`, `Definition.openTable` and
`Definition.openElement` take them in one after the other, and fail where something is defined a
second time:

* a key may have one value;
* a table may have one header; keys in front of its header must have come from other headers;
* keys with dots reach into tables that such keys have made, and into no others.
-/

namespace ManagementPlane.Toml

/-- What a key leads to: a value, a table, or the tables of an array, the latest first. A table is
`implicit` while it has no header of its own and `dotted` if keys with dots have made it. -/
inductive Definition where
  | value (v : Value)
  | table (isImplicit dotted : Bool) (entries : List (String × Definition))
  | tables (latestFirst : List (List (String × Definition)))
  deriving Inhabited

abbrev Entries := List (String × Definition)

namespace Entries

/-- Put something under a key in place of what is there, or behind everything else. -/
def put (key : String) (d : Definition) : Entries → Entries
  | [] => [(key, d)]
  | e :: r => if e.1 = key then (key, d) :: r else e :: put key d r

/-- Change the table that a path leads to; `f` is told whether keys with dots have made it. Tables that
are missing on the way are made. With `dotted` the path consists of the parts of a key. -/
def within (dotted : Bool) (f : Bool → Entries → Option Entries) :
    (path : List String) → (isDotted : Bool) → Entries → Option Entries
  | [], isDotted, es => f isDotted es
  | k :: r, _, es =>
    match es.lookup k with
    | none => do some (put k (.table true dotted (← within dotted f r dotted [])) es)
    | some (.table isImplicit isDotted inner) =>
      if dotted && !isImplicit then none
      else do some (put k (.table isImplicit isDotted (← within dotted f r isDotted inner)) es)
    | some (.tables (t :: ts)) => do
      some (put k (.tables ((← within dotted f r false t) :: ts)) es)
    | some _ => none

def define (key : String) (v : Value) (es : Entries) : Option Entries :=
  match es.lookup key with
  | none => some (es ++ [(key, .value v)])
  | some _ => none

def assign (path : List String) (key : String) (v : Value) (es : Entries) : Option Entries :=
  within true (fun isDotted es => if isDotted == path.isEmpty then none else es.define key v)
    path false es

/-- Give a key with dots its value in the table under a header. -/
def assignUnder (header path : List String) (key : String) (v : Value) (es : Entries) :
    Option Entries :=
  within false (fun _ es => es.assign path key v) header false es

def openTable (path : List String) (key : String) (es : Entries) : Option Entries :=
  within false (fun _ es =>
    match es.lookup key with
    | none => some (es ++ [(key, .table false false [])])
    | some (.table true false inner) => some (put key (.table false false inner) es)
    | some _ => none) path false es

def openElement (path : List String) (key : String) (es : Entries) : Option Entries :=
  within false (fun _ es =>
    match es.lookup key with
    | none => some (es ++ [(key, .tables [[]])])
    | some (.tables ts) => some (put key (.tables ([] :: ts)) es)
    | some _ => none) path false es

end Entries

mutual

def Definition.toValue : Definition → Value
  | .value v => v
  | .table _ _ entries => .table (fieldsOf entries)
  | .tables latestFirst => .array (itemsOf latestFirst).reverse

def fieldsOf : List (String × Definition) → List (String × Value)
  | [] => []
  | (k, d) :: r => (k, d.toValue) :: fieldsOf r

def itemsOf : List (List (String × Definition)) → List Value
  | [] => []
  | es :: r => .table (fieldsOf es) :: itemsOf r

end

end ManagementPlane.Toml
