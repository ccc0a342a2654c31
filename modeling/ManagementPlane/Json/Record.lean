import ManagementPlane.Json.Tree

/-!
# Records in JSON

A record with declared fields is written as an object, or as an array of the fields in declaration
order of which the last ones may be missing. In an object every key must be readable, a declared
field may occur once, and others are skipped.

* `Tree.record?` : the declared fields that are present;
* `Record.required?`, `Record.optional?`, `Record.default?` : one field, with what its absence means.
-/

namespace ManagementPlane.Json

abbrev Record := List (String × Tree)

def Record.ofFields? (names : List String) : List (Option String × Tree) → Option Record
  | [] => some []
  | (k, t) :: r => do
    let k ← k
    let rest ← Record.ofFields? names r
    if k ∈ names then
      if k ∈ rest.map Prod.fst then none else some ((k, t) :: rest)
    else some rest

/-- The record with the declared fields `names` that a tree holds. -/
def Tree.record? (names : List String) : Tree → Option Record
  | .object fields => Record.ofFields? names fields
  | .array items => if items.length ≤ names.length then some (names.zip items) else none
  | _ => none

namespace Record

variable {α : Type}

def get? (r : Record) (name : String) : Option Tree :=
  (r.find? fun f => f.1 = name).map Prod.snd

def required? (r : Record) (name : String) (read : Tree → Option α) : Option α :=
  match r.get? name with
  | some t => read t
  | none => none

/-- A field that stands for `missing` when it is absent. -/
def default? (r : Record) (name : String) (missing : α) (read : Tree → Option α) : Option α :=
  match r.get? name with
  | some t => read t
  | none => some missing

/-- An optional string: absent and `null` mean none. -/
def optional? (r : Record) (name : String) : Option (Option String) :=
  r.default? name none Tree.optionalText?

end Record

end ManagementPlane.Json
