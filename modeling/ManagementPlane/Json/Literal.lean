import ManagementPlane.Json.Value

/-!
# Values from and to plain data

Strings, numbers, truth values, lists, tables and options stand for themselves where a value is expected, and
`Value.field?` with the readings behind it takes values apart again. A field that holds `null` counts
as absent.
-/

namespace ManagementPlane.Json.Value

/-! ## Plain data as values -/

instance : Coe String Value := ⟨string⟩

instance : Coe Bool Value := ⟨bool⟩

instance : Coe Int Value := ⟨fun n => number (.int n)⟩

instance : Coe Nat Value := ⟨fun n => number (.int n)⟩

instance : Coe (List Value) Value := ⟨array⟩

instance : Coe (List (List Value)) Value := ⟨fun rows => array (rows.map array)⟩

instance : Coe (List String) Value := ⟨fun l => array (l.map string)⟩

instance : Coe (SortedMap Value) Value := ⟨fun m => object m.entries⟩

instance : Coe (Option Value) Value := ⟨fun v => v.getD null⟩

instance : Coe (Option String) Value := ⟨fun s => (s.map string).getD null⟩

/-- The object of some fields and others behind them. -/
def record (fields more : List (String × Value)) : Value := object (fields ++ more)

/-! ## Values as plain data -/

def asBool? : Value → Option Bool
  | bool b => some b
  | _ => none

def asInt? : Value → Option Int
  | number (.int n) => some n
  | _ => none

def asNat? (v : Value) : Option Nat :=
  v.asInt?.bind fun n => if 0 ≤ n then some n.toNat else none

def asList? : Value → Option (List Value)
  | array items => some items
  | _ => none

def asFields? : Value → Option (List (String × Value))
  | object fields => some fields
  | _ => none

/-- The field under a key, unless it holds `null`. -/
def field? (v : Value) (key : String) : Option Value := do
  match (← v.asFields?).find? fun f => f.1 = key with
  | some (_, null) => none
  | f => f.map Prod.snd

def asOptional? : Value → Option (Option String)
  | null => some none
  | v => v.asString?.map some

end ManagementPlane.Json.Value
