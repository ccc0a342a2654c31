import ManagementPlane.Data.SortedMap

/-!
# JSON values

`Value` is a free-form value as objects carry it in their configuration. Its objects list their
fields; `Value.sorted` puts the fields of every object into the order of their keys, which is how
values are held once they have been read.
-/

namespace ManagementPlane.Json

/-- A number: an integer that fits 64 bits with or without sign, or the bits of a finite binary64. -/
inductive Number where
  | int (n : Int)
  | real (bits : UInt64)
  deriving DecidableEq, Repr, Inhabited

/-- A free-form JSON value. -/
inductive Value where
  | null
  | bool (b : Bool)
  | number (n : Number)
  | string (s : String)
  | array (items : List Value)
  | object (fields : List (String × Value))
  deriving Repr, Inhabited

namespace Value

def asString? : Value → Option String
  | string s => some s
  | _ => none

mutual

/-- The same value with the fields of every object in the order of their keys; of fields with one
key the last is kept. -/
def sorted : Value → Value
  | array items => array (sortedItems items)
  | object fields => object (sortedFields fields).entries
  | v => v

def sortedItems : List Value → List Value
  | [] => []
  | v :: r => sorted v :: sortedItems r

/-- The table of the fields: an earlier field gives way to a later one with its key. -/
def sortedFields : List (String × Value) → SortedMap Value
  | [] => ∅
  | (k, v) :: r =>
    let rest := sortedFields r
    match rest.get? k with
    | some _ => rest
    | none => rest.insert k (sorted v)

end

mutual

def beq : Value → Value → Bool
  | null, null => true
  | bool a, bool b => a == b
  | number a, number b => a == b
  | string a, string b => a == b
  | array a, array b => beqItems a b
  | object a, object b => beqFields a b
  | _, _ => false

def beqItems : List Value → List Value → Bool
  | [], [] => true
  | a :: as, b :: bs => beq a b && beqItems as bs
  | _, _ => false

def beqFields : List (String × Value) → List (String × Value) → Bool
  | [], [] => true
  | (k, a) :: as, (l, b) :: bs => k == l && (beq a b && beqFields as bs)
  | _, _ => false

end

mutual

theorem beq_iff : ∀ a b : Value, beq a b = true ↔ a = b
  | null, b => by cases b <;> simp [beq]
  | bool a, b => by cases b <;> simp [beq]
  | number a, b => by cases b <;> simp [beq]
  | string a, b => by cases b <;> simp [beq]
  | array a, b => by
    cases b with
    | array b => simp [beq, beqItems_iff a b]
    | _ => simp [beq]
  | object a, b => by
    cases b with
    | object b => simp [beq, beqFields_iff a b]
    | _ => simp [beq]

theorem beqItems_iff : ∀ a b : List Value, beqItems a b = true ↔ a = b
  | [], b => by cases b <;> simp [beqItems]
  | a :: as, b => by
    cases b with
    | nil => simp [beqItems]
    | cons b bs => simp [beqItems, beq_iff a b, beqItems_iff as bs]

theorem beqFields_iff : ∀ a b : List (String × Value), beqFields a b = true ↔ a = b
  | [], b => by cases b <;> simp [beqFields]
  | (k, a) :: as, b => by
    cases b with
    | nil => simp [beqFields]
    | cons b bs =>
      obtain ⟨l, b⟩ := b
      simp [beqFields, beq_iff a b, beqFields_iff as bs, and_assoc]

end

instance : DecidableEq Value := fun a b =>
  if h : beq a b = true then isTrue ((beq_iff a b).1 h)
  else isFalse fun e => h ((beq_iff a b).2 e)

end Value

end ManagementPlane.Json
