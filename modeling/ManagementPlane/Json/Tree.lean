import ManagementPlane.Decimal.Numeral
import ManagementPlane.Json.Value
import ManagementPlane.Text.Hexadecimal

/-!
# Reading JSON

A text is read in two steps. `Tree.parse?` finds its structure, at any depth, with numerals as they
are written and with strings that may hold escapes no character corresponds to. What a reader then
takes from the tree is checked: `Tree.value?` demands real characters, numbers in range and at most
`depthLimit` nested containers. Parts that a reader skips are held to the grammar only.
-/

namespace ManagementPlane.Json

open Decimal (Numeral)

/-- The most containers that may be nested in a text that is read whole. -/
def depthLimit : Nat := 127

/-- A JSON text as it is written; a string is `none` when an escape in it denotes no character. -/
inductive Tree where
  | null
  | bool (b : Bool)
  | number (n : Numeral)
  | string (s : Option String)
  | array (items : List Tree)
  | object (fields : List (Option String × Tree))
  deriving Inhabited

/-! ## Strings -/

/-- A part of a quoted string: a character, or a 16-bit unit written as an escape. -/
inductive Piece where
  | char (c : Char)
  | unit (n : Nat)
  deriving DecidableEq, Repr

/-- The character behind a backslash and a letter. -/
def escaped? (c : Char) : Option Char :=
  match c with
  | '"' => some '"'
  | '\\' => some '\\'
  | '/' => some '/'
  | 'b' => some '\x08'
  | 'f' => some '\x0c'
  | 'n' => some '\n'
  | 'r' => some '\r'
  | 't' => some '\t'
  | _ => none

/-- The parts of a string up to its closing quote, and the rest behind that. -/
def pieces? : List Char → Option (List Piece × List Char)
  | [] => none
  | '"' :: r => some ([], r)
  | '\\' :: 'u' :: a :: b :: c :: d :: r => do
    let n ← Text.hexNumber? [a, b, c, d]
    let (ps, rest) ← pieces? r
    some (.unit n :: ps, rest)
  | '\\' :: e :: r => do
    let c ← escaped? e
    let (ps, rest) ← pieces? r
    some (.char c :: ps, rest)
  | c :: r =>
    if c.toNat < 0x20 then none else do
      let (ps, rest) ← pieces? r
      some (.char c :: ps, rest)

/-- The characters of the parts: two units may form a surrogate pair, and no half stands alone. -/
def textOf? : List Piece → Option (List Char)
  | [] => some []
  | .char c :: r => (textOf? r).map (c :: ·)
  | .unit n :: r =>
    if 0xD800 ≤ n ∧ n < 0xDC00 then
      match r with
      | .unit m :: r =>
        if 0xDC00 ≤ m ∧ m < 0xE000 then
          (textOf? r).map (Char.ofNat (0x10000 + (n - 0xD800) * 0x400 + (m - 0xDC00)) :: ·)
        else none
      | _ => none
    else if 0xDC00 ≤ n ∧ n < 0xE000 then none
    else (textOf? r).map (Char.ofNat n :: ·)

/-- The string behind an opening quote, and the rest. -/
def string? (cs : List Char) : Option (Option String × List Char) := do
  let (ps, r) ← pieces? cs
  some ((textOf? ps).map String.ofList, r)

/-! ## Structure -/

/-- Whether a character separates the parts of a text. -/
def isBlank (c : Char) : Bool := c = ' ' || c = '\n' || c = '\t' || c = '\r'

/-- The text from its first character that is not blank. -/
def dropBlanks (cs : List Char) : List Char := cs.dropWhile isBlank

namespace Tree

mutual

/-- The value at the front of the text, and the rest. Every nested value is one step of `fuel`. -/
def read : (fuel : Nat) → List Char → Option (Tree × List Char)
  | 0, _ => none
  | n + 1, cs =>
    match dropBlanks cs with
    | '{' :: r =>
      match dropBlanks r with
      | '}' :: r => some (object [], r)
      | r => (readFields n r).map fun (fs, r) => (object fs, r)
    | '[' :: r =>
      match dropBlanks r with
      | ']' :: r => some (array [], r)
      | r => (readItems n r).map fun (ts, r) => (array ts, r)
    | '"' :: r => (string? r).map fun (s, r) => (string s, r)
    | 'n' :: 'u' :: 'l' :: 'l' :: r => some (null, r)
    | 't' :: 'r' :: 'u' :: 'e' :: r => some (bool true, r)
    | 'f' :: 'a' :: 'l' :: 's' :: 'e' :: r => some (bool false, r)
    | r => (Numeral.lex? r).map fun (n, r) => (number n, r)

/-- The items of an array up to its closing bracket. -/
def readItems : (fuel : Nat) → List Char → Option (List Tree × List Char)
  | 0, _ => none
  | n + 1, cs => do
    let (t, r) ← read n cs
    match dropBlanks r with
    | ',' :: r => (readItems n r).map fun (ts, r) => (t :: ts, r)
    | ']' :: r => some ([t], r)
    | _ => none

/-- The fields of an object up to its closing brace. -/
def readFields : (fuel : Nat) → List Char → Option (List (Option String × Tree) × List Char)
  | 0, _ => none
  | n + 1, cs =>
    match dropBlanks cs with
    | '"' :: r => do
      let (k, r) ← string? r
      match dropBlanks r with
      | ':' :: r => do
        let (t, r) ← read n r
        match dropBlanks r with
        | ',' :: r => (readFields n r).map fun (fs, r) => ((k, t) :: fs, r)
        | '}' :: r => some ([(k, t)], r)
        | _ => none
      | _ => none
    | _ => none

end

/-- The tree of a text; nothing but blanks may follow the value. Each step of the reader but every
second one takes a character, so twice the length of the text is enough fuel. -/
def parse? (s : String) : Option Tree :=
  match read (2 * s.toList.length + 2) s.toList with
  | some (t, r) => if dropBlanks r = [] then some t else none
  | none => none

/-! ## What readers take from a tree -/

/-- The number of a numeral: an integer if it writes one that fits, else a binary64. -/
def number? (n : Numeral) : Option Number :=
  match n.integer? with
  | some i => some (.int i)
  | none => n.binary64?.map .real

mutual

/-- The value of the tree, with at most `depth` nested containers. Objects come out sorted, and the
last of several fields with one key counts. -/
def value? : (depth : Nat) → Tree → Option Value
  | _, null => some .null
  | _, bool b => some (.bool b)
  | _, number n => (number? n).map .number
  | _, string s => s.map .string
  | 0, _ => none
  | d + 1, array items => (values? d items).map .array
  | d + 1, object fields => (entries? d fields).map fun m => .object m.entries

def values? : (depth : Nat) → List Tree → Option (List Value)
  | _, [] => some []
  | d, t :: r => do some ((← value? d t) :: (← values? d r))

/-- The table of the fields: an earlier field gives way to a later one with its key. -/
def entries? : (depth : Nat) → List (Option String × Tree) → Option (SortedMap Value)
  | _, [] => some ∅
  | d, (k, t) :: r => do
    let k ← k
    let v ← value? d t
    let rest ← entries? d r
    match rest.get? k with
    | some _ => some rest
    | none => some (rest.insert k v)

end

def text? : Tree → Option String
  | string s => s
  | _ => none

def texts? : Tree → Option (List String)
  | array items => items.mapM text?
  | _ => none

def optionalText? : Tree → Option (Option String)
  | null => some none
  | string s => s.map some
  | _ => none

def bool? : Tree → Option Bool
  | bool b => some b
  | _ => none

end Tree

def Value.parse? (s : String) : Option Value := do (← Tree.parse? s).value? depthLimit

end ManagementPlane.Json
