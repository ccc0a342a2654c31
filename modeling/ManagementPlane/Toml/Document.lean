import ManagementPlane.Toml.Definition
import ManagementPlane.Toml.Quoted
import ManagementPlane.Toml.Scalar

/-!
# Reading TOML

`parse?` reads a document: lines with headers, with keys and their values, with comments, or with
nothing. Values may be nested up to a depth, and keys may have so many parts.
-/

namespace ManagementPlane.Toml

/-- The most parts of a key, and the most values nested in each other. -/
def depthLimit : Nat := 79

def dropBlanks (cs : List Char) : List Char := cs.dropWhile fun c => c = ' ' || c = '\t'

def dropComment : List Char → List Char
  | '#' :: r => r.dropWhile isVisible
  | r => r

/-- What follows the end of a line; a comment may stand in front of it. -/
def endOfLine? (cs : List Char) : Option (List Char) :=
  match dropComment (dropBlanks cs) with
  | [] => some []
  | r => dropBreak? r

/-- A text without the blanks, line breaks and comments it starts with. -/
def dropLayout : (fuel : Nat) → List Char → List Char
  | 0, cs => cs
  | n + 1, cs =>
    match dropBlanks cs with
    | [] => []
    | r =>
      match dropBreak? (dropComment r) with
      | some r => dropLayout n r
      | none => r

/-! ## Keys -/

/-- Whether a character may stand in a key without quotes. -/
def isKeyChar (c : Char) : Bool := c.isAlphanum || c = '_' || c = '-'

def keyPart? (cs : List Char) : Option (String × List Char) :=
  match cs.takeWhile isKeyChar with
  | [] => lineQuoted? cs
  | bare => some (String.ofList bare, cs.drop bare.length)

/-- The parts of a key with at most so many of them, and the rest. -/
def keyParts? : (most : Nat) → List Char → Option (List String × List Char)
  | 0, _ => none
  | n + 1, cs => do
    let (part, r) ← keyPart? (dropBlanks cs)
    match dropBlanks r with
    | '.' :: r => (keyParts? n r).map fun (parts, r) => (part :: parts, r)
    | r => some ([part], r)

/-- The path of a key, its last part, and the rest. -/
def key? (cs : List Char) : Option (List String × String × List Char) := do
  let (parts, r) ← keyParts? depthLimit cs
  some (parts.dropLast, ← parts.getLast?, r)

/-! ## Values -/

mutual

/-- The value at the front of a text, with at most `depth` values nested in each other, and the rest.
Every step of `fuel` is a value or a part of one. -/
def value? : (fuel depth : Nat) → List Char → Option (Value × List Char)
  | 0, _, _ => none
  | n + 1, depth, cs =>
    match depth, cs with
    | d + 1, '[' :: r => (items? n d r).map fun (vs, r) => (.array vs, r)
    | d + 1, '{' :: r =>
      match dropBlanks r with
      | '}' :: r => some (.table [], r)
      | r => (pairs? n d [] r).map fun (es, r) => (.table (fieldsOf es), r)
    | _, '"' :: _ | _, '\'' :: _ => (quoted? cs).map fun (s, r) => (.string s, r)
    | _, _ => scalar? cs

/-- The items of an array up to its closing bracket; a comma may follow the last. -/
def items? : (fuel depth : Nat) → List Char → Option (List Value × List Char)
  | 0, _, _ => none
  | n + 1, d, cs =>
    match dropLayout cs.length cs with
    | ']' :: r => some ([], r)
    | r => do
      let (v, r) ← value? n d r
      match dropLayout r.length r with
      | ',' :: r => (items? n d r).map fun (vs, r) => (v :: vs, r)
      | ']' :: r => some ([v], r)
      | _ => none

/-- The entries of a table in braces up to the closing one, which are added to `es`. -/
def pairs? : (fuel depth : Nat) → Entries → List Char → Option (Entries × List Char)
  | 0, _, _, _ => none
  | n + 1, d, es, cs => do
    let (path, key, r) ← key? cs
    match r with
    | '=' :: r =>
      let (v, r) ← value? n d (dropBlanks r)
      let es ← es.assign path key v
      match dropBlanks r with
      | ',' :: r => pairs? n d es r
      | '}' :: r => some (es, r)
      | _ => none
    | _ => none

end

/-! ## Documents -/

/-- A header in brackets: what it opens, and what follows the line. -/
def header? (es : Entries) : List Char → Option (List String × Entries × List Char)
  | '[' :: r => do
    let (path, key, r) ← key? r
    match r with
    | ']' :: ']' :: r => some (path ++ [key], ← es.openElement path key, ← endOfLine? r)
    | _ => none
  | cs => do
    let (path, key, r) ← key? cs
    match r with
    | ']' :: r => some (path ++ [key], ← es.openTable path key, ← endOfLine? r)
    | _ => none

/-- A key with its value, in the table under a header: the entries with it, and what follows the line. -/
def assignment? (header : List String) (es : Entries) (cs : List Char) :
    Option (Entries × List Char) := do
  let (path, key, r) ← key? cs
  match r with
  | '=' :: r =>
    let (v, r) ← value? (2 * r.length + 2) depthLimit (dropBlanks r)
    some (← es.assignUnder header path key v, ← endOfLine? r)
  | _ => none

/-- The entries that lines add to the ones before them. Every line is a step of `fuel`. -/
def lines : (fuel : Nat) → (header : List String) → Entries → List Char → Option Entries
  | 0, _, _, _ => none
  | n + 1, header, es, cs =>
    match dropBlanks cs with
    | [] => some es
    | '[' :: r => do
      let (header, es, r) ← header? es r
      lines n header es r
    | c :: r =>
      if c = '#' ∨ c = '\n' ∨ c = '\r' then do lines n header es (← endOfLine? (c :: r))
      else do
        let (es, r) ← assignment? header es (c :: r)
        lines n header es r

/-- The fields of a document. A byte order mark may stand in front of it. -/
def parse? (s : String) : Option Value := do
  let cs := match s.toList with
    | '\uFEFF' :: r => r
    | cs => cs
  some (.table (fieldsOf (← lines (cs.length + 1) [] [] cs)))

end ManagementPlane.Toml
