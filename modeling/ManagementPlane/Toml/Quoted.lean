import ManagementPlane.Text.Hexadecimal

/-!
# TOML strings

Strings stand between double quotes, where backslashes introduce escapes, or between single quotes,
where nothing does; tripled quotes let them span lines. `quoted?` takes the string at the front of a
text, `lineQuoted?` only one that stays on its line.
-/

namespace ManagementPlane.Toml

/-- Whether a character may stand in a string or a comment. -/
def isVisible (c : Char) : Bool := c = '\t' || (' ' ≤ c && c ≠ '\x7f')

def character? (code : Nat) : Option Char :=
  if h : code.isValidChar then some (Char.ofNatAux code h) else none

/-- The character that so many hexadecimal digits write, and what follows them. -/
def coded? (digits : Nat) (cs : List Char) : Option (Char × List Char) := do
  if (cs.take digits).length < digits then none
  else some (← character? (← Text.hexNumber? (cs.take digits)), cs.drop digits)

/-- The character that is written behind a backslash, and what follows it. -/
def escape? : List Char → Option (Char × List Char)
  | 'b' :: r => some ('\x08', r)
  | 't' :: r => some ('\t', r)
  | 'n' :: r => some ('\n', r)
  | 'f' :: r => some ('\x0c', r)
  | 'r' :: r => some ('\r', r)
  | '"' :: r => some ('"', r)
  | '\\' :: r => some ('\\', r)
  | 'u' :: r => coded? 4 r
  | 'U' :: r => coded? 8 r
  | _ => none

/-- A text with a character in front of what was read of it. -/
def before (c : Char) (read : Option (List Char × List Char)) : Option (List Char × List Char) :=
  read.map fun (cs, r) => (c :: cs, r)

/-! ## On one line -/

/-- The string behind an opening quote, with escapes if the quote is a double one. -/
def line? (quote : Char) : (fuel : Nat) → List Char → Option (List Char × List Char)
  | 0, _ => none
  | _, [] => none
  | n + 1, c :: r =>
    if c = quote then some ([], r)
    else if c = '\\' ∧ quote = '"' then do
      let (c, r) ← escape? r
      before c (line? quote n r)
    else if isVisible c then before c (line? quote n r)
    else none

/-! ## Over several lines -/

def dropBreak? : List Char → Option (List Char)
  | '\n' :: r => some r
  | '\r' :: '\n' :: r => some r
  | _ => none

/-- A text without the blanks and line breaks it starts with. -/
def dropSpace : List Char → List Char
  | ' ' :: r => dropSpace r
  | '\t' :: r => dropSpace r
  | '\n' :: r => dropSpace r
  | '\r' :: '\n' :: r => dropSpace r
  | r => r

/-- What follows a line break behind a backslash, and the blanks after it. -/
def continuation? (cs : List Char) : Option (List Char) :=
  (dropBreak? (cs.dropWhile fun c => c = ' ' || c = '\t')).map dropSpace

/-- The string behind three opening quotes. Up to two quotes may stand in front of the closing ones. -/
def lines? (quote : Char) : (fuel : Nat) → List Char → Option (List Char × List Char)
  | 0, _ => none
  | _, [] => none
  | n + 1, c :: r =>
    if [quote, quote, quote].isPrefixOf (c :: r) then
      let more := ((r.drop 2).take 2).takeWhile (· = quote)
      some (more, (r.drop 2).drop more.length)
    else if c = '\\' ∧ quote = '"' then
      match continuation? r with
      | some r => lines? quote n r
      | none => do
        let (c, r) ← escape? r
        before c (lines? quote n r)
    else match dropBreak? (c :: r) with
      | some r => before '\n' (lines? quote n r)
      | none => if isVisible c then before c (lines? quote n r) else none

/-! ## Strings -/

/-- The string at the front of a text that stays on its line, and the rest. -/
def lineQuoted? : List Char → Option (String × List Char)
  | [] => none
  | c :: r =>
    if c = '"' ∨ c = '\'' then (line? c (r.length + 1) r).map fun (cs, r) => (String.ofList cs, r)
    else none

/-- The string at the front of a text, and the rest. -/
def quoted? : List Char → Option (String × List Char)
  | c :: c' :: c'' :: r =>
    if (c = '"' ∨ c = '\'') ∧ c' = c ∧ c'' = c then
      (lines? c (r.length + 1) ((dropBreak? r).getD r)).map fun (cs, r) => (String.ofList cs, r)
    else lineQuoted? (c :: c' :: c'' :: r)
  | cs => lineQuoted? cs

end ManagementPlane.Toml
