import ManagementPlane.Decimal.Shortest
import ManagementPlane.Json.Value

/-!
# Writing JSON

* `Value.chars`, `Value.compact` : without blanks, the fields of an object in the order given;
* `Value.pretty` : one item or field a line, two blanks a level, empty containers closed at once.

Strings escape the quote, the backslash and control characters and nothing else.
-/

namespace ManagementPlane.Json

def hexDigit (n : Nat) : Char := (Nat.toDigits 16 (n % 16)).headD '0'

/-- A character as it stands inside a quoted string. -/
def escape (c : Char) : List Char :=
  if c = '"' then ['\\', '"']
  else if c = '\\' then ['\\', '\\']
  else if c = '\x08' then ['\\', 'b']
  else if c = '\t' then ['\\', 't']
  else if c = '\n' then ['\\', 'n']
  else if c = '\x0c' then ['\\', 'f']
  else if c = '\r' then ['\\', 'r']
  else if c.toNat < 0x20 then ['\\', 'u', '0', '0', hexDigit (c.toNat / 16), hexDigit c.toNat]
  else [c]

def quoted (s : String) : List Char := '"' :: (s.toList.flatMap escape ++ ['"'])

/-- Numbers are written plainly from 1e-5 to below 1e16, and an exponent always has its sign. -/
def numberFormat : Decimal.NumberFormat := ⟨-5, 15, "+", ".0"⟩

def Number.text : Number → String
  | int n => toString n
  | real bits => Decimal.Binary64.text numberFormat bits

namespace Value

mutual

def chars : Value → List Char
  | null => ['n', 'u', 'l', 'l']
  | bool true => ['t', 'r', 'u', 'e']
  | bool false => ['f', 'a', 'l', 's', 'e']
  | number n => n.text.toList
  | string s => quoted s
  | array items => '[' :: (itemChars items ++ [']'])
  | object fields => '{' :: (fieldChars fields ++ ['}'])

def itemChars : List Value → List Char
  | [] => []
  | [v] => chars v
  | v :: r => chars v ++ ',' :: itemChars r

def fieldChars : List (String × Value) → List Char
  | [] => []
  | [(k, v)] => quoted k ++ ':' :: chars v
  | (k, v) :: r => quoted k ++ ':' :: (chars v ++ ',' :: fieldChars r)

end

def compact (v : Value) : String := String.ofList v.chars

def newline (level : Nat) : List Char := '\n' :: List.replicate (2 * level) ' '

mutual

/-- The value over several lines, inside `level` containers. -/
def prettyChars (level : Nat) : Value → List Char
  | array [] => ['[', ']']
  | array (v :: r) => '[' :: (prettyItems (level + 1) (v :: r) ++ newline level ++ [']'])
  | object [] => ['{', '}']
  | object (e :: r) => '{' :: (prettyFields (level + 1) (e :: r) ++ newline level ++ ['}'])
  | v => chars v

def prettyItems (level : Nat) : List Value → List Char
  | [] => []
  | [v] => newline level ++ prettyChars level v
  | v :: r => newline level ++ prettyChars level v ++ ',' :: prettyItems level r

def prettyFields (level : Nat) : List (String × Value) → List Char
  | [] => []
  | [(k, v)] => newline level ++ quoted k ++ [':', ' '] ++ prettyChars level v
  | (k, v) :: r =>
    newline level ++ quoted k ++ [':', ' '] ++ prettyChars level v ++ ',' :: prettyFields level r

end

def pretty (v : Value) : String := String.ofList (v.prettyChars 0)

end Value

end ManagementPlane.Json
