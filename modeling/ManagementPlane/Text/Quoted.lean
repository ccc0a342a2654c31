import ManagementPlane.Text.LowerCase
import ManagementPlane.Text.UnprintableTable

/-!
# Quoted text in messages

* `quote` : a text between double quotes, with escapes for what could not be told apart otherwise;
* `quoteList`, `quoteSet` : several of them in brackets or braces.
-/

namespace ManagementPlane.Text

/-- A character inside a quoted text; one that cannot be shown is written by its number. -/
def quoteChar (c : Char) : List Char :=
  if c = '"' then ['\\', '"']
  else if c = '\\' then ['\\', '\\']
  else if c = '\n' then ['\\', 'n']
  else if c = '\t' then ['\\', 't']
  else if c = '\r' then ['\\', 'r']
  else if c = '\x00' then ['\\', '0']
  else if inRanges unprintable c.toNat then
    ['\\', 'u', '\x7b'] ++ Nat.toDigits 16 c.toNat ++ ['\x7d']
  else [c]

def quote (s : String) : String := String.ofList ('"' :: (s.toList.flatMap quoteChar ++ ['"']))

def quoteSet (xs : List String) : String :=
  "\x7b" ++ ", ".intercalate (xs.map quote) ++ "\x7d"

def quoteList (xs : List String) : String := "[" ++ ", ".intercalate (xs.map quote) ++ "]"

end ManagementPlane.Text
