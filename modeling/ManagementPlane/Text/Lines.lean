/-!
# Lines of a text

A line ends with a line feed or with the text; a carriage return right before the end is no part of it.
-/

namespace ManagementPlane.Text

/-- A line without the carriage return at its end. -/
def withoutReturn (line : List Char) : List Char :=
  match line.reverse with
  | '\r' :: rest => rest.reverse
  | _ => line

/-- The first line of the characters, and the lines behind it. -/
def splitLines : List Char → List Char × List (List Char)
  | [] => ([], [])
  | c :: r =>
    let (first, others) := splitLines r
    if c = '\n' then ([], first :: others) else (c :: first, others)

def lines (s : String) : List String :=
  let (first, others) := splitLines s.toList
  (first :: others).map fun l => String.ofList (withoutReturn l)

end ManagementPlane.Text
