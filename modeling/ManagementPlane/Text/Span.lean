/-!
# Spans of time

Spans are counted in milliseconds. They are shown in seconds with the fraction that is needed, and
below a second in milliseconds; an empty span is shown in nanoseconds.
-/

namespace ManagementPlane.Text

def thousandths (n : Nat) : List Char :=
  [Nat.digitChar (n / 100 % 10), Nat.digitChar (n / 10 % 10), Nat.digitChar (n % 10)]

/-- A fraction of a second in thousandths, without zeros at the end. -/
def fraction (n : Nat) : String :=
  if n = 0 then ""
  else "." ++ String.ofList ((thousandths n).reverse.dropWhile (· = '0')).reverse

def span (milliseconds : Nat) : String :=
  if milliseconds = 0 then "0ns"
  else if milliseconds < 1000 then toString milliseconds ++ "ms"
  else toString (milliseconds / 1000) ++ fraction (milliseconds % 1000) ++ "s"

end ManagementPlane.Text
