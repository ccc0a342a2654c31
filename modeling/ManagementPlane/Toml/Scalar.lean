import ManagementPlane.Decimal.Numeral
import ManagementPlane.Text.Hexadecimal
import ManagementPlane.Text.Timestamp
import ManagementPlane.Toml.Value

/-!
# TOML scalars

Numbers, truth values, dates and times are words: `scalar?` takes the word at the front of a text and
says what it stands for.

* `integer?` : decimal, hexadecimal, octal and binary integers of 64 bits;
* `isFractional` : numbers with a fraction or an exponent, and the special ones; none may be too big;
* `isMoment` : dates, times of day, and both with or without an offset. The time may be a word of its
  own, behind a single blank.
-/

namespace ManagementPlane.Toml

open Decimal (ofDigits)

def isWordChar (c : Char) : Bool := c.isAlphanum || ['_', '+', '-', '.', ':'].contains c

/-- Whether these are digits, with single underscores between some of them. -/
def isDigits (isDigit : Char → Bool) : List Char → Bool
  | [] => false
  | [c] => isDigit c
  | c :: '_' :: r => isDigit c && isDigits isDigit r
  | c :: r => isDigit c && isDigits isDigit r

def plain (cs : List Char) : List Char := cs.filter (· ≠ '_')

/-- A word without its sign, and whether it is negative. -/
def unsigned : List Char → Bool × List Char
  | '+' :: r => (false, r)
  | '-' :: r => (true, r)
  | r => (false, r)

/-! ## Integers -/

/-- Whether these are the digits of a decimal integer: none but zero starts with a zero. -/
def isWhole (cs : List Char) : Bool :=
  isDigits Char.isDigit cs && (cs.length = 1 || cs.head? ≠ some '0')

def based? (base : Nat) (cs : List Char) : Option Int := do
  let isDigit (c : Char) : Bool := (Text.hexValue? c).any fun d => d < base
  if isDigits isDigit cs then
    some ((← (plain cs).mapM Text.hexValue?).foldl (fun (n : Nat) d => n * base + d) 0 : Nat)
  else none

def decimal? (cs : List Char) : Option Int :=
  let (negative, digits) := unsigned cs
  if isWhole digits then
    let n : Int := ofDigits (plain digits)
    some (if negative then -n else n)
  else none

/-- The integer that a word writes, if it fits 64 bits. -/
def integer? (cs : List Char) : Option Int := do
  let n ← match cs with
    | '0' :: 'x' :: digits => based? 16 digits
    | '0' :: 'o' :: digits => based? 8 digits
    | '0' :: 'b' :: digits => based? 2 digits
    | _ => decimal? cs
  if Int64.minValue.toInt ≤ n ∧ n ≤ Int64.maxValue.toInt then some n else none

/-! ## Fractional numbers -/

def exponent? (cs : List Char) : Option Int :=
  let (negative, digits) := unsigned cs
  if isDigits Char.isDigit digits then
    let n : Int := ofDigits (plain digits)
    some (if negative then -n else n)
  else none

/-- The exponent that starts here; without one it is zero. -/
def exponentPart? : List Char → Option Int
  | [] => some 0
  | c :: r => if c = 'e' ∨ c = 'E' then exponent? r else none

/-- Whether `n * 10 ^ e` is below the numbers that round to infinity. -/
def isFinite (n : Nat) (e : Int) : Bool :=
  let size : Int := (toString n).length + e
  if n = 0 ∨ size < 300 then true
  else if 320 < size then false
  else if 0 ≤ e then n * Nat.pow 10 e.toNat < Nat.pow 2 1024 - Nat.pow 2 970
  else n < (Nat.pow 2 1024 - Nat.pow 2 970) * Nat.pow 10 (-e).toNat

/-- Whether a word without its sign writes a number with a fraction or an exponent; `bounded` ones may
not be too big. -/
def isPointed (bounded : Bool) (cs : List Char) : Bool :=
  let inNumber (c : Char) : Bool := c.isDigit || c = '_'
  let whole := cs.takeWhile inNumber
  let fits (fraction : List Char) (e : Int) : Bool :=
    !bounded || isFinite (ofDigits (plain (whole ++ fraction))) (e - (plain fraction).length)
  isWhole whole && match cs.drop whole.length with
    | '.' :: r =>
      let fraction := r.takeWhile inNumber
      isDigits Char.isDigit fraction
        && (exponentPart? (r.drop fraction.length)).any (fits fraction)
    | c :: r => (exponentPart? (c :: r)).any (fits [])
    | [] => false

/-- Whether a word writes a number with a fraction or an exponent, or a special one. -/
def isFractional (cs : List Char) : Bool :=
  let (negative, r) := unsigned cs
  r = ['i', 'n', 'f'] || r = ['n', 'a', 'n'] || isPointed (!negative) r

/-! ## Dates and times -/

/-- A number of just `n` digits between two bounds, and what follows it. -/
def fixed? (n low high : Nat) (cs : List Char) : Option (Nat × List Char) :=
  let digits := cs.take n
  let value := ofDigits digits
  if digits.length = n ∧ digits.all Char.isDigit ∧ low ≤ value ∧ value ≤ high then
    some (value, cs.drop n)
  else none

def skip? (c : Char) : List Char → Option (List Char)
  | d :: r => if c = d then some r else none
  | [] => none

def date? (cs : List Char) : Option (List Char) := do
  let (year, r) ← fixed? 4 0 9999 cs
  let (month, r) ← fixed? 2 1 12 (← skip? '-' r)
  let (_, r) ← fixed? 2 1 (Text.Timestamp.daysIn year month) (← skip? '-' r)
  some r

def time? (cs : List Char) : Option (List Char) := do
  let (_, r) ← fixed? 2 0 23 cs
  let (_, r) ← fixed? 2 0 59 (← skip? ':' r)
  let (_, r) ← fixed? 2 0 60 (← skip? ':' r)
  match r with
  | '.' :: r =>
    let fraction := r.takeWhile Char.isDigit
    if fraction.isEmpty then none else some (r.drop fraction.length)
  | r => some r

def isOffset : List Char → Bool
  | [] | ['Z'] | ['z'] => true
  | c :: r => (c = '+' || c = '-') && ((do
      let (_, r) ← fixed? 2 0 23 r
      let (_, r) ← fixed? 2 0 59 (← skip? ':' r)
      some r) = some [])

/-- Whether a word is a time of day with or without an offset. -/
def isTimeWithOffset (cs : List Char) : Bool := (time? cs).any isOffset

/-- Whether a word is a date, a time of day, or both. -/
def isMoment (cs : List Char) : Bool :=
  time? cs = some [] || (date? cs).any fun
    | [] => true
    | c :: r => (c = 'T' || c = 't') && isTimeWithOffset r

/-! ## Words -/

def ofWord? (cs : List Char) : Option Value :=
  if cs = ['t', 'r', 'u', 'e'] then some (.bool true)
  else if cs = ['f', 'a', 'l', 's', 'e'] then some (.bool false)
  else if isMoment cs then some .moment
  else if isFractional cs then some .fractional
  else (integer? cs).map .integer

/-- What follows a date and the time of day behind it, if these are two words. -/
def dateAndTime? (cs : List Char) : Option (List Char) := do
  match ← date? cs with
  | ' ' :: r =>
    let time := r.takeWhile isWordChar
    if isTimeWithOffset time then some (r.drop time.length) else none
  | _ => none

/-- The scalar at the front of a text, and the rest. -/
def scalar? (cs : List Char) : Option (Value × List Char) :=
  match dateAndTime? cs with
  | some r => some (.moment, r)
  | none =>
    let word := cs.takeWhile isWordChar
    (ofWord? word).map fun v => (v, cs.drop word.length)

end ManagementPlane.Toml
