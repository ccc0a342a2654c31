import ManagementPlane.Decimal.Shortest

/-!
# Decimal numerals

`Numeral` is a number as it is written: sign, whole digits, fraction and exponent.

* `Numeral.lex?` : the numeral at the front of a text;
* `Numeral.integer?` : its value, if it has neither fraction nor exponent and fits 64 bits;
* `Numeral.binary64?` : the binary64 taken for any other numeral.
-/

namespace ManagementPlane.Decimal

/-- A number as it is written. -/
structure Numeral where
  negative : Bool
  whole : List Char
  fraction : Option (List Char)
  exponent : Option (Bool × List Char)
  deriving DecidableEq, Repr

def digitValue (c : Char) : Nat := c.toNat - '0'.toNat

def ofDigits (ds : List Char) : Nat := ds.foldl (fun n c => n * 10 + digitValue c) 0

def spanDigits (cs : List Char) : List Char × List Char :=
  (cs.takeWhile Char.isDigit, cs.dropWhile Char.isDigit)

namespace Numeral

/-- The exponent part, if one starts here; a mark without digits behind it is no numeral. -/
def lexExponent? : List Char → Option (Option (Bool × List Char) × List Char)
  | c :: r =>
    if c = 'e' ∨ c = 'E' then
      let (negative, r) := match r with
        | '+' :: r => (false, r)
        | '-' :: r => (true, r)
        | r => (false, r)
      match spanDigits r with
      | ([], _) => none
      | (ds, r) => some (some (negative, ds), r)
    else some (none, c :: r)
  | [] => some (none, [])

/-- The fraction, if a point comes next; a point without digits behind it is no numeral. -/
def lexFraction? : List Char → Option (Option (List Char) × List Char)
  | '.' :: r =>
    match spanDigits r with
    | ([], _) => none
    | (ds, r) => some (some ds, r)
  | r => some (none, r)

/-- The whole digits: a single zero, or digits that do not start with one. -/
def lexWhole? (cs : List Char) : Option (List Char × List Char) :=
  match spanDigits cs with
  | ([], _) => none
  | ('0' :: _ :: _, _) => none
  | (ds, r) => some (ds, r)

/-- The numeral at the front of a text, and the rest. -/
def lex? (cs : List Char) : Option (Numeral × List Char) := do
  let (negative, cs) := match cs with
    | '-' :: r => (true, r)
    | r => (false, r)
  let (whole, cs) ← lexWhole? cs
  let (fraction, cs) ← lexFraction? cs
  let (exponent, cs) ← lexExponent? cs
  some (⟨negative, whole, fraction, exponent⟩, cs)

/-- The integer it writes: from -2^63 to 2^64 - 1, and a negative zero is none. -/
def integer? (n : Numeral) : Option Int :=
  match n.fraction, n.exponent with
  | none, none =>
    let v := ofDigits n.whole
    if n.negative then
      if v ≠ 0 ∧ v ≤ UInt64.size / 2 then some (-(v : Int)) else none
    else if v < UInt64.size then some v else none
  | _, _ => none

/-- Append digits to a 64-bit significand while it fits; also how many were appended. -/
def absorb (limit : Nat) : Nat → List Char → Nat × Nat
  | s, [] => (s, 0)
  | s, c :: r =>
    let s' := s * 10 + digitValue c
    if limit ≤ s' then (s, 0) else
      let (t, n) := absorb limit s' r
      (t, n + 1)

/-- `10 ^ n` as the nearest binary64, for `n ≤ 308`. -/
def powerOfTen (n : Nat) : Float := Float.ofScientific 1 false n

def divide (f : Float) (n : Nat) : Float :=
  if n ≤ 308 then f / powerOfTen n
  else if f == 0 then f
  else divide (f / powerOfTen 308) (n - 308)
termination_by n

def multiply? (f : Float) (n : Nat) : Option Float :=
  if n ≤ 308 then
    let g := f * powerOfTen n
    if g.isInf then none else some g
  else if f == 0 then some f else none

/-- The binary64 taken for the numeral: its leading digits that fit 64 bits are rounded to a
binary64, which is then scaled by the remaining power of ten. None when it is out of range. -/
def binary64? (n : Numeral) : Option UInt64 :=
  let (s, used) := absorb UInt64.size 0 n.whole
  let fraction := n.fraction.getD []
  let (s, extra) := absorb UInt64.size s fraction
  let shift : Int := (n.whole.length : Int) - used - extra
  let exponent : Int := match n.exponent with
    | none => shift
    | some (true, ds) => shift - ofDigits ds
    | some (false, ds) => shift + ofDigits ds
  let f := s.toUInt64.toFloat
  let scaled := if 0 ≤ exponent then multiply? f exponent.toNat
    else some (divide f (-exponent).toNat)
  scaled.map fun f => (if n.negative then -f else f).toBits

end Numeral

end ManagementPlane.Decimal
