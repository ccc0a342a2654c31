/-!
# The shortest decimal of a binary64

A finite binary64 is `m * 2 ^ q`. The reals that round to it form an interval around it, whose ends
belong to it exactly when `m` is even.

* `Binary64.magnitude` : `m` and `q`, read off the bits;
* `shortest m q` : the decimal `d * 10 ^ p` in that interval with the fewest digits, and among those
  the nearest, a tie going to the even `d`;
* `NumberFormat`, `NumberFormat.render` : how such a decimal is written.
-/

namespace ManagementPlane

/-- A positive decimal `digits * 10 ^ exponent`. -/
structure Decimal where
  digits : Nat
  exponent : Int
  deriving DecidableEq, Repr

namespace Decimal

def digitCount (n : Nat) : Nat := (Nat.toDigits 10 n).length

/-- The exponent of the leading decimal digit of `num / den`, for positive `num` and `den`. -/
def leadingExponent (num den : Nat) : Int :=
  if den ≤ num then (digitCount (num / den) : Int) - 1
  else -(digitCount ((den + num - 1) / num - 1) : Int)

def scaleTen (a : Nat) (p : Int) : Nat × Nat :=
  if 0 ≤ p then (a * Nat.pow 10 p.toNat, 1) else (a, Nat.pow 10 (-p).toNat)

def scaleTwo (a : Nat) (q : Int) : Nat × Nat :=
  if 0 ≤ q then (a * Nat.pow 2 q.toNat, 1) else (a, Nat.pow 2 (-q).toNat)

def below (a b : Nat × Nat) : Bool := a.1 * b.2 < b.1 * a.2

/-- Whether `d * 10 ^ p` rounds to `m * 2 ^ q`; below a power of two the neighbours are closer. -/
def roundsTo (m : Nat) (q : Int) (lowerIsClose : Bool) (d : Nat) (p : Int) : Bool :=
  let x := scaleTen d p
  let low := scaleTwo (4 * m - (if lowerIsClose then 1 else 2)) (q - 2)
  let high := scaleTwo (4 * m + 2) (q - 2)
  if m % 2 = 0 then !below x low && !below high x else below low x && below x high

/-- The neighbour of `m * 2 ^ q` on the grid of multiples of `10 ^ p` that rounds to it, the nearer
one if both do. -/
def onGrid? (m : Nat) (q : Int) (lowerIsClose : Bool) (p : Int) : Option Nat :=
  let v := scaleTwo m q
  let unit := scaleTen 1 p
  let num := v.1 * unit.2
  let den := v.2 * unit.1
  let d := num / den
  let rest := num % den
  match roundsTo m q lowerIsClose d p && d ≠ 0, roundsTo m q lowerIsClose (d + 1) p with
  | false, false => none
  | true, false => some d
  | false, true => some (d + 1)
  | true, true =>
    if 2 * rest < den then some d
    else if den < 2 * rest then some (d + 1)
    else some (if d % 2 = 0 then d else d + 1)

/-- The first grid among those for `count`, `count + 1`, … digits that has a hit. -/
def firstGrid (m : Nat) (q : Int) (lowerIsClose : Bool) (top : Int) : Nat → Nat → Decimal
  | 0, count => ⟨m, top - count⟩
  | tries + 1, count =>
    let p := top + 1 - count
    match onGrid? m q lowerIsClose p with
    | some d => ⟨d, p⟩
    | none => firstGrid m q lowerIsClose top tries (count + 1)

/-- The decimal with the fewest digits that rounds to `m * 2 ^ q`; 17 digits always suffice. -/
def shortest (m : Nat) (q : Int) (lowerIsClose : Bool) : Decimal :=
  let v := scaleTwo m q
  firstGrid m q lowerIsClose (leadingExponent v.1 v.2) 17 1

def trim (d : Decimal) : Nat → Decimal
  | 0 => d
  | n + 1 =>
    if d.digits % 10 = 0 ∧ d.digits ≠ 0 then
      trim ⟨d.digits / 10, d.exponent + 1⟩ n
    else d

/-- How decimals are written: the leading exponents written without an exponent part, what marks an
exponent that is not negative, and what follows a number without a fraction. -/
structure NumberFormat where
  leastPlain : Int
  mostPlain : Int
  exponentPlus : String
  wholeMark : String

def NumberFormat.render (f : NumberFormat) (d : Decimal) : String :=
  let ds := Nat.toDigits 10 d.digits
  let top : Int := ds.length + d.exponent - 1
  if f.leastPlain ≤ top ∧ top ≤ f.mostPlain then
    if 0 ≤ d.exponent then
      String.ofList (ds ++ List.replicate d.exponent.toNat '0') ++ f.wholeMark
    else if 0 ≤ top then
      let whole := ds.length - (-d.exponent).toNat
      String.ofList (ds.take whole) ++ "." ++ String.ofList (ds.drop whole)
    else
      "0." ++ String.ofList (List.replicate (-top - 1).toNat '0' ++ ds)
  else
    let mantissa := match ds with
      | [] => ""
      | [c] => String.singleton c
      | c :: r => String.singleton c ++ "." ++ String.ofList r
    mantissa ++ "e" ++ (if top < 0 then "-" else f.exponentPlus) ++ toString top.natAbs

namespace Binary64

def negative (bits : UInt64) : Bool := bits >>> 63 == 1

/-- `m`, `q` and whether the next lower number is only half a step away, of a finite binary64. -/
def magnitude (bits : UInt64) : Nat × Int × Bool :=
  let fraction := (bits &&& 0xfffffffffffff).toNat
  let exponent := ((bits >>> 52) &&& 0x7ff).toNat
  if exponent = 0 then (fraction, -1074, false)
  else (fraction + 0x10000000000000, (exponent : Int) - 1075, fraction = 0 && 1 < exponent)

def text (f : NumberFormat) (bits : UInt64) : String :=
  let (m, q, lowerIsClose) := magnitude bits
  let sign := if negative bits then "-" else ""
  if m = 0 then sign ++ "0" ++ f.wholeMark else sign ++ f.render ((shortest m q lowerIsClose).trim 17)

end Binary64

end Decimal

end ManagementPlane
