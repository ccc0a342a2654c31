import ManagementPlane.Text.Blank

/-!
# Timestamps

`isTimestamp` says whether a text is a date and time with an offset from UTC: `2024-01-02T03:04:05Z`
and its relatives. The date must exist; blanks may stand between the parts; a `T` or a blank separates
date and time; a fraction of a second may have any number of digits; the offset is `Z`, `UTC`, or
hours and minutes with an optional colon.
-/

namespace ManagementPlane.Text.Timestamp

/-- A number of at least one and at most `most` digits, and what follows it. -/
def number? (most : Nat) (cs : List Char) : Option (Nat × List Char) :=
  match (cs.take most).takeWhile Char.isDigit with
  | [] => none
  | ds => some (ds.foldl (fun n c => n * 10 + (c.toNat - '0'.toNat)) 0, cs.drop ds.length)

/-- The year: four digits, or any number of digits behind a sign. -/
def year? (cs : List Char) : Option (Int × List Char) :=
  match trimStart cs with
  | '-' :: r => (number? r.length r).map fun (n, r) => (-(n : Int), r)
  | '+' :: r => (number? r.length r).map fun (n, r) => ((n : Int), r)
  | r => (number? 4 r).map fun (n, r) => ((n : Int), r)

def twoDigits? (limit : Nat) (cs : List Char) : Option (Nat × List Char) := do
  let (n, r) ← number? 2 (trimStart cs)
  if n < limit then some (n, r) else none

/-- What follows a given character, which blanks may precede. -/
def expect? (c : Char) (cs : List Char) : Option (List Char) :=
  match trimStart cs with
  | d :: r => if d = c then some r else none
  | [] => none

def isLeap (year : Int) : Bool := year % 4 == 0 && (year % 100 != 0 || year % 400 == 0)

def daysIn (year : Int) (month : Nat) : Nat :=
  if month = 2 then (if isLeap year then 29 else 28)
  else if month ∈ [4, 6, 9, 11] then 30
  else 31

def date? (cs : List Char) : Option (List Char) := do
  let (year, r) ← year? cs
  let (month, r) ← twoDigits? 13 (← expect? '-' r)
  let (day, r) ← twoDigits? 32 (← expect? '-' r)
  if -262142 ≤ year ∧ year ≤ 262141 ∧ 1 ≤ month ∧ 1 ≤ day ∧ day ≤ daysIn year month then some r
  else none

/-- What follows a time of day; a minute may have a 61st second. -/
def time? (cs : List Char) : Option (List Char) := do
  let (_, r) ← twoDigits? 24 cs
  let (_, r) ← twoDigits? 60 (← expect? ':' r)
  let (_, r) ← twoDigits? 61 (← expect? ':' r)
  match r with
  | '.' :: r =>
    match r.takeWhile Char.isDigit with
    | [] => none
    | ds => some (r.drop ds.length)
  | r => some r

/-- Two digits of which the first is below a limit. -/
def pair? (limit : Nat) : List Char → Option (List Char)
  | a :: b :: r =>
    if a.isDigit ∧ b.isDigit ∧ a.toNat - '0'.toNat < limit then some r else none
  | _ => none

/-- What follows the offset. An offset of a day or more is none. -/
def offset? (cs : List Char) : Option (List Char) :=
  match trimStart cs with
  | 'Z' :: r | 'z' :: r => some r
  | sign :: h :: h' :: r =>
    if [sign, h, h'].map Char.toLower = ['u', 't', 'c'] then some r
    else if sign ∈ ['+', '-', '−'] ∧ h.isDigit ∧ h'.isDigit
        ∧ (h.toNat - '0'.toNat) * 10 + (h'.toNat - '0'.toNat) < 24 then
      pair? 6 (r.dropWhile fun c => c = ':' || isBlank c)
    else none
  | _ => none

/-- What follows a date, a `T` or blank, a time and an offset. -/
def dateTime? (cs : List Char) : Option (List Char) := do
  match ← date? cs with
  | 'T' :: r | 't' :: r | ' ' :: r => offset? (← time? r)
  | _ => none

end ManagementPlane.Text.Timestamp

namespace ManagementPlane.Text

/-- Whether a text is a date and time with an offset. -/
def isTimestamp (s : String) : Bool :=
  match Timestamp.dateTime? s.toList with
  | some r => r.all isBlank
  | none => false

end ManagementPlane.Text
