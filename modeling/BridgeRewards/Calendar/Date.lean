import BridgeRewards.Text.Blank
import BridgeRewards.Text.Digits

/-!
# Calendar days

A day is the number of days since the first of January 1970, in the proleptic Gregorian calendar.
Years run from -262143 to 262142.  The written form is `YYYY-MM-DD`; years outside four digits
carry a sign.  When a day is read, month and day may have a single digit and blanks may stand
around the hyphens.
-/

set_option autoImplicit false

namespace BridgeRewards

/-- A day of the calendar, counted from the first of January 1970. -/
structure Date where
  days : Int
  deriving DecidableEq, Repr

/-- A day by its year, month and day of the month. -/
structure CivilDate where
  year : Int
  month : Nat
  day : Nat
  deriving DecidableEq, Repr

namespace Date

instance : LT Date where
  lt a b := a.days < b.days

instance : LE Date where
  le a b := a.days ≤ b.days

instance (a b : Date) : Decidable (a < b) := inferInstanceAs (Decidable (a.days < b.days))

instance (a b : Date) : Decidable (a ≤ b) := inferInstanceAs (Decidable (a.days ≤ b.days))

instance : Ord Date where
  compare a b := compare a.days b.days

instance : Std.TransOrd Date where
  eq_swap {a b} := Std.OrientedOrd.eq_swap (a := a.days) (b := b.days)
  isLE_trans {a b c} := Std.TransOrd.isLE_trans (a := a.days) (b := b.days) (c := c.days)

instance : Std.LawfulEqOrd Date where
  compare_self {a} := Std.compare_self (a := a.days)
  eq_of_compare {a b} h := by
    cases a; cases b
    exact congrArg Date.mk (Std.LawfulEqOrd.eq_of_compare h)

/-- Whether a year has a 29th of February. -/
def isLeapYear (year : Int) : Bool :=
  year % 4 == 0 && (year % 100 != 0 || year % 400 == 0)

/-- The number of days of a month. -/
def daysInMonth (year : Int) (month : Nat) : Nat :=
  if month = 2 then if isLeapYear year then 29 else 28
  else if month = 4 ∨ month = 6 ∨ month = 9 ∨ month = 11 then 30
  else 31

/-- The day that a civil date stands for.  Years are counted from March, so that the leap day is
the last of its year, and in eras of four hundred years. -/
def ofCivil (c : CivilDate) : Date :=
  let y := if c.month ≤ 2 then c.year - 1 else c.year
  let era := y.fdiv 400
  let yearOfEra := y - era * 400
  let monthFromMarch : Int := ((c.month + 9) % 12 : Nat)
  let dayOfYear := (153 * monthFromMarch + 2) / 5 + c.day - 1
  let dayOfEra := yearOfEra * 365 + yearOfEra / 4 - yearOfEra / 100 + dayOfYear
  ⟨era * 146097 + dayOfEra - 719468⟩

/-- The civil date of a day. -/
def toCivil (d : Date) : CivilDate :=
  let z := d.days + 719468
  let era := z.fdiv 146097
  let dayOfEra := z - era * 146097
  let yearOfEra := (dayOfEra - dayOfEra / 1460 + dayOfEra / 36524 - dayOfEra / 146096) / 365
  let dayOfYear := dayOfEra - (365 * yearOfEra + yearOfEra / 4 - yearOfEra / 100)
  let monthFromMarch := (5 * dayOfYear + 2) / 153
  let day := (dayOfYear - (153 * monthFromMarch + 2) / 5 + 1).toNat
  let month := if monthFromMarch < 10 then (monthFromMarch + 3).toNat
    else (monthFromMarch - 9).toNat
  let year := yearOfEra + era * 400
  ⟨if month ≤ 2 then year + 1 else year, month, day⟩

/-- The first year of the calendar. -/
def firstYear : Int := -262143

/-- The last year of the calendar. -/
def lastYear : Int := 262142

/-- The first day of the calendar. -/
def first : Date := ofCivil ⟨firstYear, 1, 1⟩

/-- The last day of the calendar. -/
def last : Date := ofCivil ⟨lastYear, 12, 31⟩

/-- The day of a civil date that exists. -/
def ofCivil? (c : CivilDate) : Option Date :=
  if firstYear ≤ c.year ∧ c.year ≤ lastYear ∧ 1 ≤ c.month ∧ c.month ≤ 12 ∧ 1 ≤ c.day ∧
      c.day ≤ daysInMonth c.year c.month then
    some (ofCivil c)
  else none

/-- A year in four digits, with a sign if it needs more or is negative. -/
def yearText (year : Int) : String :=
  let digits := String.ofList (Text.padded 4 year.natAbs)
  if year < 0 then "-" ++ digits
  else if 9999 < year then "+" ++ digits
  else digits

/-- A day as text. -/
def text (d : Date) : String :=
  let c := d.toCivil
  yearText c.year ++ "-" ++ String.ofList (Text.padded 2 c.month) ++ "-" ++
    String.ofList (Text.padded 2 c.day)

end Date

/-! ## Reading fixed fields -/

namespace Calendar

/-- A number of at least `fewest` and at most `most` digits at the start of a text, and what
follows it. -/
def readField (fewest most : Nat) (cs : List Char) : Option (Nat × List Char) :=
  let field := (cs.take most).takeWhile Char.isDigit
  if fewest ≤ field.length ∧ field ≠ [] then
    some (Text.digitsValue field, cs.drop field.length)
  else none

/-- The text behind a character that has to stand at its start. -/
def skipChar (c : Char) : List Char → Option (List Char)
  | [] => none
  | d :: rest => if d = c then some rest else none

/-- A year at the start of a text: up to four digits, or any number of them behind a sign. -/
def readYear (cs : List Char) : Option (Int × List Char) :=
  match Text.trimStart cs with
  | '-' :: rest => (readField 1 rest.length rest).map fun (n, r) => (-(n : Int), r)
  | '+' :: rest => (readField 1 rest.length rest).map fun (n, r) => ((n : Int), r)
  | cs => (readField 1 4 cs).map fun (n, r) => ((n : Int), r)

/-- A number of one or two digits, blanks before it left out. -/
def readShort (cs : List Char) : Option (Nat × List Char) := readField 1 2 (Text.trimStart cs)

/-- A civil date at the start of a text, blanks around its parts left out. -/
def readCivil (cs : List Char) : Option (CivilDate × List Char) := do
  let (year, cs) ← readYear cs
  let cs ← skipChar '-' (Text.trimStart cs)
  let (month, cs) ← readShort cs
  let cs ← skipChar '-' (Text.trimStart cs)
  let (day, cs) ← readShort cs
  return (⟨year, month, day⟩, cs)

end Calendar

/-- The day that a text denotes. -/
def Date.ofText? (s : String) : Option Date := do
  let (civil, rest) ← Calendar.readCivil s.toList
  if Text.trimStart rest = [] then Date.ofCivil? civil else none

end BridgeRewards
