import BridgeRewards.Calendar.Date
import BridgeRewards.Powers

/-!
# Instants

An instant is the number of nanoseconds since the start of 1970 in universal time, so instants
compare as numbers and the day of an instant is its universal day, which has to be one of the
calendar.  Instants are written with the
fewest of zero, three, six or nine digits of a second that are exact.  Two forms are read: the
strict one has fixed widths throughout, the lenient one admits blanks, short fields and a missing
colon in the offset.  There is no second 60.
-/

set_option autoImplicit false

namespace BridgeRewards

/-- A point in time, in nanoseconds since the start of 1970. -/
structure Instant where
  nanos : Int
  deriving DecidableEq, Repr

namespace Instant

instance : LT Instant where
  lt a b := a.nanos < b.nanos

instance : LE Instant where
  le a b := a.nanos ≤ b.nanos

instance (a b : Instant) : Decidable (a < b) := inferInstanceAs (Decidable (a.nanos < b.nanos))

instance (a b : Instant) : Decidable (a ≤ b) := inferInstanceAs (Decidable (a.nanos ≤ b.nanos))

instance : Ord Instant where
  compare a b := compare a.nanos b.nanos

/-- The start of 1970. -/
def epoch : Instant := ⟨0⟩

/-- The nanoseconds of a second. -/
def nanosPerSecond : Int := 1000000000

/-- The nanoseconds of a day. -/
def nanosPerDay : Int := 86400 * nanosPerSecond

/-- The universal day of an instant. -/
def date (t : Instant) : Date := ⟨t.nanos.fdiv nanosPerDay⟩

/-- A time of day, in civil parts. -/
structure TimeOfDay where
  hour : Nat
  minute : Nat
  second : Nat
  nano : Nat

/-- The instant of a time on a day. -/
def ofParts (d : Date) (time : TimeOfDay) : Instant :=
  ⟨d.days * nanosPerDay +
    ((time.hour * 3600 + time.minute * 60 + time.second : Nat) : Int) * nanosPerSecond + time.nano⟩

/-! ## Writing -/

/-- The digits behind the point of a second, as few groups of three as are exact. -/
def fractionText (nano : Nat) : String :=
  if nano = 0 then ""
  else if nano % 1000000 = 0 then "." ++ String.ofList (Text.padded 3 (nano / 1000000))
  else if nano % 1000 = 0 then "." ++ String.ofList (Text.padded 6 (nano / 1000))
  else "." ++ String.ofList (Text.padded 9 nano)

/-- The day and time of an instant, without an offset. -/
def dateTimeText (t : Instant) : String :=
  let rest := (t.nanos - t.nanos.fdiv nanosPerDay * nanosPerDay).toNat
  let seconds := rest / 1000000000
  let two := fun n => String.ofList (Text.padded 2 n)
  t.date.text ++ "T" ++ two (seconds / 3600) ++ ":" ++ two (seconds / 60 % 60) ++ ":" ++
    two (seconds % 60) ++ fractionText (rest % 1000000000)

/-- An instant as it stands in documents, with the offset `Z`. -/
def text (t : Instant) : String := t.dateTimeText ++ "Z"

/-- An instant as it stands in messages, with a numeric offset. -/
def offsetText (t : Instant) : String := t.dateTimeText ++ "+00:00"

/-! ## Reading -/

open Calendar

/-- The nanoseconds that the digits behind a point denote; the tenth and later digits are not
read. -/
def readFraction (cs : List Char) : Option (Nat × List Char) :=
  match cs with
  | '.' :: rest =>
    let field := rest.takeWhile Char.isDigit
    if field = [] then none
    else
      let kept := field.take 9
      some (Text.digitsValue kept * tenTo (9 - kept.length), rest.drop field.length)
  | _ => some (0, cs)

/-- The text behind the mark between a day and a time. -/
def skipSeparator : List Char → Option (List Char)
  | 'T' :: rest => some rest
  | 't' :: rest => some rest
  | ' ' :: rest => some rest
  | _ => none

/-- Two digits of which the first is at most five. -/
def readSixtieth : List Char → Option (Nat × List Char)
  | tens :: ones :: rest => do
    let t ← Text.digitValue? tens
    let o ← Text.digitValue? ones
    if t ≤ 5 then some (t * 10 + o, rest) else none
  | _ => none

/-- A signed offset in seconds; `skipColon` says what may stand between hours and minutes. -/
def readSignedOffset (skipColon : List Char → Option (List Char)) (negative : Bool)
    (cs : List Char) : Option (Int × List Char) := do
  let (hours, cs) ← readField 2 2 cs
  let cs ← skipColon cs
  let (minutes, cs) ← readSixtieth cs
  let seconds : Int := ((hours * 3600 + minutes * 60 : Nat) : Int)
  return (if negative then -seconds else seconds, cs)

/-- An offset from universal time in seconds: `Z`, or hours and minutes behind a sign. -/
def readOffset (skipColon : List Char → Option (List Char)) (cs : List Char) :
    Option (Int × List Char) :=
  match cs with
  | 'Z' :: rest => some (0, rest)
  | 'z' :: rest => some (0, rest)
  | '+' :: rest => readSignedOffset skipColon false rest
  | '-' :: rest => readSignedOffset skipColon true rest
  | '\u2212' :: rest => readSignedOffset skipColon true rest
  | _ => none

/-- The instant of a civil day and time that exist, at an offset of less than a day, if its
universal day is in the calendar. -/
def assemble (civil : CivilDate) (time : TimeOfDay) (offset : Int) : Option Instant := do
  let day ← Date.ofCivil? civil
  let instant : Instant := ⟨(ofParts day time).nanos - offset * nanosPerSecond⟩
  if time.hour < 24 ∧ time.minute < 60 ∧ time.second < 60 ∧ -86400 < offset ∧ offset < 86400 ∧
      Date.first ≤ instant.date ∧ instant.date ≤ Date.last then
    some instant
  else none

/-- The instant that a text in the strict form denotes. -/
def ofStrictText? (s : String) : Option Instant := do
  let (year, cs) ← readField 4 4 s.toList
  let cs ← skipChar '-' cs
  let (month, cs) ← readField 2 2 cs
  let cs ← skipChar '-' cs
  let (day, cs) ← readField 2 2 cs
  let cs ← skipSeparator cs
  let (hour, cs) ← readField 2 2 cs
  let cs ← skipChar ':' cs
  let (minute, cs) ← readField 2 2 cs
  let cs ← skipChar ':' cs
  let (second, cs) ← readField 2 2 cs
  let (nano, cs) ← readFraction cs
  let (offset, cs) ← readOffset (skipChar ':') cs
  if cs = [] then assemble ⟨year, month, day⟩ ⟨hour, minute, second, nano⟩ offset else none

/-- The text behind colons and blanks, of which there may be any number. -/
def skipLooseColon (cs : List Char) : Option (List Char) :=
  some (cs.dropWhile fun c => c == ':' || Text.isBlank c)

/-- The offset of the lenient form, which may also be the word `UTC`. -/
def readLenientOffset (cs : List Char) : Option (Int × List Char) :=
  if (cs.take 3).map Char.toUpper = ['U', 'T', 'C'] then some (0, cs.drop 3)
  else readOffset skipLooseColon cs

/-- The instant that a text in the lenient form denotes. -/
def ofText? (s : String) : Option Instant := do
  let (civil, cs) ← readCivil s.toList
  let cs ← skipSeparator cs
  let (hour, cs) ← readShort cs
  let cs ← skipChar ':' (Text.trimStart cs)
  let (minute, cs) ← readShort cs
  let cs ← skipChar ':' (Text.trimStart cs)
  let (second, cs) ← readShort cs
  let (nano, cs) ← readFraction cs
  let (offset, cs) ← readLenientOffset (Text.trimStart cs)
  if Text.trimStart cs = [] then assemble civil ⟨hour, minute, second, nano⟩ offset else none

end Instant

end BridgeRewards
