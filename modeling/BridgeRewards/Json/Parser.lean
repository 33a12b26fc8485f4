import BridgeRewards.Json.Basic
import BridgeRewards.Text.Hex

/-!
# Reading documents

The grammar of JSON: blanks are space, tab, line feed and carriage return; numbers have no
leading zeros; strings hold no control characters; and nothing but blanks may follow a document.
What is beyond the range of numbers, an escaped surrogate without its partner, and what nests
deeper than 127 levels is read as an unreadable value, so that a record may pass over it.
-/

set_option autoImplicit false

namespace BridgeRewards.Json

/-- The text behind the blanks at its start. -/
def skipBlank (cs : List Char) : List Char :=
  cs.dropWhile fun c => c == ' ' || c == '\t' || c == '\n' || c == '\r'

/-! ## Strings -/

/-- Four hexadecimal digits at the start of a text. -/
def readUnit : List Char → Option (Nat × List Char)
  | a :: b :: c :: d :: rest => (Text.readHex [a, b, c, d]).map (·, rest)
  | _ => none

/-- The character of two code units, if they are a surrogate pair. -/
def joined? (high low : Nat) : Option Char :=
  if 0xD800 ≤ high ∧ high ≤ 0xDBFF ∧ 0xDC00 ≤ low ∧ low ≤ 0xDFFF then
    some (Char.ofNat (0x10000 + (high - 0xD800) * 0x400 + (low - 0xDC00)))
  else none

/-- The character of an escaped code unit, or of two that are a surrogate pair.  A surrogate
without its partner is no character. -/
def readEscapedUnit (cs : List Char) : Option (Option Char × List Char) := do
  let (unit, rest) ← readUnit cs
  if unit < 0xD800 ∨ 0xDFFF < unit then return (some (Char.ofNat unit), rest)
  match rest with
  | '\\' :: 'u' :: more =>
    let (low, after) ← readUnit more
    match joined? unit low with
    | some c => return (some c, after)
    | none => return (none, rest)
  | _ => return (none, rest)

/-- The character behind a backslash, if it is one. -/
def readEscape : List Char → Option (Option Char × List Char)
  | '"' :: rest => some (some '"', rest)
  | '\\' :: rest => some (some '\\', rest)
  | '/' :: rest => some (some '/', rest)
  | 'b' :: rest => some (some (Char.ofNat 8), rest)
  | 'f' :: rest => some (some (Char.ofNat 12), rest)
  | 'n' :: rest => some (some '\n', rest)
  | 'r' :: rest => some (some '\r', rest)
  | 't' :: rest => some (some '\t', rest)
  | 'u' :: rest => readEscapedUnit rest
  | _ => none

theorem length_lt_of_readUnit {cs rest : List Char} {unit : Nat}
    (h : readUnit cs = some (unit, rest)) : rest.length < cs.length := by
  unfold readUnit at h
  split at h
  · obtain ⟨_, _, heq⟩ := Option.map_eq_some_iff.mp h
    cases heq
    simp only [List.length_cons]
    omega
  · cases h

theorem length_lt_of_readEscapedUnit {cs rest : List Char} {c : Option Char}
    (h : readEscapedUnit cs = some (c, rest)) : rest.length < cs.length := by
  obtain ⟨⟨unit, behind⟩, hunit, h⟩ := Option.bind_eq_some_iff.mp h
  have hbehind := length_lt_of_readUnit hunit
  dsimp only at h
  split at h
  · cases h
    exact hbehind
  · split at h
    · obtain ⟨⟨low, after⟩, hlow, h⟩ := Option.bind_eq_some_iff.mp h
      have hafter := length_lt_of_readUnit hlow
      dsimp only at h
      split at h
      · cases h
        simp only [List.length_cons] at hbehind
        omega
      · cases h
        exact hbehind
    · cases h
      exact hbehind

/-- Reading an escape takes at least one character off the text. -/
theorem length_lt_of_readEscape {cs rest : List Char} {c : Option Char}
    (h : readEscape cs = some (c, rest)) : rest.length < cs.length := by
  unfold readEscape at h
  split at h
  case h_9 => exact Nat.lt_succ_of_lt (length_lt_of_readEscapedUnit h)
  case h_10 => cases h
  all_goals
    cases h
    exact Nat.lt_succ_self _

/-- The characters of a string up to its closing quote, with the last read first in `read`, and
what follows the quote.  There is no string if one of them was no character. -/
def readStringChars (read : Option (List Char)) (cs : List Char) :
    Option (Option String × List Char) :=
  match cs with
  | [] => none
  | c :: rest =>
    if c = '"' then some (read.map fun cs => String.ofList cs.reverse, rest)
    else if c = '\\' then
      match _escape : readEscape rest with
      | some (d, behind) => readStringChars (do return (← d) :: (← read)) behind
      | none => none
    else if c.toNat < 0x20 then none
    else readStringChars (read.map (c :: ·)) rest
termination_by cs.length
decreasing_by
  · exact Nat.lt_succ_of_lt (length_lt_of_readEscape _escape)
  · exact Nat.lt_succ_self _

/-- A string behind its opening quote. -/
def readString (cs : List Char) : Option (Option String × List Char) :=
  readStringChars (some []) cs

/-! ## Numbers -/

/-- The largest significand that digits are gathered in. -/
def maxSignificand : Nat := twoTo 64 - 1

/-- Gathers digits into a significand as long as it stays in range; the result says how many
digits were gathered. -/
def gather : Nat → Nat → List Char → Nat × Nat
  | significand, count, [] => (significand, count)
  | significand, count, c :: rest =>
    let next := significand * 10 + (c.toNat - '0'.toNat)
    if maxSignificand < next then (significand, count) else gather next (count + 1) rest

/-- The exponent behind `e` or `E`, of which a sign and at least one digit remain. -/
def readExponent (cs : List Char) : Option (Int × List Char) :=
  let (negative, cs) := match cs with
    | '-' :: rest => (true, rest)
    | '+' :: rest => (false, rest)
    | _ => (false, cs)
  let field := cs.takeWhile Char.isDigit
  if field = [] then none
  else
    let n : Int := Text.digitsValue field
    some (if negative then -n else n, cs.drop field.length)

/-- The exponents beyond which a number is zero or too large whatever its digits. -/
def farExponent : Int := 100000

/-- A number that is not kept as an integer. -/
def realOf (negative : Bool) (whole fraction : List Char) (exponent : Int) : Json :=
  let (significand, gathered) := gather 0 0 whole
  let dropped := whole.length - gathered
  let (significand, places) := gather significand 0 fraction
  let power := exponent + dropped - places
  if significand = 0 ∨ power < -farExponent then .real negative .zero
  else if farExponent < power then .unreadable
  else
    match Double.ofDecimal? significand power with
    | none => .unreadable
    | some x => .real negative x

/-- An integer that fits 64 bits, with the sign counted in, or else the nearest other number. -/
def integerOf (negative : Bool) (whole : List Char) : Json :=
  let n := Text.digitsValue whole
  if negative then
    if 0 < n ∧ n ≤ twoTo 63 then .integer (-(n : Int)) else realOf true whole [] 0
  else if n < twoTo 64 then .integer n
  else realOf false whole [] 0

/-- The digits behind the point of a number, if there is a point. -/
def readPlaces (cs : List Char) : Option (Option (List Char) × List Char) :=
  match cs with
  | '.' :: rest =>
    let field := rest.takeWhile Char.isDigit
    if field = [] then none else some (some field, rest.drop field.length)
  | _ => some (none, cs)

/-- A number at the start of a text. -/
def readNumber (cs : List Char) : Option (Json × List Char) := do
  let (negative, cs) := match cs with
    | '-' :: rest => (true, rest)
    | _ => (false, cs)
  let whole := cs.takeWhile Char.isDigit
  if whole = [] ∨ (whole.head? = some '0' ∧ 1 < whole.length) then none
  else
    let (places, cs) ← readPlaces (cs.drop whole.length)
    let (exponent, cs) ← match cs with
      | 'e' :: rest => (readExponent rest).map fun (e, r) => (some e, r)
      | 'E' :: rest => (readExponent rest).map fun (e, r) => (some e, r)
      | _ => some (none, cs)
    match places, exponent with
    | none, none => some (integerOf negative whole, cs)
    | _, _ => some (realOf negative whole (places.getD []) (exponent.getD 0), cs)

/-! ## Documents -/

/-- A fixed word at the start of a text. -/
def readWord (word : List Char) (value : Json) (cs : List Char) : Option (Json × List Char) :=
  if cs.take word.length = word then some (value, cs.drop word.length) else none

/-- An array or object where `depth` more levels may nest. -/
def nested (depth : Nat) (json : Json) : Json := if depth = 0 then .unreadable else json

/-- An object, given the keys of its members where they are strings. -/
def ofMembers (members : List (Option String × Json)) : Json :=
  match members.mapM fun (key, value) => key.map (·, value) with
  | some members => .object members
  | none => .unreadable

mutual
/-- A document at the start of a text, in which at most `depth` arrays and objects nest. -/
def readValue : Nat → Nat → List Char → Option (Json × List Char)
  | 0, _, _ => none
  | fuel + 1, depth, cs =>
    match skipBlank cs with
    | [] => none
    | '"' :: rest => (readString rest).map fun (s, r) => (s.elim .unreadable .string, r)
    | '[' :: rest =>
      match skipBlank rest with
      | ']' :: rest => some (nested depth (.array []), rest)
      | _ =>
        (readItems fuel (depth - 1) rest).map fun (items, r) => (nested depth (.array items), r)
    | '\x7b' :: rest =>
      match skipBlank rest with
      | '\x7d' :: rest => some (nested depth (.object []), rest)
      | _ =>
        (readMembers fuel (depth - 1) rest).map fun (members, r) =>
          (nested depth (ofMembers members), r)
    | 'n' :: rest => readWord ['u', 'l', 'l'] .null rest
    | 't' :: rest => readWord ['r', 'u', 'e'] (.bool true) rest
    | 'f' :: rest => readWord ['a', 'l', 's', 'e'] (.bool false) rest
    | cs => readNumber cs

/-- The items of an array up to its closing bracket. -/
def readItems : Nat → Nat → List Char → Option (List Json × List Char)
  | 0, _, _ => none
  | fuel + 1, depth, cs =>
    match readValue fuel depth cs with
    | none => none
    | some (item, rest) =>
      match skipBlank rest with
      | ']' :: rest => some ([item], rest)
      | ',' :: rest => (readItems fuel depth rest).map fun (items, r) => (item :: items, r)
      | _ => none

/-- The members of an object up to its closing brace. -/
def readMembers : Nat → Nat → List Char → Option (List (Option String × Json) × List Char)
  | 0, _, _ => none
  | fuel + 1, depth, cs =>
    match skipBlank cs with
    | '"' :: rest =>
      match readString rest with
      | none => none
      | some (key, rest) =>
        match skipBlank rest with
        | ':' :: rest =>
          match readValue fuel depth rest with
          | none => none
          | some (value, rest) =>
            match skipBlank rest with
            | '\x7d' :: rest => some ([(key, value)], rest)
            | ',' :: rest =>
              (readMembers fuel depth rest).map fun (members, r) => ((key, value) :: members, r)
            | _ => none
        | _ => none
    | _ => none
end

/-- How deep a document may nest. -/
def maxDepth : Nat := 127

/-- The document that a text denotes. -/
def parse? (s : String) : Option Json :=
  let cs := s.toList
  match readValue (2 * cs.length + 2) maxDepth cs with
  | some (json, rest) => if skipBlank rest = [] then some json else none
  | none => none

end BridgeRewards.Json
