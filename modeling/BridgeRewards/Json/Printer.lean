import BridgeRewards.Json.Basic
import BridgeRewards.Text.Hex

/-!
# Writing documents

The compact form has no blanks.  The indented form puts each item and member on a line of its
own, two spaces deeper than what holds it, and keeps empty arrays and objects on one line.
Quotes, backslashes and control characters are escaped; every other character stands as it is.
A number that is no integer is written positionally unless it is very large or very small.  An
unreadable value has no written form, and null stands in for it.
-/

set_option autoImplicit false

namespace BridgeRewards.Json

/-! ## Strings -/

/-- A character inside a JSON string. -/
def stringChar (c : Char) : List Char :=
  if c = '"' then ['\\', '"']
  else if c = '\\' then ['\\', '\\']
  else if c = '\n' then ['\\', 'n']
  else if c = '\r' then ['\\', 'r']
  else if c = '\t' then ['\\', 't']
  else if c = Char.ofNat 8 then ['\\', 'b']
  else if c = Char.ofNat 12 then ['\\', 'f']
  else if c.toNat < 0x20 then '\\' :: 'u' :: Text.hexDigits 4 c.toNat
  else [c]

/-- A JSON string. -/
def stringText (s : String) : String :=
  String.ofList ('"' :: s.toList.flatMap stringChar ++ ['"'])

/-! ## Numbers -/

/-- The largest number of digits before the point of a number that is written positionally. -/
def positionalDigits : Int := 16

/-- The smallest power of ten of a number that is written positionally, excluded. -/
def positionalPower : Int := -5

/-- The sign and the digits of an exponent, behind the mark. -/
def exponentChars (exponent : Int) : List Char :=
  'e' :: (if exponent < 0 then '-' else '+') :: Text.digits exponent.natAbs

/-- The written form of a number: positional with at least one place where that is short enough,
with an exponent otherwise.  Of two equally near forms the one with the even digit is taken. -/
def realChars (x : Double) : List Char :=
  let (digits, power) := x.shortest .toEven
  let ds := Text.digits digits
  let length : Int := ds.length
  let top := length + power
  if digits = 0 then ['0', '.', '0']
  else if 0 ≤ power ∧ top ≤ positionalDigits then
    ds ++ List.replicate power.toNat '0' ++ ['.', '0']
  else if 0 < top ∧ top ≤ positionalDigits then ds.take top.toNat ++ '.' :: ds.drop top.toNat
  else if positionalPower < top ∧ top ≤ 0 then
    '0' :: '.' :: List.replicate (-top).toNat '0' ++ ds
  else if ds.length = 1 then ds ++ exponentChars (top - 1)
  else ds.take 1 ++ '.' :: ds.drop 1 ++ exponentChars (top - 1)

/-! ## Documents -/

/-- The opening brace of an object. -/
def openBrace : String := "\x7b"

/-- The closing brace of an object. -/
def closeBrace : String := "\x7d"

mutual
/-- The compact form of a document. -/
def compact : Json → String
  | .null => "null"
  | .bool b => if b then "true" else "false"
  | .integer n => toString n
  | .real negative magnitude =>
    (if negative then "-" else "") ++ String.ofList (realChars magnitude)
  | .string s => stringText s
  | .array items => "[" ++ compactItems items ++ "]"
  | .object members => openBrace ++ compactMembers members ++ closeBrace
  | .unreadable => "null"

/-- Documents with commas between them. -/
def compactItems : List Json → String
  | [] => ""
  | [item] => compact item
  | item :: rest => compact item ++ "," ++ compactItems rest

/-- Members with commas between them. -/
def compactMembers : List (String × Json) → String
  | [] => ""
  | [(key, value)] => stringText key ++ ":" ++ compact value
  | (key, value) :: rest => stringText key ++ ":" ++ compact value ++ "," ++ compactMembers rest
end

/-- A new line, indented by two spaces for each level. -/
def newLine (level : Nat) : String := "\n" ++ String.ofList (List.replicate (2 * level) ' ')

mutual
/-- The indented form of a document that stands at a given level. -/
def indentedAt (level : Nat) : Json → String
  | .array [] => "[]"
  | .object [] => openBrace ++ closeBrace
  | .array items => "[" ++ indentedItems (level + 1) items ++ newLine level ++ "]"
  | .object members =>
    openBrace ++ indentedMembers (level + 1) members ++ newLine level ++ closeBrace
  | value => compact value

/-- Documents on lines of their own. -/
def indentedItems (level : Nat) : List Json → String
  | [] => ""
  | [item] => newLine level ++ indentedAt level item
  | item :: rest => newLine level ++ indentedAt level item ++ "," ++ indentedItems level rest

/-- Members on lines of their own. -/
def indentedMembers (level : Nat) : List (String × Json) → String
  | [] => ""
  | [(key, value)] => newLine level ++ stringText key ++ ": " ++ indentedAt level value
  | (key, value) :: rest =>
    newLine level ++ stringText key ++ ": " ++ indentedAt level value ++ "," ++
      indentedMembers level rest
end

/-- The indented form of a document. -/
def indented (json : Json) : String := indentedAt 0 json

end BridgeRewards.Json
