import BridgeRewards.Text.Hex
import BridgeRewards.Text.Unprintable

/-!
# Texts quoted in messages

A message that quotes an input puts it in double quotes.  Quotes, backslashes and the common
control characters are escaped with a backslash; any other character without a visible form is
written by its code point in braces.
-/

set_option autoImplicit false

namespace BridgeRewards.Text

/-- A number in hexadecimal digits without leading zeros. -/
def hexNumber (n : Nat) : List Char := Nat.toDigits 16 n

/-- A character as it stands inside quotes. -/
def quotedChar (c : Char) : List Char :=
  if c = '"' then ['\\', '"']
  else if c = '\\' then ['\\', '\\']
  else if c = '\n' then ['\\', 'n']
  else if c = '\r' then ['\\', 'r']
  else if c = '\t' then ['\\', 't']
  else if c = Char.ofNat 0 then ['\\', '0']
  else if isUnprintable c then
    ['\\', 'u', Char.ofNat 0x7B] ++ hexNumber c.toNat ++ [Char.ofNat 0x7D]
  else [c]

/-- A text in double quotes. -/
def quoted (s : String) : String :=
  String.ofList ('"' :: s.toList.flatMap quotedChar ++ ['"'])

end BridgeRewards.Text
