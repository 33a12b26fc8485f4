/-!
# Blank characters and trimming

The blank characters are those with the Unicode property White_Space.  Trimming removes them
from both ends of a text and nowhere else.
-/

set_option autoImplicit false

namespace BridgeRewards.Text

/-- Whether a character has the Unicode property White_Space. -/
def isBlank (c : Char) : Bool :=
  let n := c.toNat
  (9 ≤ n && n ≤ 13) || n == 0x20 || n == 0x85 || n == 0xA0 || n == 0x1680 ||
    (0x2000 ≤ n && n ≤ 0x200A) || n == 0x2028 || n == 0x2029 || n == 0x202F ||
    n == 0x205F || n == 0x3000

/-- The characters after the leading blanks. -/
def trimStart (cs : List Char) : List Char := cs.dropWhile isBlank

/-- The characters before the trailing blanks. -/
def trimEnd (cs : List Char) : List Char := (cs.reverse.dropWhile isBlank).reverse

/-- The characters between the leading and the trailing blanks. -/
def trimChars (cs : List Char) : List Char := trimEnd (trimStart cs)

/-- A text without its leading and trailing blanks. -/
def trim (s : String) : String := String.ofList (trimChars s.toList)

/-- ASCII letters in lower case, every other character as it is. -/
def lowerAscii (s : String) : String := String.ofList (s.toList.map Char.toLower)

/-- ASCII letters in upper case, every other character as it is. -/
def upperAscii (s : String) : String := String.ofList (s.toList.map Char.toUpper)

end BridgeRewards.Text
