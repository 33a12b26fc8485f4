/-!
# Tables of text

Lines with columns of a fixed width, filled up with blanks at the right; a longer text keeps its
length.
-/

set_option autoImplicit false

namespace BridgeRewards.Text

/-- A text with blanks after it, up to a width in characters. -/
def column (width : Nat) (s : String) : String :=
  s ++ String.ofList (List.replicate (width - s.length) ' ')

/-- A name and a value, in one line. -/
def row (name value : String) : String := column 20 name ++ " " ++ value

/-- A heading with a line of equals signs under it. -/
def heading (title : String) : List String :=
  [title, String.ofList (List.replicate title.length '=')]

/-- The line under the header of a table. -/
def rule : String := String.ofList (List.replicate 72 '-')

/-- Lines, each of them ended. -/
def lines (ls : List String) : String := String.join (ls.map (· ++ "\n"))

end BridgeRewards.Text
