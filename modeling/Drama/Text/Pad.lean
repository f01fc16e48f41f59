-- SUMMARY: Text made at least a given number of characters long by spaces.

namespace Drama.Text

/-- Spaces after the text. -/
def padRight (width : Nat) (text : List Char) : List Char :=
  text ++ List.replicate (width - text.length) ' '

/-- Spaces before the text. -/
def padLeft (width : Nat) (text : List Char) : List Char :=
  List.replicate (width - text.length) ' ' ++ text

end Drama.Text
