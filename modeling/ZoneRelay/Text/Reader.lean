/-!
# Readers

A reader takes characters from the front of a text and gives a value and the rest, or
fails. It never looks behind, so a reader that succeeds leaves an end of the text.
-/

namespace ZoneRelay

namespace Text

/-- A reader of a value at the front of a text. -/
abbrev Reader (α : Type) := List Char → Option (α × List Char)

/-- The given character. -/
def character (c : Char) : Reader Unit
  | x :: rest => if x = c then some ((), rest) else none
  | [] => none

/-- What follows the given word. -/
def word? (word : String) (text : List Char) : Option (List Char) :=
  if word.toList.isPrefixOf text then some (text.drop word.length) else none

end Text

end ZoneRelay
