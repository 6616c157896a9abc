import PodMachines.Text.Blank
import PodMachines.Text.Split

/-!
# Lines

The lines of a text: each ends with a line feed, with a carriage return and a line feed, or with the text.
What follows the last line feed is a line only if it is not empty, and a carriage return at its end stays.
-/

namespace PodMachines.Text

/-- Without one carriage return at the end. -/
def chopReturn (line : List Char) : List Char :=
  if line.getLast? = some '\r' then line.dropLast else line

/-- Lines from the parts between line feeds. -/
def linesOfParts : List (List Char) → List (List Char)
  | [] => []
  | [last] => if last = [] then [] else [last]
  | line :: more => chopReturn line :: linesOfParts more

/-- The lines of a text. -/
def linesOf (s : List Char) : List (List Char) :=
  linesOfParts (splitOn '\n' s)

/-- What follows `key` on the first line that, white space at its ends aside, starts with it. -/
def firstKeyed (key : List Char) (s : List Char) : Option (List Char) :=
  (linesOf s).findSome? fun line => stripStart key (trimChars line)

end PodMachines.Text
