import Storyboard.Text.Blank

/-!
# Wrapping text

Text is wrapped greedily: its words fill a line as long as they fit, and a
word longer than a whole line is first cut into pieces of the line's width.
The spacing of the text is not kept; a text without words wraps to one empty
line.

## Main definitions

* `pieces` — the words of a text, overlong ones cut.
* `fillLines` — pieces set into lines.
* `wrap` — both together, for any width; a width below one counts as one.
-/

namespace Storyboard.Text

/-- A word cut every `width` characters; the last piece takes what is left. -/
def chop (width : Nat) (word : List Char) : List (List Char) :=
  (List.range ((word.length + width - 1) / width)).map fun k =>
    (word.drop (k * width)).take width

/-- The words of a text in order, those longer than `width` cut. -/
def pieces (width : Nat) (cs : List Char) : List (List Char) :=
  (words cs).flatMap (chop width)

/-- Sets pieces into lines of at most `width` characters. The piece goes on
the line begun if it fits there after a space, and begins the next line if
it does not. -/
def fillLines (width : Nat) : (line : List Char) → List (List Char) → List (List Char)
  | line, [] => [line]
  | line, p :: rest =>
    if line.length + 1 + p.length ≤ width then fillLines width (line ++ ' ' :: p) rest
    else line :: fillLines width p rest

/-- Pieces set into lines; no piece at all gives one empty line. -/
def setLines (width : Nat) : List (List Char) → List (List Char)
  | [] => [[]]
  | p :: rest => fillLines width p rest

/-- The width in force: at least one. -/
def lineWidth (width : Int) : Nat :=
  (max 1 width).toNat

/-- The lines of a text wrapped at `width` characters. -/
def wrap (text : String) (width : Int) : List String :=
  let w := lineWidth width
  (setLines w (pieces w text.toList)).map String.ofList

end Storyboard.Text
