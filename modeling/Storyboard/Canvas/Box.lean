import Storyboard.Canvas
import Storyboard.Text.Wrap

/-!
# Boxes

A box shows lines of text in a frame:

    ┌──────────────┐
    │ [Login]      │░
    │              │░
    │ TEXT: Hello  │░
    ├──────────────┤░
    │ ACTION: Next │░
    └──────────────┘░
     ░░░░░░░░░░░░░░░░

Content lines are wrapped to a width and become the rows of the box. A
content line made of the separator alone is kept whole and drawn as a rule
across the box; this is decided before wrapping, so a piece of a longer line
is never taken for a rule. Lines of blanks are kept as they are.

## Main definitions

* `Box.Style` — what the look of a box depends on.
* `Box.measure` — the box of some content lines.
* `Canvas.drawBox` — a box drawn on a canvas.
-/

namespace Storyboard

namespace Box

/-- What the look of a box depends on. -/
structure Style where
  /-- The width at which text is wrapped. -/
  textWidth : Int := 36
  /-- The columns between the frame and the text, on either side. -/
  padding : Int := 1
  shadow : Bool := true
  /-- What a content line is made of that is drawn as a rule. -/
  ruleMark : String := "-"
deriving DecidableEq, Repr

/-- A row of a box: a rule, or a line of text. -/
structure Row where
  text : String
  isRule : Bool
deriving DecidableEq, Repr

end Box

/-- A box measured: its outer width and height and its rows. -/
structure Box where
  width : Int
  height : Int
  rows : List Box.Row
  padding : Int
deriving DecidableEq, Repr

namespace Box

/-! ## Measuring -/

/-- Whether a content line is drawn as a rule: it has characters, and each of
them is the separator. -/
def Style.isRule (style : Style) (line : String) : Bool :=
  line ≠ "" && line.toList.all fun c => String.singleton c = style.ruleMark

/-- The rows of one content line. -/
def Style.rowsOf (style : Style) (line : String) : List Row :=
  if style.isRule line then [⟨line, true⟩]
  else if Text.strip line = "" then [⟨line, false⟩]
  else (Text.wrap line style.textWidth).map fun l => ⟨l, false⟩

/-- The rows of all content lines; no content gives one empty row. -/
def Style.rows (style : Style) (content : List String) : List Row :=
  match content.flatMap style.rowsOf with
  | [] => [⟨"", false⟩]
  | rows => rows

/-- The columns that the text of some rows takes, rules apart; at least
one. -/
def textColumns (rows : List Row) : Nat :=
  ((rows.filter (!·.isRule)).map (·.text.length)).foldl max 1

/-- The box of some content lines. -/
def measure (style : Style) (content : List String) : Box :=
  let rows := style.rows content
  { width := textColumns rows + 2 * style.padding + 2
    height := rows.length + 2
    rows := rows
    padding := style.padding }

/-- The numbers of the rows drawn as rules. -/
def ruleRows (b : Box) : List Nat :=
  b.rows.zipIdx.filterMap fun (r, i) => if r.isRule then some i else none

end Box

namespace Canvas

/-! ## Drawing -/

/-- Draws one line across a box of width `w`: `left` and `right` at its ends
and horizontal strokes between. -/
def drawEdge (c : Canvas) (x y w : Int) (left right : String) : Canvas :=
  ((c.set x y left).drawRow (x + 1) y "─" (w - 2).toNat).set (x + w - 1) y right

/-- Draws the rows of a box of width `w` from line `y` on, with the shadow
beside each. -/
def drawRows (c : Canvas) (x y w padding : Int) (shadow : Bool) : List Box.Row → Canvas
  | [] => c
  | row :: rest =>
    let drawn :=
      if row.isRule then c.drawEdge x y w "├" "┤"
      else ((c.set x y "│").set (x + w - 1) y "│").drawText (x + 1 + padding) y row.text.toList
    let shaded := if shadow then drawn.set (x + w) y "░" else drawn
    shaded.drawRows x (y + 1) w padding shadow rest

/-- Draws a box with its top left corner at column `x` of line `y`. The shadow
lies to the right of it and below, one cell aside. -/
def drawBox (c : Canvas) (x y : Int) (b : Box) (shadow : Bool) : Canvas :=
  let top := c.drawEdge x y b.width "┌" "┐"
  let body := top.drawRows x (y + 1) b.width b.padding shadow b.rows
  let framed := body.drawEdge x (y + b.height - 1) b.width "└" "┘"
  if shadow then
    (framed.set (x + b.width) (y + b.height - 1) "░").drawRow (x + 1) (y + b.height) "░"
      b.width.toNat
  else framed

end Canvas

end Storyboard
