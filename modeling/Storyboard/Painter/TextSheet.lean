import Storyboard.Canvas.Box
import Storyboard.Layout
import Storyboard.Painter
import Storyboard.Screen.Card

/-!
# Text diagrams

Cards are drawn on a canvas, one row of cards per layer, and the connectors
are listed underneath, since lines between cards of several lines would cut
through their text.

The painter's handles are the numbers of the cards in order of placing.
Handles can be given by hand; one below zero counts from the last card.

## Main definitions

* `TextSheet` — what has been placed and connected so far.
* `TextSheet.spots` — where the cards go.
* `TextSheet.diagram` — the diagram.
* `TextSheet.painter` — the painter.
-/

namespace Storyboard

/-- What a text diagram is drawn from: the layout of the flow started on, and
the names, boxes and connectors that came after. -/
structure TextSheet where
  layout : Layout := {}
  names : List String := []
  boxes : List Box := []
  connectors : List Connector := []
deriving DecidableEq, Repr

namespace TextSheet

/-- What the look of a text diagram depends on. -/
structure Options where
  /-- The width at which the text of a card is wrapped. -/
  textWidth : Int := 36
  /-- The columns between cards of one row. -/
  horizontalSpacing : Int := 4
  /-- The lines between rows. -/
  verticalSpacing : Int := 2
  shadow : Bool := true
deriving DecidableEq, Repr

namespace Options

/-- The style of the cards. -/
def boxStyle (o : Options) : Box.Style where
  textWidth := o.textWidth
  shadow := o.shadow

/-- The columns and lines that a card's shadow adds to it. -/
def shadowSize (o : Options) : Int := if o.shadow then 1 else 0

end Options

/-- A card with the place of its top left corner. -/
structure Spot where
  index : Nat
  x : Int
  y : Int
  box : Box
deriving DecidableEq, Repr

/-! ## Places -/

/-- Places the cards of one row from column `x` on. -/
def placeRow (o : Options) (boxes : List Box) (x y : Int) : List Nat → Except Fault (List Spot)
  | [] => .ok []
  | i :: rest =>
    match boxes[i]? with
    | none => .error .cardOutOfRange
    | some box =>
      (placeRow o boxes (x + box.width + o.shadowSize + o.horizontalSpacing) y rest).map
        (⟨i, x, y, box⟩ :: ·)

/-- The lines that a row of cards takes. -/
def rowHeight (o : Options) (row : List Spot) : Int :=
  (row.map fun s => s.box.height + o.shadowSize).foldl max 0

/-- Places rows of cards from line `y` on. -/
def placeRows (o : Options) (boxes : List Box) (y : Int) :
    List (List Nat) → Except Fault (List Spot)
  | [] => .ok []
  | row :: rest =>
    match placeRow o boxes 0 y row with
    | .error fault => .error fault
    | .ok spots =>
      (placeRows o boxes (y + rowHeight o spots + o.verticalSpacing) rest).map (spots ++ ·)

/-- The places of all cards, row by row. -/
def spots (o : Options) (sheet : TextSheet) : Except Fault (List Spot) :=
  placeRows o sheet.boxes 0 (sheet.layout.rows sheet.names.length)

/-! ## The diagram -/

/-- The canvas that the cards are drawn on, one column and one line larger
than they need. -/
def canvasFor (o : Options) (spots : List Spot) : Canvas :=
  Canvas.blank (Sequence.greatest (spots.map fun s => s.x + s.box.width + o.shadowSize) + 1)
    (Sequence.greatest (spots.map fun s => s.y + s.box.height + o.shadowSize) + 1) " "

/-- The cards drawn in order on a canvas. -/
def drawSpots (o : Options) (canvas : Canvas) (spots : List Spot) : Canvas :=
  spots.foldl (fun c s => c.drawBox s.x s.y s.box o.shadow) canvas

/-- The block of cards. -/
def cardBlock (o : Options) (sheet : TextSheet) : Except Fault String :=
  (spots o sheet).map fun placed => (drawSpots o (canvasFor o placed) placed).render

/-- The name of the card with a handle. -/
def nameOf (sheet : TextSheet) (handle : Int) : Except Fault String :=
  match Sequence.at? sheet.names handle with
  | some name => .ok name
  | none => .error (Fault.ofPosition handle .cardOutOfRange)

/-- The arrow of a connector, around its label if it has one. -/
def arrowText (label : String) : String :=
  if label = "" then "──►" else "──" ++ label ++ "──►"

/-- The line of a connector. -/
def connectorLine (sheet : TextSheet) (c : Connector) : Except Fault String := do
  let source ← sheet.nameOf c.source
  let target ← sheet.nameOf c.target
  pure ("  [" ++ source ++ "] " ++ arrowText c.label ++ " [" ++ target ++ "]")

/-- The list of connectors under its heading. -/
def listing (sheet : TextSheet) : Except Fault String :=
  (sheet.connectors.mapM sheet.connectorLine).map fun ls =>
    String.intercalate "\n" ("Transitions:" :: ls)

/-- The diagram: the cards if there are any, and the connectors if there are
any, with a blank line between. -/
def diagram (o : Options) (sheet : TextSheet) : Except Fault String := do
  let cards ← if sheet.names = [] then pure [] else (cardBlock o sheet).map ([·])
  let connectors ← if sheet.connectors = [] then pure [] else sheet.listing.map ([·])
  pure (String.intercalate "\n\n" (cards ++ connectors))

/-! ## The painter -/

/-- Starting clears the sheet and lays out the flow. -/
def start (room : Option Nat) (f : Flow) : Act TextSheet Unit :=
  ExceptT.mk fun _ =>
    match f.layoutWithin Layout.usualPasses room with
    | .error fault => (.error (.plain fault), {})
    | .ok layout => (.ok (), { layout := layout })

/-- Places a screen: its name is taken down, and then its box is measured
from its card. -/
def place (o : Options) (s : Screen) : Act TextSheet Int :=
  ExceptT.mk fun sheet =>
    let named := { sheet with names := sheet.names ++ [s.name] }
    match s.card with
    | .error fault => (.error (.plain fault), named)
    | .ok card =>
      (.ok sheet.names.length,
        { named with boxes := named.boxes ++ [Box.measure o.boxStyle card] })

/-- The painter of text diagrams, which has unlimited room for layouts unless
another is given. -/
def painter (o : Options) (room : Option Nat := none) : Painter TextSheet Int String where
  start := start room
  place := place o
  connect source target label := ExceptT.mk fun sheet =>
    (.ok (), { sheet with connectors := sheet.connectors ++ [⟨source, target, label⟩] })
  finish := ExceptT.mk fun sheet => ((diagram o sheet).mapError .plain, sheet)

end TextSheet

end Storyboard
