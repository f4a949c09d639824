import Storyboard.Layout
import Storyboard.Painter
import Storyboard.Picture.Drawing
import Storyboard.Picture.Font
import Storyboard.Picture.Route
import Storyboard.Screen.Card

/-!
# Picture diagrams

Cards are drawn as boxes with hatched shadows, in centred rows of one layer
each, and connectors as straight arrows with captions.

The painter works in a workshop, which supplies fonts and the room that texts
take, and gives or refuses a sheet, the marks on it and a place for the
finished picture. Handles are the numbers of the cards in order of placing. All
measures of the options are multiplied by the scale.

## Main definitions

* `ImageSheet` — what has been placed and connected so far.
* `ImageSheet.cardSize`, `ImageSheet.frameRows` — the sizes and places of
  cards.
* `ImageSheet.shadowMarks`, `ImageSheet.boxMarks`, `ImageSheet.drawConnector`
  — what is drawn.
* `ImageSheet.painter` — the painter.
-/

namespace Storyboard

/-- What a picture painter works with. -/
structure Workshop where
  fonts : FontShelf
  /-- The room that a text takes at the origin. -/
  bounds : Font → String → Bounds
  /-- Why there is no sheet of a width and a height, if there is none. -/
  sheetFault? : Int → Int → Option Fault := fun _ _ => none
  /-- Why a mark cannot be made, if it cannot. -/
  markFault? : Mark → Option Fault := fun _ => none
  /-- Why a picture cannot be saved to a path, if it cannot. -/
  saveFault? : String → Option Fault

/-- What a picture diagram is drawn from. The frames of the cards are kept in
the order in which they were first given, and stay until the next start. -/
structure ImageSheet where
  layout : Layout := {}
  cards : List (List String) := []
  connectors : List Connector := []
  frames : List (Nat × Frame) := []
  font : Option Font := none
  /-- The picture drawn last since the start. -/
  latest : Option Picture := none

namespace ImageSheet

/-- What the look of a picture diagram depends on, and where it is saved. -/
structure Options where
  outputPath : Option String := none
  font : Option String := none
  fontSize : Int := 12
  scale : Int := 2
  boxPadding : Int := 12
  boxMinWidth : Int := 140
  horizontalSpacing : Int := 80
  verticalSpacing : Int := 70
  shadowOffset : Int := 5
  margin : Int := 40
deriving DecidableEq, Repr

/-- A finished diagram: the picture, or the path that it was saved to. -/
inductive Artifact where
  | picture (picture : Picture)
  | saved (path : String)

/-- A font at hand with the room that texts take in it. -/
structure Pen where
  font : Font
  bounds : String → Bounds

/-! ## Colours -/

/-- The colour of the sheet, and behind captions. -/
def white : Color := ⟨255, 255, 255⟩

/-- The colour of cards. -/
def cream : Color := ⟨255, 250, 205⟩

/-- The colour of frames, connectors and the text of cards. -/
def black : Color := ⟨0, 0, 0⟩

/-- The colour of shadows. -/
def grey : Color := ⟨160, 160, 160⟩

/-- The colour of captions. -/
def charcoal : Color := ⟨60, 60, 60⟩

/-! ## Sizes and places -/

/-- The height of a line of text. -/
def Pen.lineHeight (pen : Pen) : Int := (pen.bounds "Mg").height

/-- The room between the lines of a card. -/
def Options.lineSpacing (o : Options) : Int := 4 * o.scale

/-- The width of strokes. -/
def Options.strokeWidth (o : Options) : Int := max 1 o.scale

/-- The width that the widest of some lines takes; an empty line takes that
of a space. -/
def textWidth (pen : Pen) (lines : List String) : Int :=
  (lines.map fun l => (pen.bounds (if l = "" then " " else l)).width).foldl max 0

/-- The height that lines take, with the room between them. -/
def textHeight (o : Options) (pen : Pen) (lines : List String) : Int :=
  match lines with
  | [] => 0
  | _ :: rest => pen.lineHeight + rest.length * (pen.lineHeight + o.lineSpacing)

/-- Width and height of a card with some lines. -/
def cardSize (o : Options) (pen : Pen) (lines : List String) : Int × Int :=
  let padding := o.boxPadding * 2 * o.scale
  (max (o.boxMinWidth * o.scale) (textWidth pen lines + padding),
    textHeight o pen lines + padding)

/-- The size of the card with a number. -/
def sizeAt (sizes : List (Int × Int)) (i : Nat) : Int × Int :=
  (sizes[i]?).getD (0, 0)

/-- The width of a row of cards with the gaps between them. -/
def rowWidth (o : Options) (sizes : List (Int × Int)) (row : List Nat) : Int :=
  (row.map fun i => (sizeAt sizes i).1).foldl (· + ·) 0 +
    o.horizontalSpacing * o.scale * (row.length - 1)

/-- The height of a row of cards: that of its tallest. -/
def rowHeight (sizes : List (Int × Int)) (row : List Nat) : Int :=
  Sequence.greatest (row.map fun i => (sizeAt sizes i).2)

/-- The frames of one row of cards from `x` on. -/
def frameRow (o : Options) (sizes : List (Int × Int)) (x y : Int) : List Nat → List (Nat × Frame)
  | [] => []
  | i :: rest =>
    let (w, h) := sizeAt sizes i
    (i, ⟨x, y, w, h⟩) :: frameRow o sizes (x + w + o.horizontalSpacing * o.scale) y rest

/-- The frames of rows of cards from `y` on, each row centred in a width. -/
def frameRows (o : Options) (sizes : List (Int × Int)) (width y : Int) :
    List (List Nat) → List (Nat × Frame)
  | [] => []
  | row :: rest =>
    frameRow o sizes (o.margin * o.scale + (width - rowWidth o sizes row) / 2) y row ++
      frameRows o sizes width (y + rowHeight sizes row + o.verticalSpacing * o.scale) rest

/-- The width of the widest row. -/
def widest (o : Options) (sizes : List (Int × Int)) (rows : List (List Nat)) : Int :=
  Sequence.greatest (rows.map (rowWidth o sizes))

/-- The size of the picture that holds rows of cards, with a margin all
around. -/
def pictureSize (o : Options) (sizes : List (Int × Int)) (rows : List (List Nat)) : Int × Int :=
  let margin := o.margin * o.scale
  let gap := o.verticalSpacing * o.scale
  let bottom := rows.foldl (fun y row => y + rowHeight sizes row + gap) margin
  (widest o sizes rows + 2 * margin, bottom - gap + margin)

/-- The frames of all cards, row by row. -/
def framesFor (o : Options) (sizes : List (Int × Int)) (rows : List (List Nat)) :
    List (Nat × Frame) :=
  frameRows o sizes (widest o sizes rows) (o.margin * o.scale) rows

/-- Gives a card a frame; a card that had one keeps its place in the order. -/
def setFrame (frames : List (Nat × Frame)) (entry : Nat × Frame) : List (Nat × Frame) :=
  Sequence.put entry.1 entry.2 frames

/-- The rows that the cards are drawn in. -/
def rows (sheet : ImageSheet) : List (List Nat) :=
  sheet.layout.rows sheet.cards.length

/-! ## Marks -/

/-- The places from `first` up to `first + length`, `step` apart. -/
def ticks (first length step : Int) : List Int :=
  (List.range ((length + step - 1) / step).toNat).map fun (k : Nat) => first + k * step

/-- A chequered region: every other square of a side is filled, beginning with
the one in the top left corner. -/
def chequer (side x y width height : Int) : List Mark :=
  (ticks y height side).zipIdx.flatMap fun (py, row) =>
    (ticks x width side).zipIdx.filterMap fun (px, col) =>
      if (row + col) % 2 = 0 then
        some (.rectangle ⟨px, py⟩ ⟨px + side - 1, py + side - 1⟩ grey none 1)
      else none

/-- The shadow of a box, chequered, to its right and below it. -/
def shadowMarks (o : Options) (f : Frame) : List Mark :=
  let s := o.shadowOffset * o.scale
  let side := max 2 o.scale
  chequer side (f.x + f.width) (f.y + s) s f.height ++
    chequer side (f.x + s) (f.y + f.height) (f.width - s) s

/-- The marks of the lines of a card from `y` on: a rule for a separator, and
nothing for an empty line. -/
def lineMarks (o : Options) (pen : Pen) (f : Frame) (y : Int) : List String → List Mark
  | [] => []
  | l :: rest =>
    let rule := y + pen.lineHeight / 2
    let mark : List Mark :=
      if l = separator then
        [.line [⟨f.x, rule⟩, ⟨f.x + f.width, rule⟩] black o.strokeWidth]
      else if l = "" then []
      else [.text ⟨f.x + o.boxPadding * o.scale, y⟩ l black pen.font.size]
    mark ++ lineMarks o pen f (y + (pen.lineHeight + o.lineSpacing)) rest

/-- The marks of a card in its frame. -/
def boxMarks (o : Options) (pen : Pen) (f : Frame) (lines : List String) : List Mark :=
  .rectangle ⟨f.x, f.y⟩ ⟨f.x + f.width, f.y + f.height⟩ cream (some black) o.strokeWidth ::
    lineMarks o pen f (f.y + o.boxPadding * o.scale) lines

/-- The marks of a caption centred at a place. -/
def labelMarks (o : Options) (pen : Pen) (centre : Point) (label : String) : List Mark :=
  let bounds := pen.bounds label
  let pad := 2 * o.scale
  let left := centre.x - bounds.width / 2
  let top := centre.y - bounds.height / 2
  [ .rectangle ⟨left - pad, top - pad⟩ ⟨left + bounds.width + pad, top + bounds.height + pad⟩
      white none 1,
    .text ⟨left, top - bounds.top⟩ label charcoal pen.font.size ]

/-- The mark of an arrow's head. -/
def arrowheadMark (o : Options) (before tip : Point) : Except Fault Mark :=
  (arrowhead before tip (8 * o.scale)).map fun corners => .polygon corners black

/-- The frame of the card with a handle. -/
def frameOf (frames : List (Nat × Frame)) (handle : Int) : Except Fault Frame :=
  match frames.find? fun e => (e.1 : Int) = handle with
  | some e => .ok e.2
  | none => .error (.unplacedCard handle)

/-- The way of a connector between the frames of its cards. -/
def routeOf (o : Options) (frames : List (Nat × Frame)) (c : Connector) : Except Fault Route := do
  let source ← frameOf frames c.source
  if c.source = c.target then pure (.loop source o.scale)
  else
    let target ← frameOf frames c.target
    Route.straight source target

/-- The drawing of a connector: its line, the head of its arrow and its
caption. -/
def drawConnector (o : Options) (pen : Pen) (frames : List (Nat × Frame)) (c : Connector) :
    Drawing :=
  match routeOf o frames c with
  | .error fault => .stopped [] fault
  | .ok r =>
    let line : Mark := .line r.points black o.strokeWidth
    match arrowheadMark o r.beforeTip r.tip with
    | .error fault => .stopped [line] fault
    | .ok head =>
      .ofMarks (line :: head ::
        if c.label = "" then [] else labelMarks o pen r.labelPlace c.label)

/-- The drawing of some connectors, one after the other. -/
def drawConnectors (o : Options) (pen : Pen) (frames : List (Nat × Frame)) :
    List Connector → Drawing
  | [] => .ofMarks []
  | c :: rest => (drawConnector o pen frames c).followedBy (drawConnectors o pen frames rest)

/-! ## The picture -/

/-- The empty sheet that stands for a diagram without cards. -/
def placeholder (o : Options) : Picture where
  width := 200 * o.scale
  height := 100 * o.scale
  background := white

/-- The marks of the cards: all shadows, then all boxes. -/
def cardMarks (o : Options) (pen : Pen) (sheet : ImageSheet) : List Mark :=
  sheet.frames.flatMap (fun e => shadowMarks o e.2) ++
    sheet.frames.flatMap fun e => boxMarks o pen e.2 ((sheet.cards[e.1]?).getD [])

/-- The pen for a sheet; without a font nothing has been placed, and nothing
is written. -/
def pen (sheet : ImageSheet) (w : Workshop) : Pen :=
  let font := sheet.font.getD ⟨none, 0⟩
  ⟨font, w.bounds font⟩

/-- Makes a drawing on a sheet of a width and a height, if there is one. What
was drawn is kept as the latest picture, also if the drawing was stopped. -/
def drawOn (w : Workshop) (width height : Int) (drawing : Drawing) (sheet : ImageSheet) :
    Except Fault Picture × ImageSheet :=
  match w.sheetFault? width height with
  | some fault => (.error fault, sheet)
  | none =>
    let made := drawing.onto w.markFault?
    let picture : Picture :=
      { width := width
        height := height
        background := white
        marks := made.marks }
    (made.result.map fun _ => picture, { sheet with latest := some picture })

/-- Gives every card its frame and draws the picture. -/
def drawPicture (w : Workshop) (o : Options) (sheet : ImageSheet) :
    Except Fault Picture × ImageSheet :=
  if sheet.cards = [] then
    drawOn w (placeholder o).width (placeholder o).height (.ofMarks []) sheet
  else
    let pen := sheet.pen w
    let sizes := sheet.cards.map (cardSize o pen)
    let (width, height) := pictureSize o sizes sheet.rows
    let framed := { sheet with
      frames := (framesFor o sizes sheet.rows).foldl setFrame sheet.frames }
    drawOn w width height
      ((Drawing.ofMarks (cardMarks o pen framed)).followedBy
        (drawConnectors o pen framed.frames sheet.connectors))
      framed

/-! ## The painter -/

/-- Loads the font of a diagram. -/
def loadFont (w : Workshop) (o : Options) : Except RenderFault Font :=
  w.fonts.load (o.fontSize * o.scale) o.font

/-- Starting clears the sheet, loads the font and lays out the flow. -/
def start (w : Workshop) (o : Options) (room : Option Nat) (f : Flow) : Act ImageSheet Unit :=
  ExceptT.mk fun sheet =>
    match loadFont w o with
    | .error fault => (.error (.render fault), { font := sheet.font })
    | .ok font =>
      match f.layoutWithin Layout.usualPasses room with
      | .error fault => (.error (.plain fault), { font := some font })
      | .ok layout => (.ok (), { layout := layout, font := some font })

/-- The font of a sheet, loaded if there is none yet. -/
def fontFor (w : Workshop) (o : Options) (sheet : ImageSheet) : Except RenderFault Font :=
  match sheet.font with
  | some font => .ok font
  | none => loadFont w o

/-- Placing makes sure of the font, and takes down the card. -/
def place (w : Workshop) (o : Options) (s : Screen) : Act ImageSheet Int :=
  ExceptT.mk fun sheet =>
    match fontFor w o sheet with
    | .error fault => (.error (.render fault), sheet)
    | .ok font =>
      let ready := { sheet with font := some font }
      match s.card with
      | .error fault => (.error (.plain fault), ready)
      | .ok card => (.ok sheet.cards.length, { ready with cards := ready.cards ++ [card] })

/-- Finishing draws the picture, and saves it if a path is given. -/
def finish (w : Workshop) (o : Options) : Act ImageSheet Artifact :=
  ExceptT.mk fun sheet =>
    match drawPicture w o sheet with
    | (.error fault, drawn) => (.error (.plain fault), drawn)
    | (.ok picture, drawn) =>
      match o.outputPath with
      | none => (.ok (.picture picture), drawn)
      | some path =>
        match w.saveFault? path with
        | some fault => (.error (.plain fault), drawn)
        | none =>
          (.ok (.saved path), { drawn with latest := some { picture with savedAs := some path } })

/-- The painter of picture diagrams, which has unlimited room for layouts unless
another is given. -/
def painter (w : Workshop) (o : Options) (room : Option Nat := none) :
    Painter ImageSheet Int Artifact where
  start := start w o room
  place := place w o
  connect source target label := ExceptT.mk fun sheet =>
    (.ok (), { sheet with connectors := sheet.connectors ++ [⟨source, target, label⟩] })
  finish := finish w o

end ImageSheet

end Storyboard
