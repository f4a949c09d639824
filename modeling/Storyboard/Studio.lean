import Storyboard.Folder
import Storyboard.Note
import Storyboard.Painter.ImageSheet
import Storyboard.Painter.TextSheet

/-!
# Studios

A studio makes diagrams from texts with fixed settings: it reads a text and
renders its flow, as text or as a picture, and can put the result into a
folder. Pictures are drawn in a workshop; unless another is given, it is a plain
one that has no fonts but the built-in one.

## Main definitions

* `Studio` — the settings.
* `Workshop.plain` — the workshop that is there unless another is given.
* `Studio.diagram` — the text diagram of a text.
* `Studio.picture` — the picture of a text.
* `Studio.saveText`, `Studio.savePicture` — both put into a folder.
-/

namespace Storyboard

/-- The settings of a studio: the look of text diagrams, the font of pictures, and
the room that there is for layouts. -/
structure Studio where
  sheet : TextSheet.Options := {}
  font : Option String := none
  room : Nat := Layout.usualRoom
deriving DecidableEq, Repr

/-- A diagram made, or the failure, with the notes left on the way. -/
structure Product (α : Type) where
  result : Except RenderFault α
  notes : List Note

/-- There is no sheet with a measure below zero. -/
def negativeMeasure? (width height : Int) : Option Fault :=
  if width < 0 ∨ height < 0 then some .negativeMeasure else none

/-- A workshop with nothing but the built-in font, in which texts take the room
of block metrics and everything can be saved. -/
def Workshop.plain : Workshop where
  fonts := .bare
  bounds := Font.blockBounds
  sheetFault? := negativeMeasure?
  saveFault? _ := none

/-- The workshop with saving to meet a fault, or none. -/
def Workshop.savingWith (w : Workshop) (fault? : Option Fault) : Workshop :=
  { w with saveFault? := fun _ => fault? }

namespace Studio

/-- The text diagram of a text. -/
def diagram (s : Studio) (text : String) : Product String :=
  let reading := Notation.read text
  let r := (TextSheet.painter s.sheet (some s.room)).render reading.flow {}
  { result := r.outcome.map (·.artifact)
    notes := reading.notes ++ r.notes fun _ => [] }

/-- What a picture is asked to be like. -/
structure PictureRequest where
  path : String
  fontSize : Int := 12
  scale : Int := 2
  font : Option String := none
deriving DecidableEq, Repr

/-- The font of a picture: the one asked for, or else the studio's. -/
def fontFor (s : Studio) (asked : Option String) : Option String :=
  match asked with
  | none => s.font
  | some name => if name = "" then s.font else some name

/-- The note of a picture saved. -/
def savedNote : ImageSheet.Artifact → List Note
  | .saved path => [⟨.info, .picture, "Saved screen flow to " ++ path⟩]
  | .picture _ => []

/-- The picture of a text, saved with an outcome that is known beforehand:
nothing, or the fault that it meets. -/
def picture (s : Studio) (request : PictureRequest) (saveFault? : Option Fault) (text : String)
    (shop : Workshop := .plain) : Product Picture :=
  let reading := Notation.read text
  let options : ImageSheet.Options :=
    { outputPath := some request.path
      font := s.fontFor request.font
      fontSize := request.fontSize
      scale := request.scale }
  let painter := ImageSheet.painter (shop.savingWith saveFault?) options (some s.room)
  let r := painter.render reading.flow {}
  { result := r.outcome.map fun _ => r.state.latest.getD (ImageSheet.placeholder options)
    notes := reading.notes ++ r.notes savedNote }

/-- Puts the text diagram of a text into a folder. -/
def saveText (s : Studio) (d : Folder) (text file : String) : Except Failure Unit × Folder :=
  match (s.diagram text).result with
  | .error fault => (.error (.render fault), d)
  | .ok diagram =>
    match d.write (Path.ofString file).toString (.text diagram) with
    | .error fault => (.error (.plain fault), d)
    | .ok d => (.ok (), d)

/-- Puts the picture of a text into a folder, and answers its path. -/
def savePicture (s : Studio) (d : Folder) (text : String) (request : PictureRequest) :
    Except RenderFault String × Folder :=
  match (s.picture request none text).result with
  | .error fault => (.error fault, d)
  | .ok drawn =>
    match d.write request.path (.picture drawn) with
    | .error fault => ((s.picture request (some fault) text).result.map fun _ => request.path, d)
    | .ok d => (.ok request.path, d)

end Studio

end Storyboard
