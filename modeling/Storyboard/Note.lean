import Storyboard.Flow.Review
import Storyboard.Notation.Reading
import Storyboard.Painter

/-!
# Notes

Reading, reviewing and rendering leave notes about what they did. Notes below
the level of an error are shown on request only.

## Main definitions

* `Note`, `Note.line` — a note, and the line that shows it.
* `Notation.Reading.notes`, `Review.notes`, `Rendering.notes` — the notes left.
-/

namespace Storyboard

/-- How much a note matters. -/
inductive Level where
  | debug
  | info
  | error
deriving DecidableEq, Repr

/-- The word that stands for a level. -/
def Level.word : Level → String
  | .debug => "DEBUG"
  | .info => "INFO"
  | .error => "ERROR"

/-- The part of the work that a note comes from. -/
inductive Origin where
  | reading
  | review
  | rendering
  | picture
  | command
deriving DecidableEq, Repr

/-- The name under which a part of the work leaves its notes. -/
def Origin.word : Origin → String
  | .reading => "screenflow.parser"
  | .review => "screenflow.validation"
  | .rendering => "screenflow.builder"
  | .picture => "screenflow.png_builder"
  | .command => "screenflow.cli"

/-- A note about what was done. -/
structure Note where
  level : Level
  origin : Origin
  text : String
deriving DecidableEq, Repr

/-- The line that shows a note. -/
def Note.line (n : Note) : String :=
  n.level.word ++ " " ++ n.origin.word ++ ": " ++ n.text ++ "\n"

/-- Whether a note is shown: errors always, the rest on request. -/
def Note.isShown (verbose : Bool) (n : Note) : Bool :=
  verbose || n.level = .error

/-- The lines of the notes that are shown. -/
def Note.log (verbose : Bool) (notes : List Note) : String :=
  String.join ((notes.filter (Note.isShown verbose)).map Note.line)

/-- The notes of a reading: one for each line skipped, and the counts. -/
def Notation.Reading.notes (r : Notation.Reading) : List Note :=
  (r.skipped.map fun s => ⟨.debug, .reading,
      "Line " ++ toString s.number ++ " skipped (" ++ s.reason.text ++ "): " ++ s.text⟩) ++
    [⟨.debug, .reading, "Parsed " ++ toString r.flow.size ++ " screen(s), skipped " ++
      toString r.skipped.length ++ " line(s)"⟩]

/-- The notes of a review: its findings. -/
def Review.notes (r : Review) (f : Flow) : List Note :=
  (r.messages f).map fun m => ⟨.info, .review, m⟩

/-- The note of a transition that was skipped. -/
def Tally.skipNote (e : String × Transition) : Note :=
  ⟨.debug, .rendering,
    "Skipping connector " ++ e.1 ++ " -> " ++ e.2.target ++ ": undefined screen"⟩

/-- The note of a rendering that was finished. -/
def Tally.doneNote (t : Tally) : Note :=
  ⟨.debug, .rendering, "Rendered " ++ toString t.placed ++ " screen(s), " ++
    toString t.connected ++ " connector(s), skipped " ++ toString t.skipped.length⟩

/-- The notes of a rendering: the transitions skipped, and if it was finished
what the painter notes about the diagram, and the counts. -/
def Rendering.notes {σ α : Type} (r : Rendering σ α) (ofArtifact : α → List Note) : List Note :=
  r.tally.skipped.map Tally.skipNote ++
    match r.outcome with
    | .ok s => ofArtifact s.artifact ++ [s.toTally.doneNote]
    | .error _ => []

end Storyboard
