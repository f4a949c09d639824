import Storyboard.Command.Arguments
import Storyboard.Command.Help
import Storyboard.Studio

/-!
# The command

The command reads a text from a file or from its standard input, reviews it
if asked to, and writes its diagram to its standard output or to a file.

What it does to the outside is told as a `Program`: it asks for an input, or
to write a file, and goes on by what it hears. So the command is a function of
its arguments and of the workshop that its pictures are drawn in, and whoever
runs it answers its requests.

## Main definitions

* `Outcome`, `Program` — how the command ends, and how it gets there.
* `Program.runIn` — a program run in a folder.
* `program` — the command.
-/

namespace Storyboard.Command

/-! ## Programs -/

/-- How the command ends: with a status, or by a fault that it does not
handle. -/
structure Outcome where
  status : Except Fault Nat
  out : String := ""
  err : String := ""

/-- The command as it goes along. -/
inductive Program where
  | done (outcome : Outcome)
  | readInput (next : String → Program)
  | readFile (path : String) (next : Except Fault (List UInt8) → Program)
  | writeFile (path : String) (content : Content) (next : Option Fault → Program)

/-- A program run in a folder, with a text as its standard input. -/
def Program.runIn (stdin : String) : Program → Folder → Outcome × Folder
  | .done outcome, d => (outcome, d)
  | .readInput next, d => (next stdin).runIn stdin d
  | .readFile path next, d => (next ((d.read path).map Content.toBytes)).runIn stdin d
  | .writeFile path content next, d =>
    match d.write path content with
    | .ok written => (next none).runIn stdin written
    | .error fault => (next (some fault)).runIn stdin d

/-! ## The diagram -/

/-- The format of the diagram: the one asked for, or else the one that the
suffix of the output tells, or else text. An empty value has no suffix to
tell. -/
def Settings.diagramFormat (s : Settings) : Except Fault Format :=
  match s.format, s.output with
  | some format, _ => .ok format
  | none, .file path => .ok (if path.hasSuffix ".png" then .png else .txt)
  | none, .unnamed => .ok .txt
  | none, .emptied => .error (.lacksMember "list" "suffix")

/-- The studio that the settings describe. -/
def Settings.studio (s : Settings) : Studio where
  sheet := { shadow := !s.noShadow }
  font := s.font

/-- The picture's path if none is given. -/
def defaultPicture : Path := Path.ofString "screenflow.png"

/-- The end of the command by a failure, which is noted. -/
def failure (s : Settings) (err : String) (notes : List Note) (text : String) : Outcome where
  status := .ok 1
  err := err ++ Note.log s.verbose (notes ++ [⟨.error, .command, text⟩])

/-- The end of the command with everything done. -/
def success (s : Settings) (err : String) (notes : List Note) (out : String) : Outcome where
  status := .ok 0
  out := out
  err := err ++ Note.log s.verbose notes

/-- The end of the command by a fault that it does not handle. -/
def breakdown (s : Settings) (err : String) (notes : List Note) (fault : Fault) : Outcome where
  status := .error fault
  err := err ++ Note.log s.verbose notes

/-- The end of the command by a fault on the way: one of the system is a
failure, which is noted as `text`, and any other is not handled. -/
def stopped (s : Settings) (err : String) (notes : List Note) (fault : Fault) (text : String) :
    Outcome :=
  if fault.isSystem then failure s err notes text else breakdown s err notes fault

/-- The line that tells where the diagram was saved. -/
def savedLine (path : Path) : String := "Saved: " ++ path.toString ++ "\n"

/-- The path of the picture. -/
def Settings.picturePath (s : Settings) : Path :=
  match s.output with
  | .file path => path
  | _ => defaultPicture

/-- The path of the text diagram, if it goes to a file; an empty value names
a file by its literal form. -/
def Settings.textPath? (s : Settings) : Option Path :=
  match s.output with
  | .unnamed => none
  | .file path => some path
  | .emptied => some (Path.ofString "[]")

/-- The picture of a text, saved with an outcome that is known beforehand. -/
def Settings.picture (s : Settings) (shop : Workshop) (text : String)
    (saveFault? : Option Fault) : Product Picture :=
  s.studio.picture { path := s.picturePath.toString } saveFault? text shop

/-- The end of the command after a picture; `err` is what was reported
before. -/
def pictureOutcome (s : Settings) (err : String) (p : Product Picture) : Outcome :=
  match p.result with
  | .ok _ => success s err p.notes (savedLine s.picturePath)
  | .error fault => failure s err p.notes fault.message

/-- Writes the picture of a text. -/
def pictureProgram (shop : Workshop) (s : Settings) (err text : String) : Program :=
  match (s.picture shop text none).result with
  | .error _ => .done (pictureOutcome s err (s.picture shop text none))
  | .ok drawn =>
    .writeFile s.picturePath.toString (.picture drawn) fun fault =>
      .done (pictureOutcome s err (s.picture shop text fault))

/-- Writes the text diagram of a text to a file or to the standard output. -/
def textProgram (s : Settings) (err text : String) : Program :=
  let p := s.studio.diagram text
  match p.result, s.textPath? with
  | .error fault, _ => .done (failure s err p.notes fault.message)
  | .ok diagram, none => .done (success s err p.notes (diagram ++ "\n"))
  | .ok diagram, some path =>
    .writeFile path.toString (.text diagram) fun
      | none => .done (success s err p.notes (savedLine path))
      | some fault => .done (stopped s err p.notes fault fault.message)

/-- Writes the diagram of a text. -/
def diagramProgram (shop : Workshop) (s : Settings) (err text : String) : Program :=
  match s.diagramFormat with
  | .error fault => .done (breakdown s err [] fault)
  | .ok .png => pictureProgram shop s err text
  | .ok .txt => textProgram s err text

/-! ## The review -/

/-- What a review reports: the notes of the reading and of the review, and a
line for each finding. -/
def reviewReport (s : Settings) (text : String) : String :=
  let reading := Notation.read text
  let review := reading.flow.review
  Note.log s.verbose (reading.notes ++ review.notes reading.flow) ++
    String.join ((review.messages reading.flow).map (· ++ "\n"))

/-- Goes on with a text: it is reviewed if asked for, and a finding ends the
command. -/
def process (shop : Workshop) (s : Settings) (text : String) : Program :=
  if s.check then
    if (Notation.read text).flow.review.isClean then
      diagramProgram shop s (reviewReport s text) text
    else .done { status := .ok 1, err := reviewReport s text }
  else diagramProgram shop s "" text

/-! ## The command -/

/-- Goes on with the bytes of the input file. Line breaks are made one kind
first. -/
def processBytes (shop : Workshop) (s : Settings) (bytes : List UInt8) : Program :=
  match Text.Utf8.decode bytes with
  | .error place => .done (breakdown s "" [] (.undecodable place))
  | .ok text => process shop s (String.ofList (Text.unifyBreaks text.toList))

/-- The end of the command when its input cannot be read. -/
def unreadable (s : Settings) (input : String) (fault : Fault) : Outcome :=
  stopped s "" [] fault ("Could not read " ++ input ++ ": " ++ fault.message)

/-- Reads the input and goes on with it; `-` is the standard input. -/
def execute (shop : Workshop) (input : String) (s : Settings) : Program :=
  if input = "-" then .readInput (process shop s)
  else
    .readFile (Path.ofString input).toString fun
      | .error fault => .done (unreadable s input fault)
      | .ok bytes => processBytes shop s bytes

/-- The command for some arguments. -/
def program (arguments : List String) (shop : Workshop := .plain) : Program :=
  match parse arguments with
  | .error .help => .done { status := .ok 0, out := help }
  | .error (.usage e) =>
    .done { status := .ok 2, err := usage ++ "screenflow: error: " ++ e.message ++ "\n" }
  | .ok (input, settings) => execute shop input settings

end Storyboard.Command
