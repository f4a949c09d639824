import Storyboard.Flow
import Storyboard.Notation.Line

/-!
# Reading a flow

A text is read line by line. A header closes the screen before it and opens
its own; the lines after it add to that screen until the next header or the
end of the text. A line that cannot be used is skipped: it changes nothing,
and it is reported with its number, its trimmed text and the reason. Blank
lines are passed over without a report. Reading never fails.

## Main definitions

* `Reason`, `Skipped` — reports about lines that were skipped.
* `step` — what one line does to the screen that is open.
* `readLines` — the screens and reports of a list of lines.
* `read` — the screens and reports of a text.
-/

namespace Storyboard

/-- The screen with an item added. An action that leads to a screen is both a
component and a transition. -/
def Screen.add (s : Screen) : Notation.Item → Screen
  | .sectionBreak => { s with sections := s.sections ++ [(s.components.length : Int)] }
  | .action label target =>
    { s with
      components := s.components ++ [⟨.action, label⟩]
      transitions := s.transitions ++ [{ target := target, trigger := label }] }
  | .conditional condition target =>
    { s with transitions := s.transitions ++ [{ target := target, condition := condition }] }
  | .jump target => { s with transitions := s.transitions ++ [{ target := target }] }
  | .component c => { s with components := s.components ++ [c] }
  | .requirement category text =>
    { s with requirements := s.requirements.set category text }

namespace Notation

/-- Why a line was skipped. -/
inductive Reason where
  | unrecognized
  | emptyName
  /-- The line belongs inside a screen and stands before the first one. -/
  | outside (form : Form)
  | flawed (form : Form) (flaw : Flaw)
deriving DecidableEq, Repr

/-- The wording of a reason. -/
def Reason.text : Reason → String
  | .unrecognized => "unrecognized"
  | .emptyName => "screen: empty screen name"
  | .outside form => form.name ++ ": outside of any screen"
  | .flawed form flaw => form.name ++ ": " ++ flaw.text

/-- A line that was skipped, by its number counted from one. -/
structure Skipped where
  number : Nat
  text : String
  reason : Reason
deriving DecidableEq, Repr

/-- What a text was read as. -/
structure Reading where
  flow : Flow
  skipped : List Skipped
deriving DecidableEq, Repr

/-- What one line does: the screen it closes, the screen open after it, and
the reason if it is skipped. -/
structure Step where
  closed : Option Screen
  opened : Option Screen
  skipped : Option Reason

/-- The effect of a line on the screen that is open before it. -/
def step (current : Option Screen) : Line → Step
  | .header name => ⟨current, some { name := name }, none⟩
  | .emptyHeader => ⟨none, current, some .emptyName⟩
  | .unrecognized => ⟨none, current, some .unrecognized⟩
  | .body form content =>
    match current, content with
    | none, _ => ⟨none, none, some (.outside form)⟩
    | some s, .error flaw => ⟨none, some s, some (.flawed form flaw)⟩
    | some s, .ok item => ⟨none, some (s.add item), none⟩

/-- Reads lines, the first of which has number `number`, with `current` the
screen that is open before them. -/
def readLines (current : Option Screen) (number : Nat) :
    List (List Char) → List Screen × List Skipped
  | [] => (current.toList, [])
  | raw :: rest =>
    let line := Text.trim raw
    if line = [] then readLines current (number + 1) rest
    else
      let s := step current (Line.read line)
      let (screens, skipped) := readLines s.opened (number + 1) rest
      (s.closed.toList ++ screens,
        (s.skipped.map fun reason => ⟨number, String.ofList line, reason⟩).toList ++ skipped)

/-- Reads a text. -/
def read (text : String) : Reading :=
  let (screens, skipped) := readLines none 1 (Text.lines text.toList)
  ⟨⟨screens⟩, skipped⟩

end Notation

end Storyboard
