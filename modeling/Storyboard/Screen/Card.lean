import Storyboard.Screen

/-!
# Cards

The text of a screen's card, line by line: the name in brackets, a blank
line, the requirements and a blank line if there are any, and the components.
A separator line stands before the first action that follows a section break.
Blank lines at the end are dropped.

## Main definitions

* `separator` — the separator line.
* `Screen.card` — the lines of a screen's card.
-/

namespace Storyboard

/-- The line drawn as a rule between sections of a card. -/
def separator : String := "------------"

namespace Screen

/-- The line of a component. -/
def componentLine (c : Component) : String :=
  c.kind.word ++ ": " ++ c.name

/-- The line of a requirement. -/
def requirementLine (e : Category × String) : String :=
  String.singleton e.1.code ++ ": " ++ e.2

/-- The lines of the requirements, with a blank line after them if there are
any. -/
def requirementLines (s : Screen) : List String :=
  match s.requirements.toList with
  | [] => []
  | entries => entries.map requirementLine ++ [""]

/-- The lines of the components from position `i` on. -/
def componentLines (s : Screen) : Nat → List Component → Except Fault (List String)
  | _, [] => .ok []
  | i, c :: rest =>
    match s.breaksBefore i with
    | .error fault => .error fault
    | .ok breaks =>
      (s.componentLines (i + 1) rest).map fun ls =>
        (if breaks then [separator] else []) ++ componentLine c :: ls

/-- The lines of a screen's card. -/
def card (s : Screen) : Except Fault (List String) :=
  (s.componentLines 0 s.components).map fun body =>
    Sequence.dropEndWhile (· = "")
      (("[" ++ s.name ++ "]") :: "" :: (s.requirementLines ++ body))

end Screen

end Storyboard
