import Storyboard.Screen

/-!
# Lines of the notation

A flow is written line by line:

    [Login]                 opens a screen
    // P: under 200ms       a requirement (P, S, A or U)
    T Welcome back          a component (T, E, B, A or O)
    --                      a section break
    A Sign in => Home       an action that leads to a screen
    ={locked}=> Lockout     a transition on a condition
    => Help                 a transition

A line, trimmed of blanks, is read by the first form that it has. A line can
have a form and still be flawed, as when an arrow points at nothing. A line of
no form at all is unrecognized.

## Main definitions

* `Item` — what a good line adds to the screen it stands in.
* `Form`, `Flaw` — the forms of lines inside a screen, and what can be wrong
  with them.
* `Line`, `Line.read` — a line as read.
-/

namespace Storyboard.Notation

/-- What a line adds to the screen that it stands in. -/
inductive Item where
  | sectionBreak
  | action (label target : String)
  | conditional (condition target : String)
  | jump (target : String)
  | component (component : Component)
  | requirement (category : Category) (text : String)
deriving DecidableEq, Repr

/-- The forms of lines inside a screen. -/
inductive Form where
  | sectionBreak
  | action
  | conditional
  | jump
  | component
  | requirement
deriving DecidableEq, Repr

/-- The name of a form in a report. -/
def Form.name : Form → String
  | .sectionBreak => "section"
  | .action => "action_transition"
  | .conditional => "conditional_transition"
  | .jump => "transition"
  | .component => "component"
  | .requirement => "requirement"

/-- What can be wrong with a line that has a form. -/
inductive Flaw where
  | emptyLabel
  | emptyCondition
  | emptyTarget
  | missingColon
  | unknownCategory (code : String)
deriving DecidableEq, Repr

/-- The wording of a flaw. -/
def Flaw.text : Flaw → String
  | .emptyLabel => "empty action label"
  | .emptyCondition => "empty condition"
  | .emptyTarget => "empty target"
  | .missingColon => "missing ':'"
  | .unknownCategory code => "unknown category " ++ Text.quoted code

/-- A line as read. -/
inductive Line where
  /-- Opens the screen `name`. -/
  | header (name : String)
  /-- Brackets around nothing. -/
  | emptyHeader
  /-- A line inside a screen: its form, and the item or the flaw. -/
  | body (form : Form) (content : Except Flaw Item)
  | unrecognized

/-! ## Marks -/

/-- The arrow of a transition. -/
def arrow : List Char := ['=', '>']

/-- What ends the condition of a conditional transition. -/
def conditionEnd : List Char := '}' :: arrow

/-! ## Contents -/

/-- The content of a line with a named part before its target. The part is
looked at before the target. -/
def withTarget (part target : List Char) (empty : Flaw) (item : String → String → Item) :
    Except Flaw Item :=
  if Text.trim part = [] then .error empty
  else if Text.trim target = [] then .error .emptyTarget
  else .ok (item (String.ofList (Text.trim part)) (String.ofList (Text.trim target)))

/-- The content of a transition without a condition. -/
def jumpTo (target : List Char) : Except Flaw Item :=
  if Text.trim target = [] then .error .emptyTarget
  else .ok (.jump (String.ofList (Text.trim target)))

/-- The content of a requirement: a code up to the first colon, then its
description. -/
def requirementOf (cs : List Char) : Except Flaw Item :=
  match Text.cutFirst? [':'] cs with
  | none => .error .missingColon
  | some (code, text) =>
    match Category.ofCode? code with
    | none => .error (.unknownCategory (String.ofList (Text.trim code)))
    | some category => .ok (.requirement category (String.ofList (Text.trim text)))

/-! ## Forms -/

/-- What stands between the brackets of a header. -/
def interior? : List Char → Option (List Char)
  | '[' :: rest => if rest.getLast? = some ']' then some rest.dropLast else none
  | _ => none

/-- Label and target of an action that leads to a screen, cut at the first
arrow. -/
def action? : List Char → Option (List Char × List Char)
  | 'A' :: ' ' :: rest => Text.cutFirst? arrow rest
  | _ => none

/-- Condition and target of a conditional transition, cut at the last closing
brace with an arrow behind it. -/
def conditional? : List Char → Option (List Char × List Char)
  | '=' :: '{' :: rest => Text.cutLast? conditionEnd rest
  | _ => none

/-- The component that a line declares: a letter, a space and a name. -/
def component? : List Char → Option Component
  | letter :: ' ' :: c :: rest =>
    (Kind.ofLetter? letter).map fun kind => ⟨kind, String.ofList (Text.trim (c :: rest))⟩
  | _ => none

/-- Reads a line that has been trimmed. -/
def Line.read (cs : List Char) : Line :=
  match interior? cs with
  | some inside =>
    if Text.trim inside = [] then .emptyHeader
    else .header (String.ofList (Text.trim inside))
  | none =>
    if cs = ['-', '-'] then .body .sectionBreak (.ok .sectionBreak)
    else
      match action? cs with
      | some (label, target) => .body .action (withTarget label target .emptyLabel .action)
      | none =>
        match conditional? cs with
        | some (condition, target) =>
          .body .conditional (withTarget condition target .emptyCondition .conditional)
        | none =>
          match arrow.isPrefixOf? cs with
          | some target => .body .jump (jumpTo target)
          | none =>
            match component? cs with
            | some c => .body .component (.ok (.component c))
            | none =>
              match ['/', '/'].isPrefixOf? cs with
              | some rest => .body .requirement (requirementOf rest)
              | none => .unrecognized

end Storyboard.Notation
