import Storyboard.Fault
import Storyboard.Sequence

/-!
# Screens

A screen is a named unit of a flow. It carries its user-interface components,
its non-functional requirements, its outgoing transitions and the places of
its section breaks.

A section break counts the components declared before it, so it is the
position of the first component after it. Screens can also be built directly,
so a break may hold any integer; a position below zero then counts from the
end of the components.

## Main definitions

* `Kind`, `Category` — the closed sets of component kinds and requirement
  categories, with their notation letters.
* `Requirements` — at most one description per category.
* `Transition.label` — the caption of a connector.
* `Screen.breaksBefore` — whether a separator stands before a component.
-/

namespace Storyboard

/-! ## Components -/

/-- The kinds of user-interface components. -/
inductive Kind where
  | text
  | field
  | button
  | action
  | other
deriving DecidableEq, Repr

namespace Kind

/-- Every kind, in the order of the notation. -/
def all : List Kind := [.text, .field, .button, .action, .other]

/-- The letter that stands for a kind in the notation. -/
def letter : Kind → Char
  | .text => 'T'
  | .field => 'E'
  | .button => 'B'
  | .action => 'A'
  | .other => 'O'

/-- The word that stands for a kind on a card. -/
def word : Kind → String
  | .text => "TEXT"
  | .field => "FIELD"
  | .button => "BUTTON"
  | .action => "ACTION"
  | .other => "OTHER"

/-- The kind of a letter. -/
def ofLetter? (c : Char) : Option Kind :=
  all.find? fun k => k.letter == c

/-- The kind of a text that is exactly one kind's letter. -/
def ofText? (s : String) : Option Kind :=
  match s.toList with
  | [c] => ofLetter? c
  | _ => none

/-- Each kind is the kind of its letter. -/
@[simp] theorem ofLetter?_letter (k : Kind) : ofLetter? k.letter = some k := by
  cases k <;> rfl

end Kind

/-- A user-interface component: its kind and its name. -/
structure Component where
  kind : Kind
  name : String
deriving DecidableEq, Repr

/-! ## Requirements -/

/-- The categories of non-functional requirements. -/
inductive Category where
  | performance
  | security
  | availability
  | usability
deriving DecidableEq, Repr

namespace Category

/-- Every category, in the order in which a card lists them. -/
def all : List Category := [.performance, .security, .availability, .usability]

/-- The code that stands for a category in the notation and on a card. -/
def code : Category → Char
  | .performance => 'P'
  | .security => 'S'
  | .availability => 'A'
  | .usability => 'U'

/-- The full name of a category. -/
def word : Category → String
  | .performance => "PERFORMANCE"
  | .security => "SECURITY"
  | .availability => "AVAILABILITY"
  | .usability => "USABILITY"

/-- The category of a text that is exactly one category's code, apart from
blanks around it. -/
def ofCode? (cs : List Char) : Option Category :=
  all.find? fun k => [k.code] == Text.trim cs

end Category

/-- At most one description per category. -/
structure Requirements where
  performance : Option String := none
  security : Option String := none
  availability : Option String := none
  usability : Option String := none
deriving DecidableEq, Repr

namespace Requirements

/-- The description of a category. -/
def get? (r : Requirements) : Category → Option String
  | .performance => r.performance
  | .security => r.security
  | .availability => r.availability
  | .usability => r.usability

/-- Sets the description of a category in place of any earlier one. -/
def set (r : Requirements) (category : Category) (text : String) : Requirements :=
  match category with
  | .performance => { r with performance := some text }
  | .security => { r with security := some text }
  | .availability => { r with availability := some text }
  | .usability => { r with usability := some text }

/-- The descriptions given, in the order in which a card lists them. -/
def toList (r : Requirements) : List (Category × String) :=
  Category.all.filterMap fun c => (r.get? c).map fun text => (c, text)

/-- Requirements from descriptions in any order; for a category given twice
the last description counts. -/
def ofList (entries : List (Category × String)) : Requirements :=
  entries.foldl (fun r e => r.set e.1 e.2) {}

@[simp] theorem get?_set (r : Requirements) (c d : Category) (text : String) :
    (r.set c text).get? d = if d = c then some text else r.get? d := by
  cases c <;> cases d <;> rfl

/-- Requirements are determined by their descriptions. -/
theorem ext_get? {r s : Requirements} (h : ∀ c, r.get? c = s.get? c) : r = s := by
  obtain ⟨p, q, a, u⟩ := r
  obtain ⟨p', q', a', u'⟩ := s
  have hp : p = p' := h .performance
  have hq : q = q' := h .security
  have ha : a = a' := h .availability
  have hu : u = u' := h .usability
  rw [hp, hq, ha, hu]

end Requirements

/-! ## Transitions -/

/-- A directed edge from the screen that holds it to the screen named
`target`, which need not be defined. A transition taken on an action names the
action as its `trigger`; a conditional one has a `condition`. -/
structure Transition where
  target : String
  trigger : String := ""
  condition : String := ""
deriving DecidableEq, Repr

/-- The caption of the connector drawn for a transition: the trigger, the
condition, or both with the condition in brackets. -/
def Transition.label (t : Transition) : String :=
  if t.trigger ≠ "" ∧ t.condition ≠ "" then t.trigger ++ " [" ++ t.condition ++ "]"
  else if t.trigger ≠ "" then t.trigger
  else t.condition

/-! ## Screens -/

/-- A named unit of a flow. -/
structure Screen where
  name : String
  components : List Component := []
  requirements : Requirements := {}
  transitions : List Transition := []
  sections : List Int := []
deriving DecidableEq, Repr

namespace Screen

/-- Whether the component at a position is an action. -/
def isActionAt (s : Screen) (i : Int) : Bool :=
  match Sequence.at? s.components i with
  | some c => c.kind == .action
  | none => false

/-- The positions from `start` up to the end of the components. -/
def positionsFrom (s : Screen) (start : Int) : List Int :=
  (List.range (s.components.length - start).toNat).map fun (k : Nat) => start + k

/-- The first action at or after a section break. A break that lies before
even the positions counted from the end is out of range. -/
def firstActionFrom (s : Screen) (start : Int) : Except Fault (Option Int) :=
  if start < -(s.components.length : Int) then
    .error (Fault.ofPosition start .componentOutOfRange)
  else .ok ((s.positionsFrom start).find? s.isActionAt)

/-- Whether one of the section breaks at or before position `i` has the
component there as its first action. -/
def openedBy (s : Screen) (i : Int) : List Int → Except Fault Bool
  | [] => .ok false
  | start :: rest =>
    if i < start then s.openedBy i rest
    else
      match s.firstActionFrom start with
      | .error fault => .error fault
      | .ok first => if first = some i then .ok true else s.openedBy i rest

/-- Whether a separator stands before the component at position `i`: it does
before the first action that follows a section break. -/
def breaksBefore (s : Screen) (i : Int) : Except Fault Bool :=
  match Sequence.at? s.components i with
  | none => .error (Fault.ofPosition i .componentOutOfRange)
  | some c => if c.kind = .action then s.openedBy i s.sections else .ok false

end Screen

end Storyboard
