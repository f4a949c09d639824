import Storyboard.Notation.Reading
import Storyboard.Painter

/-!
# Sessions

An embedding application sends messages, which may be any values. A message
with the command `generate` asks for a diagram of its text; a new painter is
made for it, and the application is told the outcome in one notice. Messages
with any other command are passed over. A message that is not an object at all
is refused.

The text of a message may be missing or of another type. A value that counts
as empty stands for the empty text; any other value that is not a text cannot
be read, and the notice says so.

## Main definitions

* `Value` — what a message can be made of.
* `Workplace` — a painter with the state it begins in.
* `Session.handle` — one message handled.
-/

namespace Storyboard

/-- What a message can be made of. -/
inductive Value where
  | null
  | bool (b : Bool)
  | integer (n : Int)
  | real (x : Float)
  | text (s : String)
  | list (vs : List Value)
  | object (fields : List (String × Value))
deriving Inhabited

namespace Value

/-- The name of a value's type. -/
def typeName : Value → String
  | .null => "NoneType"
  | .bool _ => "bool"
  | .integer _ => "int"
  | .real _ => "float"
  | .text _ => "str"
  | .list _ => "list"
  | .object _ => "dict"

/-- Whether a value counts as empty: nothing, false, zero, and whatever has
no parts. -/
def isEmpty : Value → Bool
  | .null => true
  | .bool b => !b
  | .integer n => n == 0
  | .real x => x == 0
  | .text s => s == ""
  | .list vs => vs.isEmpty
  | .object fields => fields.isEmpty

/-- Whether a value is a certain text. -/
def isText (v : Value) (s : String) : Bool :=
  match v with
  | .text t => t == s
  | _ => false

/-- The flow that a value describes as the text of a message. -/
def flow (v : Value) : Except Fault Flow :=
  match v with
  | .text s => .ok (Notation.read s).flow
  | v =>
    if v.isEmpty then .ok (Notation.read "").flow
    else .error (.lacksMember v.typeName "splitlines")

end Value

/-- A painter with the state it begins in. -/
structure Workplace (σ η α : Type) where
  painter : Painter σ η α
  state : σ

/-- What the application is told about a message that asked for a diagram. -/
structure Notice where
  message : String
  isError : Bool
deriving DecidableEq, Repr

/-- A session: how it comes by painters, and how often it has asked for
one. -/
structure Session (σ η α : Type) where
  supply : Except Failure (Workplace σ η α)
  asked : Nat := 0

/-- What becomes of a message: the summary of the diagram if one was drawn,
the notices, and the state of the painter if there was one. -/
structure Reply (σ α : Type) where
  result : Except Fault (Option (Summary α))
  notices : List Notice
  state : Option σ

namespace Session

variable {σ η α : Type}

/-- The command that asks for a diagram. -/
def generateCommand : String := "generate"

/-- The notice of a diagram drawn. -/
def successNotice : Notice := ⟨"Screen flow generated successfully!", false⟩

/-- The notice of a failure. -/
def errorNotice (f : Failure) : Notice := ⟨"Error generating screen flow: " ++ f.describe, true⟩

/-- The reply to a message that failed. -/
def failed (f : Failure) (state : Option σ) : Reply σ α := ⟨.ok none, [errorNotice f], state⟩

/-- Reads a text and renders its flow with a new painter. -/
def generate (s : Session σ η α) (text : Value) : Reply σ α × Session σ η α :=
  match text.flow with
  | .error fault => (failed (.plain fault) none, s)
  | .ok flow =>
    let next := { s with asked := s.asked + 1 }
    match s.supply with
    | .error failure => (failed failure none, next)
    | .ok place =>
      let r := place.painter.render flow place.state
      match r.outcome with
      | .error fault => (failed (.render fault) (some r.state), next)
      | .ok summary => (⟨.ok (some summary), [successNotice], some r.state⟩, next)

/-- Handles one message. -/
def handle (s : Session σ η α) (message : Value) : Reply σ α × Session σ η α :=
  match message with
  | .object fields =>
    if ((fields.lookup "command").getD .null).isText generateCommand then
      s.generate ((fields.lookup "text").getD .null)
    else (⟨.ok none, [], none⟩, s)
  | v => (⟨.error (.lacksMember v.typeName "get"), [], none⟩, s)

end Session

end Storyboard
