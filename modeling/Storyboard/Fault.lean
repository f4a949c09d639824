import Storyboard.Text.Blank
import Storyboard.Text.Utf8

/-!
# Faults

What can go wrong, by cause. The wording stands in one function per type.

A `Fault` is a plain cause. A `RenderFault` is a failed rendering: it may carry
the plain cause it came from, and a font that cannot be loaded is one of its
kinds. A `Failure` is either, as a painter may raise both.

## Main definitions

* `Fault`, `Fault.message` — plain causes.
* `Fault.ofPosition` — the fault of a position that is not there.
* `Fault.wording`, `Fault.systemWording` — the wording of a failure that is
  raised with some texts.
* `RenderFault`, `RenderFault.message` — failed renderings.
* `Failure.toRenderFault` — a failure seen from outside a rendering: a failed
  rendering stays what it is, a plain cause is wrapped with its own wording.
* `Failure.describe` — the wording for a reader, never blank.
-/

namespace Storyboard

/-- A plain cause of failure. -/
inductive Fault where
  /-- A screen has no component at the position asked for. -/
  | componentOutOfRange
  /-- A flow has no screen at the position asked for. -/
  | screenOutOfRange
  /-- A diagram has no card at the position asked for. -/
  | cardOutOfRange
  /-- A position asked for is beyond what any list can have. -/
  | positionTooLarge
  /-- A connector names a card that has no place in the picture. -/
  | unplacedCard (handle : Int)
  /-- A table has no entry for a key. The key may be left unsaid, and more
  may be said than the key. -/
  | unknownKey (texts : List String)
  /-- A screen searched for is not in the flow. -/
  | absentScreen
  /-- A slice has step zero. -/
  | zeroStep
  /-- A message or its text has not the shape that is needed: a value of type
  `type` has no `member`. -/
  | lacksMember (type member : String)
  /-- A file does not exist. -/
  | missingFile (path : String)
  /-- A folder stands where a file is needed. -/
  | isFolder (path : String)
  /-- A file stands where a folder is needed. -/
  | notFolder (path : String)
  /-- A name in a path is too long, or the whole path is. -/
  | nameTooLong (path : String)
  /-- A path, or the name of a font, has a null character in it. -/
  | nullInPath
  /-- A font is asked for at a size that no font has. -/
  | fontSize (size : Int)
  /-- A picture is asked for with a measure below zero. -/
  | negativeMeasure
  /-- A file does not hold UTF-8. -/
  | undecodable (place : Text.Utf8.Fault)
  /-- A whole number is too large for floating point. -/
  | tooLargeForFloat
  /-- A half of a whole number is too large for floating point. -/
  | halfTooLargeForFloat
  /-- A whole number is asked for and there is infinity. -/
  | infinite
  /-- A whole number is asked for and there is no number. -/
  | notANumber
  /-- A search has no room to go deeper. -/
  | tooDeep
  /-- The system refused an operation. -/
  | system (text : String)
  /-- A failure of this library that is not a failed rendering. -/
  | general (text : String)
  /-- A failure that a painter names itself. -/
  | custom (kind text : String)
deriving DecidableEq, Repr

namespace Fault

/-! ## Wording -/

/-- The wording of a failure that is raised with some texts: one text is the
wording itself, and several are shown as literals. -/
def wording : List String → String
  | [] => ""
  | [text] => text
  | texts => Text.quotedTexts texts

/-- The wording of a failure of the system: the number and the name of its
reason. -/
def systemReason (number reason : String) : String :=
  "[Errno " ++ number ++ "] " ++ reason

/-- The wording of a failure of the system at a path. -/
def systemReasonAt (number reason path : String) : String :=
  systemReason number reason ++ ": " ++ Text.quoted path

/-- The wording of a failure of the system that is raised with some texts.
From two to five of them are the number and the name of a reason, a path, a
text of no concern, and the path it leads to. -/
def systemWording : List String → String
  | [number, reason] => systemReason number reason
  | [number, reason, path] => systemReasonAt number reason path
  | [number, reason, path, _] => systemReasonAt number reason path
  | [number, reason, path, _, other] =>
    systemReasonAt number reason path ++ " -> " ++ Text.quoted other
  | texts => wording texts

/-- The wording of a plain cause. -/
def message : Fault → String
  | .componentOutOfRange => "tuple index out of range"
  | .screenOutOfRange => "tuple index out of range"
  | .cardOutOfRange => "list index out of range"
  | .positionTooLarge => "cannot fit 'int' into an index-sized integer"
  | .unplacedCard handle => toString handle
  | .unknownKey [key] => Text.quoted key
  | .unknownKey texts => wording texts
  | .absentScreen => ""
  | .zeroStep => "slice step cannot be zero"
  | .lacksMember type member => "'" ++ type ++ "' object has no attribute '" ++ member ++ "'"
  | .missingFile path => systemReasonAt "2" "No such file or directory" path
  | .isFolder path => systemReasonAt "21" "Is a directory" path
  | .notFolder path => systemReasonAt "20" "Not a directory" path
  | .nameTooLong path => systemReasonAt "36" "File name too long" path
  | .nullInPath => "embedded null byte"
  | .fontSize size => "font size must be greater than 0, not " ++ toString size
  | .negativeMeasure => "Width and height must be >= 0"
  | .undecodable place => place.text
  | .tooLargeForFloat => "int too large to convert to float"
  | .halfTooLargeForFloat => "integer division result too large for a float"
  | .infinite => "cannot convert float infinity to integer"
  | .notANumber => "cannot convert float NaN to integer"
  | .tooDeep => "maximum recursion depth exceeded in comparison"
  | .system text => text
  | .general text => text
  | .custom _ text => text

/-! ## Kinds -/

/-- Whether the system refused an operation. -/
def isSystem : Fault → Bool
  | .missingFile _ => true
  | .isFolder _ => true
  | .notFolder _ => true
  | .nameTooLong _ => true
  | .system _ => true
  | _ => false

/-- The fault of a position `i` that is not there: `absent`, unless no list
could have that position. -/
def ofPosition (i : Int) (absent : Fault) : Fault :=
  if Sequence.isPosition i then absent else .positionTooLarge

end Fault

/-- A failed rendering, with the plain cause it came from if there is one. -/
inductive RenderFault where
  | failed (text : String) (cause : Option Fault)
  /-- The font called `name` cannot be loaded. -/
  | font (name reason : String) (cause : Option Fault)
deriving DecidableEq, Repr

/-- The wording of a failed rendering. A font's reason is left out when it is
empty. -/
def RenderFault.message : RenderFault → String
  | .failed text _ => text
  | .font name reason _ =>
    let text := "Could not load font '" ++ name ++ "'"
    if reason = "" then text else text ++ ": " ++ reason

/-- The plain cause of a failed rendering. -/
def RenderFault.cause? : RenderFault → Option Fault
  | .failed _ cause => cause
  | .font _ _ cause => cause

/-- Anything that can be raised on the way to a diagram. -/
inductive Failure where
  | plain (fault : Fault)
  | render (fault : RenderFault)
deriving DecidableEq, Repr

namespace Failure

/-- The wording of a failure. -/
def message : Failure → String
  | .plain fault => fault.message
  | .render fault => fault.message

/-- Whether a failure is a failed rendering. -/
def isRender : Failure → Bool
  | .plain _ => false
  | .render _ => true

/-- Whether a failure is one of this library's own kinds. -/
def isOwn : Failure → Bool
  | .plain (.general _) => true
  | .plain _ => false
  | .render _ => true

/-- The font that a failure is about. -/
def font? : Failure → Option String
  | .render (.font name _ _) => some name
  | _ => none

/-- The failure as it leaves a rendering: a failed rendering unchanged, a
plain cause wrapped with its wording. -/
def toRenderFault : Failure → RenderFault
  | .render fault => fault
  | .plain fault => .failed fault.message (some fault)

/-- What a reader is told when there is nothing better to say. -/
def unknownError : String := "Unknown error"

/-- The wording of a failure for a reader: trimmed, and never blank. -/
def describe (f : Failure) : String :=
  let text := Text.strip f.message
  if text = "" then unknownError else text

end Failure

end Storyboard
