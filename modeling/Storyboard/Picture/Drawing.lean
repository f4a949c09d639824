import Storyboard.Fault
import Storyboard.Picture

/-!
# Drawings

A drawing is made mark by mark and may be stopped by a fault. What was drawn
before the fault stays, so a drawing holds its marks whether it was stopped or
not, and a drawing that was stopped is not gone on with.

## Main definitions

* `Drawing` — marks, and the fault that stopped the drawing, if one did.
* `Drawing.followedBy` — one drawing after another.
* `Drawing.onto` — a drawing made on something that refuses some marks.
* `Drawing.result` — the marks of a drawing that is needed whole.
-/

namespace Storyboard

/-- Marks in the order in which they were made, and the fault that stopped the
drawing, if one did. -/
structure Drawing where
  marks : List Mark
  fault? : Option Fault

namespace Drawing

/-- A drawing that was not stopped. -/
def ofMarks (marks : List Mark) : Drawing := ⟨marks, none⟩

/-- A drawing that was stopped by a fault. -/
def stopped (marks : List Mark) (fault : Fault) : Drawing := ⟨marks, some fault⟩

/-- One drawing after another; nothing follows a drawing that was stopped. -/
def followedBy (first second : Drawing) : Drawing :=
  match first.fault? with
  | some _ => first
  | none => ⟨first.marks ++ second.marks, second.fault?⟩

/-- A drawing made on something that refuses some marks: the first mark refused
stops it, unless it was stopped before. -/
def onto (refusal? : Mark → Option Fault) (d : Drawing) : Drawing :=
  d.marks.foldr
    (fun m rest =>
      match refusal? m with
      | some fault => stopped [] fault
      | none => (ofMarks [m]).followedBy rest)
    ⟨[], d.fault?⟩

/-- The marks of a drawing, or the fault that stopped it. -/
def result (d : Drawing) : Except Fault (List Mark) :=
  match d.fault? with
  | some fault => .error fault
  | none => .ok d.marks

end Drawing

end Storyboard
