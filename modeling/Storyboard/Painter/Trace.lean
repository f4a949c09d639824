import Storyboard.Painter

/-!
# Traces

A traced painter does what the painter does and writes down each act as it is
begun, so that an act that fails stands last in the trace.

## Main definitions

* `Call` — an act with what it was given.
* `Painter.traced` — the painter with its trace.
-/

namespace Storyboard

/-- An act of a painter, with what it was given. -/
inductive Call (η : Type) where
  | start (names : List String)
  | place (name : String)
  | connect (source target : η) (label : String)
  | finish
deriving DecidableEq, Repr

namespace Painter

variable {σ η α : Type}

/-- An act that is written down before it is done. -/
def logged {β : Type} (call : Call η) (act : Act σ β) : Act (σ × List (Call η)) β :=
  ExceptT.mk fun s =>
    let r := act.run s.1
    (r.1, (r.2, s.2 ++ [call]))

/-- The painter with a trace of its acts, in order. -/
def traced (p : Painter σ η α) : Painter (σ × List (Call η)) η α where
  start f := logged (.start f.names) (p.start f)
  place s := logged (.place s.name) (p.place s)
  connect source target label := logged (.connect source target label)
    (p.connect source target label)
  finish := logged .finish p.finish

end Painter

end Storyboard
