import Storyboard.Digraph.Search
import Storyboard.Flow

/-!
# Reviewing a flow

A review lists what an author of a flow has probably got wrong: names defined
more than once, transitions to screens that are not defined, and screens that
cannot be reached from the first one. None of it stops a diagram from being
drawn.

## Main definitions

* `Review` — the findings, and their wording.
* `Flow.review` — the review of a flow.
-/

namespace Storyboard

/-- The findings about one flow. -/
structure Review where
  /-- The names defined more than once in order of their first definition,
  with the positions of all of them. -/
  duplicates : List (String × List Nat) := []
  /-- The transitions to undefined screens, with the positions of the screens
  that hold them. -/
  unresolved : List (Nat × Transition) := []
  /-- The positions of the screens out of reach. -/
  unreachable : List Nat := []
deriving DecidableEq, Repr

/-- Whether nothing was found. -/
def Review.isClean (r : Review) : Bool :=
  r.duplicates.isEmpty && r.unresolved.isEmpty && r.unreachable.isEmpty

namespace Flow

/-- The positions of the screens with a name. -/
def positionsOf (f : Flow) (name : String) : List Nat :=
  f.names.zipIdx.filterMap fun (n, i) => if n = name then some i else none

/-- The names that several screens have, in order of their first definition,
with the positions of these screens. -/
def duplicateNames (f : Flow) : List (String × List Nat) :=
  ((Sequence.distinct f.names).map fun n => (n, f.positionsOf n)).filter fun e =>
    1 < e.2.length

/-- The positions of the screens that no chain of transitions from the first
screen leads to. -/
def unreachable (f : Flow) : List Nat :=
  let reached := f.digraph.reachable
  (List.range f.size).filter fun i => i ∉ reached

/-- The findings about a flow. -/
def review (f : Flow) : Review where
  duplicates := f.duplicateNames
  unresolved := f.unresolved
  unreachable := f.unreachable

end Flow

namespace Review

/-- The line for a name defined more than once; screens are counted from
one. -/
def duplicateLine (e : String × List Nat) : String :=
  "Screen '" ++ e.1 ++ "' is defined " ++ toString e.2.length ++ " times (screens " ++
    String.intercalate ", " (e.2.map fun i => toString (i + 1)) ++
    "); connectors use the first"

/-- The line for a transition to an undefined screen. -/
def unresolvedLine (f : Flow) (e : Nat × Transition) : String :=
  "Screen '" ++ f.nameAt e.1 ++ "' transitions to undefined screen '" ++ e.2.target ++ "'"

/-- The line for a screen out of reach. -/
def unreachableLine (f : Flow) (i : Nat) : String :=
  "Screen '" ++ f.nameAt i ++ "' is unreachable"

/-- One line per finding about the flow. -/
def messages (r : Review) (f : Flow) : List String :=
  r.duplicates.map duplicateLine ++ r.unresolved.map (unresolvedLine f) ++
    r.unreachable.map (unreachableLine f)

end Review

end Storyboard
