import Storyboard.Digraph
import Storyboard.Screen

/-!
# Flows

A flow is a sequence of screens. Several screens may have one name; a name
stands for the first screen that has it. The transitions of the screens make
the flow a directed multigraph over the positions of its screens; a
transition whose target names no screen leads nowhere and is left out of it.

## Main definitions

* `Flow.indexOf?`, `Flow.resolve?` — the first screen of a name.
* `Flow.edges`, `Flow.resolved`, `Flow.unresolved` — the transitions with the
  positions they join.
* `Flow.connections` — the multigraph, parallel transitions numbered.
* `Flow.digraph` — the graph, parallel transitions taken as one edge.
* `Flow.outline` — a flow shown in one line.
-/

namespace Storyboard

/-- A sequence of screens. -/
structure Flow where
  screens : List Screen := []
deriving DecidableEq, Repr

/-- A transition between two screens, by their positions. -/
structure Link where
  source : Nat
  target : Nat
  transition : Transition
deriving DecidableEq, Repr

/-- An edge of the multigraph: a link and its number among those that join
the same two screens. -/
structure Connection extends Link where
  key : Nat
deriving DecidableEq, Repr

namespace Flow

/-- The number of screens. -/
def size (f : Flow) : Nat := f.screens.length

/-- The names of the screens, repetitions included. -/
def names (f : Flow) : List String := f.screens.map (·.name)

/-- The name of the screen at a position; empty if there is none. -/
def nameAt (f : Flow) (i : Nat) : String :=
  (f.names[i]?).getD ""

theorem length_names (f : Flow) : f.names.length = f.size := by
  rw [names, List.length_map, size]

theorem nameAt_eq {f : Flow} {i : Nat} {s : Screen} (h : f.screens[i]? = some s) :
    f.nameAt i = s.name := by
  rw [nameAt, names, List.getElem?_map, h]
  rfl

theorem getElem?_names {f : Flow} {i : Nat} (h : i < f.size) :
    f.names[i]? = some (f.nameAt i) := by
  have hi : i < f.names.length := by
    rw [length_names]
    exact h
  rw [nameAt, List.getElem?_eq_getElem hi]
  rfl

/-- The position of the first screen with a name. -/
def indexOf? (f : Flow) (name : String) : Option Nat :=
  f.screens.findIdx? (·.name = name)

/-- The first screen with a name. -/
def resolve? (f : Flow) (name : String) : Option Screen :=
  f.screens.find? (·.name = name)

/-- The screen at a position counted from either end. -/
def screenAt (f : Flow) (i : Int) : Except Fault Screen :=
  match Sequence.at? f.screens i with
  | some s => .ok s
  | none => .error (Fault.ofPosition i .screenOutOfRange)

/-- The flow of the screens that a slice picks. -/
def slice (f : Flow) (s : Sequence.Slice) : Except Fault Flow :=
  match Sequence.slice? f.screens s with
  | some screens => .ok ⟨screens⟩
  | none => .error .zeroStep

/-- The position of the first screen equal to `s`. -/
def positionOf (f : Flow) (s : Screen) : Except Fault Nat :=
  match f.screens.findIdx? (· = s) with
  | some i => .ok i
  | none => .error .absentScreen

/-- A flow shown in one line by the names of its screens. -/
def outline (f : Flow) : String :=
  "ScreenGraph([" ++ String.intercalate ", " f.names ++ "])"

/-! ## Transitions -/

/-- Every transition in order, with the position of its screen and of its
target. -/
def edges (f : Flow) : List (Nat × Option Nat × Transition) :=
  f.screens.zipIdx.flatMap fun (s, i) =>
    s.transitions.map fun t => (i, f.indexOf? t.target, t)

/-- The transitions whose target names a screen. -/
def resolved (f : Flow) : List Link :=
  f.edges.filterMap fun (s, target, t) => target.map fun d => ⟨s, d, t⟩

/-- The transitions whose target names no screen, with the positions of their
screens. -/
def unresolved (f : Flow) : List (Nat × Transition) :=
  f.edges.filterMap fun (s, target, t) => if target.isNone then some (s, t) else none

/-! ## The multigraph -/

/-- The links of a list grouped by target: targets in order of their first
link, and the links of one target in order, numbered. -/
def grouped (links : List Link) : List Connection :=
  (Sequence.distinct (links.map (·.target))).flatMap fun d =>
    (links.filter (·.target = d)).zipIdx.map fun (l, k) => ⟨l, k⟩

/-- The edges of the multigraph, by source, then by target in order of the
first edge to it, then by number. -/
def connections (f : Flow) : List Connection :=
  (List.range f.size).flatMap fun i => grouped (f.resolved.filter (·.source = i))

/-- The graph of the flow: one edge for the links between two screens, by
source and then in order of the first link. -/
def digraph (f : Flow) : Digraph where
  size := f.size
  edges := Sequence.distinct (f.resolved.map fun l => (l.source, l.target))

end Flow

end Storyboard
