import Storyboard.Flow
import Storyboard.Layout.Layers
import Storyboard.Layout.Ordering

/-!
# Layout

The screens of a flow are laid out in layers. The links between two screens
count as one edge; edges that close a cycle are set aside, and of the rest
each leads to a deeper layer. The layers are then ordered to lessen crossings.

Cycles are looked for by a search that may go as deep as there are screens. Where
there is no room for that, a flow with a cycle has no layout.

Screens are told apart by position, so screens of one name have a slot each.

## Main definitions

* `Layout` — layers, edges and back edges.
* `Flow.layout` — the layout of a flow.
* `Flow.fitsIn`, `Flow.layoutWithin` — the same where room is limited.
* `Layout.nodes` — where each screen stands.
* `Layout.rows` — the layers as rows of the cards placed so far.
-/

namespace Storyboard

/-- The layout of a flow, screens being told by their positions. -/
structure Layout where
  /-- The layers from the top down, each from left to right. -/
  layers : List (List Nat) := []
  /-- The edges, by source and then by first occurrence. -/
  edges : List (Nat × Nat) := []
  /-- The edges set aside, in increasing order. -/
  backEdges : List (Nat × Nat) := []
  /-- Whether the flow has a cycle. -/
  hasCycles : Bool := false
deriving DecidableEq, Repr

/-- Where a screen stands in a layout. -/
structure Slot where
  index : Nat
  name : String
  layer : Nat
  position : Nat
deriving DecidableEq, Repr

/-- Pairs in increasing order of their first parts, then of their second. -/
def pairLe (a b : Nat × Nat) : Bool :=
  a.1 < b.1 || (a.1 == b.1 && a.2 ≤ b.2)

/-- The number of ordering passes that diagrams use. -/
def Layout.usualPasses : Int := 4

/-- The layout of a flow after `passes` passes of ordering; a number below
one means none. Edges are set aside only if there is a cycle. -/
def Flow.layout (f : Flow) (passes : Int) : Layout :=
  let g := f.digraph
  let walk := g.search
  let cyclic := !g.isAcyclic
  let back := if cyclic then walk.back else []
  let kept := g.without back
  { layers := Layout.sweeps kept passes.toNat (kept.layers walk.left)
    edges := g.edges
    backEdges := back.mergeSort pairLe
    hasCycles := cyclic }

/-- The room that there usually is for the search of a layout. -/
def Layout.usualRoom : Nat := 980

/-- Whether a flow can be laid out where there is room for `room` steps of a
search inside one another. Without a cycle there is no search. -/
def Flow.fitsIn (f : Flow) (room : Nat) : Bool :=
  f.digraph.isAcyclic || (f.digraph.searchWithin room).isSome

/-- The layout of a flow where room may be limited. -/
def Flow.layoutWithin (f : Flow) (passes : Int) : (room : Option Nat) → Except Fault Layout
  | none => .ok (f.layout passes)
  | some room => if f.fitsIn room then .ok (f.layout passes) else .error .tooDeep

namespace Layout

/-- Where each screen of the flow stands, by position in the flow. -/
def nodes (l : Layout) (f : Flow) : List Slot :=
  let slots := l.layers.zipIdx.flatMap fun (layer, k) =>
    layer.zipIdx.map fun (i, p) => ⟨i, f.nameAt i, k, p⟩
  slots.mergeSort fun a b => a.index ≤ b.index

/-- The layers as rows of the cards placed so far, of which there are
`placed`: what is not placed is left out, and so is a row that becomes empty.
Cards that the layout does not know share a last row. -/
def rows (l : Layout) (placed : Nat) : List (List Nat) :=
  let known := (l.layers.map fun layer => layer.filter (· < placed)).filter (!·.isEmpty)
  let leftover := (List.range placed).filter fun i => i ∉ known.flatten
  if leftover.isEmpty then known else known ++ [leftover]

end Layout

end Storyboard
