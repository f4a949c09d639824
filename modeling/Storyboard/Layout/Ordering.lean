import Storyboard.Digraph
import Storyboard.Rounding

/-!
# Order within layers

Connectors cross less when a screen stands near the screens it is joined to.
A layer is sorted by the mean position of each screen's neighbours in the
layer beside it, a reference layer that stays as it is; a screen without
neighbours there takes its own position in the layer instead. Sorting is
stable. Means are held in floating point, so that two of them may be taken for
equal when they lie close together.

One pass goes down, each layer by the screens above it, and then up, each
layer by the screens below it.

## Main definitions

* `meanPosition` — what a node is sorted by.
* `arrange` — one layer sorted by a reference layer.
* `sweep` — a pass over all layers.
-/

namespace Storyboard.Layout

/-- The positions in a layer of those of `nodes` that stand in it. -/
def positionsIn (layer nodes : List Nat) : List Nat :=
  nodes.filterMap fun v => layer.idxOf? v

/-- The mean position of a node's neighbours in the reference layer, or its
own position in its layer if it has none there. -/
def meanPosition (neighbours : Nat → List Nat) (layer reference : List Nat) (v : Nat) : Rat :=
  match positionsIn reference (neighbours v) with
  | [] => Rat.ofInt (layer.idxOf v)
  | ps => Fine.quotient (ps.foldl (· + ·) 0) ps.length

/-- The layer sorted by the mean positions of its nodes. -/
def arrange (neighbours : Nat → List Nat) (layer reference : List Nat) : List Nat :=
  let keyed := layer.map fun v => (meanPosition neighbours layer reference v, v)
  (keyed.mergeSort fun a b => a.1 ≤ b.1).map (·.2)

/-- Sorts each layer by the layer above it, from below `above` down. -/
def sweepBelow (g : Digraph) : (above : List Nat) → List (List Nat) → List (List Nat)
  | _, [] => []
  | above, layer :: rest =>
    let sorted := arrange g.prev layer above
    sorted :: sweepBelow g sorted rest

/-- Sorts every layer but the first by the layer above it. -/
def sweepDown (g : Digraph) : List (List Nat) → List (List Nat)
  | [] => []
  | top :: rest => top :: sweepBelow g top rest

/-- Sorts every layer but the last by the layer below it, from the bottom
up. -/
def sweepUp (g : Digraph) : List (List Nat) → List (List Nat)
  | [] => []
  | layer :: rest =>
    match sweepUp g rest with
    | [] => [layer]
    | below :: more => arrange g.next layer below :: below :: more

/-- One pass over the layers: down, then up. -/
def sweep (g : Digraph) (layers : List (List Nat)) : List (List Nat) :=
  sweepUp g (sweepDown g layers)

/-- A number of passes. -/
def sweeps (g : Digraph) : Nat → List (List Nat) → List (List Nat)
  | 0, layers => layers
  | n + 1, layers => sweeps g n (sweep g layers)

end Storyboard.Layout
