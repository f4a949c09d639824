import Storyboard.Digraph.Search

/-!
# Layers

The layer of a node is the length of the longest path that ends at it. The
nodes are taken in topological order, so a node's predecessors have their
layers when its own is worked out.

## Main definitions

* `Digraph.depths` — the layer of every node.
* `Digraph.layers` — the nodes by layer, in increasing order within one.
-/

namespace Storyboard.Digraph

/-- The layer of `v` by the layers of its predecessors: one below the
deepest, or the top if it has none. -/
def depthOf (g : Digraph) (depths : Array Nat) (v : Nat) : Nat :=
  ((g.prev v).map fun p => depths.getD p 0 + 1).foldl max 0

/-- Works out the layers of nodes in the order given. -/
def assignDepths (g : Digraph) : List Nat → Array Nat → Array Nat
  | [], depths => depths
  | v :: rest, depths => g.assignDepths rest (depths.setIfInBounds v (g.depthOf depths v))

/-- The layer of every node; `order` is a topological order of the graph. -/
def depths (g : Digraph) (order : List Nat) : Array Nat :=
  g.assignDepths order (Array.replicate g.size 0)

/-- The nodes by layer, from the top down; a layer lists its nodes in
increasing order. -/
def layers (g : Digraph) (order : List Nat) : List (List Nat) :=
  let depths := g.depths order
  let count := depths.foldl (fun n d => max n (d + 1)) 0
  (List.range count).map fun k =>
    (List.range g.size).filter fun v => depths.getD v 0 = k

end Storyboard.Digraph
