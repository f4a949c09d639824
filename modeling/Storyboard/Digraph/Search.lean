import Storyboard.Digraph

/-!
# Depth-first search

The search enters a node, follows the edges out of it in order, and leaves
it. An edge to a node that was never entered is followed at once; an edge to a
node that was entered and not yet left closes a cycle and is noted as a *back
edge*. A node is entered once, and the search is restarted at the least node
not entered until none is left.

The nodes in the order in which they were left, latest first, are a
topological order of the graph without its back edges: along every other edge
the search leaves the target before the source.

A search that is one step inside another needs room for both. Where there is
only so much room, a search that would go deeper comes to nothing.

## Main definitions

* `Walk` — what a search has done so far.
* `Digraph.visit` — the search from one node; the nodes entered and not yet
  left are the path that led to it. Each step down enters a new node, so the
  number of nodes bounds the depth.
* `Digraph.search` — the search of the whole graph.
* `Digraph.visitWithin`, `Digraph.searchWithin` — both where room is limited.
* `Digraph.reachable` — the nodes that the search from node `0` enters.
-/

namespace Storyboard

/-- What a search has done: the nodes entered and the nodes left, latest
first, and the back edges in the order in which they were met. -/
structure Walk where
  entered : List Nat := []
  left : List Nat := []
  back : List (Nat × Nat) := []
deriving DecidableEq, Repr

namespace Walk

/-- Notes that the search enters `v`. -/
def enter (w : Walk) (v : Nat) : Walk := { w with entered := v :: w.entered }

/-- Notes that the search leaves `v`. -/
def leave (w : Walk) (v : Nat) : Walk := { w with left := v :: w.left }

/-- Notes a back edge. -/
def close (w : Walk) (e : Nat × Nat) : Walk := { w with back := w.back ++ [e] }

end Walk

namespace Digraph

/-- Searches from `v`, reached along `path` (latest node first), at most
`depth` steps down. -/
def visit (g : Digraph) : (depth : Nat) → (path : List Nat) → (v : Nat) → Walk → Walk
  | 0, _, _, w => w
  | depth + 1, path, v, w =>
    let followed := (g.next v).foldl
      (fun w d =>
        if d ∈ w.entered then
          if d ∈ v :: path then w.close (v, d) else w
        else g.visit depth (v :: path) d w)
      (w.enter v)
    followed.leave v

/-- Searches the whole graph, starting at each node not entered before. -/
def search (g : Digraph) : Walk :=
  (List.range g.size).foldl
    (fun w v => if v ∈ w.entered then w else g.visit g.size [] v w) {}

/-- Searches from `v` as `visit` does, with room for `room` steps inside one
another, this one included. -/
def visitWithin (g : Digraph) :
    (room : Nat) → (path : List Nat) → (v : Nat) → Walk → Option Walk
  | 0, _, _, _ => none
  | room + 1, path, v, w =>
    let followed? := (g.next v).foldlM
      (fun w d =>
        if d ∈ w.entered then
          some (if d ∈ v :: path then w.close (v, d) else w)
        else g.visitWithin room (v :: path) d w)
      (w.enter v)
    followed?.map (·.leave v)

/-- Searches the whole graph with room for `room` steps inside one another. -/
def searchWithin (g : Digraph) (room : Nat) : Option Walk :=
  (List.range g.size).foldlM
    (fun w v => if v ∈ w.entered then some w else g.visitWithin room [] v w) {}

/-- The edges that close a cycle in the search of the whole graph. -/
def backEdges (g : Digraph) : List (Nat × Nat) :=
  g.search.back

/-- The nodes in an order that every edge but the back edges goes along. -/
def topological (g : Digraph) : List Nat :=
  g.search.left

/-- The nodes that can be reached from node `0`, itself included. -/
def reachable (g : Digraph) : List Nat :=
  if 0 < g.size then (g.visit g.size [] 0 {}).entered else []

end Digraph

end Storyboard
