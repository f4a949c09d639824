import Storyboard.Sequence

/-!
# Directed graphs

A directed graph over the numbers below its size. Its edges stand in a list
without repetitions, and the order of the list is the order in which the
edges out of a node are followed.

## Main definitions

* `Digraph.next`, `Digraph.prev` — the nodes one edge away.
* `Digraph.without` — the graph with some edges taken out.
* `Digraph.isAcyclic` — whether no path leads from a node back to it.
-/

namespace Storyboard

/-- A directed graph over the numbers below `size`. -/
structure Digraph where
  size : Nat
  edges : List (Nat × Nat)
deriving DecidableEq, Repr

namespace Digraph

/-- The nodes that an edge leads to from `v`, in order. -/
def next (g : Digraph) (v : Nat) : List Nat :=
  g.edges.filterMap fun e => if e.1 = v then some e.2 else none

/-- The nodes from which an edge leads to `v`, in order. -/
def prev (g : Digraph) (v : Nat) : List Nat :=
  g.edges.filterMap fun e => if e.2 = v then some e.1 else none

/-- The graph without some of its edges. -/
def without (g : Digraph) (cut : List (Nat × Nat)) : Digraph where
  size := g.size
  edges := g.edges.filter (· ∉ cut)

/-- Takes away the nodes that no edge enters from the rest of them, and so on
with what remains, until there is no such node or `rounds` are over. -/
def peel (g : Digraph) : (rounds : Nat) → (rest : List Nat) → List Nat
  | 0, rest => rest
  | rounds + 1, rest =>
    let entered := rest.filter fun v => (g.prev v).any (· ∈ rest)
    if entered.length = rest.length then rest else g.peel rounds entered

/-- Whether the graph has no cycle: all its nodes can be taken away, each when
no edge enters it any more. -/
def isAcyclic (g : Digraph) : Bool :=
  (g.peel g.size (List.range g.size)).isEmpty

@[simp] theorem mem_next {g : Digraph} {v d : Nat} : d ∈ g.next v ↔ (v, d) ∈ g.edges := by
  constructor
  · intro h
    obtain ⟨⟨a, b⟩, hmem, heq⟩ := List.mem_filterMap.1 h
    by_cases ha : a = v
    · simp [ha] at heq; rw [← ha, ← heq]; exact hmem
    · simp [ha] at heq
  · intro h
    exact List.mem_filterMap.2 ⟨(v, d), h, by simp⟩

@[simp] theorem mem_prev {g : Digraph} {v s : Nat} : s ∈ g.prev v ↔ (s, v) ∈ g.edges := by
  constructor
  · intro h
    obtain ⟨⟨a, b⟩, hmem, heq⟩ := List.mem_filterMap.1 h
    by_cases hb : b = v
    · simp [hb] at heq; rw [← hb, ← heq]; exact hmem
    · simp [hb] at heq
  · intro h
    exact List.mem_filterMap.2 ⟨(s, v), h, by simp⟩

@[simp] theorem mem_edges_without {g : Digraph} {cut : List (Nat × Nat)} {e : Nat × Nat} :
    e ∈ (g.without cut).edges ↔ e ∈ g.edges ∧ e ∉ cut := by
  simp [without]

end Digraph

end Storyboard
