import Mathlib.Data.List.Sort
import Storyboard.Proofs.LongestPaths
import Storyboard.Proofs.ReviewFindings

/-!
# Where the screens of a layout stand

A layout puts each screen of a flow into a layer and at a place within it. The
layer is settled by the edges that are kept and by nothing else: it is the
length of the longest path that ends at the screen. Ordering chooses the place,
and however often it is done it moves no screen to another layer.

## Main results

* `Layout.mem_nodes`, `Layout.nodes_index` — a slot tells where its screen
  stands, and there is one for every screen.
* `Flow.mem_layer` — the screens of a layer.
* `Flow.resolved_sorted`, `Flow.not_edge_of_later` — the order of links, and the
  screens that no link leads to.
* `Flow.layout_longest_paths` — layers are the lengths of longest paths.
* `Flow.layout_complete` — a layout has every screen and every edge once, and
  ordering permutes each layer.
-/

namespace Storyboard

/-! ## Slots -/

namespace Layout

/-- Layers that differ in their order only, one by one. -/
theorem SameLayers.exists_perm {a b : List (List Nat)} (h : SameLayers a b) :
    ∀ {k : Nat} {layer : List Nat}, a[k]? = some layer → ∃ other, b[k]? = some other ∧
      layer.Perm other := by
  induction h with
  | nil =>
      intro k layer hk
      simp at hk
  | cons hhead _ ih =>
      intro k layer hk
      cases k with
      | zero =>
          obtain rfl : _ = layer := Option.some.inj hk
          exact ⟨_, rfl, hhead⟩
      | succ k => exact ih hk

theorem SameLayers.symm {a b : List (List Nat)} (h : SameLayers a b) : SameLayers b a :=
  h.flip.imp fun _ _ hperm => hperm.symm

variable {l : Layout} {f : Flow}

/-- A slot names a screen and tells the layer and the place at which it
stands. -/
theorem mem_nodes {slot : Slot} :
    slot ∈ l.nodes f ↔ slot.name = f.nameAt slot.index ∧
      ∃ layer, l.layers[slot.layer]? = some layer ∧ layer[slot.position]? = some slot.index := by
  rw [nodes, (List.mergeSort_perm _ _).mem_iff, List.mem_flatMap]
  constructor
  · rintro ⟨⟨layer, k⟩, hlayer, hslot⟩
    obtain ⟨⟨i, p⟩, hplace, rfl⟩ := List.mem_map.1 hslot
    exact ⟨rfl, layer, List.mem_zipIdx_iff_getElem?.1 hlayer, List.mem_zipIdx_iff_getElem?.1 hplace⟩
  · rintro ⟨hname, layer, hlayer, hplace⟩
    refine ⟨(layer, slot.layer), List.mem_zipIdx_iff_getElem?.2 hlayer, ?_⟩
    refine List.mem_map.2 ⟨(slot.index, slot.position), List.mem_zipIdx_iff_getElem?.2 hplace, ?_⟩
    dsimp only
    rw [← hname]

/-- If the layers have the screens of a flow, there is one slot for each, by
position in the flow. -/
theorem nodes_index {n : Nat} (h : l.layers.flatten.Perm (List.range n)) :
    (l.nodes f).map (·.index) = List.range n := by
  have hperm : ((l.nodes f).map (·.index)).Perm (List.range n) := by
    unfold nodes
    refine ((List.mergeSort_perm _ _).map Slot.index).trans ((List.Perm.of_eq ?_).trans h)
    rw [List.map_flatMap]
    conv_rhs => rw [← List.zipIdx_map_fst 0 l.layers, ← List.flatMap_def]
    refine List.flatMap_congr fun e _ => ?_
    rw [List.map_map]
    exact List.zipIdx_map_fst 0 e.1
  have hsorted : ((l.nodes f).map (·.index)).Pairwise (· ≤ ·) := by
    rw [List.pairwise_map]
    refine (List.pairwise_mergeSort ?_ ?_ _).imp fun hab => of_decide_eq_true hab
    · intro a b c hab hbc
      simp only [decide_eq_true_eq] at hab hbc ⊢
      omega
    · intro a b
      simp only [Bool.or_eq_true, decide_eq_true_eq]
      omega
  exact hperm.eq_of_pairwise' hsorted (List.pairwise_lt_range.imp Nat.le_of_lt)

end Layout

/-! ## The links of a flow -/

namespace Flow

variable {f : Flow}

/-- The links of a flow come screen by screen. -/
theorem resolved_sorted (f : Flow) : f.resolved.Pairwise fun k l => k.source ≤ l.source := by
  have hedges : f.edges.Pairwise fun a b => a.1 ≤ b.1 := by
    rw [edges, List.pairwise_flatMap]
    refine ⟨fun e _ => ?_, (Sequence.zipIdx_pairwise f.screens).imp fun {a b} hab x hx y hy => ?_⟩
    · rw [List.pairwise_map]
      exact List.pairwise_of_forall fun _ _ => Nat.le_refl _
    · obtain ⟨s, -, rfl⟩ := List.mem_map.1 hx
      obtain ⟨t, -, rfl⟩ := List.mem_map.1 hy
      exact Nat.le_of_lt hab
  rw [resolved, List.pairwise_filterMap]
  refine hedges.imp fun {a b} hab k hk l hl => ?_
  obtain ⟨-, -, rfl⟩ := Option.map_eq_some_iff.1 hk
  obtain ⟨-, -, rfl⟩ := Option.map_eq_some_iff.1 hl
  exact hab

/-- Transitions lead to the first screen of a name, so no edge leads to a later
one. -/
theorem not_edge_of_later {i v : Nat} (hv : v < f.size) (hi : i < v)
    (hname : f.nameAt i = f.nameAt v) (u : Nat) : ¬f.digraph.Edge u v := by
  intro hedge
  obtain ⟨l, hl, -, rfl⟩ := mem_edges_digraph.1 hedge
  obtain ⟨-, -, -, hindex⟩ := mem_resolved.1 hl
  obtain ⟨htarget, hfirst⟩ := indexOf?_eq_some_iff.1 hindex
  refine hfirst i hi ?_
  rw [getElem?_names (by omega), hname, ← getElem?_names hv, htarget]

/-! ## Layers -/

theorem layout_sameLayers (f : Flow) (passes : Int) :
    Layout.SameLayers (f.layout passes).layers (f.kept.layers f.digraph.topological) := by
  rw [layout_layers]
  exact Layout.sweeps_perm _ _ _

/-- A layer has the screens of its depth. -/
theorem mem_layer {passes : Int} {k : Nat} {layer : List Nat}
    (h : (f.layout passes).layers[k]? = some layer) {v : Nat} :
    v ∈ layer ↔ v < f.size ∧ f.depth v = k := by
  obtain ⟨other, hother, hperm⟩ := (f.layout_sameLayers passes).exists_perm h
  rw [hperm.mem_iff]
  exact Digraph.mem_layer_iff hother

/-- A slot has the depth of its screen. -/
theorem depth_of_mem_nodes {passes : Int} {slot : Slot} (h : slot ∈ (f.layout passes).nodes f) :
    slot.index < f.size ∧ f.depth slot.index = slot.layer := by
  obtain ⟨-, layer, hlayer, hplace⟩ := Layout.mem_nodes.1 h
  exact (mem_layer hlayer).1 (List.mem_of_getElem? hplace)

theorem exists_slot (passes : Int) {v : Nat} (hv : v < f.size) :
    ∃ slot, ((f.layout passes).nodes f)[v]? = some slot ∧ slot.index = v := by
  have hindex : (((f.layout passes).nodes f).map (·.index))[v]? = some v := by
    rw [Layout.nodes_index (f.layout_layers_perm passes)]
    exact List.getElem?_range hv
  rw [List.getElem?_map] at hindex
  exact Option.map_eq_some_iff.1 hindex

theorem layers_ne_nil (f : Flow) (passes : Int) :
    ∀ layer ∈ (f.layout passes).layers, layer ≠ [] := by
  intro layer hlayer hnil
  obtain ⟨k, hk⟩ := List.mem_iff_getElem?.1 hlayer
  obtain ⟨other, hother, hperm⟩ := (f.layout_sameLayers passes).exists_perm hk
  rw [hnil, List.nil_perm] at hperm
  exact f.kept_sorts.layers_ne_nil f.kept_closed other (List.mem_of_getElem? hother) hperm

/-! ## The layout -/

/-- The layer of a screen is the length of the longest path that ends at it
along edges that are kept. So each of these edges leads to a deeper layer, a
screen that is not in the top layer is entered from the layer above it, and one
that no such edge enters is in the top layer. Among those are the screens that
no transition leads to and the later screens of a repeated name. -/
theorem layout_longest_paths (f : Flow) (passes : Int) :
    let l := f.layout passes
    (∀ v < f.size, ∃ slot, (l.nodes f)[v]? = some slot ∧ slot.index = v ∧
      IsGreatest {n | PathInto l.KeptEdge v n} slot.layer) ∧
    (∀ a ∈ l.nodes f, ∀ b ∈ l.nodes f, l.KeptEdge a.index b.index → a.layer < b.layer) ∧
    (∀ b ∈ l.nodes f, 0 < b.layer →
      ∃ a ∈ l.nodes f, l.KeptEdge a.index b.index ∧ a.layer + 1 = b.layer) ∧
    (∀ b ∈ l.nodes f, (∀ u, ¬l.KeptEdge u b.index) → b.layer = 0) ∧
    (∀ b ∈ l.nodes f, (∀ k ∈ f.resolved, k.target ≠ b.index) → ∀ u, ¬l.KeptEdge u b.index) ∧
    ∀ b ∈ l.nodes f, (∃ i < b.index, f.nameAt i = b.name) → ∀ u, ¬l.KeptEdge u b.index := by
  dsimp only
  have hdeep := f.deepens
  rw [← f.layout_keptEdge passes] at hdeep
  have hleaves : ∀ {u v}, (f.layout passes).KeptEdge u v → f.digraph.Edge u v := fun h => h.1
  refine ⟨fun v hv => ?_, fun a ha b hb hedge => ?_, fun b hb hpos => ?_, fun b hb hnone => ?_,
    fun b hb hnone u hedge => ?_, fun b hb hlater u hedge => ?_⟩
  · obtain ⟨slot, hslot, rfl⟩ := f.exists_slot passes hv
    refine ⟨slot, hslot, rfl, ?_⟩
    rw [← (depth_of_mem_nodes (List.mem_of_getElem? hslot)).2]
    exact hdeep.isGreatest slot.index
  · rw [← (depth_of_mem_nodes ha).2, ← (depth_of_mem_nodes hb).2]
    exact hdeep.lt _ _ hedge
  · obtain ⟨-, hdepth⟩ := depth_of_mem_nodes hb
    obtain ⟨u, hedge, hu⟩ := hdeep.exists_above b.index (by omega)
    obtain ⟨a, ha, rfl⟩ := f.exists_slot passes (f.digraph_closed u b.index (hleaves hedge)).1
    have hmem := List.mem_of_getElem? ha
    refine ⟨a, hmem, hedge, ?_⟩
    rw [← (depth_of_mem_nodes hmem).2, hu, hdepth]
  · rw [← (depth_of_mem_nodes hb).2]
    exact hdeep.eq_zero hnone
  · obtain ⟨k, hk, -, htarget⟩ := mem_edges_digraph.1 (hleaves hedge)
    exact hnone k hk htarget
  · obtain ⟨i, hi, hname⟩ := hlater
    rw [(Layout.mem_nodes.1 hb).1] at hname
    exact not_edge_of_later (depth_of_mem_nodes hb).1 hi hname u (hleaves hedge)

/-- A layout has every screen of the flow once, in layers of which none is
empty, and a slot for each that tells its name, its layer and its place there.
It has every pair of screens that links join once, by source and then in the
order of first links. However often the layers are ordered, a screen stays in
its layer, and the edges, the edges set aside and the word on cycles are the
same. -/
theorem layout_complete (f : Flow) (passes : Int) :
    let l := f.layout passes
    let joined := f.resolved.map fun k => (k.source, k.target)
    (∀ layer ∈ l.layers, layer ≠ []) ∧
    l.layers.flatten.Perm (List.range f.size) ∧
    (l.nodes f).map (·.index) = List.range f.size ∧
    (∀ slot ∈ l.nodes f,
      (∃ s, f.screens[slot.index]? = some s ∧ slot.name = s.name) ∧
      ∃ layer, l.layers[slot.layer]? = some layer ∧ layer[slot.position]? = some slot.index) ∧
    l.edges.Nodup ∧
    (∀ e, e ∈ l.edges ↔ e ∈ joined) ∧
    (l.edges.Pairwise fun d e => d.1 ≤ e.1 ∧ joined.idxOf d < joined.idxOf e) ∧
    ∀ other : Int, Layout.SameLayers l.layers (f.layout other).layers ∧
      l.edges = (f.layout other).edges ∧ l.backEdges = (f.layout other).backEdges ∧
      l.hasCycles = (f.layout other).hasCycles := by
  dsimp only
  refine ⟨f.layers_ne_nil passes, f.layout_layers_perm passes,
    Layout.nodes_index (f.layout_layers_perm passes), fun slot hslot => ⟨?_, ?_⟩,
    Sequence.nodup_distinct _, fun e => Sequence.mem_distinct, ?_, fun other => ⟨?_, rfl, rfl, rfl⟩⟩
  · have hscreen := List.getElem?_eq_getElem (depth_of_mem_nodes hslot).1
    exact ⟨_, hscreen, (Layout.mem_nodes.1 hslot).1.trans (nameAt_eq hscreen)⟩
  · exact (Layout.mem_nodes.1 hslot).2
  · have hsorted : (f.resolved.map fun k => (k.source, k.target)).Pairwise
        fun d e => d.1 ≤ e.1 := by
      rw [List.pairwise_map]
      exact f.resolved_sorted
    exact (hsorted.sublist (Sequence.distinct_sublist _)).and (Sequence.distinct_pairwise _)
  · exact (f.layout_sameLayers passes).trans (f.layout_sameLayers other).symm

end Flow

end Storyboard
