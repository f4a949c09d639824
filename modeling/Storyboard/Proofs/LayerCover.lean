import Mathlib.Algebra.Order.Ring.Rat
import Mathlib.Data.List.Forall2
import Mathlib.Data.List.Nodup
import Storyboard.Layout
import Storyboard.Proofs.Sequence

/-!
# Layers hold every screen once

Every node of a graph has one depth and stands in the layer of that depth.
Ordering the layers moves screens only within their layers, and the rows in
which cards are placed are the layers again. So whatever the flow, its screens
are all laid out and none is laid out twice.

## Main results

* `Digraph.layers_perm` — the layers together are the nodes.
* `Layout.sweeps_perm` — ordering permutes each layer.
* `Layout.Settled`, `Layout.sweeps_of_settled` — layers that ordering leaves as they
  are.
* `Flow.layout_layers_perm` — the layers of a layout together are the screens.
* `Layout.rows_perm` — the rows together are the cards placed.
-/

namespace Storyboard

/-! ## Layers by depth -/

namespace Digraph

theorem size_assignDepths (g : Digraph) :
    ∀ (order : List Nat) (depths : Array Nat),
      (g.assignDepths order depths).size = depths.size := by
  intro order
  induction order with
  | nil =>
      intro depths
      rfl
  | cons v rest ih =>
      intro depths
      rw [assignDepths, ih, Array.size_setIfInBounds]

theorem size_depths (g : Digraph) (order : List Nat) : (g.depths order).size = g.size := by
  rw [depths, size_assignDepths, Array.size_replicate]

/-- The number of layers of some depths is above each of them. -/
theorem lt_foldl_count {ds : List Nat} :
    ∀ {n : Nat}, n ≤ ds.foldl (fun n d => max n (d + 1)) n ∧
      ∀ d ∈ ds, d < ds.foldl (fun n d => max n (d + 1)) n := by
  induction ds with
  | nil =>
      intro n
      exact ⟨Nat.le_refl n, by simp⟩
  | cons e ds ih =>
      intro n
      obtain ⟨hstart, hrest⟩ := @ih (max n (e + 1))
      refine ⟨by rw [List.foldl_cons]; omega, ?_⟩
      intro d hd
      rw [List.foldl_cons]
      rcases List.mem_cons.1 hd with rfl | hd
      · omega
      · exact hrest d hd

/-- The layers of a graph hold each of its nodes once. -/
theorem layers_perm (g : Digraph) (order : List Nat) :
    (g.layers order).flatten.Perm (List.range g.size) := by
  refine (List.perm_ext_iff_of_nodup ?_ List.nodup_range).2 fun v => ?_
  · rw [layers, List.nodup_flatten]
    constructor
    · intro layer hlayer
      obtain ⟨k, -, rfl⟩ := List.mem_map.1 hlayer
      exact List.nodup_range.filter _
    · rw [List.pairwise_map]
      refine List.nodup_range.imp fun {j k} hjk => ?_
      intro v hj hk
      have hdj := (List.mem_filter.1 hj).2
      have hdk := (List.mem_filter.1 hk).2
      rw [decide_eq_true_eq] at hdj hdk
      exact hjk (hdj.symm.trans hdk)
  · rw [List.mem_flatten]
    constructor
    · rintro ⟨layer, hlayer, hv⟩
      obtain ⟨k, -, rfl⟩ := List.mem_map.1 hlayer
      exact (List.mem_filter.1 hv).1
    · intro hv
      have hlt : v < (g.depths order).size := by
        rw [size_depths]
        exact List.mem_range.1 hv
      have hmem : (g.depths order).getD v 0 ∈ (g.depths order).toList := by
        simp [Array.getD, hlt]
      have hcount : (g.depths order).getD v 0 <
          (g.depths order).foldl (fun n d => max n (d + 1)) 0 := by
        rw [← Array.foldl_toList]
        exact lt_foldl_count.2 _ hmem
      refine ⟨_, List.mem_map.2 ⟨(g.depths order).getD v 0, List.mem_range.2 hcount, rfl⟩, ?_⟩
      exact List.mem_filter.2 ⟨hv, by simp⟩

end Digraph

/-! ## Ordering within layers -/

namespace Layout

/-- Layers that differ only in the order within each. -/
abbrev SameLayers : List (List Nat) → List (List Nat) → Prop := List.Forall₂ List.Perm

theorem SameLayers.refl (layers : List (List Nat)) : SameLayers layers layers :=
  List.forall₂_same.2 fun layer _ => List.Perm.refl layer

theorem SameLayers.trans {a b c : List (List Nat)} (h : SameLayers a b) (k : SameLayers b c) :
    SameLayers a c := by
  induction h generalizing c with
  | nil => exact k
  | cons hhead _ ih =>
      cases k with
      | cons khead ktail => exact List.Forall₂.cons (hhead.trans khead) (ih ktail)

private theorem SameLayers.flatten_perm {a b : List (List Nat)} (h : SameLayers a b) :
    a.flatten.Perm b.flatten := by
  induction h with
  | nil => exact List.Perm.refl _
  | cons hhead _ ih =>
      rw [List.flatten_cons, List.flatten_cons]
      exact hhead.append ih

theorem arrange_perm (neighbours : Nat → List Nat) (layer reference : List Nat) :
    (arrange neighbours layer reference).Perm layer := by
  have hsorted := (List.mergeSort_perm
    (layer.map fun v => (meanPosition neighbours layer reference v, v))
    fun a b => decide (a.1 ≤ b.1)).map (·.2)
  rw [List.map_map] at hsorted
  have hid : ((fun e : Rat × Nat => e.2) ∘ fun v =>
      (meanPosition neighbours layer reference v, v)) = id := rfl
  rw [hid, List.map_id] at hsorted
  exact hsorted

theorem sweepBelow_perm (g : Digraph) :
    ∀ (layers : List (List Nat)) (above : List Nat),
      SameLayers (sweepBelow g above layers) layers := by
  intro layers
  induction layers with
  | nil =>
      intro above
      exact List.Forall₂.nil
  | cons layer rest ih =>
      intro above
      exact List.Forall₂.cons (arrange_perm g.prev layer above) (ih _)

private theorem sweepDown_perm (g : Digraph) (layers : List (List Nat)) :
    SameLayers (sweepDown g layers) layers := by
  cases layers with
  | nil => exact List.Forall₂.nil
  | cons top rest => exact List.Forall₂.cons (List.Perm.refl top) (sweepBelow_perm g rest top)

theorem sweepUp_perm (g : Digraph) (layers : List (List Nat)) :
    SameLayers (sweepUp g layers) layers := by
  induction layers with
  | nil => exact List.Forall₂.nil
  | cons layer rest ih =>
      unfold sweepUp
      split
      · rename_i hnone
        rw [hnone] at ih
        exact List.Forall₂.cons (List.Perm.refl layer) ih
      · rename_i below more hsome
        rw [hsome] at ih
        exact List.Forall₂.cons (arrange_perm g.next layer below) ih

/-- Ordering permutes each layer. -/
theorem sweeps_perm (g : Digraph) :
    ∀ (n : Nat) (layers : List (List Nat)), SameLayers (sweeps g n layers) layers := by
  intro n
  induction n with
  | zero =>
      intro layers
      exact SameLayers.refl layers
  | succ n ih =>
      intro layers
      have hpass : SameLayers (sweep g layers) layers :=
        (sweepUp_perm g _).trans (sweepDown_perm g layers)
      exact (ih (sweep g layers)).trans hpass

/-! ## Layers in order -/

/-- That a layer is in the order of what its nodes are sorted by. -/
def InOrder (neighbours : Nat → List Nat) (layer reference : List Nat) : Prop :=
  layer.Pairwise fun u v =>
    meanPosition neighbours layer reference u ≤ meanPosition neighbours layer reference v

instance (neighbours : Nat → List Nat) (layer reference : List Nat) :
    Decidable (InOrder neighbours layer reference) :=
  inferInstanceAs (Decidable (List.Pairwise _ _))

/-- Sorting leaves a layer that is in order. -/
theorem arrange_of_inOrder {neighbours : Nat → List Nat} {layer reference : List Nat}
    (h : InOrder neighbours layer reference) : arrange neighbours layer reference = layer := by
  unfold arrange
  dsimp only
  rw [List.mergeSort_of_pairwise]
  · rw [List.map_map]
    exact List.map_id layer
  · rw [List.pairwise_map]
    exact h.imp fun hle => decide_eq_true hle

/-- That every layer is in order, both by the layer above it and by the layer below
it. -/
def Settled (g : Digraph) : List (List Nat) → Prop :=
  List.IsChain fun above below => InOrder g.prev below above ∧ InOrder g.next above below

instance (g : Digraph) (layers : List (List Nat)) : Decidable (Settled g layers) :=
  inferInstanceAs (Decidable (List.IsChain _ _))

private theorem sweepBelow_of_settled {g : Digraph} {layers : List (List Nat)} :
    ∀ {above : List Nat}, Settled g (above :: layers) → sweepBelow g above layers = layers := by
  induction layers with
  | nil =>
      intro above _
      rfl
  | cons layer rest ih =>
      intro above h
      have hfirst := List.isChain_cons_cons.1 h
      rw [sweepBelow, arrange_of_inOrder hfirst.1.1, ih hfirst.2]

private theorem sweepUp_of_settled {g : Digraph} {layers : List (List Nat)} (h : Settled g layers) :
    sweepUp g layers = layers := by
  induction layers with
  | nil => rfl
  | cons layer rest ih =>
      cases rest with
      | nil => rfl
      | cons below more =>
          have hfirst := List.isChain_cons_cons.1 h
          rw [sweepUp, ih hfirst.2]
          dsimp only
          rw [arrange_of_inOrder hfirst.1.2]

/-- Layers that are in order stay as they are, however many passes there are. -/
theorem sweeps_of_settled {g : Digraph} {layers : List (List Nat)} (h : Settled g layers)
    (n : Nat) : sweeps g n layers = layers := by
  have hdown : sweepDown g layers = layers := by
    cases layers with
    | nil => rfl
    | cons top rest => rw [sweepDown, sweepBelow_of_settled h]
  induction n with
  | zero => rfl
  | succ n ih => rw [sweeps, sweep, hdown, sweepUp_of_settled h, ih]

end Layout

/-- The layers of a layout hold each screen once. -/
theorem Flow.layout_layers_perm (f : Flow) (passes : Int) :
    (f.layout passes).layers.flatten.Perm (List.range f.size) :=
  (Layout.sweeps_perm _ _ _).flatten_perm.trans (Digraph.layers_perm _ _)

/-- The layout of a flow whose layers are in order from the start. -/
theorem Flow.layout_of_settled {f : Flow} (back : List (Nat × Nat)) (layers : List (List Nat))
    (hback : (if !f.digraph.isAcyclic then f.digraph.search.back else []) = back)
    (hsorted : back.Pairwise fun a b => pairLe a b = true)
    (hlayers : (f.digraph.without back).layers f.digraph.search.left = layers)
    (hsettled : Layout.Settled (f.digraph.without back) layers) (passes : Int) :
    f.layout passes = ⟨layers, f.digraph.edges, back, !f.digraph.isAcyclic⟩ := by
  unfold layout
  dsimp only
  rw [hback, hlayers, Layout.sweeps_of_settled hsettled, List.mergeSort_of_pairwise hsorted]

theorem Flow.nodup_of_mem_layers (f : Flow) (passes : Int) :
    ∀ layer ∈ (f.layout passes).layers, layer.Nodup := by
  have hflat := (f.layout_layers_perm passes).nodup_iff.2 List.nodup_range
  exact (List.nodup_flatten.1 hflat).1

/-! ## Rows -/

namespace Layout

theorem flatten_filter_not_isEmpty (layers : List (List Nat)) :
    (layers.filter (!·.isEmpty)).flatten = layers.flatten := by
  induction layers with
  | nil => rfl
  | cons layer rest ih =>
      cases layer with
      | nil => simpa using ih
      | cons v vs => simp [ih]

/-- If the layout tells screens apart, its rows hold each card placed once. -/
theorem rows_perm {l : Layout} (h : l.layers.flatten.Nodup) (placed : Nat) :
    (l.rows placed).flatten.Perm (List.range placed) := by
  have hknown : ((l.layers.map fun layer => layer.filter (· < placed)).filter
      (!·.isEmpty)).flatten = l.layers.flatten.filter (· < placed) := by
    rw [flatten_filter_not_isEmpty, List.filter_flatten]
  have hall : (l.layers.flatten.filter (· < placed) ++ (List.range placed).filter
      fun i => i ∉ l.layers.flatten.filter (· < placed)).Perm (List.range placed) := by
    refine (List.perm_ext_iff_of_nodup ?_ List.nodup_range).2 fun v => ?_
    · refine List.nodup_append'.2 ⟨h.filter _, List.nodup_range.filter _, ?_⟩
      intro v hv hleft
      exact of_decide_eq_true (List.mem_filter.1 hleft).2 hv
    · rw [List.mem_append, List.mem_filter, List.mem_filter, List.mem_range, decide_eq_true_eq,
        decide_eq_true_eq, List.mem_filter, decide_eq_true_eq]
      tauto
  unfold rows
  dsimp only
  split
  · rename_i hnone
    rw [hknown] at hnone ⊢
    rw [List.isEmpty_iff.1 hnone, List.append_nil] at hall
    exact hall
  · rw [List.flatten_append, List.flatten_singleton, hknown]
    exact hall

end Layout

end Storyboard
