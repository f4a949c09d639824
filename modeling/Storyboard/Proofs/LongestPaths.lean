import Mathlib.Order.Bounds.Defs
import Storyboard.Proofs.CycleBreaking
import Storyboard.Proofs.LayerCover

/-!
# Depths are the lengths of longest paths

The depth of a node is worked out once, from the depths that its predecessors
have at that moment. In a topological order these do not change any more, so
that in the end all depths satisfy the equation by which each of them was worked
out: a node is one below its deepest predecessor. Two facts follow, which are
all that is needed of depths: an edge leads deeper, and a node below the top is
entered from just above it. By the first no path is longer than the depth of the
node it ends at, and by the second some path is as long.

## Main results

* `PathInto`, `Deepens` — the paths that end at a node, and the two facts.
* `Deepens.isGreatest` — depths are the lengths of longest paths.
* `Digraph.Sorts.deepens` — depths worked out in topological order.
* `Digraph.Sorts.layers_ne_nil` — no layer is empty.
* `Flow.deepens` — the depths of the screens of a flow.
-/

namespace Storyboard

/-! ## Paths and depths -/

/-- Whether a path of `n` steps along `r` ends at `v`. -/
def PathInto (r : Nat → Nat → Prop) (v n : Nat) : Prop :=
  ∃ path : List Nat, path.IsChain r ∧ path.getLast? = some v ∧ path.length = n + 1

private theorem pathInto_zero (r : Nat → Nat → Prop) (v : Nat) : PathInto r v 0 :=
  ⟨[v], List.isChain_singleton v, rfl, rfl⟩

/-- The last step of a path. -/
theorem pathInto_succ_iff {r : Nat → Nat → Prop} {v n : Nat} :
    PathInto r v (n + 1) ↔ ∃ u, r u v ∧ PathInto r u n := by
  constructor
  · rintro ⟨path, hchain, hlast, hlength⟩
    obtain ⟨before, rfl⟩ := List.getLast?_eq_some_iff.1 hlast
    obtain ⟨hbefore, -, hstep⟩ := List.isChain_append.1 hchain
    have hsome : before ≠ [] := by
      rintro rfl
      simp at hlength
    obtain ⟨u, hu⟩ := Option.ne_none_iff_exists'.1 (mt List.getLast?_eq_none_iff.1 hsome)
    refine ⟨u, hstep u hu v rfl, before, hbefore, hu, ?_⟩
    simpa using hlength
  · rintro ⟨u, hstep, path, hchain, hlast, hlength⟩
    refine ⟨path ++ [v], ?_, List.getLast?_concat, by simp [hlength]⟩
    refine List.isChain_append.2 ⟨hchain, List.isChain_singleton v, ?_⟩
    intro x hx y hy
    rw [Option.mem_def, hlast] at hx
    cases hx
    cases hy
    exact hstep

/-- Depths along `r`: a step leads deeper, and what is not at the top is entered
from just above it. -/
structure Deepens (r : Nat → Nat → Prop) (depth : Nat → Nat) : Prop where
  lt : ∀ a b, r a b → depth a < depth b
  exists_above : ∀ b, 0 < depth b → ∃ a, r a b ∧ depth a + 1 = depth b

namespace Deepens

variable {r : Nat → Nat → Prop} {depth : Nat → Nat}

private theorem le_of_pathInto (h : Deepens r depth) :
    ∀ {n v : Nat}, PathInto r v n → n ≤ depth v := by
  intro n
  induction n with
  | zero =>
      intro v _
      exact Nat.zero_le _
  | succ n ih =>
      intro v hpath
      obtain ⟨u, hstep, hrest⟩ := pathInto_succ_iff.1 hpath
      have hle := ih hrest
      have hlt := h.lt u v hstep
      omega

private theorem pathInto (h : Deepens r depth) : ∀ {n v : Nat}, depth v = n → PathInto r v n := by
  intro n
  induction n with
  | zero =>
      intro v _
      exact pathInto_zero r v
  | succ n ih =>
      intro v hv
      obtain ⟨u, hstep, hu⟩ := h.exists_above v (by omega)
      exact pathInto_succ_iff.2 ⟨u, hstep, ih (by omega)⟩

/-- A depth is the greatest number of steps on a path. -/
theorem isGreatest (h : Deepens r depth) (v : Nat) : IsGreatest {n | PathInto r v n} (depth v) :=
  ⟨h.pathInto rfl, fun _ hpath => h.le_of_pathInto hpath⟩

theorem eq_zero (h : Deepens r depth) {v : Nat} (hnone : ∀ u, ¬r u v) : depth v = 0 := by
  by_contra hne
  obtain ⟨u, hstep, -⟩ := h.exists_above v (by omega)
  exact hnone u hstep

/-- All depths above that of a node occur, each at the node itself or at one
that a step leaves. -/
theorem exists_eq (h : Deepens r depth) {k : Nat} :
    ∀ {n v : Nat}, depth v = k + n → ∃ u, (u = v ∨ ∃ w, r u w) ∧ depth u = k := by
  intro n
  induction n with
  | zero =>
      intro v hv
      exact ⟨v, Or.inl rfl, hv⟩
  | succ n ih =>
      intro v hv
      obtain ⟨a, hstep, ha⟩ := h.exists_above v (by omega)
      obtain ⟨u, hu, hdepth⟩ := ih (v := a) (by omega)
      refine ⟨u, Or.inr ?_, hdepth⟩
      rcases hu with rfl | hleaves
      · exact ⟨v, hstep⟩
      · exact hleaves

end Deepens

/-! ## Depths in topological order -/

namespace Digraph

variable {g : Digraph}

private theorem assignDepths_append (g : Digraph) (done rest : List Nat) :
    ∀ depths : Array Nat,
      g.assignDepths (done ++ rest) depths = g.assignDepths rest (g.assignDepths done depths) := by
  induction done with
  | nil =>
      intro depths
      rfl
  | cons v done ih =>
      intro depths
      exact ih _

/-- Working out the depths of other nodes does not change that of `v`. -/
theorem getD_assignDepths_of_notMem {v : Nat} {order : List Nat} (hv : v ∉ order) :
    ∀ depths : Array Nat, (g.assignDepths order depths).getD v 0 = depths.getD v 0 := by
  induction order with
  | nil =>
      intro depths
      rfl
  | cons u rest ih =>
      intro depths
      have hne : u ≠ v := fun h => hv (h ▸ List.mem_cons_self)
      rw [assignDepths, ih (fun h => hv (List.mem_cons_of_mem u h)), Array.getD_eq_getD_getElem?,
        Array.getElem?_setIfInBounds_ne hne, ← Array.getD_eq_getD_getElem?]

/-- The depth of a node depends on those of its predecessors only. -/
theorem depthOf_congr {depths other : Array Nat} {v : Nat}
    (h : ∀ p ∈ g.prev v, depths.getD p 0 = other.getD p 0) :
    g.depthOf depths v = g.depthOf other v := by
  have hsame : ((g.prev v).map fun p => depths.getD p 0 + 1) =
      (g.prev v).map fun p => other.getD p 0 + 1 :=
    List.map_congr_left fun p hp => by rw [h p hp]
  rw [depthOf, depthOf, hsame]

/-- An order that has every node once, after all nodes that lead to it. -/
structure Sorts (g : Digraph) (order : List Nat) : Prop where
  perm : order.Perm (List.range g.size)
  before : ∀ done v rest, order = done ++ v :: rest → ∀ p ∈ g.prev v, p ∈ done

namespace Sorts

variable {order : List Nat}

/-- In the end, the depth of a node is what its predecessors' depths make it. -/
theorem depths_eq (h : g.Sorts order) {v : Nat} (hv : v < g.size) :
    (g.depths order).getD v 0 = g.depthOf (g.depths order) v := by
  obtain ⟨done, rest, hsplit⟩ :=
    List.append_of_mem (h.perm.mem_iff.2 (List.mem_range.2 hv))
  have hnodup : (done ++ v :: rest).Nodup := hsplit ▸ h.perm.nodup_iff.2 List.nodup_range
  have hbefore := h.before done v rest hsplit
  rw [depths, hsplit, assignDepths_append, assignDepths]
  generalize hstate : g.assignDepths done (Array.replicate g.size 0) = state
  have hsize : v < state.size := by
    rw [← hstate, size_assignDepths, Array.size_replicate]
    exact hv
  have hrest : v ∉ rest := (List.nodup_cons.1 (List.nodup_append'.1 hnodup).2.1).1
  rw [getD_assignDepths_of_notMem hrest, Array.getD_eq_getD_getElem?,
    Array.getElem?_setIfInBounds_self_of_lt hsize, Option.getD_some]
  refine depthOf_congr fun p hp => ?_
  -- the predecessors have had their turn, so neither `v` nor the rest touches them
  have hdone : p ∉ v :: rest := fun hmem => (List.nodup_append'.1 hnodup).2.2 (hbefore p hp) hmem
  exact (getD_assignDepths_of_notMem hdone state).symm

/-- Depths worked out in topological order deepen along edges. -/
theorem deepens (h : g.Sorts order) (hg : g.Closed) :
    Deepens g.Edge fun v => (g.depths order).getD v 0 where
  lt a b hedge := by
    have hmem : (g.depths order).getD a 0 + 1 ∈
        (g.prev b).map fun p => (g.depths order).getD p 0 + 1 :=
      List.mem_map.2 ⟨a, mem_prev.2 hedge, rfl⟩
    have hle := (Sequence.le_foldl_max _ 0).2 _ hmem
    have hb := h.depths_eq (hg a b hedge).2
    rw [depthOf] at hb
    omega
  exists_above b hpos := by
    have hb : b < g.size := by
      by_contra hout
      have hnone : (g.depths order)[b]? = none := by
        rw [Array.getElem?_eq_none_iff, size_depths]
        omega
      rw [Array.getD_eq_getD_getElem?, hnone] at hpos
      exact Nat.lt_irrefl 0 hpos
    rw [h.depths_eq hb, depthOf] at hpos
    rcases Sequence.foldl_max_mem ((g.prev b).map fun p => (g.depths order).getD p 0 + 1) 0
      with hzero | hmem
    · omega
    · obtain ⟨a, ha, heq⟩ := List.mem_map.1 hmem
      exact ⟨a, mem_prev.1 ha, by rw [heq, h.depths_eq hb, depthOf]⟩

end Sorts

/-! ## Layers -/

/-- A layer holds the nodes of its depth. -/
theorem mem_layer_iff {order : List Nat} {k : Nat} {layer : List Nat}
    (h : (g.layers order)[k]? = some layer) {v : Nat} :
    v ∈ layer ↔ v < g.size ∧ (g.depths order).getD v 0 = k := by
  rw [layers, List.getElem?_map, Option.map_eq_some_iff] at h
  obtain ⟨k', hk, rfl⟩ := h
  obtain ⟨_, hget⟩ := List.getElem?_eq_some_iff.1 hk
  rw [List.getElem_range] at hget
  subst hget
  simp

/-- If there is a layer `k`, some node is at least so deep. -/
theorem exists_depth_le_of_lt_count {k : Nat} (ds : List Nat) :
    ∀ {n : Nat}, k < ds.foldl (fun n d => max n (d + 1)) n → k < n ∨ ∃ d ∈ ds, k ≤ d := by
  induction ds with
  | nil =>
      intro n hk
      exact Or.inl hk
  | cons d ds ih =>
      intro n hk
      rcases ih hk with hstart | ⟨e, he, hle⟩
      · dsimp only at hstart
        by_cases hd : k ≤ d
        · exact Or.inr ⟨d, List.mem_cons_self, hd⟩
        · exact Or.inl (by omega)
      · exact Or.inr ⟨e, List.mem_cons_of_mem d he, hle⟩

/-- Depths have no gaps, so that no layer is empty. -/
theorem Sorts.layers_ne_nil {order : List Nat} (h : g.Sorts order) (hg : g.Closed) :
    ∀ layer ∈ g.layers order, layer ≠ [] := by
  intro layer hlayer hnil
  obtain ⟨k, hk⟩ := List.mem_iff_getElem?.1 hlayer
  have hcount : k < (g.depths order).toList.foldl (fun n d => max n (d + 1)) 0 := by
    have hlength := (List.getElem?_eq_some_iff.1 hk).1
    rw [layers, List.length_map, List.length_range, ← Array.foldl_toList] at hlength
    exact hlength
  obtain ⟨d, hd, hle⟩ := (exists_depth_le_of_lt_count _ hcount).resolve_left (by omega)
  obtain ⟨v, hv, hdepth⟩ := List.mem_iff_getElem.1 hd
  have hsize : v < g.size := by
    rw [Array.length_toList, size_depths] at hv
    exact hv
  have hdeep : (g.depths order).getD v 0 = k + (d - k) := by
    rw [Array.getD_eq_getD_getElem?, ← Array.getElem?_toList, List.getElem?_eq_getElem hv, hdepth]
    simp
    omega
  obtain ⟨u, hu, hudepth⟩ := (h.deepens hg).exists_eq hdeep
  have husize : u < g.size := by
    rcases hu with rfl | ⟨w, hedge⟩
    · exact hsize
    · exact (hg u w hedge).1
  have hmem := (mem_layer_iff hk).2 ⟨husize, hudepth⟩
  rw [hnil] at hmem
  exact List.not_mem_nil hmem

end Digraph

/-! ## The screens of a flow -/

namespace Flow

variable (f : Flow)

/-- The depth of a screen along the edges that are kept. -/
def depth (v : Nat) : Nat := (f.kept.depths f.digraph.topological).getD v 0

/-- The order of leaving sorts the graph that is kept. -/
theorem kept_sorts : f.kept.Sorts f.digraph.topological where
  perm := Digraph.topological_perm f.digraph_closed
  before _ _ _ hsplit _ hp := f.mem_of_kept_edge hsplit hp

theorem deepens : Deepens f.kept.Edge f.depth := f.kept_sorts.deepens f.kept_closed

end Flow

end Storyboard
