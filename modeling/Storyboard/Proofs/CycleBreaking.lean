import Mathlib.Order.WellFounded
import Storyboard.Layout
import Storyboard.Proofs.DepthFirst

/-!
# Breaking the cycles of a flow

The layout of a flow sets edges aside so that the rest can be put into
layers. Whether there is a cycle at all is decided by taking nodes away that
no edge enters any more; which edges are set aside is decided by a depth-first
search. The two know nothing of each other, and this module shows that they
agree.

## Main results

* `Digraph.isAcyclic_iff` — taking nodes away finds a cycle exactly if there
  is one.
* `Flow.mem_resolved`, `Flow.digraph_closed` — the links of a flow, and that
  its graph joins only screens of the flow.
* `Flow.kept`, `Flow.mem_of_kept_edge` — the graph without its back edges, whose
  layers can be worked out one after the other.
* `Flow.layout_breaks_cycles` — the edges set aside are edges of the flow,
  without them there is no cycle, each of them closes one, and there are some
  exactly if the flow has a cycle.
-/

namespace Storyboard

open Relation

namespace Digraph

variable {g : Digraph}

/-! ## Taking nodes away -/

/-- A node on a cycle is entered from a node on a cycle. -/
theorem exists_edge_of_transGen_self {v : Nat} (h : TransGen g.Edge v v) :
    ∃ p, g.Edge p v ∧ TransGen g.Edge p p := by
  obtain ⟨p, hreach, hedge⟩ := TransGen.tail'_iff.1 h
  exact ⟨p, hedge, TransGen.head' hedge hreach⟩

/-- Nodes on cycles are never taken away. -/
theorem mem_peel_of_transGen_self :
    ∀ (rounds : Nat) (rest : List Nat), (∀ v, TransGen g.Edge v v → v ∈ rest) →
      ∀ v, TransGen g.Edge v v → v ∈ g.peel rounds rest := by
  intro rounds
  induction rounds with
  | zero =>
      intro rest hrest v hv
      exact hrest v hv
  | succ rounds ih =>
      intro rest hrest v hv
      unfold peel
      dsimp only
      split
      · exact hrest v hv
      · refine ih _ (fun u hu => ?_) v hv
        obtain ⟨p, hedge, hp⟩ := exists_edge_of_transGen_self hu
        refine List.mem_filter.2 ⟨hrest u hu, ?_⟩
        exact List.any_eq_true.2 ⟨p, mem_prev.2 hedge, decide_eq_true (hrest p hp)⟩

/-- Without cycles there are no back edges. -/
theorem backEdges_eq_nil (hg : g.Closed) (h : ∀ v, ¬TransGen g.Edge v v) : g.backEdges = [] := by
  apply List.eq_nil_iff_forall_not_mem.2
  intro e he
  obtain ⟨hedge, -⟩ := (mem_backEdges_iff hg).1 he
  have hreach : ReflTransGen g.Edge e.2 e.1 :=
    ReflTransGen.mono (fun _ _ hk => (mem_edges_without.1 hk).1) _ _
      (reflTransGen_of_mem_backEdges hg he)
  exact h e.1 (TransGen.head' hedge hreach)

/-- Without cycles, some of any nodes are entered from none of them: the first
of them in the order of leaving. -/
theorem exists_not_entered (hg : g.Closed) (h : ∀ v, ¬TransGen g.Edge v v) {rest : List Nat}
    (hne : rest ≠ []) : ∃ v ∈ rest, ∀ p ∈ rest, ¬g.Edge p v := by
  obtain ⟨a, ha⟩ := List.exists_mem_of_ne_nil rest hne
  obtain ⟨v, hv, hmin⟩ :=
    (measure fun u => g.topological.idxOf u).wf.has_min {u | u ∈ rest} ⟨a, ha⟩
  refine ⟨v, hv, fun p hp hedge => hmin p hp ?_⟩
  have hforward : [p, v].Sublist g.topological := by
    by_contra hnot
    have hback := (mem_backEdges_iff hg).2 ⟨hedge, hnot⟩
    rw [backEdges_eq_nil hg h] at hback
    exact List.not_mem_nil hback
  exact idxOf_lt_of_sublist (search_sound hg).nodup hforward

/-- Without cycles, as many rounds as there are nodes take all of them
away. -/
theorem peel_eq_nil (hg : g.Closed) (h : ∀ v, ¬TransGen g.Edge v v) :
    ∀ (rounds : Nat) (rest : List Nat), rest.length ≤ rounds → g.peel rounds rest = [] := by
  intro rounds
  induction rounds with
  | zero =>
      intro rest hlen
      exact List.length_eq_zero_iff.1 (Nat.le_zero.1 hlen)
  | succ rounds ih =>
      intro rest hlen
      by_cases hne : rest = []
      · subst hne
        simp [peel]
      · obtain ⟨v, hv, hfree⟩ := exists_not_entered hg h hne
        have hless : (rest.filter fun v => (g.prev v).any (· ∈ rest)).length < rest.length := by
          refine List.length_filter_lt_length_iff_exists.2 ⟨v, hv, ?_⟩
          intro hany
          obtain ⟨p, hp, hmem⟩ := List.any_eq_true.1 hany
          exact hfree p (of_decide_eq_true hmem) (mem_prev.1 hp)
        unfold peel
        dsimp only
        rw [if_neg (Nat.ne_of_lt hless)]
        exact ih _ (by omega)

/-- Taking nodes away finds a cycle exactly if there is one. -/
theorem isAcyclic_iff (hg : g.Closed) : g.isAcyclic = true ↔ ∀ v, ¬TransGen g.Edge v v := by
  rw [isAcyclic, List.isEmpty_iff]
  constructor
  · intro hnil v hv
    have hrange : ∀ u, TransGen g.Edge u u → u ∈ List.range g.size := by
      intro u hu
      obtain ⟨p, hedge, -⟩ := exists_edge_of_transGen_self hu
      exact List.mem_range.2 (hg p u hedge).2
    have hmem := mem_peel_of_transGen_self g.size (List.range g.size) hrange v hv
    rw [hnil] at hmem
    exact List.not_mem_nil hmem
  · intro h
    exact peel_eq_nil hg h g.size (List.range g.size) (by rw [List.length_range])

/-- There are back edges exactly if there is a cycle. -/
theorem backEdges_ne_nil_iff (hg : g.Closed) :
    g.backEdges ≠ [] ↔ ∃ v, TransGen g.Edge v v := by
  constructor
  · intro hne
    by_contra hnone
    exact hne (backEdges_eq_nil hg fun v hv => hnone ⟨v, hv⟩)
  · rintro ⟨v, hv⟩ hnil
    have hkept : ∀ a b, g.Edge a b → (g.without g.backEdges).Edge a b := by
      intro a b hab
      exact mem_edges_without.2 ⟨hab, by rw [hnil]; exact List.not_mem_nil⟩
    exact not_transGen_without_backEdges hg v (TransGen.mono hkept _ _ hv)

end Digraph

/-! ## The graph of a flow -/

namespace Flow

theorem mem_edges_digraph {f : Flow} {s t : Nat} :
    (s, t) ∈ f.digraph.edges ↔ ∃ l ∈ f.resolved, l.source = s ∧ l.target = t := by
  simp [digraph, Sequence.mem_distinct]

/-- The transitions of a flow are those of its screens, each with the position
of its screen and with what the flow finds under the name of its target. -/
theorem mem_edges {f : Flow} {i : Nat} {target : Option Nat} {t : Transition} :
    (i, target, t) ∈ f.edges ↔
      ∃ s, f.screens[i]? = some s ∧ t ∈ s.transitions ∧ target = f.indexOf? t.target := by
  unfold edges
  rw [List.mem_flatMap]
  constructor
  · rintro ⟨⟨s, j⟩, hscreen, htrans⟩
    obtain ⟨t', ht, heq⟩ := List.mem_map.1 htrans
    cases heq
    exact ⟨s, List.mem_zipIdx_iff_getElem?.1 hscreen, ht, rfl⟩
  · rintro ⟨s, hscreen, ht, rfl⟩
    exact ⟨(s, i), List.mem_zipIdx_iff_getElem?.2 hscreen, List.mem_map.2 ⟨t, ht, rfl⟩⟩

/-- The links of a flow are the transitions whose target is found. -/
theorem mem_resolved {f : Flow} {l : Link} :
    l ∈ f.resolved ↔ ∃ s, f.screens[l.source]? = some s ∧ l.transition ∈ s.transitions ∧
      f.indexOf? l.transition.target = some l.target := by
  unfold resolved
  rw [List.mem_filterMap]
  constructor
  · rintro ⟨⟨i, target, t⟩, hedge, heq⟩
    obtain ⟨d, rfl, rfl⟩ := Option.map_eq_some_iff.1 heq
    obtain ⟨s, hscreen, ht, hindex⟩ := mem_edges.1 hedge
    exact ⟨s, hscreen, ht, hindex.symm⟩
  · rintro ⟨s, hscreen, ht, hindex⟩
    exact ⟨(l.source, some l.target, l.transition), mem_edges.2 ⟨s, hscreen, ht, hindex.symm⟩, rfl⟩

/-- The screens that a link joins. -/
theorem lt_size_of_mem_resolved {f : Flow} {l : Link} (h : l ∈ f.resolved) :
    l.source < f.size ∧ l.target < f.size := by
  obtain ⟨s, hscreen, -, hindex⟩ := mem_resolved.1 h
  constructor
  · exact (List.getElem?_eq_some_iff.1 hscreen).1
  · exact (List.findIdx?_eq_some_iff_getElem.1 hindex).1

/-- The graph of a flow joins only screens of the flow. -/
theorem digraph_closed (f : Flow) : f.digraph.Closed := by
  intro s t h
  obtain ⟨l, hl, rfl, rfl⟩ := mem_edges_digraph.1 h
  exact lt_size_of_mem_resolved hl

end Flow

/-! ## The graph that is kept -/

namespace Flow

variable (f : Flow)

/-- The graph of a flow without the edges that close its cycles. -/
def kept : Digraph := f.digraph.without f.digraph.backEdges

theorem kept_closed : f.kept.Closed := by
  intro a b h
  exact f.digraph_closed a b (Digraph.mem_edges_without.1 h).1

/-- When a screen has its turn in the order of leaving, the screens that lead
to it along edges that are kept have had theirs. -/
theorem mem_of_kept_edge {done rest : List Nat} {v p : Nat}
    (hsplit : f.digraph.topological = done ++ v :: rest) (hp : p ∈ f.kept.prev v) : p ∈ done := by
  have hg := f.digraph_closed
  have hnodup : f.digraph.topological.Nodup :=
    (Digraph.topological_perm hg).nodup_iff.2 List.nodup_range
  have hforward := ((Digraph.edge_without_backEdges_iff hg).1 (Digraph.mem_prev.1 hp)).2
  have hbefore := Digraph.idxOf_lt_of_sublist hnodup hforward
  rw [hsplit] at hbefore hnodup
  by_contra hnot
  have hv : v ∉ done := fun hv => (List.nodup_append'.1 hnodup).2.2 hv (by simp)
  rw [List.idxOf_append_of_notMem hnot, List.idxOf_append_of_notMem hv, List.idxOf_cons_self]
    at hbefore
  omega

end Flow

/-! ## The layout -/

namespace Layout

/-- Whether an edge of the layout leads from `a` to `b`. -/
def Edge (l : Layout) (a b : Nat) : Prop := (a, b) ∈ l.edges

/-- Whether an edge that is not set aside leads from `a` to `b`. -/
def KeptEdge (l : Layout) (a b : Nat) : Prop := (a, b) ∈ l.edges ∧ (a, b) ∉ l.backEdges

end Layout

namespace Flow

variable (f : Flow) (passes : Int)

/-- The back edges of a graph without cycles are none, so that it makes no
difference that the layout does not look for them there. -/
theorem layout_backEdges :
    (f.layout passes).backEdges = f.digraph.backEdges.mergeSort pairLe := by
  have hg := f.digraph_closed
  by_cases hacyclic : f.digraph.isAcyclic = true
  · have hnone := (Digraph.isAcyclic_iff hg).1 hacyclic
    simp [layout, hacyclic, Digraph.backEdges_eq_nil hg hnone]
  · simp [layout, hacyclic, Digraph.backEdges]

private theorem mem_layout_backEdges {e : Nat × Nat} :
    e ∈ (f.layout passes).backEdges ↔ e ∈ f.digraph.backEdges := by
  rw [layout_backEdges]
  exact List.mem_mergeSort

theorem layout_keptEdge : (f.layout passes).KeptEdge = f.kept.Edge := by
  funext a b
  rw [Layout.KeptEdge, mem_layout_backEdges, Digraph.Edge, kept, Digraph.mem_edges_without]
  rfl

/-- The layers of a layout are those of the graph that is kept. -/
theorem layout_layers :
    (f.layout passes).layers =
      Layout.sweeps f.kept passes.toNat (f.kept.layers f.digraph.topological) := by
  have hg := f.digraph_closed
  by_cases hacyclic : f.digraph.isAcyclic = true
  · have hnone := Digraph.backEdges_eq_nil hg ((Digraph.isAcyclic_iff hg).1 hacyclic)
    simp [layout, kept, hacyclic, hnone, Digraph.topological]
  · simp [layout, kept, hacyclic, Digraph.backEdges, Digraph.topological]

/-- The layout breaks the cycles of a flow, whatever its screens are called
and wherever its transitions lead. Its edges are the links between screens.
Those set aside are among them; no cycle is left without them, so that the
order of leaving lists every screen once and all other edges go along it; each
of them closes a cycle with others that are not set aside; and the layout tells
of cycles exactly if there are some, which is exactly if it sets edges aside. -/
theorem layout_breaks_cycles :
    (∀ s t, (f.layout passes).Edge s t ↔ ∃ l ∈ f.resolved, l.source = s ∧ l.target = t) ∧
    (∀ e ∈ (f.layout passes).backEdges, e ∈ (f.layout passes).edges) ∧
    (∀ v, ¬TransGen (f.layout passes).KeptEdge v v) ∧
    (f.digraph.topological.Perm (List.range f.size) ∧
      ∀ u v, (f.layout passes).KeptEdge u v → [u, v].Sublist f.digraph.topological) ∧
    (∀ u v, (u, v) ∈ (f.layout passes).backEdges →
      ReflTransGen (f.layout passes).KeptEdge v u) ∧
    ((f.layout passes).hasCycles = true ↔ ∃ v, TransGen (f.layout passes).Edge v v) ∧
    ((∃ v, TransGen (f.layout passes).Edge v v) ↔ (f.layout passes).backEdges ≠ []) := by
  have hg := f.digraph_closed
  have hedge : (f.layout passes).Edge = f.digraph.Edge := rfl
  rw [layout_keptEdge, hedge]
  refine ⟨fun s t => mem_edges_digraph, ?_, Digraph.not_transGen_without_backEdges hg,
    ⟨Digraph.topological_perm hg, ?_⟩, ?_, ?_, ?_⟩
  · rintro ⟨u, v⟩ he
    exact ((Digraph.mem_backEdges_iff hg).1 ((f.mem_layout_backEdges passes).1 he)).1
  · intro u v hkept
    exact ((Digraph.edge_without_backEdges_iff hg).1 hkept).2
  · intro u v hback
    exact Digraph.reflTransGen_of_mem_backEdges hg ((f.mem_layout_backEdges passes).1 hback)
  · have hcyclic : (f.layout passes).hasCycles = !f.digraph.isAcyclic := rfl
    rw [hcyclic, Bool.not_eq_true', ← Bool.not_eq_true, Digraph.isAcyclic_iff hg]
    push Not
    rfl
  · rw [← Digraph.backEdges_ne_nil_iff hg, layout_backEdges, not_iff_not]
    have hperm := List.mergeSort_perm f.digraph.backEdges pairLe
    exact ⟨fun h => by rw [h, List.mergeSort_nil], fun h => List.perm_nil.1 (h ▸ hperm.symm)⟩

end Flow

end Storyboard
