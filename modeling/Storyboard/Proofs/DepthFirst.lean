import Mathlib.Data.List.Chain
import Mathlib.Data.List.Nodup
import Mathlib.Data.List.Perm.Subperm
import Mathlib.Logic.Relation
import Storyboard.Digraph.Search

/-!
# What a depth-first search does

The search is written as a recursion. Here it is taken apart into its single
steps: a node is entered, an edge back to the path is noted, or the last node
of the path is left. `Moment` is what the search has at hand between two
steps, and every fact about a whole search is an invariant of `Moment.Step`.

The invariant rests on one list, `Moment.order`: the nodes entered so far in
the order in which they would be left, latest first, if the search went back
at once. Leaving a node does not change this list and entering one only puts a
node in between, so that the order of two nodes in it is settled for good as
soon as both have been entered.

## Main results

* `Moment.Step.sound`, `Moment.Run.sound` — the invariant `Moment.Sound` of
  one step and of a run.
* `Digraph.visit_run`, `Digraph.search_run` — the recursion performs a run of
  steps, and it leaves every node it is started at.
* `Digraph.topological_perm` — the search leaves every node once.
* `Digraph.mem_backEdges_iff` — the back edges are the edges that do not go
  forward in the order of leaving.
* `Digraph.reflTransGen_of_mem_backEdges` — a back edge closes a cycle of
  edges that do.
-/

namespace Storyboard

open Relation

namespace Digraph

/-- Whether an edge leads from `a` to `b`. -/
def Edge (g : Digraph) (a b : Nat) : Prop := (a, b) ∈ g.edges

/-- Whether every edge joins two nodes of the graph. -/
def Closed (g : Digraph) : Prop := ∀ a b, g.Edge a b → a < g.size ∧ b < g.size

/-- An edge that goes forward in a list of nodes. -/
def Forward (g : Digraph) (order : List Nat) (a b : Nat) : Prop :=
  g.Edge a b ∧ [a, b].Sublist order

theorem Forward.mono {g : Digraph} {order wider : List Nat} {a b : Nat}
    (h : g.Forward order a b) (hsub : order.Sublist wider) : g.Forward wider a b :=
  ⟨h.1, h.2.trans hsub⟩

end Digraph

/-! ## Steps -/

/-- What a search has between two steps: the path of nodes entered and not yet
left, latest first, and what has been done. -/
structure Moment where
  path : List Nat
  walk : Walk

namespace Moment

/-- The nodes entered, in the order in which they are left if the search goes
back at once, latest first. -/
def order (m : Moment) : List Nat := m.path.reverse ++ m.walk.left

/-- One step of a search. A node is left only when each edge out of it is a
back edge or leads to a node left before. -/
inductive Step (g : Digraph) : Moment → Moment → Prop
  | enter {path : List Nat} {w : Walk} {v : Nat} (hsize : v < g.size) (hnew : v ∉ w.entered)
      (hedge : ∀ p ∈ path.head?, g.Edge p v) : Step g ⟨path, w⟩ ⟨v :: path, w.enter v⟩
  | close {path : List Nat} {w : Walk} {v d : Nat} (hedge : g.Edge v d) (hpath : d ∈ v :: path) :
      Step g ⟨v :: path, w⟩ ⟨v :: path, w.close (v, d)⟩
  | leave {path : List Nat} {w : Walk} {v : Nat}
      (hdone : ∀ d, g.Edge v d → (v, d) ∈ w.back ∨ d ∈ w.left) :
      Step g ⟨v :: path, w⟩ ⟨path, w.leave v⟩

/-- Any number of steps of a search. -/
def Run (g : Digraph) : Moment → Moment → Prop := ReflTransGen (Step g)

/-- The invariant of a search: the nodes entered are those of the order, each
once; the path follows edges; the edges out of a node that was left have been
dealt with; and a back edge leads back along edges that go forward. -/
structure Sound (g : Digraph) (m : Moment) : Prop where
  entered : ∀ v, v ∈ m.walk.entered ↔ v ∈ m.order
  nodup : m.order.Nodup
  lt : ∀ v ∈ m.order, v < g.size
  chain : m.path.IsChain fun a b => g.Edge b a
  back : ∀ u d, (u, d) ∈ m.walk.back →
    g.Edge u d ∧ ReflTransGen (g.Forward m.order) d u
  done : ∀ u ∈ m.walk.left, ∀ d, g.Edge u d → (u, d) ∈ m.walk.back ∨ [u, d].Sublist m.order

variable {g : Digraph} {m n : Moment}

/-- No step changes the order of two nodes entered before it. -/
theorem Step.order_sublist (h : Step g m n) : m.order.Sublist n.order := by
  cases h with
  | enter hsize hnew hedge =>
      simp only [order, List.reverse_cons, Walk.enter]
      exact (List.sublist_append_left _ _).append_right _
  | close hedge hpath => exact List.Sublist.refl _
  | leave hdone => simp [order, Walk.leave]

/-- No step forgets a back edge or a node that was left. -/
theorem Step.keeps (h : Step g m n) :
    m.walk.back ⊆ n.walk.back ∧ m.walk.left ⊆ n.walk.left := by
  cases h with
  | enter hsize hnew hedge => exact ⟨List.Subset.refl _, List.Subset.refl _⟩
  | close hedge hpath => exact ⟨List.subset_append_left _ _, List.Subset.refl _⟩
  | leave hdone => exact ⟨List.Subset.refl _, List.subset_cons_self _ _⟩

theorem Run.order_sublist (h : Run g m n) : m.order.Sublist n.order := by
  induction h with
  | refl => exact List.Sublist.refl _
  | tail _ hstep ih => exact ih.trans hstep.order_sublist

theorem Run.keeps (h : Run g m n) :
    m.walk.back ⊆ n.walk.back ∧ m.walk.left ⊆ n.walk.left := by
  induction h with
  | refl => exact ⟨List.Subset.refl _, List.Subset.refl _⟩
  | tail _ hstep ih =>
      exact ⟨List.Subset.trans ih.1 hstep.keeps.1, List.Subset.trans ih.2 hstep.keeps.2⟩

/-! ## The invariant -/

/-- From any node of a path that follows edges, the last node is reached along
edges that go forward in every list that holds the path backwards. -/
theorem forward_of_mem_path {order : List Nat} :
    ∀ {path : List Nat} {v d : Nat},
      (v :: path).IsChain (fun a b => g.Edge b a) → (v :: path).reverse.Sublist order →
      d ∈ v :: path → ReflTransGen (g.Forward order) d v := by
  intro path
  induction path with
  | nil =>
      intro v d _ _ hd
      rw [List.mem_singleton.1 hd]
  | cons p path ih =>
      intro v d hchain hsub hd
      rw [List.isChain_cons_cons] at hchain
      rcases List.mem_cons.1 hd with rfl | hd
      · exact ReflTransGen.refl
      · have hlast : [p, v].Sublist (v :: p :: path).reverse := by simp
        have hrest : (p :: path).reverse.Sublist (v :: p :: path).reverse := by simp
        have hstep : g.Forward order p v := ⟨hchain.1, hlast.trans hsub⟩
        exact (ih hchain.2 (hrest.trans hsub) hd).tail hstep

/-- One step keeps the invariant. -/
theorem Step.sound (h : Step g m n) (hm : Sound g m) : Sound g n := by
  have hsub := h.order_sublist
  have hback : ∀ u d, (u, d) ∈ m.walk.back →
      g.Edge u d ∧ ReflTransGen (g.Forward n.order) d u := by
    intro u d hud
    obtain ⟨hedge, hreach⟩ := hm.back u d hud
    exact ⟨hedge, ReflTransGen.mono (fun _ _ hf => hf.mono hsub) _ _ hreach⟩
  have hdone' : ∀ u ∈ m.walk.left, ∀ d, g.Edge u d →
      (u, d) ∈ m.walk.back ∨ [u, d].Sublist n.order := by
    intro u hu d hud
    exact (hm.done u hu d hud).imp_right fun hs => hs.trans hsub
  cases h with
  | @enter path w v hsize hnew hedge =>
      have hperm : (Moment.order ⟨v :: path, w.enter v⟩).Perm (v :: Moment.order ⟨path, w⟩) := by
        simp only [order, List.reverse_cons, List.append_assoc, List.singleton_append]
        exact List.perm_middle
      have hout : v ∉ Moment.order ⟨path, w⟩ := fun hv => hnew ((hm.entered v).2 hv)
      refine ⟨?_, ?_, ?_, ?_, hback, hdone'⟩
      · intro u
        rw [hperm.mem_iff, List.mem_cons, ← hm.entered u]
        simp [Walk.enter]
      · exact hperm.nodup_iff.2 (List.nodup_cons.2 ⟨hout, hm.nodup⟩)
      · intro u hu
        rcases List.mem_cons.1 (hperm.mem_iff.1 hu) with rfl | hu
        · exact hsize
        · exact hm.lt u hu
      · exact List.IsChain.cons hm.chain hedge
  | @close path w v d hedge hpath =>
      refine ⟨hm.entered, hm.nodup, hm.lt, hm.chain, ?_, ?_⟩
      · intro u e hue
        rcases List.mem_append.1 hue with hold | hnew
        · exact hback u e hold
        · obtain ⟨rfl, rfl⟩ := Prod.mk.inj (List.mem_singleton.1 hnew)
          exact ⟨hedge, forward_of_mem_path hm.chain (List.sublist_append_left _ _) hpath⟩
      · intro u hu e hue
        exact (hm.done u hu e hue).imp_left fun hold => List.mem_append_left _ hold
  | @leave path w v hdone =>
      have heq : Moment.order ⟨path, w.leave v⟩ = Moment.order ⟨v :: path, w⟩ := by
        simp [order, Walk.leave]
      refine ⟨?_, heq ▸ hm.nodup, heq ▸ hm.lt, hm.chain.tail, hback, ?_⟩
      · intro u
        rw [heq]
        exact hm.entered u
      · intro u hu d hud
        rcases List.mem_cons.1 hu with rfl | hu
        · apply (hdone d hud).imp_right
          intro hd
          have hpair : [u, d].Sublist (u :: w.left) :=
            (List.singleton_sublist.2 hd).cons_cons u
          exact hpair.trans (List.sublist_append_right path.reverse (u :: w.left))
        · exact hdone' u hu d hud

/-- A run keeps the invariant. -/
theorem Run.sound (h : Run g m n) (hm : Sound g m) : Sound g n := by
  induction h with
  | refl => exact hm
  | tail _ hstep ih => exact hstep.sound ih

/-- The invariant holds before the search. -/
theorem sound_start (g : Digraph) : Sound g ⟨[], {}⟩ := by
  refine ⟨?_, ?_, ?_, List.IsChain.nil, ?_, ?_⟩ <;> simp [order]

/-- A node that has not been entered leaves room for one more in the order. -/
theorem Sound.length_lt {v : Nat} (hm : Sound g m) (hsize : v < g.size)
    (hnew : v ∉ m.walk.entered) : m.order.length < g.size := by
  have hnodup : (v :: m.order).Nodup :=
    List.nodup_cons.2 ⟨fun hv => hnew ((hm.entered v).2 hv), hm.nodup⟩
  have hrange : v :: m.order ⊆ List.range g.size := by
    intro u hu
    rcases List.mem_cons.1 hu with rfl | hu
    · exact List.mem_range.2 hsize
    · exact List.mem_range.2 (hm.lt u hu)
  have hlen := (List.subperm_of_subset hnodup hrange).length_le
  rw [List.length_cons, List.length_range] at hlen
  omega

end Moment

/-! ## The recursion as a run -/

namespace Digraph

open Moment

/-- What the search does with the edge from `v` to `d`, having come to `v`
along `path`. -/
def follow (g : Digraph) (depth : Nat) (path : List Nat) (v : Nat) (w : Walk) (d : Nat) : Walk :=
  if d ∈ w.entered then
    if d ∈ v :: path then w.close (v, d) else w
  else g.visit depth (v :: path) d w

theorem visit_succ (g : Digraph) (depth : Nat) (path : List Nat) (v : Nat) (w : Walk) :
    g.visit (depth + 1) path v w =
      ((g.next v).foldl (g.follow depth path v) (w.enter v)).leave v := rfl

/-- That the search from a node not entered before is a run that leaves the
node, if it may go deep enough for the nodes that are left. -/
def VisitRuns (g : Digraph) (depth : Nat) : Prop :=
  ∀ (path : List Nat) (v : Nat) (w : Walk), Sound g ⟨path, w⟩ → v < g.size → v ∉ w.entered →
    (∀ p ∈ path.head?, g.Edge p v) → g.size ≤ depth + (Moment.order ⟨path, w⟩).length →
    Run g ⟨path, w⟩ ⟨path, g.visit depth path v w⟩ ∧ v ∈ (g.visit depth path v w).left

variable {g : Digraph}

/-- Following one edge is a run, after which the edge is a back edge or leads
to a node that was left. -/
theorem follow_run {depth : Nat} (hvisit : g.VisitRuns depth) (hg : g.Closed)
    {path : List Nat} {v d : Nat} {w : Walk} (hw : Sound g ⟨v :: path, w⟩) (hedge : g.Edge v d)
    (hdepth : g.size ≤ depth + (Moment.order ⟨v :: path, w⟩).length) :
    Run g ⟨v :: path, w⟩ ⟨v :: path, g.follow depth path v w d⟩ ∧
      ((v, d) ∈ (g.follow depth path v w d).back ∨ d ∈ (g.follow depth path v w d).left) := by
  unfold follow
  by_cases hent : d ∈ w.entered
  · by_cases hpath : d ∈ v :: path
    · rw [if_pos hent, if_pos hpath]
      refine ⟨ReflTransGen.single (Step.close hedge hpath), Or.inl ?_⟩
      exact List.mem_append_right _ (List.mem_singleton_self _)
    · rw [if_pos hent, if_neg hpath]
      refine ⟨ReflTransGen.refl, Or.inr ?_⟩
      rcases List.mem_append.1 ((hw.entered d).1 hent) with hd | hd
      · exact absurd (List.mem_reverse.1 hd) hpath
      · exact hd
  · rw [if_neg hent]
    have hlast : ∀ p ∈ (v :: path).head?, g.Edge p d := by
      intro p hp
      rw [← Option.some.inj hp]
      exact hedge
    obtain ⟨hrun, hleft⟩ := hvisit (v :: path) d w hw (hg v d hedge).2 hent hlast hdepth
    exact ⟨hrun, Or.inr hleft⟩

/-- Following edges in order is a run, after which each of them is a back edge
or leads to a node that was left. -/
theorem foldl_follow_run {depth : Nat} (hvisit : g.VisitRuns depth) (hg : g.Closed)
    {path : List Nat} {v : Nat} :
    ∀ (ds : List Nat) (w : Walk), Sound g ⟨v :: path, w⟩ → (∀ d ∈ ds, g.Edge v d) →
      g.size ≤ depth + (Moment.order ⟨v :: path, w⟩).length →
      Run g ⟨v :: path, w⟩ ⟨v :: path, ds.foldl (g.follow depth path v) w⟩ ∧
        ∀ d ∈ ds, (v, d) ∈ (ds.foldl (g.follow depth path v) w).back ∨
          d ∈ (ds.foldl (g.follow depth path v) w).left := by
  intro ds
  induction ds with
  | nil =>
      intro w _ _ _
      exact ⟨ReflTransGen.refl, by simp⟩
  | cons d ds ih =>
      intro w hw hedges hdepth
      obtain ⟨hrun, hd⟩ := follow_run hvisit hg hw (hedges d (by simp)) hdepth
      have hgrow := hrun.order_sublist.length_le
      obtain ⟨hruns, hds⟩ := ih (g.follow depth path v w d) (hrun.sound hw)
        (fun e he => hedges e (by simp [he])) (by omega)
      refine ⟨ReflTransGen.trans hrun hruns, ?_⟩
      intro e he
      rcases List.mem_cons.1 he with rfl | he
      · exact hd.imp (fun h => hruns.keeps.1 h) (fun h => hruns.keeps.2 h)
      · exact hds e he

/-- The search from a node is a run that leaves it. -/
theorem visit_run (hg : g.Closed) : ∀ depth, g.VisitRuns depth := by
  intro depth
  induction depth with
  | zero =>
      intro path v w hw hsize hnew _ hdepth
      have hroom := hw.length_lt hsize hnew
      omega
  | succ depth ih =>
      intro path v w hw hsize hnew hedge hdepth
      have henter : Step g ⟨path, w⟩ ⟨v :: path, w.enter v⟩ := Step.enter hsize hnew hedge
      have hlen : (Moment.order ⟨v :: path, w.enter v⟩).length =
          (Moment.order ⟨path, w⟩).length + 1 := by
        simp [order, Walk.enter]
        omega
      obtain ⟨hrun, hdone⟩ := foldl_follow_run ih hg (g.next v) (w.enter v)
        (henter.sound hw) (fun d hd => mem_next.1 hd) (by omega)
      rw [visit_succ]
      have hleave : Step g ⟨v :: path, (g.next v).foldl (g.follow depth path v) (w.enter v)⟩
          ⟨path, ((g.next v).foldl (g.follow depth path v) (w.enter v)).leave v⟩ :=
        Step.leave fun d hd => hdone d (mem_next.2 hd)
      exact ⟨(ReflTransGen.head henter hrun).tail hleave, by simp [Walk.leave]⟩

/-- The search restarted at several nodes in order is a run that leaves each
of them. -/
theorem foldl_visit_run (hg : g.Closed) :
    ∀ (vs : List Nat) (w : Walk), Sound g ⟨[], w⟩ → (∀ v ∈ vs, v < g.size) →
      let final := vs.foldl
        (fun w v => if v ∈ w.entered then w else g.visit g.size [] v w) w
      Run g ⟨[], w⟩ ⟨[], final⟩ ∧ ∀ v ∈ vs, v ∈ final.left := by
  intro vs
  induction vs with
  | nil =>
      intro w _ _
      exact ⟨ReflTransGen.refl, by simp⟩
  | cons v vs ih =>
      intro w hw hsize
      have hfirst : Run g ⟨[], w⟩ ⟨[], if v ∈ w.entered then w else g.visit g.size [] v w⟩ ∧
          v ∈ (if v ∈ w.entered then w else g.visit g.size [] v w).left := by
        by_cases hent : v ∈ w.entered
        · rw [if_pos hent]
          exact ⟨ReflTransGen.refl, by simpa [order] using (hw.entered v).1 hent⟩
        · rw [if_neg hent]
          exact visit_run hg g.size [] v w hw (hsize v (by simp)) hent (by simp) (by omega)
      obtain ⟨hrun, hv⟩ := hfirst
      obtain ⟨hruns, hvs⟩ := ih _ (hrun.sound hw) (fun u hu => hsize u (by simp [hu]))
      refine ⟨ReflTransGen.trans hrun hruns, ?_⟩
      intro u hu
      rcases List.mem_cons.1 hu with rfl | hu
      · exact hruns.keeps.2 hv
      · exact hvs u hu

/-- The search of the whole graph is a run that leaves every node. -/
theorem search_run (hg : g.Closed) :
    Run g ⟨[], {}⟩ ⟨[], g.search⟩ ∧ ∀ v < g.size, v ∈ g.search.left := by
  obtain ⟨hrun, hall⟩ := foldl_visit_run hg (List.range g.size) {} (sound_start g)
    (fun v hv => List.mem_range.1 hv)
  exact ⟨hrun, fun v hv => hall v (List.mem_range.2 hv)⟩

theorem search_sound (hg : g.Closed) : Sound g ⟨[], g.search⟩ :=
  (search_run hg).1.sound (sound_start g)

/-! ## The order of leaving -/

/-- The search leaves every node once. -/
theorem topological_perm (hg : g.Closed) : g.topological.Perm (List.range g.size) := by
  have hsound := search_sound hg
  apply (List.perm_ext_iff_of_nodup hsound.nodup List.nodup_range).2
  intro v
  rw [List.mem_range]
  exact ⟨hsound.lt v, (search_run hg).2 v⟩

/-- A pair that goes forward in a list without repetitions has its parts at
increasing positions. -/
theorem idxOf_lt_of_sublist {order : List Nat} (hnodup : order.Nodup) {a b : Nat}
    (h : [a, b].Sublist order) : order.idxOf a < order.idxOf b := by
  have hpair : order.Pairwise fun a b => order.idxOf a < order.idxOf b := by
    rw [List.pairwise_iff_getElem]
    intro i j hi hj hij
    rw [hnodup.idxOf_getElem i hi, hnodup.idxOf_getElem j hj]
    exact hij
  exact List.pairwise_iff_forall_sublist.1 hpair h

/-- Along edges that go forward in a list without repetitions, positions do
not decrease. -/
theorem idxOf_le_of_forward {order : List Nat} (hnodup : order.Nodup) {a b : Nat}
    (h : ReflTransGen (g.Forward order) a b) : order.idxOf a ≤ order.idxOf b := by
  induction h with
  | refl => exact Nat.le_refl _
  | tail _ hstep ih => exact Nat.le_trans ih (Nat.le_of_lt (idxOf_lt_of_sublist hnodup hstep.2))

/-- The back edges are the edges that do not go forward in the order of
leaving. -/
theorem mem_backEdges_iff (hg : g.Closed) {u d : Nat} :
    (u, d) ∈ g.backEdges ↔ g.Edge u d ∧ ¬[u, d].Sublist g.topological := by
  have hsound := search_sound hg
  constructor
  · intro h
    obtain ⟨hedge, hreach⟩ := hsound.back u d h
    refine ⟨hedge, fun hforward => ?_⟩
    have hdown := idxOf_le_of_forward hsound.nodup hreach
    have hup := idxOf_lt_of_sublist hsound.nodup hforward
    exact absurd hup (Nat.not_lt_of_le hdown)
  · rintro ⟨hedge, hnot⟩
    exact (hsound.done u ((search_run hg).2 u (hg u d hedge).1) d hedge).resolve_right hnot

/-- The edges that are not back edges go forward in the order of leaving. -/
theorem edge_without_backEdges_iff (hg : g.Closed) {u d : Nat} :
    (g.without g.backEdges).Edge u d ↔ g.Forward g.topological u d := by
  rw [Edge, mem_edges_without, mem_backEdges_iff hg, Forward, Edge]
  tauto

/-- A back edge closes a cycle of edges that are not back edges. -/
theorem reflTransGen_of_mem_backEdges (hg : g.Closed) {u d : Nat}
    (h : (u, d) ∈ g.backEdges) : ReflTransGen (g.without g.backEdges).Edge d u := by
  have hreach := ((search_sound hg).back u d h).2
  exact ReflTransGen.mono (fun _ _ hf => (edge_without_backEdges_iff hg).2 hf) _ _ hreach

/-- No cycle is left without the back edges. -/
theorem not_transGen_without_backEdges (hg : g.Closed) (v : Nat) :
    ¬TransGen (g.without g.backEdges).Edge v v := by
  intro h
  have hnodup := (search_sound hg).nodup
  have hmono : ∀ {b}, TransGen (g.without g.backEdges).Edge v b →
      g.topological.idxOf v < g.topological.idxOf b := by
    intro b hb
    induction hb with
    | single hstep =>
        exact idxOf_lt_of_sublist hnodup ((edge_without_backEdges_iff hg).1 hstep).2
    | tail _ hstep ih =>
        exact ih.trans (idxOf_lt_of_sublist hnodup ((edge_without_backEdges_iff hg).1 hstep).2)
  exact Nat.lt_irrefl _ (hmono h)

end Digraph

end Storyboard
