import Storyboard.Proofs.Slots

/-!
# The entry screen of a flow

The search for cycles starts at the first screen. Until it leaves that screen
again, every screen it enters is entered along an edge from one that it has
entered before, and such an edge is never set aside. So what the first screen
leads to at all, it leads to along edges that are kept.

The rest follows from the absence of cycles among these edges. An edge into the
first screen from a screen that it leads to would close one and is set aside,
and an edge from any other screen closes none and is kept.

## Main results

* `Moment.Step.hangs`, `Moment.Run.hangs` — what a search has entered before it
  leaves the node it began with.
* `Digraph.reflTransGen_kept_iff` — setting edges aside cuts nothing off.
* `Digraph.kept_edge_zero_iff` — which edges into the first node are kept.
* `Flow.layout_keeps_entry` — the first screen of a layout.
-/

namespace Storyboard

open Relation

/-! ## The search from one node -/

namespace Moment

/-- That `root` has been left, or that every node entered is reached from it
along edges that go forward. -/
def Hangs (g : Digraph) (root : Nat) (m : Moment) : Prop :=
  root ∈ m.walk.left ∨ (root ∈ m.path ∧ ∀ v ∈ m.order, ReflTransGen (g.Forward m.order) root v)

variable {g : Digraph} {m n : Moment} {root : Nat}

/-- One step keeps all nodes hanging from the root. -/
theorem Step.hangs (h : Step g m n) (hm : Hangs g root m) : Hangs g root n := by
  rcases hm with hleft | ⟨hpath, hreach⟩
  · exact Or.inl (h.keeps.2 hleft)
  have hsub := h.order_sublist
  have hold : ∀ v ∈ m.order, ReflTransGen (g.Forward n.order) root v := by
    intro v hv
    exact ReflTransGen.mono (fun _ _ hf => hf.mono hsub) _ _ (hreach v hv)
  cases h with
  | @enter path w v hsize hnew hedge =>
      refine Or.inr ⟨List.mem_cons_of_mem v hpath, fun u hu => ?_⟩
      have hcases : u = v ∨ u ∈ Moment.order ⟨path, w⟩ := by
        simp only [order, Walk.enter, List.reverse_cons, List.mem_append,
          List.mem_singleton] at hu ⊢
        tauto
      rcases hcases with rfl | hu
      · -- the path holds the root, so the new node is entered from a node of it
        cases path with
        | nil => exact absurd hpath List.not_mem_nil
        | cons p path =>
            have hp : p ∈ Moment.order ⟨p :: path, w⟩ := by simp [order]
            have hnext : [p, u].Sublist (Moment.order ⟨u :: p :: path, w.enter u⟩) := by
              have hlast : [p, u].Sublist (u :: p :: path).reverse := by simp
              exact hlast.trans (List.sublist_append_left _ _)
            exact (hold p hp).tail ⟨hedge p rfl, hnext⟩
      · exact hold u hu
  | @close path w v d hedge hin => exact Or.inr ⟨hpath, hold⟩
  | @leave path w v hdone =>
      rcases List.mem_cons.1 hpath with rfl | hpath
      · exact Or.inl List.mem_cons_self
      · refine Or.inr ⟨hpath, fun u hu => hold u ?_⟩
        simpa [order, Walk.leave] using hu

/-- A run keeps all nodes hanging from the root. -/
theorem Run.hangs (h : Run g m n) (hm : Hangs g root m) : Hangs g root n := by
  induction h with
  | refl => exact hm
  | tail _ hstep ih => exact hstep.hangs ih

end Moment

namespace Digraph

open Moment

variable {g : Digraph}

/-- The search from one node reaches all that it leaves along edges that go
forward. -/
theorem forward_of_mem_visit (hg : g.Closed) {root : Nat} (hsize : root < g.size) {v : Nat}
    (hv : v ∈ (g.visit g.size [] root {}).left) :
    ReflTransGen (g.Forward (g.visit g.size [] root {}).left) root v := by
  obtain ⟨depth, hdepth⟩ : ∃ depth, g.size = depth + 1 := ⟨g.size - 1, by omega⟩
  rw [hdepth, visit_succ] at hv ⊢
  have henter : Step g ⟨[], {}⟩ ⟨[root], Walk.enter {} root⟩ :=
    Step.enter hsize List.not_mem_nil (by simp)
  have hsound := henter.sound (sound_start g)
  obtain ⟨hrun, -⟩ := foldl_follow_run (visit_run hg depth) hg (g.next root)
    (Walk.enter {} root) hsound (fun d hd => mem_next.1 hd) (by simp [order, Walk.enter]; omega)
  have hhangs : Hangs g root ⟨[root], Walk.enter {} root⟩ := by
    refine Or.inr ⟨List.mem_singleton_self root, fun u hu => ?_⟩
    have hroot : u = root := by simpa [order, Walk.enter] using hu
    rw [hroot]
  rcases hrun.hangs hhangs with hleft | ⟨-, hreach⟩
  · have hnodup := (hrun.sound hsound).nodup
    simp only [order, List.reverse_singleton, List.singleton_append, List.nodup_cons] at hnodup
    exact absurd hleft hnodup.1
  · exact hreach v hv

private theorem visit_sound (hg : g.Closed) {root : Nat} (hsize : root < g.size) :
    Sound g ⟨[], g.visit g.size [] root {}⟩ := by
  obtain ⟨hrun, -⟩ := visit_run hg g.size [] root {} (sound_start g) hsize List.not_mem_nil
    (by simp) (by simp [order])
  exact hrun.sound (sound_start g)

/-- What the search from the first node leaves, it leaves in the same order in
the search of the whole graph. -/
theorem visit_sublist_topological (hg : g.Closed) (hsize : 0 < g.size) :
    (g.visit g.size [] 0 {}).left.Sublist g.topological := by
  obtain ⟨n, hn⟩ : ∃ n, g.size = n + 1 := ⟨g.size - 1, by omega⟩
  have hnodes : ∀ v ∈ (List.range n).map Nat.succ, v < g.size := by
    intro v hv
    obtain ⟨k, hk, rfl⟩ := List.mem_map.1 hv
    rw [List.mem_range] at hk
    omega
  obtain ⟨hrest, -⟩ := foldl_visit_run hg ((List.range n).map Nat.succ) (g.visit g.size [] 0 {})
    (visit_sound hg hsize) hnodes
  have hsearch : g.search = ((List.range n).map Nat.succ).foldl
      (fun w v => if v ∈ w.entered then w else g.visit g.size [] v w)
      (g.visit g.size [] 0 {}) := by
    rw [search, hn, List.range_succ_eq_map, List.foldl_cons]
    rfl
  have hsub := hrest.order_sublist
  rw [← hsearch] at hsub
  simpa [order, topological] using hsub

/-! ## The first node -/

/-- What the first node leads to, it leads to along edges that are kept. -/
theorem reflTransGen_kept_iff (hg : g.Closed) (hsize : 0 < g.size) {v : Nat} :
    ReflTransGen (g.without g.backEdges).Edge 0 v ↔ ReflTransGen g.Edge 0 v := by
  constructor
  · exact ReflTransGen.mono (fun _ _ h => (mem_edges_without.1 h).1) 0 v
  · intro hreach
    have hentered := (mem_reachable_iff hg hsize).2 hreach
    rw [reachable, if_pos hsize] at hentered
    have hleft := ((visit_sound hg hsize).entered v).1 hentered
    have hforward := forward_of_mem_visit hg hsize hleft
    have hsub := visit_sublist_topological hg hsize
    exact ReflTransGen.mono
      (fun _ _ hf => (edge_without_backEdges_iff hg).2 (hf.mono hsub)) 0 v hforward

/-- An edge into the first node is kept exactly if it comes from a node that the
first one does not lead to. -/
theorem kept_edge_zero_iff (hg : g.Closed) (hsize : 0 < g.size) {u : Nat} :
    (g.without g.backEdges).Edge u 0 ↔ g.Edge u 0 ∧ ¬ReflTransGen g.Edge 0 u := by
  constructor
  · intro hkept
    refine ⟨(mem_edges_without.1 hkept).1, fun hreach => ?_⟩
    have hback := (reflTransGen_kept_iff hg hsize).2 hreach
    exact not_transGen_without_backEdges hg u (TransGen.head' hkept hback)
  · rintro ⟨hedge, hfar⟩
    refine mem_edges_without.2 ⟨hedge, fun hback => hfar ?_⟩
    exact (reflTransGen_kept_iff hg hsize).1 (reflTransGen_of_mem_backEdges hg hback)

end Digraph

/-! ## The first screen -/

namespace Flow

variable {f : Flow}

/-- The first screen is at the top exactly if all screens that lead to it can be
reached from it. -/
theorem depth_zero_iff (hsize : 0 < f.size) :
    f.depth 0 = 0 ↔ ∀ u, f.Leads u 0 → ReflTransGen f.Leads 0 u := by
  have hkept : ∀ u, f.kept.Edge u 0 ↔ f.Leads u 0 ∧ ¬ReflTransGen f.Leads 0 u := by
    intro u
    rw [← edge_digraph]
    exact Digraph.kept_edge_zero_iff f.digraph_closed hsize
  constructor
  · intro hzero u hleads
    by_contra hfar
    have hlt := f.deepens.lt u 0 ((hkept u).2 ⟨hleads, hfar⟩)
    omega
  · intro hall
    refine f.deepens.eq_zero fun u hedge => ?_
    obtain ⟨hleads, hfar⟩ := (hkept u).1 hedge
    exact hfar (hall u hleads)

/-- If every screen can be reached, only the first is at the top. -/
theorem depth_pos_of_unreachable_eq_nil (hsize : 0 < f.size) (h : f.unreachable = []) {v : Nat}
    (hv : v < f.size) (hne : v ≠ 0) : 0 < f.depth v := by
  have hreach : ReflTransGen f.kept.Edge 0 v := by
    refine (Digraph.reflTransGen_kept_iff f.digraph_closed hsize).2 ?_
    rw [edge_digraph]
    exact unreachable_eq_nil_iff.1 h v hv
  rcases ReflTransGen.cases_tail hreach with hzero | ⟨p, -, hedge⟩
  · exact absurd hzero hne
  · exact Nat.lt_of_le_of_lt (Nat.zero_le _) (f.deepens.lt p v hedge)

/-- The top layer of a layout has the screens of depth zero. -/
theorem exists_top_layer (passes : Int) {v : Nat} (hv : v < f.size) (hdepth : f.depth v = 0) :
    ∃ top, (f.layout passes).layers[0]? = some top ∧ v ∈ top := by
  obtain ⟨slot, hslot, rfl⟩ := f.exists_slot passes hv
  have hmem := List.mem_of_getElem? hslot
  obtain ⟨-, top, htop, hplace⟩ := Layout.mem_nodes.1 hmem
  rw [← (depth_of_mem_nodes hmem).2, hdepth] at htop
  exact ⟨top, htop, List.mem_of_getElem? hplace⟩

/-- The first screen of a flow stays on top, and breaking cycles cuts nothing
off from it. Along the edges that are kept it leads to the same screens as along
all transitions; it is in the top layer exactly if every screen with a
transition to it can be reached from it; and if every screen can be reached, it
is the top layer. -/
theorem layout_keeps_entry (f : Flow) (passes : Int) (h : f.screens ≠ []) :
    let l := f.layout passes
    (∀ v, ReflTransGen l.KeptEdge 0 v ↔ ReflTransGen f.Leads 0 v) ∧
    ((∃ top, l.layers[0]? = some top ∧ 0 ∈ top) ↔
      ∀ u, f.Leads u 0 → ReflTransGen f.Leads 0 u) ∧
    (f.unreachable = [] → l.layers[0]? = some [0]) := by
  dsimp only
  have hsize : 0 < f.size := List.length_pos_iff.2 h
  refine ⟨fun v => ?_, ?_, fun hnone => ?_⟩
  · rw [layout_keptEdge, ← edge_digraph]
    exact Digraph.reflTransGen_kept_iff f.digraph_closed hsize
  · rw [← depth_zero_iff hsize]
    constructor
    · rintro ⟨top, htop, hmem⟩
      exact ((mem_layer htop).1 hmem).2
    · exact exists_top_layer passes hsize
  · have hzero : f.depth 0 = 0 :=
      (depth_zero_iff hsize).2 fun u hleads => by
        obtain ⟨k, hk, rfl, -⟩ := hleads
        exact unreachable_eq_nil_iff.1 hnone k.source (lt_size_of_mem_resolved hk).1
    obtain ⟨top, htop, hmem⟩ := exists_top_layer passes hsize hzero
    have honly : ∀ v ∈ top, v = 0 := by
      intro v hv
      obtain ⟨hlt, hdepth⟩ := (mem_layer htop).1 hv
      by_contra hne
      have hpos := depth_pos_of_unreachable_eq_nil hsize hnone hlt hne
      omega
    have hnodup := f.nodup_of_mem_layers passes top (List.mem_of_getElem? htop)
    have hperm : top.Perm [0] := by
      refine (List.perm_ext_iff_of_nodup hnodup (List.nodup_singleton 0)).2 fun v => ?_
      rw [List.mem_singleton]
      exact ⟨honly v, fun hv => hv ▸ hmem⟩
    rw [htop, List.perm_singleton.1 hperm]

/-- Two screens lead back to the first one, and one of them to itself. -/
def rounds : Flow where
  screens :=
    [{ name := "Home", transitions := [⟨"List", "Open", ""⟩] },
     { name := "List", transitions := [⟨"Home", "Back", ""⟩, ⟨"Item", "", "chosen"⟩] },
     { name := "Item", transitions := [⟨"Item", "", "edited"⟩, ⟨"Home", "Done", ""⟩] }]

theorem rounds_keep_entry :
    rounds.screens ≠ [] ∧ (∀ v, ReflTransGen (rounds.layout 4).KeptEdge 0 v ↔
      ReflTransGen rounds.Leads 0 v) ∧ (rounds.layout 4).layers[0]? = some [0] := by
  have hscreens : rounds.screens ≠ [] := by decide
  have hnone : rounds.unreachable = [] := by decide +kernel
  obtain ⟨hsame, -, htop⟩ := layout_keeps_entry rounds 4 hscreens
  exact ⟨hscreens, hsame, htop hnone⟩

end Flow

end Storyboard
