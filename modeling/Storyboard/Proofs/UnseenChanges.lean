import Storyboard.Proofs.LayerCover
import Storyboard.Proofs.ReviewFindings

/-!
# Changes that a layout does not see

A layout is worked out from the screens that links join, each pair counted once
at its first link. So it does not change when screens get other contents or
transitions other captions, when transitions to undefined screens come in
anywhere, or when a screen leads once more, further down, to a screen that it
leads to already. The search for cycles follows edges in the order of the first
links, and that order stays as it was too.

## Main definitions

* `Screen.Unseen`, `Flow.Retouch` — one change of that kind, in a screen and in
  a flow.

## Main results

* `Sequence.distinct_insert_of_mem`, `Sequence.distinct_congr_middle` — what a list
  without repetitions does not depend on.
* `Flow.distinct_joins_of_unseen` — the screens that one screen is joined to.
* `Flow.digraph_of_retouch` — one change keeps the graph, order included.
* `Flow.layout_of_retouches` — any number of changes keeps the layout.
-/

namespace Storyboard

open Relation

/-! ## Repetitions -/

namespace Sequence

variable {α : Type} [DecidableEq α]

/-- An element that comes once more makes no difference. -/
theorem distinct_insert_of_mem {x : α} {before : List α} (h : x ∈ before) (after : List α) :
    distinct (before ++ x :: after) = distinct (before ++ after) := by
  rw [distinct_append, distinct_append, distinct, List.filter_cons_of_neg (by simpa using h),
    List.filter_filter]
  congr 1
  apply List.filter_congr
  intro y _
  by_cases hy : y ∈ before
  · simp [hy]
  · have hne : y ≠ x := fun heq => hy (heq ▸ h)
    simp [hy, hne]

/-- A part matters by what it is without repetitions. -/
theorem distinct_congr_middle {xs ys : List α} (h : distinct xs = distinct ys)
    (before after : List α) :
    distinct (before ++ (xs ++ after)) = distinct (before ++ (ys ++ after)) := by
  have hmem : ∀ z, z ∈ xs ↔ z ∈ ys := by
    intro z
    rw [← mem_distinct, h, mem_distinct]
  rw [distinct_append, distinct_append before, distinct_append, distinct_append ys, h]
  simp only [hmem]

end Sequence

/-! ## One change -/

/-- A change of a screen of the flow `f` that a layout does not see. -/
inductive Screen.Unseen (f : Flow) (s : Screen) : Screen → Prop where
  /-- Other contents. -/
  | content (components : List Component) (requirements : Requirements) (sections : List Int) :
      Unseen f s { s with
        components := components, requirements := requirements, sections := sections }
  /-- Another trigger or condition of a transition. -/
  | caption (before after : List Transition) (t : Transition)
      (at_t : s.transitions = before ++ t :: after) (trigger condition : String) :
      Unseen f s { s with
        transitions :=
          before ++ { t with trigger := trigger, condition := condition } :: after }
  /-- One more transition to a screen that is not defined. -/
  | astray (before after : List Transition) (t : Transition)
      (at_t : s.transitions = before ++ after) (undefined : t.target ∉ f.names) :
      Unseen f s { s with transitions := before ++ t :: after }
  /-- One more transition to a screen that one further up leads to. -/
  | again (before after : List Transition) (t first : Transition)
      (at_t : s.transitions = before ++ after) (earlier : first ∈ before)
      (same : f.indexOf? t.target = f.indexOf? first.target) :
      Unseen f s { s with transitions := before ++ t :: after }

namespace Flow

/-- Whether a flow differs from another by one change that a layout does not
see. -/
inductive Retouch : Flow → Flow → Prop where
  | screen (before after : List Screen) {s s' : Screen}
      (change : s.Unseen ⟨before ++ s :: after⟩ s') :
      Retouch ⟨before ++ s :: after⟩ ⟨before ++ s' :: after⟩

variable {f g : Flow}

private theorem name_of_unseen {s s' : Screen} (h : s.Unseen f s') : s'.name = s.name := by
  cases h <;> rfl

private theorem names_of_retouch (h : Retouch f g) : g.names = f.names := by
  cases h with
  | screen before after change => simp [names, name_of_unseen change]

private theorem indexOf?_congr (h : g.names = f.names) (name : String) :
    g.indexOf? name = f.indexOf? name := by
  apply Option.ext
  intro i
  rw [indexOf?_eq_some_iff, indexOf?_eq_some_iff, h]

/-! ## What the graph is made of -/

/-- The screens that the screen at position `i` is joined to, as often as it
leads to them. -/
def joins (f : Flow) (i : Nat) (s : Screen) : List (Nat × Nat) :=
  s.transitions.filterMap fun t => (f.indexOf? t.target).map fun d => (i, d)

private theorem edges_digraph (f : Flow) :
    f.digraph.edges = Sequence.distinct (f.screens.zipIdx.flatMap fun e => f.joins e.2 e.1) := by
  have hjoined : (f.resolved.map fun l => (l.source, l.target)) =
      f.screens.zipIdx.flatMap fun e => f.joins e.2 e.1 := by
    unfold resolved edges joins
    rw [List.filterMap_flatMap, List.map_flatMap]
    simp only [List.filterMap_map, List.map_filterMap]
    simp only [Function.comp_def, Option.map_map]
  rw [digraph, hjoined]

/-- An unseen change of a screen keeps the screens that it is joined to, in the
order in which it first leads to them. -/
theorem distinct_joins_of_unseen {s s' : Screen} (h : s.Unseen f s') (i : Nat) :
    Sequence.distinct (f.joins i s') = Sequence.distinct (f.joins i s) := by
  unfold joins
  cases h with
  | content components requirements sections => rfl
  | caption before after t at_t trigger condition => simp [at_t, List.filterMap_cons]
  | astray before after t at_t undefined =>
      have hnone : f.indexOf? t.target = none :=
        Option.isNone_iff_eq_none.1 (isNone_indexOf?.2 undefined)
      simp [at_t, hnone]
  | again before after t first at_t earlier same =>
      rw [at_t, List.filterMap_append, List.filterMap_append, List.filterMap_cons, same]
      cases hd : f.indexOf? first.target with
      | none => rfl
      | some d =>
          refine Sequence.distinct_insert_of_mem (List.mem_filterMap.2 ⟨first, earlier, ?_⟩) _
          rw [hd]
          rfl

/-- An unseen change keeps the graph of a flow, and the order of its edges. -/
theorem digraph_of_retouch (h : Retouch f g) : g.digraph = f.digraph := by
  have hnames := names_of_retouch h
  have hsize : g.digraph.size = f.digraph.size := by
    have hlength := congrArg List.length hnames
    rwa [length_names, length_names] at hlength
  have hjoins : g.joins = f.joins := by
    funext i s
    simp only [joins, indexOf?_congr hnames]
  have hedges : g.digraph.edges = f.digraph.edges := by
    rw [edges_digraph, edges_digraph, hjoins]
    cases h with
    | screen before after change =>
        simp only [List.zipIdx_append, List.zipIdx_cons, List.flatMap_append, List.flatMap_cons]
        exact Sequence.distinct_congr_middle (distinct_joins_of_unseen change _) _ _
  exact congrArg₂ Digraph.mk hsize hedges

/-! ## Any number of changes -/

/-- Unseen changes keep the names and the graph of a flow. -/
theorem names_digraph_of_retouches (h : ReflTransGen Retouch f g) :
    g.names = f.names ∧ g.digraph = f.digraph := by
  induction h with
  | refl => exact ⟨rfl, rfl⟩
  | tail _ hstep ih =>
      exact ⟨(names_of_retouch hstep).trans ih.1, (digraph_of_retouch hstep).trans ih.2⟩

/-- A layout does not change, and no screen stands elsewhere in it, when screens
get other contents or transitions other captions, when transitions to undefined
screens come in anywhere, or when screens lead once more, further down, to
screens that they lead to already; and this however often it is done and
however often the layers are ordered. -/
theorem layout_of_retouches (h : ReflTransGen Retouch f g) (passes : Int) :
    g.layout passes = f.layout passes ∧
      (g.layout passes).nodes g = (f.layout passes).nodes f := by
  obtain ⟨hnames, hdigraph⟩ := names_digraph_of_retouches h
  have hlayout : g.layout passes = f.layout passes := by
    unfold layout
    rw [hdigraph]
  refine ⟨hlayout, ?_⟩
  rw [hlayout]
  unfold Layout.nodes nameAt
  rw [hnames]

/-- A first screen with some components and transitions, and two others, of
which one leads back to it. -/
def errand (components : List Component) (transitions : List Transition) : Flow where
  screens :=
    [{ name := "Home", components := components, transitions := transitions },
     { name := "Shop", transitions := [⟨"Home", "", ""⟩] },
     { name := "Desk" }]

theorem errand_layout :
    let plain := errand [] [⟨"Shop", "", ""⟩, ⟨"Desk", "", ""⟩]
    let busy := errand [⟨.text, "Welcome"⟩]
      [⟨"Attic", "", ""⟩, ⟨"Shop", "Buy", ""⟩, ⟨"Desk", "", ""⟩, ⟨"Shop", "", "late"⟩]
    ReflTransGen Retouch plain busy ∧
      plain.layout 4 = ⟨[[0], [1, 2]], [(0, 1), (0, 2), (1, 0)], [(1, 0)], true⟩ ∧
      busy.layout 4 = plain.layout 4 ∧
      (busy.layout 4).nodes busy = (plain.layout 4).nodes plain := by
  dsimp only
  have hcontent : Retouch (errand [] [⟨"Shop", "", ""⟩, ⟨"Desk", "", ""⟩])
      (errand [⟨.text, "Welcome"⟩] [⟨"Shop", "", ""⟩, ⟨"Desk", "", ""⟩]) :=
    .screen [] _ (.content [⟨.text, "Welcome"⟩] {} [])
  have hcaption : Retouch (errand [⟨.text, "Welcome"⟩] [⟨"Shop", "", ""⟩, ⟨"Desk", "", ""⟩])
      (errand [⟨.text, "Welcome"⟩] [⟨"Shop", "Buy", ""⟩, ⟨"Desk", "", ""⟩]) :=
    .screen [] _ (.caption [] [⟨"Desk", "", ""⟩] ⟨"Shop", "", ""⟩ rfl "Buy" "")
  have hastray : Retouch (errand [⟨.text, "Welcome"⟩] [⟨"Shop", "Buy", ""⟩, ⟨"Desk", "", ""⟩])
      (errand [⟨.text, "Welcome"⟩] [⟨"Attic", "", ""⟩, ⟨"Shop", "Buy", ""⟩, ⟨"Desk", "", ""⟩]) :=
    .screen [] _ (.astray [] [⟨"Shop", "Buy", ""⟩, ⟨"Desk", "", ""⟩] ⟨"Attic", "", ""⟩ rfl
      (by decide))
  have hagain : Retouch
      (errand [⟨.text, "Welcome"⟩] [⟨"Attic", "", ""⟩, ⟨"Shop", "Buy", ""⟩, ⟨"Desk", "", ""⟩])
      (errand [⟨.text, "Welcome"⟩] [⟨"Attic", "", ""⟩, ⟨"Shop", "Buy", ""⟩, ⟨"Desk", "", ""⟩,
        ⟨"Shop", "", "late"⟩]) :=
    .screen [] _ (.again [⟨"Attic", "", ""⟩, ⟨"Shop", "Buy", ""⟩, ⟨"Desk", "", ""⟩] []
      ⟨"Shop", "", "late"⟩ ⟨"Shop", "Buy", ""⟩ rfl (by simp) rfl)
  have hchanges := ReflTransGen.tail (.tail (.tail (.single hcontent) hcaption) hastray) hagain
  have hplain : (errand [] [⟨"Shop", "", ""⟩, ⟨"Desk", "", ""⟩]).layout 4 =
      ⟨[[0], [1, 2]], [(0, 1), (0, 2), (1, 0)], [(1, 0)], true⟩ := by
    rw [layout_of_settled [(1, 0)] [[0], [1, 2]]]
    all_goals decide +kernel
  exact ⟨hchanges, hplain, layout_of_retouches hchanges 4⟩

end Flow

end Storyboard
