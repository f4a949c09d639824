import Storyboard.Proofs.ReviewFindings

/-!
# Screens appended to a flow

A name stands for the first screen that has it, so what is appended to a flow
never takes a name away from a screen that is there. A link keeps its two ends;
a transition that led nowhere may find its target among the new screens; and
what could be reached from the first screen can still be reached.

## Main results

* `Flow.indexOf?_append` — the first screen of a name in two flows, one after
  the other.
* `Flow.edges_append` — the transitions of two flows.
* `Flow.resolved_append_filter`, `Flow.unresolved_append_filter` — the links
  among the screens of the first flow are its own, and of its transitions that
  lead nowhere those are left whose targets the second flow does not name.
* `Flow.append_keeps_links` — appended screens redirect no link.
-/

namespace Storyboard.Flow

open Relation

/-- The screens of two flows, one after the other. -/
instance : Append Flow := ⟨fun g h => ⟨g.screens ++ h.screens⟩⟩

variable (g h : Flow)

@[simp] theorem screens_append : (g ++ h).screens = g.screens ++ h.screens := rfl

/-! ## Names -/

/-- A name stands for a screen of the first flow if it has one of that name,
and else for one of the second. -/
theorem indexOf?_append (name : String) :
    (g ++ h).indexOf? name = (g.indexOf? name).or ((h.indexOf? name).map (g.size + ·)) := by
  have hshift : (fun i => i + g.screens.length) = (g.size + ·) := by
    funext i
    exact Nat.add_comm i g.size
  unfold indexOf?
  rw [screens_append, List.findIdx?_append, hshift]

/-! ## Transitions -/

/-- The transitions of the first flow and then those of the second, whose
screens come after, all with their targets looked up in both. -/
theorem edges_append :
    (g ++ h).edges =
      (g.edges.map fun e => (e.1, (g ++ h).indexOf? e.2.2.target, e.2.2)) ++
        h.edges.map fun e => (g.size + e.1, (g ++ h).indexOf? e.2.2.target, e.2.2) := by
  unfold edges
  rw [screens_append, List.zipIdx_append, List.flatMap_append, Nat.zero_add,
    List.zipIdx_eq_map_add (i := g.screens.length), List.flatMap_map]
  simp only [List.map_flatMap, List.map_map]
  rfl

/-- The transitions of the screens of the first flow are its own. -/
theorem edges_append_filter :
    ((g ++ h).edges.filter fun e => e.1 < g.size) =
      g.edges.map fun e => (e.1, (g ++ h).indexOf? e.2.2.target, e.2.2) := by
  have hown : ∀ e ∈ g.edges, e.1 < g.size := by
    intro e he
    obtain ⟨s, hscreen, -⟩ := mem_edges.1 he
    exact (List.getElem?_eq_some_iff.1 hscreen).1
  rw [edges_append, List.filter_append, List.filter_eq_self.2, List.filter_eq_nil_iff.2,
    List.append_nil]
  · rw [List.forall_mem_map]
    intro e _
    simp
  · rw [List.forall_mem_map]
    intro e he
    exact decide_eq_true (hown e he)

/-- A name stands for a screen of the first flow exactly if it does there. -/
theorem indexOf?_append_filter (name : String) :
    ((g ++ h).indexOf? name).filter (· < g.size) = g.indexOf? name := by
  rw [indexOf?_append]
  cases hd : g.indexOf? name with
  | none => cases h.indexOf? name <;> simp [Option.filter]
  | some d =>
      have hlt : d < g.size := (List.findIdx?_eq_some_iff_getElem.1 hd).1
      simp [Option.filter, hlt]

/-- The links among the screens of the first flow are the links of the first
flow. -/
theorem resolved_append_filter :
    ((g ++ h).resolved.filter fun l => l.source < g.size ∧ l.target < g.size) = g.resolved := by
  have hedges : ((g ++ h).resolved.filter fun l => l.source < g.size ∧ l.target < g.size) =
      ((g ++ h).edges.filter fun e => e.1 < g.size).filterMap
        fun e => (e.2.1.filter (· < g.size)).map fun d => ⟨e.1, d, e.2.2⟩ := by
    rw [resolved, List.filter_filterMap, List.filterMap_filter]
    apply List.filterMap_congr
    rintro ⟨s, target, t⟩ -
    cases target with
    | none => simp
    | some d =>
        by_cases hs : s < g.size
        · simp [Option.filter, hs]
        · simp [Option.filter, hs]
  rw [hedges, edges_append_filter, List.filterMap_map, resolved]
  apply List.filterMap_congr
  rintro ⟨i, target, t⟩ hedge
  obtain ⟨-, -, -, rfl⟩ := mem_edges.1 hedge
  simp only [Function.comp_apply, indexOf?_append_filter]

/-- Of the transitions of the first flow that lead nowhere, those still do
whose targets the second flow does not name. -/
theorem unresolved_append_filter :
    ((g ++ h).unresolved.filter fun e => e.1 < g.size) =
      g.unresolved.filter fun e => e.2.target ∉ h.names := by
  have hedges : ((g ++ h).unresolved.filter fun e => e.1 < g.size) =
      ((g ++ h).edges.filter fun e => e.1 < g.size).filterMap
        fun e => if e.2.1.isNone then some (e.1, e.2.2) else none := by
    rw [unresolved, List.filter_filterMap, List.filterMap_filter]
    apply List.filterMap_congr
    rintro ⟨s, target, t⟩ -
    cases target with
    | none => by_cases hs : s < g.size <;> simp [Option.filter, hs]
    | some d => simp
  rw [hedges, edges_append_filter, List.filterMap_map, unresolved, List.filter_filterMap]
  apply List.filterMap_congr
  rintro ⟨i, target, t⟩ hedge
  obtain ⟨-, -, -, rfl⟩ := mem_edges.1 hedge
  have hnamed : t.target ∉ h.names ↔ h.indexOf? t.target = none := by
    rw [← isNone_indexOf?, Option.isNone_iff_eq_none]
  simp only [Function.comp_apply, indexOf?_append]
  cases g.indexOf? t.target with
  | some d => simp
  | none => cases hd : h.indexOf? t.target <;> simp [Option.filter, hnamed, hd]

/-! ## Reach -/

theorem leads_append {a b : Nat} (hab : g.Leads a b) : (g ++ h).Leads a b := by
  obtain ⟨l, hl, hends⟩ := hab
  rw [← resolved_append_filter g h] at hl
  exact ⟨l, List.mem_of_mem_filter hl, hends⟩

/-- What can be reached in the first flow can be reached in both. -/
theorem mem_unreachable_of_append {i : Nat} (hi : i < g.size)
    (hout : i ∈ (g ++ h).unreachable) : i ∈ g.unreachable := by
  have hnone := (mem_unreachable.1 hout).2
  refine mem_unreachable.2 ⟨hi, fun hreach => hnone ?_⟩
  exact ReflTransGen.mono (fun _ _ => leads_append g h) _ _ hreach

/-- Screens appended to a flow redirect no link. A name stands for the screen
that it stands for in the first flow, if the first flow has a screen of that
name, and for one of the second otherwise. So the links of the first flow are
links of both, with the same ends and the same transitions; the transitions of
its screens that lead nowhere in both are among those that led nowhere in it;
and none of its screens gets out of reach. -/
theorem append_keeps_links :
    (∀ name, (g ++ h).indexOf? name =
      (g.indexOf? name).or ((h.indexOf? name).map (g.size + ·))) ∧
    g.resolved.Sublist (g ++ h).resolved ∧
    ((g ++ h).unresolved.filter fun e => e.1 < g.size).Sublist g.unresolved ∧
    ∀ i < g.size, i ∉ g.unreachable → i ∉ (g ++ h).unreachable := by
  refine ⟨indexOf?_append g h, ?_, ?_, ?_⟩
  · rw [← resolved_append_filter g h]
    exact List.filter_sublist
  · rw [unresolved_append_filter]
    exact List.filter_sublist
  · intro i hi hin hout
    exact hin (mem_unreachable_of_append g h hi hout)

end Storyboard.Flow
