import Storyboard.Flow.Review
import Storyboard.Proofs.CycleBreaking
import Storyboard.Proofs.Sequence

/-!
# A review finds what there is to find

A review looks for screens out of reach with a depth-first search, and for
repeated names by listing the positions of each name. Here both are compared
with what they stand for: chains of transitions, and names at positions. The
two meet in one fact. A transition leads to the first screen of a name, so no
chain ever enters a later one, and every repeated name leaves a screen out of
reach. A flow is therefore clean as soon as its transitions lead somewhere and
its screens can be reached.

## Main results

* `Digraph.mem_reachable_iff` — the search enters what can be reached.
* `Flow.mem_positionsOf`, `Flow.positionsOf_sorted`, `Flow.positionsOf_first`
  — the positions of a name.
* `Flow.mem_unreachable_of_later` — a repeated screen is out of reach.
* `Flow.review_exact` — the findings of a review, and when there are none.
-/

namespace Storyboard

open Relation

/-! ## Occurrences in a list -/

/-- In a numbered list, an element has as many numbers as occurrences. -/
theorem Sequence.length_filterMap_zipIdx {α : Type} [DecidableEq α] (x : α) (xs : List α) :
    ∀ start : Nat, ((xs.zipIdx start).filterMap fun (y, i) =>
      if y = x then some i else none).length = xs.count x := by
  induction xs with
  | nil =>
      intro start
      rfl
  | cons y ys ih =>
      intro start
      by_cases hy : y = x
      · simp [List.zipIdx_cons, hy, ih]
      · simp [List.zipIdx_cons, hy, ih]

/-! ## What a search from one node enters -/

/-- When a search is back where it began, no edge leads out of what it has
entered. -/
theorem Moment.Sound.mem_entered_of_edge {g : Digraph} {w : Walk} (h : Sound g ⟨[], w⟩)
    {u d : Nat} (hu : u ∈ w.entered) (hedge : g.Edge u d) : d ∈ w.entered := by
  have hleft : u ∈ w.left := (h.entered u).1 hu
  apply (h.entered d).2
  rcases h.done u hleft d hedge with hback | hforward
  · -- a back edge leads to a node from which the search came, or to `u` itself
    rcases ReflTransGen.cases_head (h.back u d hback).2 with rfl | ⟨x, hstep, -⟩
    · exact hleft
    · exact hstep.2.subset (by simp)
  · exact hforward.subset (by simp)

namespace Digraph

variable {g : Digraph}

/-- That a search from a node enters only nodes that were entered before or
that the node leads to. -/
def EntersReachable (g : Digraph) (depth : Nat) : Prop :=
  ∀ (path : List Nat) (v : Nat) (w : Walk), ∀ u ∈ (g.visit depth path v w).entered,
    u ∈ w.entered ∨ ReflTransGen g.Edge v u

private theorem mem_entered_follow {depth : Nat} (hvisit : g.EntersReachable depth)
    {path : List Nat} {v d : Nat} {w : Walk} (hedge : g.Edge v d) {u : Nat}
    (hu : u ∈ (g.follow depth path v w d).entered) :
    u ∈ w.entered ∨ ReflTransGen g.Edge v u := by
  unfold follow at hu
  by_cases hent : d ∈ w.entered
  · rw [if_pos hent] at hu
    split at hu
    · exact Or.inl hu
    · exact Or.inl hu
  · rw [if_neg hent] at hu
    exact (hvisit (v :: path) d w u hu).imp_right fun hreach => ReflTransGen.head hedge hreach

private theorem mem_entered_foldl_follow {depth : Nat} (hvisit : g.EntersReachable depth)
    (path : List Nat) (v : Nat) :
    ∀ (ds : List Nat) (w : Walk), (∀ d ∈ ds, g.Edge v d) →
      ∀ u ∈ (ds.foldl (g.follow depth path v) w).entered,
        u ∈ w.entered ∨ ReflTransGen g.Edge v u := by
  intro ds
  induction ds with
  | nil =>
      intro w _ u hu
      exact Or.inl hu
  | cons d ds ih =>
      intro w hedges u hu
      have hrest := ih (g.follow depth path v w d) (fun e he => hedges e (by simp [he])) u hu
      exact hrest.elim (mem_entered_follow hvisit (hedges d (by simp))) Or.inr

/-- A search from a node enters only what can be reached from it. -/
theorem entersReachable (g : Digraph) : ∀ depth, g.EntersReachable depth := by
  intro depth
  induction depth with
  | zero =>
      intro path v w u hu
      exact Or.inl hu
  | succ depth ih =>
      intro path v w u hu
      rw [visit_succ] at hu
      have hfollow := mem_entered_foldl_follow ih path v (g.next v) (w.enter v)
        (fun d hd => mem_next.1 hd) u hu
      rcases hfollow with hent | hreach
      · rcases List.mem_cons.1 hent with rfl | hold
        · exact Or.inr ReflTransGen.refl
        · exact Or.inl hold
      · exact Or.inr hreach

/-- The search from the first node enters what can be reached from it. -/
theorem mem_reachable_iff (hg : g.Closed) (hsize : 0 < g.size) {v : Nat} :
    v ∈ g.reachable ↔ ReflTransGen g.Edge 0 v := by
  rw [reachable, if_pos hsize]
  constructor
  · intro hv
    exact (g.entersReachable g.size [] 0 {} v hv).resolve_left List.not_mem_nil
  · intro hreach
    obtain ⟨hrun, hroot⟩ := visit_run hg g.size [] 0 {} (Moment.sound_start g) hsize
      List.not_mem_nil (by simp) (by simp [Moment.order])
    have hsound := hrun.sound (Moment.sound_start g)
    induction hreach with
    | refl => exact (hsound.entered 0).2 hroot
    | tail _ hedge ih => exact hsound.mem_entered_of_edge ih hedge

end Digraph

/-- A review has something to say exactly if it has found something. -/
theorem Review.messages_eq_nil_iff (r : Review) (f : Flow) :
    r.messages f = [] ↔ r.isClean = true := by
  simp [messages, isClean, and_assoc]

namespace Flow

variable {f : Flow}

/-! ## Screens out of reach -/

/-- Whether a transition leads from the screen at `a` to the screen at `b`. -/
def Leads (f : Flow) (a b : Nat) : Prop := ∃ l ∈ f.resolved, l.source = a ∧ l.target = b

theorem edge_digraph (f : Flow) : f.digraph.Edge = f.Leads := by
  funext a b
  exact propext mem_edges_digraph

/-- The screens out of reach are those that no chain of transitions leads
to. -/
theorem mem_unreachable {i : Nat} :
    i ∈ f.unreachable ↔ i < f.size ∧ ¬ReflTransGen f.Leads 0 i := by
  unfold unreachable
  rw [List.mem_filter, List.mem_range, decide_eq_true_eq]
  refine and_congr_right fun hi => ?_
  have hsize : 0 < f.digraph.size := Nat.lt_of_le_of_lt (Nat.zero_le i) hi
  rw [Digraph.mem_reachable_iff f.digraph_closed hsize, edge_digraph]

private theorem unreachable_sorted (f : Flow) : f.unreachable.Pairwise (· < ·) :=
  List.pairwise_lt_range.filter _

/-! ## Names and their positions -/

theorem length_positionsOf (f : Flow) (name : String) :
    (f.positionsOf name).length = f.names.count name :=
  Sequence.length_filterMap_zipIdx name f.names 0

theorem mem_positionsOf {name : String} {i : Nat} :
    i ∈ f.positionsOf name ↔ f.names[i]? = some name := by
  unfold positionsOf
  rw [List.mem_filterMap]
  constructor
  · rintro ⟨⟨n, j⟩, hmem, heq⟩
    have hget : f.names[j]? = some n := by simpa using List.mem_zipIdx_iff_getElem?.1 hmem
    by_cases hn : n = name
    · simp [hn] at heq
      rw [← heq, hget, hn]
    · simp [hn] at heq
  · intro hget
    exact ⟨(name, i), List.mem_zipIdx_iff_getElem?.2 hget, by simp⟩

theorem positionsOf_sorted (f : Flow) (name : String) :
    (f.positionsOf name).Pairwise (· < ·) := by
  unfold positionsOf
  rw [List.pairwise_filterMap]
  refine (Sequence.zipIdx_pairwise f.names).imp fun {a b} hab i hi j hj => ?_
  have hia : a.2 = i := by
    simp at hi
    exact hi.2
  have hjb : b.2 = j := by
    simp at hj
    exact hj.2
  omega

/-- A name stands for the first position that it has. -/
theorem indexOf?_eq_some_iff {name : String} {i : Nat} :
    f.indexOf? name = some i ↔ f.names[i]? = some name ∧ ∀ j < i, f.names[j]? ≠ some name := by
  have hnames : f.indexOf? name = f.names.findIdx? (· = name) := by
    rw [indexOf?, names, List.findIdx?_map]
    rfl
  rw [hnames, List.findIdx?_eq_some_iff_getElem]
  constructor
  · rintro ⟨hi, hname, hbefore⟩
    refine ⟨by simpa [List.getElem?_eq_getElem hi] using hname, fun j hj hget => ?_⟩
    have hlt : j < f.names.length := by omega
    rw [List.getElem?_eq_getElem hlt] at hget
    exact hbefore j hj (by simpa using hget)
  · rintro ⟨hget, hbefore⟩
    obtain ⟨hi, hname⟩ := List.getElem?_eq_some_iff.1 hget
    refine ⟨hi, by simpa using hname, fun j hj hj' => hbefore j hj ?_⟩
    have hlt : j < f.names.length := by omega
    rw [List.getElem?_eq_getElem hlt]
    simpa using hj'

theorem positionsOf_first {name : String} {first : Nat} {rest : List Nat}
    (h : f.positionsOf name = first :: rest) : f.indexOf? name = some first := by
  have hsorted := f.positionsOf_sorted name
  rw [h, List.pairwise_cons] at hsorted
  refine indexOf?_eq_some_iff.2 ⟨mem_positionsOf.1 (by simp [h]), fun j hj hget => ?_⟩
  have hmem : j ∈ first :: rest := h ▸ mem_positionsOf.2 hget
  rcases List.mem_cons.1 hmem with rfl | hlater
  · exact Nat.lt_irrefl j hj
  · exact Nat.lt_asymm hj (hsorted.1 j hlater)

/-! ## Repeated names -/

theorem mem_duplicateNames {e : String × List Nat} :
    e ∈ f.duplicateNames ↔ e.2 = f.positionsOf e.1 ∧ 2 ≤ f.names.count e.1 := by
  unfold duplicateNames
  rw [List.mem_filter, List.mem_map, decide_eq_true_eq]
  constructor
  · rintro ⟨⟨n, -, rfl⟩, hlong⟩
    rw [length_positionsOf] at hlong
    exact ⟨rfl, hlong⟩
  · rintro ⟨hpositions, hcount⟩
    have hmem : e.1 ∈ f.names := List.count_pos_iff.1 (by omega)
    refine ⟨⟨e.1, Sequence.mem_distinct.2 hmem, by rw [← hpositions]⟩, ?_⟩
    rw [hpositions, length_positionsOf]
    omega

/-- Repeated names are listed in the order in which they were first given. -/
theorem duplicateNames_ordered (f : Flow) :
    (f.duplicateNames.map (·.1)).Pairwise fun m n => f.names.idxOf m < f.names.idxOf n := by
  rw [List.pairwise_map]
  unfold duplicateNames
  refine List.Pairwise.filter _ ?_
  rw [List.pairwise_map]
  exact Sequence.distinct_pairwise f.names

/-- Transitions lead to the first screen of a name, so a later screen of the
same name is out of reach. -/
theorem mem_unreachable_of_later {name : String} {first i : Nat}
    (hfirst : f.indexOf? name = some first) (hi : f.names[i]? = some name) (hlater : first < i) :
    i ∈ f.unreachable := by
  have hsize : i < f.size := by
    have hlt := (List.getElem?_eq_some_iff.1 hi).1
    rwa [names, List.length_map] at hlt
  refine mem_unreachable.2 ⟨hsize, fun hreach => ?_⟩
  rcases ReflTransGen.cases_tail hreach with hzero | ⟨p, -, l, hl, -, rfl⟩
  · omega
  · obtain ⟨-, -, -, hindex⟩ := mem_resolved.1 hl
    have hname : f.names[l.target]? = some l.transition.target := (indexOf?_eq_some_iff.1 hindex).1
    rw [hi] at hname
    have hsame : some first = some l.target := by
      rw [← hfirst, Option.some.inj hname, hindex]
    exact Nat.ne_of_lt hlater (Option.some.inj hsame)

/-- The positions of a repeated name: the one it stands for, and others that
are out of reach. -/
theorem exists_positions_of_mem_duplicateNames {e : String × List Nat}
    (h : e ∈ f.duplicateNames) :
    ∃ first second rest, e.2 = first :: second :: rest ∧ f.indexOf? e.1 = some first ∧
      ∀ i ∈ second :: rest, i ∈ f.unreachable := by
  obtain ⟨hpositions, hcount⟩ := mem_duplicateNames.1 h
  have hlength := f.length_positionsOf e.1
  match hlist : f.positionsOf e.1 with
  | [] =>
      rw [hlist, List.length_nil] at hlength
      omega
  | [_] =>
      rw [hlist, List.length_singleton] at hlength
      omega
  | first :: second :: rest =>
      have hfirst := positionsOf_first hlist
      have hsorted := f.positionsOf_sorted e.1
      rw [hlist, List.pairwise_cons] at hsorted
      refine ⟨first, second, rest, hpositions.trans hlist, hfirst, fun i hi => ?_⟩
      have hget : f.names[i]? = some e.1 :=
        mem_positionsOf.1 (hlist ▸ List.mem_cons_of_mem first hi)
      exact mem_unreachable_of_later hfirst hget (hsorted.1 i hi)

/-! ## The whole review -/

theorem isNone_indexOf? {name : String} : (f.indexOf? name).isNone = true ↔ name ∉ f.names := by
  rw [indexOf?, List.findIdx?_isNone, names]
  simp

/-- No transition leads nowhere exactly if each target is the name of a
screen. -/
theorem unresolved_eq_nil_iff :
    f.unresolved = [] ↔ ∀ s ∈ f.screens, ∀ t ∈ s.transitions, t.target ∈ f.names := by
  unfold unresolved
  rw [List.filterMap_eq_nil_iff]
  constructor
  · intro hnone s hs t ht
    obtain ⟨i, hscreen⟩ := List.mem_iff_getElem?.1 hs
    have hfound := hnone (i, f.indexOf? t.target, t) (mem_edges.2 ⟨s, hscreen, ht, rfl⟩)
    by_contra hmissing
    simp [isNone_indexOf?.2 hmissing] at hfound
  · rintro hall ⟨i, target, t⟩ hedge
    obtain ⟨s, hscreen, ht, rfl⟩ := mem_edges.1 hedge
    have hnamed := hall s (List.mem_of_getElem? hscreen) t ht
    exact if_neg fun hnone => isNone_indexOf?.1 hnone hnamed

/-- If every screen can be reached, no name is repeated. -/
theorem duplicateNames_eq_nil (h : f.unreachable = []) : f.duplicateNames = [] := by
  apply List.eq_nil_iff_forall_not_mem.2
  intro e he
  obtain ⟨first, second, rest, -, -, hlater⟩ := exists_positions_of_mem_duplicateNames he
  have hsecond := hlater second (by simp)
  rw [h] at hsecond
  exact List.not_mem_nil hsecond

theorem unreachable_eq_nil_iff :
    f.unreachable = [] ↔ ∀ i < f.size, ReflTransGen f.Leads 0 i := by
  rw [List.eq_nil_iff_forall_not_mem]
  refine forall_congr' fun i => ?_
  rw [mem_unreachable, not_and_not_right]

private theorem review_isClean_iff :
    f.review.isClean = true ↔ f.unresolved = [] ∧ f.unreachable = [] := by
  unfold Review.isClean
  rw [Bool.and_eq_true, Bool.and_eq_true, List.isEmpty_iff, List.isEmpty_iff, List.isEmpty_iff]
  exact ⟨fun h => ⟨h.1.2, h.2⟩, fun h => ⟨⟨duplicateNames_eq_nil h.2, h.1⟩, h.2⟩⟩

/-- A review is exact. The screens it lists as out of reach are, in increasing
order, those that no chain of transitions from the first screen leads to, so
never the first itself. The names it lists as repeated are those given at least
twice, in the order in which they were first given; with each stand all its
positions in increasing order, the first of which is the one that the name
stands for, and the others are out of reach. Hence a review is clean exactly if
every transition leads to a screen and every screen can be reached, and it has
nothing to say exactly then. -/
theorem review_exact (f : Flow) :
    f.review.unreachable.Pairwise (· < ·) ∧
    (∀ i, i ∈ f.review.unreachable ↔ i < f.size ∧ ¬ReflTransGen f.Leads 0 i) ∧
    0 ∉ f.review.unreachable ∧
    (f.review.duplicates.map (·.1)).Pairwise
      (fun m n => f.names.idxOf m < f.names.idxOf n) ∧
    (∀ name, name ∈ f.review.duplicates.map (·.1) ↔ 2 ≤ f.names.count name) ∧
    (∀ e ∈ f.review.duplicates, e.2.Pairwise (· < ·) ∧
      (∀ i, i ∈ e.2 ↔ f.names[i]? = some e.1) ∧
      ∃ first rest, e.2 = first :: rest ∧ f.indexOf? e.1 = some first ∧
        ∀ i ∈ rest, i ∈ f.review.unreachable) ∧
    (f.review.isClean = true ↔
      (∀ s ∈ f.screens, ∀ t ∈ s.transitions, t.target ∈ f.names) ∧
        ∀ i < f.size, ReflTransGen f.Leads 0 i) ∧
    (f.review.isClean = true ↔ f.review.messages f = []) := by
  have hfirst : 0 ∉ f.unreachable := fun h => (mem_unreachable.1 h).2 ReflTransGen.refl
  refine ⟨f.unreachable_sorted, fun i => mem_unreachable, hfirst, f.duplicateNames_ordered,
    fun name => ?_, fun e he => ?_, ?_, (f.review.messages_eq_nil_iff f).symm⟩
  · rw [List.mem_map]
    constructor
    · rintro ⟨e, he, rfl⟩
      exact (mem_duplicateNames.1 he).2
    · intro hcount
      exact ⟨(name, f.positionsOf name), mem_duplicateNames.2 ⟨rfl, hcount⟩, rfl⟩
  · have hpositions : e.2 = f.positionsOf e.1 := (mem_duplicateNames.1 he).1
    obtain ⟨first, second, rest, hlist, hindex, hlater⟩ := exists_positions_of_mem_duplicateNames he
    exact ⟨hpositions ▸ f.positionsOf_sorted e.1, fun i => hpositions ▸ mem_positionsOf,
      first, second :: rest, hlist, hindex, hlater⟩
  · rw [review_isClean_iff, unresolved_eq_nil_iff, unreachable_eq_nil_iff]

end Flow

end Storyboard
