import Storyboard.Proofs.MeanOrder
import Storyboard.Proofs.NumberedScreens

/-!
# Means that are taken for equal

A flow of two rows has some screens on top, and every other screen is led to from
these and leads nowhere. If the means by which both rows are sorted increase along
them, the rows stay as they are, and what the upper screens see below them is what
they were made to lead to.

In a large enough flow of this kind two screens next to each other see means that
differ by less than floating point can tell. They are taken for equal, so the two
screens keep their order, though it is not that of their means.

## Main results

* `Flow.layers_twoRows` — flows of two rows that ordering leaves as they are.
* `Flow.placesBelow_twoRows` — what their upper screens see below them.
* `Flow.nearMeans_out_of_order` — a layout in which means decrease along a layer.
-/

namespace Storyboard

open Relation

namespace Layout

/-- In layers without repetitions, the positions of nodes are known from where
the nodes stand. -/
theorem positionsIn_perm {layer nodes ps : List Nat} (hlayer : layer.Nodup)
    (hnodes : nodes.Nodup) (hps : ps.Nodup)
    (h : ∀ p, p ∈ ps ↔ ∃ d ∈ nodes, layer[p]? = some d) :
    (positionsIn layer nodes).Perm ps := by
  apply (List.perm_ext_iff_of_nodup (nodup_positionsIn hnodes) hps).2
  intro p
  rw [mem_positionsIn hlayer, h]

/-- What a node is sorted by, if its neighbours stand at some positions. -/
theorem meanPosition_of_perm {neighbours : Nat → List Nat} {layer reference ps : List Nat}
    {v : Nat} (h : (positionsIn reference (neighbours v)).Perm ps) (hps : ps ≠ []) :
    meanPosition neighbours layer reference v = heldMean ps := by
  rw [← heldMean_eq_of_perm h]
  apply meanPosition_eq_heldMean
  intro hnil
  rw [hnil] at h
  exact hps (List.nil_perm.1 h)

private theorem meanOf_eq_of_perm {ps qs : List Nat} (h : ps.Perm qs) : meanOf ps = meanOf qs := by
  rw [meanOf, meanOf, h.sum_eq, h.length_eq]

end Layout

/-- The layers go as deep as the deepest node. -/
theorem Digraph.layers_of_depths {g : Digraph} {order : List Nat} (count : Nat)
    (hlt : ∀ v < g.size, (g.depths order).getD v 0 < count)
    (hlast : ∃ v < g.size, (g.depths order).getD v 0 + 1 = count) :
    g.layers order = (List.range count).map fun k =>
      (List.range g.size).filter fun v => (g.depths order).getD v 0 = k := by
  have hmem : ∀ v < g.size, (g.depths order).getD v 0 ∈ (g.depths order).toList := by
    intro v hv
    rw [← size_depths g order] at hv
    simp [Array.getD, hv]
  have hle : (g.depths order).toList.foldl (fun n d => max n (d + 1)) 0 ≤ count := by
    by_contra hmore
    obtain ⟨d, hd, hdeep⟩ :=
      (exists_depth_le_of_lt_count _ (Nat.lt_of_not_le hmore)).resolve_left (Nat.not_lt_zero _)
    obtain ⟨v, hv, hdepth⟩ := List.mem_iff_getElem.1 hd
    rw [Array.length_toList] at hv
    have hless := hlt v (size_depths g order ▸ hv)
    rw [Array.getD_eq_getD_getElem?, Array.getElem?_eq_getElem hv, Option.getD_some] at hless
    rw [Array.getElem_toList] at hdepth
    omega
  obtain ⟨v, hv, hdepth⟩ := hlast
  have hge := (@lt_foldl_count _ 0).2 _ (hmem v hv)
  have hcount : (g.depths order).foldl (fun n d => max n (d + 1)) 0 = count := by
    rw [← Array.foldl_toList]
    omega
  unfold layers
  dsimp only
  rw [hcount]

/-- A graph without back edges is kept as it is. -/
theorem Flow.kept_eq_digraph {f : Flow} (h : ∀ v, ¬TransGen f.digraph.Edge v v) :
    f.kept = f.digraph := by
  unfold kept
  rw [Digraph.backEdges_eq_nil f.digraph_closed h]
  unfold Digraph.without
  rw [List.filter_eq_self.2]
  intro e _
  exact decide_eq_true List.not_mem_nil

private theorem Flow.nodup_prev_kept (f : Flow) (v : Nat) : (f.kept.prev v).Nodup := by
  have hedges : f.kept.edges.Nodup := (Sequence.nodup_distinct _).filter _
  refine hedges.filterMap fun a b d ha hb => ?_
  simp at ha hb
  exact Prod.ext (ha.2.trans hb.2.symm) (ha.1.trans hb.1.symm)

/-! ## Two rows of screens -/

namespace Flow

/-- The flow of `s` screens on top and `m` below them, in which the upper screens
lead to the lower screens in given spots. -/
def twoRows (s m : Nat) (spots : Nat → List Nat) : Flow :=
  numbered (s + m) fun i => if i < s then (spots i).map (s + ·) else []

/-- The upper screens that lead to the lower screen in a spot. -/
def above (s : Nat) (spots : Nat → List Nat) (p : Nat) : List Nat :=
  (List.range s).filter (p ∈ spots ·)

/-- That the upper screens lead to different lower screens, and that there is a way
down from each and to each. -/
structure Joined (s m : Nat) (spots : Nat → List Nat) : Prop where
  nodup : ∀ i < s, (spots i).Nodup
  lt : ∀ i < s, ∀ p ∈ spots i, p < m
  leads : ∀ i < s, spots i ≠ []
  led : ∀ p < m, above s spots p ≠ []

section TwoRows

variable {s m : Nat} {spots : Nat → List Nat} (h : Joined s m spots)

include h

private theorem digraph_twoRows :
    (twoRows s m spots).digraph =
      Digraph.leading (s + m) fun i => if i < s then (spots i).map (s + ·) else [] := by
  apply digraph_numbered
  intro i _
  split
  · rename_i hi
    refine ⟨(h.nodup i hi).map fun a b hab => Nat.add_left_cancel hab, ?_⟩
    intro d hd
    obtain ⟨p, hp, rfl⟩ := List.mem_map.1 hd
    exact Nat.add_lt_add_left (h.lt i hi p hp) s
  · exact ⟨List.nodup_nil, fun d hd => absurd hd List.not_mem_nil⟩

/-- The edges lead from upper screens to lower ones. -/
theorem edge_twoRows {i d : Nat} :
    (twoRows s m spots).digraph.Edge i d ↔ i < s ∧ ∃ p ∈ spots i, d = s + p := by
  rw [digraph_twoRows h, Digraph.Edge, Digraph.mem_edges_leading]
  constructor
  · intro hedge
    by_cases hi : i < s
    · rw [if_pos hi] at hedge
      obtain ⟨p, hp, heq⟩ := List.mem_map.1 hedge.2
      exact ⟨hi, p, hp, heq.symm⟩
    · rw [if_neg hi] at hedge
      exact absurd hedge.2 List.not_mem_nil
  · rintro ⟨hi, p, hp, rfl⟩
    rw [if_pos hi]
    exact ⟨by omega, List.mem_map.2 ⟨p, hp, rfl⟩⟩

private theorem kept_twoRows : (twoRows s m spots).kept = (twoRows s m spots).digraph := by
  apply kept_eq_digraph
  intro v hcycle
  obtain ⟨d, hfirst, -⟩ := TransGen.head'_iff.1 hcycle
  obtain ⟨u, -, hlast⟩ := TransGen.tail'_iff.1 hcycle
  obtain ⟨hv, -⟩ := (edge_twoRows h).1 hfirst
  obtain ⟨-, p, -, hp⟩ := (edge_twoRows h).1 hlast
  omega

theorem edge_kept_twoRows {i p : Nat} :
    (twoRows s m spots).kept.Edge i (s + p) ↔ i < s ∧ p ∈ spots i := by
  rw [kept_twoRows h, edge_twoRows h]
  constructor
  · rintro ⟨hi, q, hq, heq⟩
    rw [Nat.add_left_cancel heq]
    exact ⟨hi, hq⟩
  · rintro ⟨hi, hp⟩
    exact ⟨hi, p, hp, rfl⟩

/-! ### Depths -/

theorem depth_upper {i : Nat} (hi : i < s) : (twoRows s m spots).depth i = 0 := by
  apply (twoRows s m spots).deepens.eq_zero
  intro u hedge
  rw [kept_twoRows h] at hedge
  obtain ⟨-, p, -, hp⟩ := (edge_twoRows h).1 hedge
  omega

private theorem depth_lower {p : Nat} (hp : p < m) : (twoRows s m spots).depth (s + p) = 1 := by
  have hdeepens := (twoRows s m spots).deepens
  obtain ⟨i, hi⟩ := List.exists_mem_of_ne_nil _ (h.led p hp)
  obtain ⟨hrange, hspot⟩ := List.mem_filter.1 hi
  have hedge := (edge_kept_twoRows h).2 ⟨List.mem_range.1 hrange, of_decide_eq_true hspot⟩
  have hlt := hdeepens.lt i (s + p) hedge
  obtain ⟨a, hstep, ha⟩ := hdeepens.exists_above (s + p) (by omega)
  rw [depth_upper h ((edge_kept_twoRows h).1 hstep).1] at ha
  exact ha.symm

/-- The layers of two rows are the rows. -/
theorem kept_layers_twoRows (hm : 0 < m) :
    (twoRows s m spots).kept.layers (twoRows s m spots).digraph.topological =
      [List.range s, List.range' s m] := by
  have hsize : (twoRows s m spots).kept.size = s + m := size_numbered
  have hless : ∀ v < s + m, (twoRows s m spots).depth v < 2 := by
    intro v hv
    by_cases hupper : v < s
    · rw [depth_upper h hupper]
      omega
    · have hlower := depth_lower h (p := v - s) (by omega)
      rw [Nat.add_sub_cancel' (by omega)] at hlower
      omega
  have hnodes : List.range (s + m) = List.range s ++ List.range' s m := by
    rw [List.range_eq_range', List.range_eq_range', ← List.range'_append_1, Nat.zero_add]
  have hrow : ∀ k, (List.range (s + m)).filter (fun v => (twoRows s m spots).depth v = k) =
      (List.range s).filter (fun _ => 0 = k) ++ (List.range' s m).filter (fun _ => 1 = k) := by
    intro k
    rw [hnodes, List.filter_append]
    congr 1
    · apply List.filter_congr
      intro v hv
      rw [depth_upper h (List.mem_range.1 hv)]
    · apply List.filter_congr
      intro v hv
      obtain ⟨p, hp, rfl⟩ := List.mem_range'.1 hv
      rw [Nat.one_mul, depth_lower h hp]
  rw [Digraph.layers_of_depths 2, hsize]
  · exact congrArg₂ (fun upper lower => [upper, lower]) ((hrow 0).trans (by simp))
      ((hrow 1).trans (by simp))
  · intro v hv
    exact hless v (hsize ▸ hv)
  · exact ⟨s, by omega, congrArg (· + 1) (depth_lower h hm)⟩

/-! ### Positions -/

/-- An upper screen is sorted by the spots that it leads to. -/
theorem positionsIn_next_twoRows {i : Nat} (hi : i < s) :
    (Layout.positionsIn (List.range' s m) ((twoRows s m spots).kept.next i)).Perm (spots i) := by
  apply Layout.positionsIn_perm List.nodup_range' (nodup_next_kept _ i) (h.nodup i hi)
  intro p
  constructor
  · intro hp
    refine ⟨s + p, Digraph.mem_next.2 ((edge_kept_twoRows h).2 ⟨hi, hp⟩), ?_⟩
    rw [List.getElem?_range' (h.lt i hi p hp), Nat.one_mul]
  · rintro ⟨d, hd, hget⟩
    obtain ⟨hp, heq⟩ := List.getElem?_eq_some_iff.1 hget
    rw [List.getElem_range', Nat.one_mul] at heq
    rw [← heq] at hd
    exact ((edge_kept_twoRows h).1 (Digraph.mem_next.1 hd)).2

/-- A lower screen is sorted by the screens that lead to it. -/
theorem positionsIn_prev_twoRows (p : Nat) :
    (Layout.positionsIn (List.range s) ((twoRows s m spots).kept.prev (s + p))).Perm
      (above s spots p) := by
  apply Layout.positionsIn_perm List.nodup_range (nodup_prev_kept _ _) (List.nodup_range.filter _)
  intro i
  rw [List.mem_filter, decide_eq_true_eq, List.mem_range]
  constructor
  · intro hi
    exact ⟨i, Digraph.mem_prev.2 ((edge_kept_twoRows h).2 hi), List.getElem?_range hi.1⟩
  · rintro ⟨d, hd, hget⟩
    obtain ⟨hlt, heq⟩ := List.getElem?_eq_some_iff.1 hget
    rw [List.getElem_range] at heq
    rw [← heq] at hd
    exact (edge_kept_twoRows h).1 (Digraph.mem_prev.1 hd)

/-- If means increase along both rows, ordering leaves the rows as they are. -/
theorem layers_twoRows (hm : 0 < m)
    (hupper : (List.range s).Pairwise fun i j =>
      Layout.heldMean (spots i) ≤ Layout.heldMean (spots j))
    (hlower : (List.range m).Pairwise fun p q =>
      Layout.heldMean (above s spots p) ≤ Layout.heldMean (above s spots q)) (passes : Int) :
    ((twoRows s m spots).layout passes).layers = [List.range s, List.range' s m] := by
  have hnext : ∀ i < s, Layout.meanPosition (twoRows s m spots).kept.next (List.range s)
      (List.range' s m) i = Layout.heldMean (spots i) := by
    intro i hi
    exact Layout.meanPosition_of_perm (positionsIn_next_twoRows h hi) (h.leads i hi)
  have hprev : ∀ p < m, Layout.meanPosition (twoRows s m spots).kept.prev (List.range' s m)
      (List.range s) (s + p) = Layout.heldMean (above s spots p) := by
    intro p hp
    exact Layout.meanPosition_of_perm (positionsIn_prev_twoRows h p) (h.led p hp)
  have hsettled : Layout.Settled (twoRows s m spots).kept [List.range s, List.range' s m] := by
    refine List.isChain_pair.2 ⟨?_, hupper.imp_of_mem fun {i j} hi hj hle => ?_⟩
    · rw [Layout.InOrder, List.range'_eq_map_range, List.pairwise_map]
      rw [List.range'_eq_map_range] at hprev
      refine hlower.imp_of_mem fun {p q} hp hq hle => ?_
      rw [hprev p (List.mem_range.1 hp), hprev q (List.mem_range.1 hq)]
      exact hle
    · rw [hnext i (List.mem_range.1 hi), hnext j (List.mem_range.1 hj)]
      exact hle
  rw [layout_layers, kept_layers_twoRows h hm, Layout.sweeps_of_settled hsettled]

/-- What an upper screen sees below it is what it leads to. -/
theorem placesBelow_twoRows {passes : Int}
    (hlayers : ((twoRows s m spots).layout passes).layers = [List.range s, List.range' s m])
    {i : Nat} (hi : i < s) :
    (((twoRows s m spots).layout passes).placesBelow 0 i).Perm (spots i) := by
  have hperm := placesBelow_perm (twoRows s m spots) passes 0 i
  rw [hlayers] at hperm
  exact hperm.trans (positionsIn_next_twoRows h hi)

end TwoRows

/-! ## Two near means -/

/-- Spot `j`, and the spots from `j + 2` to `2 * c - j - 1`. -/
def stretch (c j : Nat) : List Nat := j :: List.range' (j + 2) (2 * (c - j) - 2)

/-- The spots that four screens lead to. The second and the third share all but a few
of theirs, and the first and the last lead to what is at the ends. -/
def sharing (c : Nat) : Nat → List Nat
  | 0 => [0, 1]
  | 1 => stretch c 0
  | 2 => stretch c 1
  | _ => [2 * c - 1, 2 * c]

section Sharing

variable {c : Nat}

private theorem sum_range'_add (n k : Nat) :
    2 * (List.range' k n).sum + n = n * (2 * k + n) := by
  induction n generalizing k with
  | zero => simp
  | succ n ih =>
      rw [List.range'_succ, List.sum_cons]
      have hrest := ih (k + 1)
      nlinarith

/-- The mean of a stretch is just below `c`. -/
theorem sum_stretch {j : Nat} (hj : j < c) :
    (stretch c j).sum = c * (2 * (c - j) - 1) - 1 ∧ (stretch c j).length = 2 * (c - j) - 1 := by
  obtain ⟨k, rfl⟩ := Nat.exists_eq_add_of_lt hj
  have hlength : 2 * (j + k + 1 - j) - 2 = 2 * k := by omega
  have hcount : 2 * (j + k + 1 - j) - 1 = 2 * k + 1 := by omega
  have hsum := sum_range'_add (2 * k) (j + 2)
  rw [stretch, List.sum_cons, List.length_cons, List.length_range', hlength, hcount]
  refine ⟨Nat.eq_sub_of_add_eq ?_, rfl⟩
  nlinarith

private theorem above_sharing (hc : 3 ≤ c) {p : Nat} (hp : p < 2 * c + 1) :
    above 4 (sharing c) p =
      if p = 0 then [0, 1] else if p = 1 then [0, 2] else if p = 2 then [1]
      else if p < 2 * c - 1 then [1, 2] else if p = 2 * c - 1 then [1, 3] else [3] := by
  have hfour : List.range 4 = [0, 1, 2, 3] := rfl
  have hfirst : p ∈ sharing c 0 ↔ p < 2 := by simp [sharing]; omega
  have hsecond : p ∈ sharing c 1 ↔ p = 0 ∨ 2 ≤ p ∧ p < 2 * c := by
    simp [sharing, stretch, List.mem_range'_1]; omega
  have hthird : p ∈ sharing c 2 ↔ p = 1 ∨ 3 ≤ p ∧ p < 2 * c - 1 := by
    simp [sharing, stretch, List.mem_range'_1]; omega
  have hfourth : p ∈ sharing c 3 ↔ 2 * c - 1 ≤ p := by simp [sharing]; omega
  unfold above
  rw [hfour]
  simp only [List.filter_cons, List.filter_nil, decide_eq_true_eq, hfirst, hsecond, hthird,
    hfourth]
  grind

/-- The means that the lower screens are sorted by, in halves. -/
def halvesAbove (c p : Nat) : Nat :=
  if p = 0 then 1 else if p = 1 then 2 else if p = 2 then 2
  else if p < 2 * c - 1 then 3 else if p = 2 * c - 1 then 4 else 6

private theorem heldMean_above_sharing (hc : 3 ≤ c) {p : Nat} (hp : p < 2 * c + 1) :
    Layout.heldMean (above 4 (sharing c) p) = halvesAbove c p / 2 := by
  rw [above_sharing hc hp]
  unfold halvesAbove
  split_ifs <;> decide +kernel

private theorem joined_sharing (hc : 3 ≤ c) : Joined 4 (2 * c + 1) (sharing c) where
  nodup := by
    intro i _
    unfold sharing
    split
    · decide
    · exact List.nodup_cons.2 ⟨by simp [List.mem_range'_1], List.nodup_range'⟩
    · exact List.nodup_cons.2 ⟨by simp [List.mem_range'_1], List.nodup_range'⟩
    · simp
      omega
  lt := by
    intro i _ p hp
    unfold sharing at hp
    split at hp
    all_goals
      simp [stretch, List.mem_range'_1] at hp
      omega
  leads := by
    intro i _
    unfold sharing
    split <;> exact List.cons_ne_nil _ _
  led := by
    intro p hp
    rw [above_sharing hc hp]
    split_ifs <;> exact List.cons_ne_nil _ _

/-- Ordering leaves the rows of such a flow as they are if the means that its upper
screens see increase as they are held. -/
theorem layers_sharing (hc : 3 ≤ c)
    (hmeans : (List.range 4).Pairwise fun i j =>
      Layout.heldMean (sharing c i) ≤ Layout.heldMean (sharing c j)) (passes : Int) :
    ((twoRows 4 (2 * c + 1) (sharing c)).layout passes).layers =
      [List.range 4, List.range' 4 (2 * c + 1)] := by
  refine layers_twoRows (joined_sharing hc) (by omega) hmeans ?_ passes
  refine List.pairwise_lt_range.imp_of_mem fun {p q} hp hq hlt => ?_
  rw [heldMean_above_sharing hc (List.mem_range.1 hp),
    heldMean_above_sharing hc (List.mem_range.1 hq)]
  have hhalves : halvesAbove c p ≤ halvesAbove c q := by
    unfold halvesAbove
    split_ifs <;> omega
  gcongr

end Sharing

/-- A flow in which the second and the third screen see means that floating point
does not tell apart. -/
def nearMeans : Flow := twoRows 4 (2 * 131436 + 1) (sharing 131436)

/-- The means that the four upper screens see, as they are held. -/
theorem heldMean_sharing_pairwise :
    (List.range 4).Pairwise fun i j =>
      Layout.heldMean (sharing 131436 i) ≤ Layout.heldMean (sharing 131436 j) := by
  have hsecond := @sum_stretch 131436 0 (by decide)
  have hthird := @sum_stretch 131436 1 (by decide)
  have : IsTrans Nat fun i j =>
      Layout.heldMean (sharing 131436 i) ≤ Layout.heldMean (sharing 131436 j) :=
    ⟨fun _ _ _ hij hjk => hij.trans hjk⟩
  apply List.isChain_iff_pairwise.1
  refine List.isChain_cons_cons.2 ⟨?_, List.isChain_cons_cons.2 ⟨?_, List.isChain_pair.2 ?_⟩⟩
  · show Layout.heldMean [0, 1] ≤ Layout.heldMean (stretch 131436 0)
    rw [Layout.heldMean, Layout.heldMean, hsecond.1, hsecond.2]
    decide +kernel
  · show Layout.heldMean (stretch 131436 0) ≤ Layout.heldMean (stretch 131436 1)
    rw [Layout.heldMean, Layout.heldMean, hsecond.1, hsecond.2, hthird.1, hthird.2]
    decide +kernel
  · show Layout.heldMean (stretch 131436 1) ≤ Layout.heldMean [2 * 131436 - 1, 2 * 131436]
    rw [Layout.heldMean, Layout.heldMean, hthird.1, hthird.2]
    decide +kernel

/-- The means of the second and the third screen themselves. -/
theorem meanOf_sharing_lt :
    Layout.meanOf (sharing 131436 2) < Layout.meanOf (sharing 131436 1) := by
  have hsecond := @sum_stretch 131436 0 (by decide)
  have hthird := @sum_stretch 131436 1 (by decide)
  show Layout.meanOf (stretch 131436 1) < Layout.meanOf (stretch 131436 0)
  rw [Layout.meanOf, Layout.meanOf, hsecond.1, hsecond.2, hthird.1, hthird.2]
  norm_num

/-- Means need not increase along a layer: in this flow the second screen comes
before the third, though the mean that it sees is greater. -/
theorem nearMeans_out_of_order :
    1 ≤ Layout.usualPasses ∧
    ¬∀ (k : Nat) (layer : List Nat),
      (nearMeans.layout Layout.usualPasses).layers[k]? = some layer →
      layer.Pairwise fun u v =>
        (nearMeans.layout Layout.usualPasses).placesBelow k u ≠ [] →
        (nearMeans.layout Layout.usualPasses).placesBelow k v ≠ [] →
          Layout.meanOf ((nearMeans.layout Layout.usualPasses).placesBelow k u) ≤
            Layout.meanOf ((nearMeans.layout Layout.usualPasses).placesBelow k v) := by
  have hc : 3 ≤ 131436 := by decide
  have hjoined := joined_sharing hc
  have hlayers := layers_sharing hc heldMean_sharing_pairwise Layout.usualPasses
  have hsecond := placesBelow_twoRows hjoined hlayers (i := 1) (by decide)
  have hthird := placesBelow_twoRows hjoined hlayers (i := 2) (by decide)
  refine ⟨by decide, fun hall => ?_⟩
  have htop := hall 0 (List.range 4) (congrArg (·[0]?) hlayers)
  have hpair := List.pairwise_iff_getElem.1 htop 1 2 (by decide) (by decide) (by decide)
  have hle := hpair (fun hnil => hjoined.leads 1 (by decide) (List.nil_perm.1 (hnil ▸ hsecond)))
    (fun hnil => hjoined.leads 2 (by decide) (List.nil_perm.1 (hnil ▸ hthird)))
  have hmeans : Layout.meanOf (sharing 131436 1) ≤ Layout.meanOf (sharing 131436 2) := by
    rw [← Layout.meanOf_eq_of_perm hsecond, ← Layout.meanOf_eq_of_perm hthird]
    exact hle
  exact absurd hmeans meanOf_sharing_lt.not_ge

end Flow

end Storyboard
