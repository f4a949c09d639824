import Mathlib.Algebra.Order.BigOperators.Group.List
import Storyboard.Proofs.Rounding
import Storyboard.Proofs.Slots

/-!
# The order that the last sweep leaves

Ordering goes over the layers many times, and each sweep undoes part of what the
one before it did. What the result keeps is what the last upward sweep did. It
goes from the bottom up, so the layer by which it sorts another is not touched
any more: in the end every layer is in the order of the means of positions that
its screens see below them. These means are held in floating point, and so close
ones may be taken for equal; in a flow of no more than `Layout.exactSize` screens
two means that differ are never that close.

The top layer is sorted by no other sweep. A screen without a neighbour below it
is sorted by its own position, which tells such screens apart, so sorting never
exchanges two of them and they keep the order of the flow.

## Main results

* `Layout.arrange_pairwise` — a layer that was sorted is in the order of means.
* `Layout.meanOf_le_of_heldMean_le` — the order of means that are held in floating
  point, and of the means themselves.
* `Layout.sweepUp_arranged` — after a sweep, each layer is sorted by the final
  state of the one below it.
* `Layout.TopInOrder.sweep`, `Layout.TopInOrder.sweeps` — the screens of the top
  layer that are joined to nothing below it.
* `Flow.layout_mean_order` — the order of the screens in the layers of a layout.
-/

namespace Storyboard

namespace Layout

/-! ## Sorted layers -/

/-- A layer that was sorted is in the order of what its nodes are sorted by. -/
theorem arrange_pairwise (neighbours : Nat → List Nat) (layer reference : List Nat) :
    (arrange neighbours layer reference).Pairwise fun u v =>
      meanPosition neighbours layer reference u ≤ meanPosition neighbours layer reference v := by
  have hkeys : ∀ e ∈ layer.map fun v => (meanPosition neighbours layer reference v, v),
      e.1 = meanPosition neighbours layer reference e.2 := by
    intro e he
    obtain ⟨v, -, rfl⟩ := List.mem_map.1 he
    rfl
  unfold arrange
  rw [List.pairwise_map]
  refine (List.pairwise_mergeSort ?_ ?_ _).imp_of_mem fun {a b} ha hb hab => ?_
  · intro a b c hab hbc
    exact decide_eq_true ((of_decide_eq_true hab).trans (of_decide_eq_true hbc))
  · intro a b
    rw [Bool.or_eq_true, decide_eq_true_iff, decide_eq_true_iff]
    exact le_total a.1 b.1
  rw [← hkeys a (List.mem_mergeSort.1 ha), ← hkeys b (List.mem_mergeSort.1 hb)]
  exact of_decide_eq_true hab

/-! ## Neighbours in the layer below -/

/-- Whether no edge leads from `u` into the layer `below`. -/
def Loose (g : Digraph) (below : List Nat) (u : Nat) : Prop := ∀ d ∈ g.next u, d ∉ below

private theorem positionsIn_eq_nil_iff {layer nodes : List Nat} :
    positionsIn layer nodes = [] ↔ ∀ d ∈ nodes, d ∉ layer := by
  rw [positionsIn, List.filterMap_eq_nil_iff]
  exact forall₂_congr fun d _ => List.idxOf?_eq_none_iff

private theorem meanPosition_of_loose {g : Digraph} {layer below : List Nat} {u : Nat}
    (h : Loose g below u) : meanPosition g.next layer below u = layer.idxOf u := by
  rw [meanPosition, positionsIn_eq_nil_iff.2 h]
  rfl

/-- In a layer without repetitions, the positions of nodes are where these
stand. -/
theorem mem_positionsIn {layer nodes : List Nat} (hnodup : layer.Nodup) {p : Nat} :
    p ∈ positionsIn layer nodes ↔ ∃ d ∈ nodes, layer[p]? = some d := by
  rw [positionsIn, List.mem_filterMap]
  refine exists_congr fun d => and_congr_right fun _ => ?_
  rw [List.idxOf?_eq_some_iff, List.getElem?_eq_some_iff]
  refine exists_congr fun hp => and_iff_left_of_imp fun hd j hj hjd => ?_
  rw [← hd] at hjd
  exact Nat.ne_of_lt hj (hnodup.getElem_inj_iff.1 hjd)

theorem nodup_positionsIn {layer nodes : List Nat} (hnodes : nodes.Nodup) :
    (positionsIn layer nodes).Nodup := by
  refine hnodes.filterMap fun a b p ha hb => ?_
  obtain ⟨_, hpa, -⟩ := List.idxOf?_eq_some_iff.1 ha
  obtain ⟨_, hpb, -⟩ := List.idxOf?_eq_some_iff.1 hb
  exact hpa.symm.trans hpb

/-- The mean of some positions. -/
def meanOf (ps : List Nat) : ℚ := (ps.sum : ℚ) / ps.length

/-- The mean of some positions as it is held in floating point. -/
def heldMean (ps : List Nat) : ℚ := Fine.quotient ps.sum ps.length

/-- As many screens as there may be for rounding to make no difference. -/
def exactSize : Nat := 2 ^ 17

theorem heldMean_eq_of_perm {ps qs : List Nat} (h : ps.Perm qs) : heldMean ps = heldMean qs := by
  rw [heldMean, heldMean, h.sum_eq, h.length_eq]

theorem meanPosition_eq_heldMean {neighbours : Nat → List Nat} {layer reference : List Nat}
    {v : Nat} (h : positionsIn reference (neighbours v) ≠ []) :
    meanPosition neighbours layer reference v =
      heldMean (positionsIn reference (neighbours v)) := by
  unfold meanPosition
  split
  · rename_i hnil
    exact absurd hnil h
  · rw [heldMean, List.sum_eq_foldl]

/-- Means of different positions below a bound are in the order in which they are
held, if the bound is small. -/
theorem meanOf_le_of_heldMean_le {ps qs : List Nat} {size : Nat} (hsize : size ≤ exactSize)
    (hps : ps ≠ []) (hqs : qs ≠ []) (hpsnodup : ps.Nodup) (hqsnodup : qs.Nodup)
    (hpsbound : ∀ p ∈ ps, p < size) (hqsbound : ∀ q ∈ qs, q < size)
    (h : heldMean ps ≤ heldMean qs) : meanOf ps ≤ meanOf qs := by
  have hlength : ∀ {ms : List Nat}, ms.Nodup → (∀ m ∈ ms, m < size) → ms.length ≤ size := by
    intro ms hnodup hbound
    have hsubset : ms ⊆ List.range size := fun m hm => List.mem_range.2 (hbound m hm)
    simpa using (List.subperm_of_subset hnodup hsubset).length_le
  have hsum : ∀ {ms : List Nat}, (∀ m ∈ ms, m < size) → ms.sum ≤ ms.length * size := by
    intro ms hbound
    exact List.sum_le_card_nsmul ms size fun m hm => (hbound m hm).le
  refine Fine.div_le_div_of_quotient_le (List.length_pos_iff.2 hps) (List.length_pos_iff.2 hqs)
    (hlength hpsnodup hpsbound) (hlength hqsnodup hqsbound) (hsum hpsbound) (hsum hqsbound) ?_ h
  calc 2 * size ^ 3 ≤ 2 * exactSize ^ 3 := Nat.mul_le_mul_left 2 (Nat.pow_le_pow_left hsize 3)
    _ < 2 ^ Fine.precision := by decide

/-! ## Sweeps -/

/-- A number of passes ends with a pass. -/
theorem sweeps_succ (g : Digraph) :
    ∀ (n : Nat) (layers : List (List Nat)),
      sweeps g (n + 1) layers = sweep g (sweeps g n layers) := by
  intro n
  induction n with
  | zero =>
      intro layers
      rfl
  | succ n ih =>
      intro layers
      exact ih (sweep g layers)

/-- After an upward sweep, each layer is sorted by the layer below it as that
layer is then. -/
theorem sweepUp_arranged (g : Digraph) (layers : List (List Nat)) :
    ∀ {k : Nat} {layer below : List Nat}, (sweepUp g layers)[k]? = some layer →
      (sweepUp g layers)[k + 1]? = some below → ∃ old, layer = arrange g.next old below := by
  induction layers with
  | nil =>
      intro k layer below hlayer
      simp [sweepUp] at hlayer
  | cons first rest ih =>
      intro k layer below hlayer hbelow
      rw [sweepUp] at hlayer hbelow
      cases hrest : sweepUp g rest with
      | nil =>
          rw [hrest] at hbelow
          simp at hbelow
      | cons next more =>
          rw [hrest] at hlayer hbelow ih
          cases k with
          | zero =>
              obtain rfl : next = below := by simpa using hbelow
              exact ⟨first, by simpa using hlayer.symm⟩
          | succ k => exact ih (by simpa using hlayer) (by simpa using hbelow)

/-! ## The top layer -/

/-- That the screens of the top layer that no edge joins to the next layer are
in increasing order. -/
def TopInOrder (g : Digraph) : List (List Nat) → Prop
  | [] => True
  | top :: rest => top.Nodup ∧ top.Pairwise fun u v =>
      Loose g (rest.headD []) u → Loose g (rest.headD []) v → u < v

variable {g : Digraph}

private theorem SameLayers.headD_perm {a b : List (List Nat)} (h : SameLayers a b) :
    (a.headD []).Perm (b.headD []) := by
  cases h with
  | nil => exact List.Perm.refl _
  | cons hhead _ => exact hhead

private theorem Loose.of_perm {below other : List Nat} (hperm : below.Perm other) {u : Nat}
    (h : Loose g below u) : Loose g other u :=
  fun d hd hother => h d hd (hperm.mem_iff.2 hother)

private theorem TopInOrder.pairwise {layers : List (List Nat)} {top : List Nat}
    (h : TopInOrder g layers) (htop : layers[0]? = some top) :
    top.Pairwise fun u v =>
      Loose g ((layers[1]?).getD []) u → Loose g ((layers[1]?).getD []) v → u < v := by
  cases layers with
  | nil => simp at htop
  | cons first rest =>
      obtain rfl : first = top := by simpa using htop
      have hbelow : ((first :: rest)[1]?).getD [] = rest.headD [] := by
        cases rest <;> rfl
      rw [hbelow]
      exact h.2

/-- Screens joined to nothing below them are sorted by their own positions, so
that sorting keeps them in order. -/
theorem arrange_loose {top below : List Nat} (hnodup : top.Nodup)
    (h : top.Pairwise fun u v => Loose g below u → Loose g below v → u < v) :
    (arrange g.next top below).Pairwise fun u v =>
      Loose g below u → Loose g below v → u < v := by
  have hperm := arrange_perm g.next top below
  have hne : (arrange g.next top below).Pairwise (· ≠ ·) := hperm.nodup_iff.2 hnodup
  refine ((arrange_pairwise g.next top below).and hne).imp_of_mem ?_
  rintro u v hu hv ⟨hle, hne⟩ hloose hloose'
  rw [meanPosition_of_loose hloose, meanPosition_of_loose hloose', Nat.cast_le] at hle
  have hu : u ∈ top := hperm.mem_iff.1 hu
  have hv : v ∈ top := hperm.mem_iff.1 hv
  have hlt : top.idxOf u < top.idxOf v :=
    Nat.lt_of_le_of_ne hle fun heq => hne ((List.idxOf_inj hu).1 heq)
  have hpair := List.pairwise_iff_getElem.1 h _ _ (List.idxOf_lt_length_of_mem hu)
    (List.idxOf_lt_length_of_mem hv) hlt
  rw [List.getElem_idxOf, List.getElem_idxOf] at hpair
  exact hpair hloose hloose'

private theorem TopInOrder.of_sameLayers {top : List Nat} {rest other : List (List Nat)}
    (hsame : SameLayers other rest) (h : TopInOrder g (top :: rest)) :
    TopInOrder g (top :: other) := by
  obtain ⟨hnodup, hpair⟩ := h
  refine ⟨hnodup, hpair.imp fun {u v} hlt hu hv => hlt ?_ ?_⟩
  · exact hu.of_perm hsame.headD_perm
  · exact hv.of_perm hsame.headD_perm

/-- One pass keeps these screens in order. -/
theorem TopInOrder.sweep {layers : List (List Nat)} (h : TopInOrder g layers) :
    TopInOrder g (Layout.sweep g layers) := by
  cases layers with
  | nil => exact trivial
  | cons top rest =>
      have hdown : TopInOrder g (top :: sweepBelow g top rest) :=
        h.of_sameLayers (sweepBelow_perm g rest top)
      have hup := hdown.of_sameLayers (sweepUp_perm g (sweepBelow g top rest))
      show TopInOrder g (sweepUp g (top :: sweepBelow g top rest))
      unfold sweepUp
      split
      · rename_i hnone
        rw [hnone] at hup
        exact hup
      · rename_i below more hsome
        rw [hsome] at hup
        exact ⟨(arrange_perm g.next top below).nodup_iff.2 hup.1, arrange_loose hup.1 hup.2⟩

/-- Any number of passes keeps them in order. -/
theorem TopInOrder.sweeps :
    ∀ (n : Nat) {layers : List (List Nat)}, TopInOrder g layers →
      TopInOrder g (Layout.sweeps g n layers) := by
  intro n
  induction n with
  | zero =>
      intro layers h
      exact h
  | succ n ih =>
      intro layers h
      exact ih h.sweep

end Layout

/-- Layers are worked out in increasing order. -/
theorem Digraph.layers_topInOrder (g : Digraph) (order : List Nat) :
    Layout.TopInOrder g (g.layers order) := by
  have hsorted : ∀ layer ∈ g.layers order, layer.Pairwise (· < ·) := by
    intro layer hlayer
    obtain ⟨k, -, rfl⟩ := List.mem_map.1 hlayer
    exact List.pairwise_lt_range.filter _
  revert hsorted
  cases g.layers order with
  | nil =>
      intro _
      exact trivial
  | cons top rest =>
      intro hsorted
      have htop := hsorted top List.mem_cons_self
      exact ⟨htop.imp Nat.ne_of_lt, htop.imp fun hlt _ _ => hlt⟩

/-! ## The layers of a layout -/

namespace Layout

instance (l : Layout) (u v : Nat) : Decidable (l.KeptEdge u v) :=
  inferInstanceAs (Decidable (_ ∧ _))

/-- The places in the layer below layer `k` to which edges that are kept lead
from `u`. -/
def placesBelow (l : Layout) (k u : Nat) : List Nat :=
  ((l.layers[k + 1]?).getD []).zipIdx.filterMap fun (v, p) =>
    if l.KeptEdge u v then some p else none

variable {l : Layout}

private theorem mem_placesBelow {k u p : Nat} :
    p ∈ l.placesBelow k u ↔ ∃ v, ((l.layers[k + 1]?).getD [])[p]? = some v ∧ l.KeptEdge u v := by
  rw [placesBelow, List.mem_filterMap]
  constructor
  · rintro ⟨⟨v, q⟩, hplace, heq⟩
    have hget := List.mem_zipIdx_iff_getElem?.1 hplace
    by_cases hkept : l.KeptEdge u v
    · obtain rfl : q = p := by simpa [hkept] using heq
      exact ⟨v, hget, hkept⟩
    · simp [hkept] at heq
  · rintro ⟨v, hget, hkept⟩
    exact ⟨(v, p), List.mem_zipIdx_iff_getElem?.2 hget, by simp [hkept]⟩

private theorem nodup_placesBelow (l : Layout) (k u : Nat) : (l.placesBelow k u).Nodup := by
  refine List.Pairwise.filterMap _ ?_ (Sequence.zipIdx_pairwise ((l.layers[k + 1]?).getD []))
  intro a b hab p hp q hq
  have hpa : a.2 = p := by
    simp at hp
    exact hp.2
  have hqb : b.2 = q := by
    simp at hq
    exact hq.2
  omega

end Layout

namespace Flow

theorem nodup_next_kept (f : Flow) (u : Nat) : (f.kept.next u).Nodup := by
  have hedges : f.kept.edges.Nodup := (Sequence.nodup_distinct _).filter _
  refine hedges.filterMap fun a b d ha hb => ?_
  simp at ha hb
  exact Prod.ext (ha.1.trans hb.1.symm) (ha.2.trans hb.2.symm)

private theorem placesBelow_eq (f : Flow) (passes : Int) (k u : Nat) :
    (f.layout passes).placesBelow k u =
      (((f.layout passes).layers[k + 1]?).getD []).zipIdx.filterMap fun (v, p) =>
        if (u, v) ∈ f.kept.edges then some p else none := by
  unfold Layout.placesBelow
  apply List.filterMap_congr
  rintro ⟨v, p⟩ -
  have hedge : (f.layout passes).KeptEdge u v ↔ (u, v) ∈ f.kept.edges := by
    rw [layout_keptEdge]
    exact Iff.rfl
  simp only [hedge]

/-- The places to which edges lead from a screen are the positions by which it
was sorted. -/
theorem placesBelow_perm (f : Flow) (passes : Int) (k u : Nat) :
    ((f.layout passes).placesBelow k u).Perm
      (Layout.positionsIn (((f.layout passes).layers[k + 1]?).getD []) (f.kept.next u)) := by
  have hbelow : (((f.layout passes).layers[k + 1]?).getD []).Nodup := by
    cases hlayer : (f.layout passes).layers[k + 1]? with
    | none => exact List.nodup_nil
    | some layer => exact f.nodup_of_mem_layers passes layer (List.mem_of_getElem? hlayer)
  refine (List.perm_ext_iff_of_nodup (Layout.nodup_placesBelow _ k u)
    (Layout.nodup_positionsIn (f.nodup_next_kept u))).2 fun p => ?_
  rw [Layout.mem_placesBelow, Layout.mem_positionsIn hbelow, layout_keptEdge]
  refine exists_congr fun v => ?_
  rw [Digraph.mem_next]
  exact and_comm

/-- The places in a layer are fewer than the screens. -/
theorem lt_size_of_mem_placesBelow {f : Flow} {passes : Int} {k u p : Nat}
    (h : p ∈ (f.layout passes).placesBelow k u) : p < f.size := by
  obtain ⟨v, hv, -⟩ := Layout.mem_placesBelow.1 h
  cases hlayer : (f.layout passes).layers[k + 1]? with
  | none =>
      rw [hlayer] at hv
      cases hv
  | some layer =>
      rw [hlayer, Option.getD_some] at hv
      have hsubset : layer ⊆ (f.layout passes).layers.flatten := fun w hw =>
        List.mem_flatten.2 ⟨layer, List.mem_of_getElem? hlayer, hw⟩
      have hnodup := f.nodup_of_mem_layers passes layer (List.mem_of_getElem? hlayer)
      have hlength := (List.subperm_of_subset hnodup hsubset).length_le
      rw [(f.layout_layers_perm passes).length_eq, List.length_range] at hlength
      exact (List.getElem?_eq_some_iff.1 hv).1.trans_le hlength

/-- After at least one pass, the mean of the places to which edges lead from the
screens of a layer increases along it, as it is held in floating point. -/
theorem heldMean_placesBelow_pairwise {f : Flow} {passes : Int} (hpasses : 1 ≤ passes) {k : Nat}
    {layer : List Nat} (hlayer : (f.layout passes).layers[k]? = some layer) :
    layer.Pairwise fun u v => (f.layout passes).placesBelow k u ≠ [] →
      (f.layout passes).placesBelow k v ≠ [] →
        Layout.heldMean ((f.layout passes).placesBelow k u) ≤
          Layout.heldMean ((f.layout passes).placesBelow k v) := by
  obtain ⟨n, hn⟩ : ∃ n, passes.toNat = n + 1 := ⟨passes.toNat - 1, by omega⟩
  have hperm := f.placesBelow_perm passes k
  cases hbelow : (f.layout passes).layers[k + 1]? with
  | none =>
      refine List.pairwise_of_forall fun u v hu => absurd ?_ hu
      rw [Layout.placesBelow, hbelow]
      rfl
  | some below =>
      rw [hbelow, Option.getD_some] at hperm
      rw [layout_layers, hn, Layout.sweeps_succ, Layout.sweep] at hlayer hbelow
      obtain ⟨old, rfl⟩ := Layout.sweepUp_arranged _ _ hlayer hbelow
      refine (Layout.arrange_pairwise f.kept.next old below).imp fun {u v} hle hu hv => ?_
      have hmean : ∀ {w}, (f.layout passes).placesBelow k w ≠ [] →
          Layout.meanPosition f.kept.next old below w =
            Layout.heldMean ((f.layout passes).placesBelow k w) := by
        intro w hw
        rw [Layout.heldMean_eq_of_perm (hperm w)]
        exact Layout.meanPosition_eq_heldMean fun hnil => hw (List.perm_nil.1 (hnil ▸ hperm w))
      rw [hmean hu, hmean hv] at hle
      exact hle

/-- Order within the layers of a layout. After at least one pass, the screens of
a layer that edges join to the layer below it are in the order of the means of
the places to which these edges lead, as the means are held in floating point. In a
flow of no more than `Layout.exactSize` screens this is the order of the means
themselves. In the top layer the other screens are in the order of the flow, however
many passes there were. -/
theorem layout_mean_order (f : Flow) (passes : Int) :
    let l := f.layout passes
    (1 ≤ passes → ∀ (k : Nat) (layer : List Nat), l.layers[k]? = some layer →
      layer.Pairwise fun u v => l.placesBelow k u ≠ [] → l.placesBelow k v ≠ [] →
        Layout.heldMean (l.placesBelow k u) ≤ Layout.heldMean (l.placesBelow k v) ∧
        (f.size ≤ Layout.exactSize →
          Layout.meanOf (l.placesBelow k u) ≤ Layout.meanOf (l.placesBelow k v))) ∧
    ∀ top : List Nat, l.layers[0]? = some top →
      top.Pairwise fun u v => l.placesBelow 0 u = [] → l.placesBelow 0 v = [] → u < v := by
  intro l
  constructor
  · intro hpasses k layer hlayer
    refine (heldMean_placesBelow_pairwise hpasses hlayer).imp fun {u v} hle hu hv => ?_
    have hheld := hle hu hv
    refine ⟨hheld, fun hsize => ?_⟩
    exact Layout.meanOf_le_of_heldMean_le hsize hu hv (Layout.nodup_placesBelow _ k u)
      (Layout.nodup_placesBelow _ k v) (fun _ => lt_size_of_mem_placesBelow)
      (fun _ => lt_size_of_mem_placesBelow) hheld
  · intro top htop
    have hordered := (f.kept.layers_topInOrder f.digraph.topological).sweeps passes.toNat
    rw [← f.layout_layers passes] at hordered
    have hloose : ∀ {u}, l.placesBelow 0 u = [] →
        Layout.Loose f.kept ((l.layers[1]?).getD []) u := by
      intro u hu
      have hperm := f.placesBelow_perm passes 0 u
      rw [hu, List.nil_perm] at hperm
      exact Layout.positionsIn_eq_nil_iff.1 hperm
    exact (hordered.pairwise htop).imp fun hlt hu hv => hlt (hloose hu) (hloose hv)

/-- Two screens whose targets are defined the other way round, and one that
leads nowhere. -/
def swapped : Flow where
  screens :=
    [{ name := "Start", transitions := [⟨"Second", "", ""⟩, ⟨"Third", "", ""⟩] },
     { name := "Aside" },
     { name := "Other", transitions := [⟨"First", "", ""⟩] },
     { name := "First" }, { name := "Second" }, { name := "Third" }]

/-- Sorting puts the targets of the first screen first. -/
theorem swapped_layers : (swapped.layout 1).layers = [[0, 1, 2], [4, 5, 3]] := by
  have hlayers : swapped.kept.layers swapped.digraph.topological = [[0, 1, 2], [3, 4, 5]] := by
    decide +kernel
  have hkeys : ([3, 4, 5].map fun v =>
      (Layout.meanPosition swapped.kept.prev [3, 4, 5] [0, 1, 2] v, v)) =
        [(2, 3), (0, 4), (0, 5)] := by
    decide +kernel
  have hdown : Layout.arrange swapped.kept.prev [3, 4, 5] [0, 1, 2] = [4, 5, 3] := by
    unfold Layout.arrange
    dsimp only
    rw [hkeys]
    simp [List.mergeSort]
  have hup : Layout.arrange swapped.kept.next [0, 1, 2] [4, 5, 3] = [0, 1, 2] :=
    Layout.arrange_of_inOrder (by decide +kernel)
  rw [layout_layers, hlayers]
  show Layout.sweepUp _ [[0, 1, 2], Layout.arrange swapped.kept.prev [3, 4, 5] [0, 1, 2]] = _
  rw [hdown]
  show [Layout.arrange swapped.kept.next [0, 1, 2] [4, 5, 3], [4, 5, 3]] = _
  rw [hup]

theorem swapped_mean_order :
    (swapped.layout 1).layers[0]? = some [0, 1, 2] ∧
    ([0, 1, 2].Pairwise fun u v => (swapped.layout 1).placesBelow 0 u ≠ [] →
      (swapped.layout 1).placesBelow 0 v ≠ [] →
        Layout.meanOf ((swapped.layout 1).placesBelow 0 u) ≤
          Layout.meanOf ((swapped.layout 1).placesBelow 0 v)) ∧
    (swapped.layout 1).placesBelow 0 0 = [0, 1] ∧ (swapped.layout 1).placesBelow 0 2 = [2] := by
  have htop : (swapped.layout 1).layers[0]? = some [0, 1, 2] := by rw [swapped_layers]; rfl
  refine ⟨htop, ((layout_mean_order swapped 1).1 (by decide) 0 [0, 1, 2] htop).imp ?_, ?_, ?_⟩
  · intro u v hmeans hu hv
    exact (hmeans hu hv).2 (by decide)
  · rw [placesBelow_eq, swapped_layers]
    decide +kernel
  · rw [placesBelow_eq, swapped_layers]
    decide +kernel

end Flow

end Storyboard
