import Storyboard.Proofs.ReviewFindings

/-!
# The multigraph of a flow loses no link

The links of a flow can be put into a multigraph one after the other. Under
each node stand the nodes that it leads to, in the order in which they were
first led to, and under each of these the edges between the two, numbered as
they came. Read off node by node, its edges are the links of the flow in
another order: grouped by their ends, and numbered within each group.

The listing `Flow.connections` is made of the groups at once. Here the
multigraph is built as it is by adding nodes and edges, every entry kept in
order of insertion, and the two are shown to agree.

## Main definitions

* `Multigraph`, `Multigraph.addNode`, `Multigraph.addEdge` — a multigraph, and
  how it grows.
* `Multigraph.arcs` — its edges, as it lists them.
* `Flow.multigraph` — the multigraph that the links of a flow are put into.

## Main results

* `Sequence.amend_groupsOf` — a dictionary of groups, and one more element.
* `Flow.addEdge_grownBy`, `Flow.multigraph_eq` — the multigraph after any number of
  links.
* `Flow.arcs_multigraph` — the listing is that of the multigraph.
* `Flow.digraph_edges_eq` — the graph of a flow is the multigraph with parallel edges
  taken as one.
* `Flow.multigraph_regroups` — the multigraph has the links of the flow, grouped
  and numbered.
-/

namespace Storyboard

/-! ## Entries in order of insertion -/

namespace Sequence

variable {κ α β : Type} [DecidableEq κ]

private theorem amend_of_notMem (change : Option α → α) {k : κ} {es : List (κ × α)}
    (h : k ∉ es.map (·.1)) : amend change k es = es ++ [(k, change none)] := by
  induction es with
  | nil => rfl
  | cons e es ih =>
      rw [List.map_cons, List.mem_cons, not_or] at h
      rw [amend, if_neg (Ne.symm h.1), ih h.2, List.cons_append]

private theorem amend_map_of_mem (change : Option α → α) (value : κ → α) {k : κ} {ks : List κ}
    (hks : ks.Nodup) (hk : k ∈ ks) :
    amend change k (ks.map fun j => (j, value j)) =
      ks.map fun j => (j, if j = k then change (some (value j)) else value j) := by
  induction ks with
  | nil => cases hk
  | cons i ks ih =>
      obtain ⟨hi, hrest⟩ := List.nodup_cons.1 hks
      rw [List.map_cons, List.map_cons, amend]
      by_cases hik : i = k
      · have hsame : ∀ j ∈ ks, (j, value j) =
            (j, if j = k then change (some (value j)) else value j) := by
          intro j hj
          have hjk : j ≠ k := by
            rintro rfl
            exact hi (hik ▸ hj)
          rw [if_neg hjk]
        rw [if_pos hik, if_pos hik, List.map_congr_left hsame, hik]
      · have hmem : k ∈ ks := (List.mem_cons.1 hk).resolve_left (Ne.symm hik)
        rw [if_neg hik, if_neg hik, ih hrest hmem]

/-- A dictionary with a group for each key among some elements, in the order in
which the keys came. -/
def groupsOf (key : β → κ) (value : List β → α) (xs : List β) : List (κ × α) :=
  (distinct (xs.map key)).map fun k => (k, value (xs.filter (key · = k)))

/-- One more element goes to the group of its key. -/
theorem amend_groupsOf (key : β → κ) (value : List β → α) (change : Option α → α) {x : β}
    (hnew : change none = value [x]) (hmore : ∀ ys, change (some (value ys)) = value (ys ++ [x]))
    (xs : List β) :
    amend change (key x) (groupsOf key value xs) = groupsOf key value (xs ++ [x]) := by
  have hgroup : ∀ k, (xs ++ [x]).filter (key · = k) =
      xs.filter (key · = k) ++ if key x = k then [x] else [] := by
    intro k
    rw [List.filter_append, List.filter_singleton]
    simp
  unfold groupsOf
  rw [List.map_append, List.map_singleton, distinct_append]
  by_cases hx : key x ∈ xs.map key
  · have hnone : (distinct [key x]).filter (· ∉ xs.map key) = [] := by
      simp only [distinct, List.filter_nil, List.filter_singleton, hx, not_true, decide_false]
      rfl
    rw [amend_map_of_mem change _ (nodup_distinct _) (mem_distinct.2 hx), hnone, List.append_nil]
    apply List.map_congr_left
    intro k _
    rw [hgroup]
    by_cases hk : k = key x
    · rw [if_pos hk, if_pos hk.symm, hmore]
    · rw [if_neg hk, if_neg (Ne.symm hk), List.append_nil]
  · have hkeys : key x ∉ ((distinct (xs.map key)).map
        fun k => (k, value (xs.filter (key · = k)))).map (·.1) := by
      rw [List.map_map]
      simpa using hx
    have hnone : xs.filter (key · = key x) = [] := by
      rw [List.filter_eq_nil_iff]
      intro y hy heq
      exact hx (List.mem_map.2 ⟨y, hy, of_decide_eq_true heq⟩)
    have hone : (distinct [key x]).filter (· ∉ xs.map key) = [key x] := by
      simp only [distinct, List.filter_nil, List.filter_singleton, hx, not_false_iff, decide_true]
      rfl
    rw [amend_of_notMem change hkeys, hone, List.map_append, List.map_singleton, hgroup, hnone,
      if_pos rfl, List.nil_append, hnew]
    congr 1
    apply List.map_congr_left
    intro k hk
    have hne : key x ≠ k := by
      rintro rfl
      exact hx (mem_distinct.1 hk)
    rw [hgroup, if_neg hne, List.append_nil]

end Sequence

/-! ## Multigraphs -/

/-- One of the edges between two nodes: the transition that it stands for, and
its label. -/
structure Strand where
  transition : Transition
  label : String
deriving DecidableEq, Repr

/-- A node: its name, if it was given one, and under each node that it leads to
the edges between them by their numbers. -/
structure Node where
  name : Option String := none
  out : List (Nat × List (Nat × Strand)) := []
deriving DecidableEq, Repr

/-- A directed multigraph. -/
structure Multigraph where
  nodes : List (Nat × Node) := []
deriving DecidableEq, Repr

namespace Multigraph

/-- The first number from `n` on that is not taken. -/
def freeFrom (taken : List Nat) (n : Nat) : Nat :=
  if h : n ∈ taken then freeFrom (taken.erase n) (n + 1) else n
termination_by taken.length
decreasing_by
  rw [List.length_erase_of_mem h]
  have hpos := List.length_pos_of_mem h
  omega

/-- The edges between two nodes with one more. Its number is the number of
edges that there were, or the first after it that is not taken. -/
def addStrand (strand : Strand) (strands : Option (List (Nat × Strand))) : List (Nat × Strand) :=
  let before := strands.getD []
  Sequence.amend (fun _ => strand) (freeFrom (before.map (·.1)) before.length) before

/-- Adds a node, or names the node that is there. -/
def addNode (g : Multigraph) (i : Nat) (name : String) : Multigraph where
  nodes := Sequence.amend (fun node => { node.getD {} with name := some name }) i g.nodes

/-- Adds a node without a name, unless it is there. -/
def ensureNode (g : Multigraph) (i : Nat) : Multigraph where
  nodes := Sequence.amend (·.getD {}) i g.nodes

/-- Adds an edge, and its two ends if they are not there. -/
def addEdge (g : Multigraph) (source target : Nat) (strand : Strand) : Multigraph where
  nodes := Sequence.amend
    (fun node =>
      { node.getD {} with
        out := Sequence.amend (addStrand strand) target (node.getD {}).out })
    source ((g.ensureNode source).ensureNode target).nodes

/-- The edges node by node, each with its label. -/
def arcs (g : Multigraph) : List (Connection × String) :=
  g.nodes.flatMap fun (i, node) => node.out.flatMap fun (d, strands) =>
    strands.map fun (k, s) => (⟨⟨i, d, s.transition⟩, k⟩, s.label)

private theorem freeFrom_of_notMem {taken : List Nat} {n : Nat} (h : n ∉ taken) :
    freeFrom taken n = n := by
  rw [freeFrom, dif_neg h]

end Multigraph

namespace Flow

open Multigraph

/-- The edge of a link. -/
def strandOf (l : Link) : Strand := ⟨l.transition, l.transition.label⟩

/-- The multigraph of a flow: its screens are added one after the other, and
then its links. -/
def multigraph (f : Flow) : Multigraph :=
  f.resolved.foldl (fun g l => g.addEdge l.source l.target (strandOf l))
    (f.screens.zipIdx.foldl (fun g e => g.addNode e.2 e.1.name) {})

/-! ## The multigraph as it grows -/

/-- The edges for links with the same ends, numbered. -/
def strandsOf (ls : List Link) : List (Nat × Strand) :=
  ls.zipIdx.map fun e => (e.2, strandOf e.1)

/-- The multigraph with all screens and some links: under each screen, its links
grouped by target. -/
def grownBy (f : Flow) (ls : List Link) : Multigraph where
  nodes := (List.range f.size).map fun i =>
    (i, { name := some (f.nameAt i)
          out := Sequence.groupsOf Link.target strandsOf (ls.filter (·.source = i)) })

/-- A further edge between two nodes gets the next number. -/
theorem addStrand_strandsOf (l : Link) (ls : List Link) :
    addStrand (strandOf l) (some (strandsOf ls)) = strandsOf (ls ++ [l]) := by
  have hkeys : (strandsOf ls).map (·.1) = List.range ls.length := by
    rw [strandsOf, List.map_map]
    exact (List.zipIdx_map_snd 0 ls).trans List.range_eq_range'.symm
  have hlength : (strandsOf ls).length = ls.length := by
    rw [strandsOf, List.length_map, List.length_zipIdx]
  have hfree : ls.length ∉ (strandsOf ls).map (·.1) := by
    rw [hkeys]
    simp
  unfold addStrand
  dsimp only [Option.getD_some]
  rw [hlength, freeFrom_of_notMem hfree, Sequence.amend_of_notMem _ hfree]
  simp [strandsOf, List.zipIdx_append]

variable {f : Flow} {l : Link}

private theorem ensureNode_grownBy {i : Nat} (hi : i < f.size) (ls : List Link) :
    (f.grownBy ls).ensureNode i = f.grownBy ls := by
  unfold ensureNode grownBy
  rw [Sequence.amend_map_of_mem _ _ List.nodup_range (List.mem_range.2 hi)]
  simp

/-- A link between screens of the flow goes to the group of its two ends. -/
theorem addEdge_grownBy (hsource : l.source < f.size) (htarget : l.target < f.size)
    (ls : List Link) :
    (f.grownBy ls).addEdge l.source l.target (strandOf l) = f.grownBy (ls ++ [l]) := by
  unfold addEdge
  rw [ensureNode_grownBy hsource, ensureNode_grownBy htarget]
  unfold grownBy
  rw [Sequence.amend_map_of_mem _ _ List.nodup_range (List.mem_range.2 hsource)]
  congr 1
  apply List.map_congr_left
  intro i _
  rw [List.filter_append, List.filter_singleton]
  by_cases hi : i = l.source
  · subst hi
    simp only [Option.getD_some, if_true, decide_true, cond_true]
    rw [← Sequence.amend_groupsOf Link.target strandsOf (addStrand (strandOf l))
      (addStrand_strandsOf l []) (addStrand_strandsOf l)]
  · simp [hi, Ne.symm hi]

/-- Links between screens of the flow, put in one after the other. -/
theorem foldl_addEdge (ls : List Link) :
    ∀ done : List Link, (∀ l ∈ ls, l.source < f.size ∧ l.target < f.size) →
      ls.foldl (fun g l => g.addEdge l.source l.target (strandOf l)) (f.grownBy done) =
        f.grownBy (done ++ ls) := by
  induction ls with
  | nil =>
      intro done _
      rw [List.append_nil]
      rfl
  | cons l ls ih =>
      intro done h
      have hends := h l (by simp)
      rw [List.foldl_cons, addEdge_grownBy hends.1 hends.2, ih _ fun k hk => h k (by simp [hk]),
        List.append_assoc, List.singleton_append]

/-- The screens, put in one after the other behind others. -/
theorem foldl_addNode (screens : List Screen) :
    ∀ (start : Nat) (g : Multigraph), (∀ e ∈ g.nodes, e.1 < start) →
      ((screens.zipIdx start).foldl (fun g e => g.addNode e.2 e.1.name) g).nodes =
        g.nodes ++ (screens.zipIdx start).map fun e => (e.2, { name := some e.1.name }) := by
  induction screens with
  | nil =>
      intro start g _
      simp
  | cons s screens ih =>
      intro start g h
      have hnew : start ∉ g.nodes.map (·.1) := by
        intro hmem
        obtain ⟨e, he, rfl⟩ := List.mem_map.1 hmem
        exact Nat.lt_irrefl _ (h e he)
      have hadd : (g.addNode start s.name).nodes = g.nodes ++ [(start, { name := some s.name })] :=
        Sequence.amend_of_notMem _ hnew
      have hlater : ∀ e ∈ (g.addNode start s.name).nodes, e.1 < start + 1 := by
        rw [hadd]
        intro e he
        rcases List.mem_append.1 he with he | he
        · exact Nat.lt_succ_of_lt (h e he)
        · rw [List.mem_singleton.1 he]
          exact Nat.lt_succ_self start
      rw [List.zipIdx_cons, List.foldl_cons, ih (start + 1) _ hlater, hadd, List.map_cons,
        List.append_assoc, List.singleton_append]

/-- The multigraph of a flow has its screens, and under each of them its links
grouped by target. -/
theorem multigraph_eq (f : Flow) : f.multigraph = f.grownBy f.resolved := by
  have hnodes : (f.screens.zipIdx.map fun e => (e.2, ({ name := some e.1.name } : Node))) =
      (f.grownBy []).nodes := by
    apply List.ext_getElem
    · simp [grownBy, size]
    · intro i hi _
      have hscreen : i < f.screens.length := by simpa using hi
      simp [grownBy, Sequence.groupsOf, Sequence.distinct,
        nameAt_eq (List.getElem?_eq_getElem hscreen)]
  have hscreens : f.screens.zipIdx.foldl (fun g e => g.addNode e.2 e.1.name) {} = f.grownBy [] := by
    have hrun := foldl_addNode f.screens 0 {} (by simp)
    rw [List.nil_append, hnodes] at hrun
    exact congrArg Multigraph.mk hrun
  rw [multigraph, hscreens, foldl_addEdge f.resolved [] fun l hl => lt_size_of_mem_resolved hl,
    List.nil_append]

/-! ## The listing -/

/-- The edges under a screen are its links, grouped. -/
theorem arcs_groupsOf {i : Nat} {ls : List Link} (h : ∀ l ∈ ls, l.source = i) :
    ((Sequence.groupsOf Link.target strandsOf ls).flatMap fun (d, strands) =>
      strands.map fun (k, s) => ((⟨⟨i, d, s.transition⟩, k⟩ : Connection), s.label)) =
      (grouped ls).map fun c => (c, c.transition.label) := by
  unfold Sequence.groupsOf grouped
  rw [List.flatMap_map, List.map_flatMap]
  apply List.flatMap_congr
  intro d _
  dsimp only [strandsOf]
  rw [List.map_map, List.map_map]
  apply List.map_congr_left
  intro e he
  have hlink := List.mem_filter.1 (List.fst_mem_of_mem_zipIdx he)
  have hsource : i = e.1.source := (h e.1 hlink.1).symm
  have htarget : d = e.1.target := (of_decide_eq_true hlink.2).symm
  rw [hsource, htarget]
  rfl

/-- The multigraph lists the connections of the flow, with their labels. -/
theorem arcs_multigraph (f : Flow) :
    f.multigraph.arcs = f.connections.map fun c => (c, c.transition.label) := by
  rw [multigraph_eq, arcs, grownBy, List.flatMap_map, connections, List.map_flatMap]
  apply List.flatMap_congr
  intro i _
  exact arcs_groupsOf fun l hl => of_decide_eq_true (List.mem_filter.1 hl).2

/-! ## The groups -/

section Groups

variable {ls : List Link} {c : Connection} {i d : Nat}

/-- A connection in the group of a target leads there. -/
theorem mem_group (h : c ∈ (ls.filter (·.target = d)).zipIdx.map fun (l, k) => ⟨l, k⟩) :
    c.toLink ∈ ls ∧ c.target = d := by
  obtain ⟨e, he, rfl⟩ := List.mem_map.1 h
  have hlink := List.mem_filter.1 (List.fst_mem_of_mem_zipIdx he)
  exact ⟨hlink.1, of_decide_eq_true hlink.2⟩

/-- A connection among those of a screen comes from it. -/
theorem source_of_mem_grouped (h : c ∈ grouped (ls.filter (·.source = i))) : c.source = i := by
  obtain ⟨d, -, hc⟩ := List.mem_flatMap.1 h
  exact of_decide_eq_true (List.mem_filter.1 (mem_group hc).1).2

end Groups

private theorem map_toLink_numbered (ls : List Link) :
    (ls.zipIdx.map fun e => (⟨e.1, e.2⟩ : Connection)).map Connection.toLink = ls := by
  rw [List.map_map]
  exact List.zipIdx_map_fst 0 ls

private theorem grouped_perm (ls : List Link) : ((grouped ls).map Connection.toLink).Perm ls := by
  have hall : ls.filter (·.target ∈ Sequence.distinct (ls.map (·.target))) = ls := by
    rw [List.filter_eq_self]
    intro l hl
    simpa using ⟨l, hl, rfl⟩
  have hperm := Sequence.flatMap_filter_perm Link.target ls
    (Sequence.nodup_distinct (ls.map (·.target)))
  rw [hall] at hperm
  unfold grouped
  rw [List.map_flatMap]
  simp only [map_toLink_numbered]
  exact hperm

/-- The connections of a flow are its links in another order. -/
theorem connections_perm (f : Flow) : (f.connections.map Connection.toLink).Perm f.resolved := by
  have hall : f.resolved.filter (·.source ∈ List.range f.size) = f.resolved := by
    rw [List.filter_eq_self]
    intro l hl
    simpa using (lt_size_of_mem_resolved hl).1
  have hperm := Sequence.flatMap_filter_perm Link.source f.resolved
    (List.nodup_range (n := f.size))
  rw [hall] at hperm
  unfold connections
  rw [List.map_flatMap]
  exact (List.Perm.flatMap_left _ fun i _ => grouped_perm _).trans hperm

/-- The links to one target, numbered. -/
theorem grouped_filter (ls : List Link) (t : Nat) :
    (grouped ls).filter (·.target = t) =
      (ls.filter (·.target = t)).zipIdx.map fun (l, k) => ⟨l, k⟩ := by
  unfold grouped
  refine Sequence.filter_flatMap_key (fun c : Connection => c.target)
    (f := fun d => (ls.filter (·.target = d)).zipIdx.map fun (l, k) => ⟨l, k⟩)
    (Sequence.nodup_distinct _) ?_ ?_
  · intro d _ c hc
    exact (mem_group hc).2
  · intro ht
    have hnone : ls.filter (·.target = t) = [] := by
      rw [List.filter_eq_nil_iff]
      intro l hl heq
      exact ht (Sequence.mem_distinct.2 (List.mem_map.2 ⟨l, hl, of_decide_eq_true heq⟩))
    rw [hnone]
    rfl

/-- The connections of a screen are its links, grouped. -/
theorem connections_filter (f : Flow) (s : Nat) :
    f.connections.filter (·.source = s) = grouped (f.resolved.filter (·.source = s)) := by
  unfold connections
  refine Sequence.filter_flatMap_key (fun c : Connection => c.source)
    (f := fun i => grouped (f.resolved.filter (·.source = i))) List.nodup_range ?_ ?_
  · intro i _ c hc
    exact source_of_mem_grouped hc
  · intro hs
    have hnone : f.resolved.filter (·.source = s) = [] := by
      rw [List.filter_eq_nil_iff]
      intro l hl heq
      exact hs (List.mem_range.2 (of_decide_eq_true heq ▸ (lt_size_of_mem_resolved hl).1))
    rw [hnone]
    rfl

/-- The links of a screen are its transitions that lead somewhere. -/
theorem resolved_filter_source {s : Nat} {screen : Screen} (h : f.screens[s]? = some screen) :
    f.resolved.filter (·.source = s) = screen.transitions.filterMap fun t =>
      (f.indexOf? t.target).map fun d => ⟨s, d, t⟩ := by
  have hnodup : f.screens.zipIdx.Nodup := (Sequence.zipIdx_pairwise f.screens).imp fun hlt heq =>
    Nat.ne_of_lt hlt (congrArg Prod.snd heq)
  have hmem : (screen, s) ∈ f.screens.zipIdx := List.mem_zipIdx_iff_getElem?.2 h
  unfold resolved edges
  rw [List.filterMap_flatMap, List.filter_flatMap, Sequence.flatMap_eq_of_unique hnodup hmem]
  · rw [List.filterMap_map, List.filter_eq_self.2]
    · rfl
    · intro l hl
      obtain ⟨t, -, ht⟩ := List.mem_filterMap.1 hl
      obtain ⟨d, -, rfl⟩ := Option.map_eq_some_iff.1 ht
      exact decide_eq_true rfl
  · intro e he hne
    have hother : e.2 ≠ s := by
      intro heq
      have hscreen := List.mem_zipIdx_iff_getElem?.1 he
      rw [heq, h] at hscreen
      exact hne (Prod.ext (Option.some.inj hscreen).symm heq)
    rw [List.filterMap_map, List.filter_eq_nil_iff]
    intro l hl heq
    obtain ⟨t, -, ht⟩ := List.mem_filterMap.1 hl
    obtain ⟨d, -, rfl⟩ := Option.map_eq_some_iff.1 ht
    exact hother (of_decide_eq_true heq)

/-- The connections between two screens are the transitions from the one to the
other, numbered in their order. -/
theorem connections_between {s : Nat} {screen : Screen} (h : f.screens[s]? = some screen)
    (t : Nat) :
    (f.connections.filter fun c => c.source = s ∧ c.target = t) =
      (screen.transitions.filter fun tr => f.indexOf? tr.target = some t).zipIdx.map
        fun (tr, k) => ⟨⟨s, t, tr⟩, k⟩ := by
  have hboth : (f.connections.filter fun c => c.source = s ∧ c.target = t) =
      (f.connections.filter (·.source = s)).filter (·.target = t) := by
    rw [List.filter_filter]
    apply List.filter_congr
    intro c _
    rw [Bool.decide_and, Bool.and_comm]
  have hlinks : (f.resolved.filter (·.source = s)).filter (·.target = t) =
      (screen.transitions.filter fun tr => f.indexOf? tr.target = some t).map
        fun tr => ⟨s, t, tr⟩ := by
    rw [resolved_filter_source h, List.filter_filterMap, ← List.filterMap_eq_map,
      List.filterMap_filter]
    apply List.filterMap_congr
    intro tr _
    cases f.indexOf? tr.target with
    | none => simp
    | some d =>
        by_cases hd : d = t
        · simp [Option.filter, hd]
        · simp [Option.filter, hd]
  rw [hboth, connections_filter, grouped_filter, hlinks, List.zipIdx_map, List.map_map]
  rfl

/-! ## The graph -/

/-- The links of a flow come screen by screen. -/
theorem flatMap_resolved_source (f : Flow) :
    (List.range f.size).flatMap (fun i => f.resolved.filter (·.source = i)) = f.resolved := by
  have hindices : f.screens.zipIdx.map Prod.snd = List.range f.size :=
    (List.zipIdx_map_snd 0 f.screens).trans List.range_eq_range'.symm
  rw [← hindices, List.flatMap_map]
  conv_rhs => rw [resolved, edges, List.filterMap_flatMap]
  apply List.flatMap_congr
  intro e he
  rw [resolved_filter_source (List.mem_zipIdx_iff_getElem?.1 he), List.filterMap_map]
  rfl

/-- Grouping the links of a screen keeps the order of its targets. -/
theorem distinct_targets_grouped (ls : List Link) :
    Sequence.distinct ((grouped ls).map (·.target)) = Sequence.distinct (ls.map (·.target)) := by
  let group : Nat → List Connection := fun d =>
    (ls.filter (·.target = d)).zipIdx.map fun (l, k) => ⟨l, k⟩
  have htarget : ∀ {d t}, t ∈ (group d).map (·.target) → t = d := by
    intro d t ht
    obtain ⟨c, hc, rfl⟩ := List.mem_map.1 ht
    exact (mem_group hc).2
  have hsome : ∀ d ∈ Sequence.distinct (ls.map (·.target)), (group d).map (·.target) ≠ [] := by
    intro d hd hnil
    obtain ⟨l, hl, heq⟩ := List.mem_map.1 (Sequence.mem_distinct.1 hd)
    have hnone : ls.filter (·.target = d) = [] := by simpa [group] using hnil
    exact List.filter_eq_nil_iff.1 hnone l hl (decide_eq_true heq)
  have hapart : (Sequence.distinct (ls.map (·.target))).Pairwise fun d e =>
      ∀ t ∈ (group d).map (·.target), t ∉ (group e).map (·.target) :=
    (Sequence.nodup_distinct _).imp fun hne t hd he => hne ((htarget hd).symm.trans (htarget he))
  show Sequence.distinct (((Sequence.distinct (ls.map (·.target))).flatMap group).map _) = _
  rw [List.map_flatMap, Sequence.distinct_flatMap hapart]
  calc (Sequence.distinct (ls.map (·.target))).flatMap
        (fun d => Sequence.distinct ((group d).map (·.target)))
      = (Sequence.distinct (ls.map (·.target))).flatMap (fun d => [d]) :=
        List.flatMap_congr fun d hd =>
          Sequence.distinct_of_forall_eq (hsome d hd) fun _ ht => htarget ht
    _ = Sequence.distinct (ls.map (·.target)) := List.flatMap_singleton' _

/-- The ends of what comes source by source, without repetitions. -/
private theorem distinct_ends {β : Type} {source target : β → Nat} {part : Nat → List β}
    (h : ∀ i, ∀ x ∈ part i, source x = i) (n : Nat) :
    Sequence.distinct (((List.range n).flatMap part).map fun x => (source x, target x)) =
      (List.range n).flatMap fun i =>
        (Sequence.distinct ((part i).map target)).map (Prod.mk i) := by
  have hends : ∀ i, (part i).map (fun x => (source x, target x)) =
      ((part i).map target).map (Prod.mk i) := by
    intro i
    rw [List.map_map]
    apply List.map_congr_left
    intro x hx
    rw [h i x hx]
    rfl
  have hapart : (List.range n).Pairwise fun i j =>
      ∀ e ∈ ((part i).map target).map (Prod.mk i), e ∉ ((part j).map target).map (Prod.mk j) := by
    refine List.nodup_range.imp fun {i j} hne e hi hj => ?_
    obtain ⟨d, -, rfl⟩ := List.mem_map.1 hi
    obtain ⟨d', -, heq⟩ := List.mem_map.1 hj
    exact hne (congrArg Prod.fst heq).symm
  rw [List.map_flatMap]
  simp only [hends]
  rw [Sequence.distinct_flatMap hapart]
  simp only [Sequence.distinct_map (Prod.mk_right_injective _)]

/-- The graph of a flow has one edge for all the connections between two screens, in
the order of the connections. -/
theorem digraph_edges_eq (f : Flow) :
    f.digraph.edges = Sequence.distinct (f.connections.map fun c => (c.source, c.target)) := by
  have hlinks : ∀ i, ∀ l ∈ f.resolved.filter (·.source = i), l.source = i := fun i l hl =>
    of_decide_eq_true (List.mem_filter.1 hl).2
  have hgroups : ∀ i, ∀ c ∈ grouped (f.resolved.filter (·.source = i)), c.source = i :=
    fun _ _ hc => source_of_mem_grouped hc
  calc f.digraph.edges
      = Sequence.distinct (((List.range f.size).flatMap fun i =>
          f.resolved.filter (·.source = i)).map fun l => (l.source, l.target)) := by
        rw [flatMap_resolved_source]
        rfl
    _ = (List.range f.size).flatMap fun i => (Sequence.distinct
          ((f.resolved.filter (·.source = i)).map (·.target))).map (Prod.mk i) :=
        distinct_ends hlinks f.size
    _ = (List.range f.size).flatMap fun i => (Sequence.distinct
          ((grouped (f.resolved.filter (·.source = i))).map (·.target))).map (Prod.mk i) := by
        simp only [distinct_targets_grouped]
    _ = Sequence.distinct (f.connections.map fun c => (c.source, c.target)) :=
        (distinct_ends hgroups f.size).symm

/-! ## The order of the listing -/

/-- Which of the targets of a screen, in the order in which its links lead to
them, another screen is. -/
def targetRank (f : Flow) (s t : Nat) : Nat :=
  ((f.resolved.filter (·.source = s)).map (·.target)).idxOf t

/-- Whether one connection is listed before another: by source, then by the
first link to the target, then by number. -/
def Precedes (f : Flow) (a b : Connection) : Prop :=
  a.source < b.source ∨ a.source = b.source ∧
    (f.targetRank a.source a.target < f.targetRank b.source b.target ∨
      a.target = b.target ∧ a.key < b.key)

/-- Grouped links come by target, in the order of first links, and then by
number. -/
theorem grouped_pairwise (ls : List Link) :
    (grouped ls).Pairwise fun a b =>
      (ls.map (·.target)).idxOf a.target < (ls.map (·.target)).idxOf b.target ∨
        a.target = b.target ∧ a.key < b.key := by
  unfold grouped
  rw [List.pairwise_flatMap]
  constructor
  · intro d _
    have hkeys : ((ls.filter (·.target = d)).zipIdx.map
        fun (l, k) => (⟨l, k⟩ : Connection)).Pairwise fun a b => a.key < b.key := by
      rw [List.pairwise_map]
      exact Sequence.zipIdx_pairwise _
    refine hkeys.imp_of_mem fun ha hb hab => Or.inr ⟨?_, hab⟩
    rw [(mem_group ha).2, (mem_group hb).2]
  · refine (Sequence.distinct_pairwise _).imp fun hlt a ha b hb => Or.inl ?_
    rw [(mem_group ha).2, (mem_group hb).2]
    exact hlt

private theorem connections_pairwise (f : Flow) : f.connections.Pairwise f.Precedes := by
  unfold connections
  rw [List.pairwise_flatMap]
  constructor
  · intro i _
    refine (grouped_pairwise _).imp_of_mem fun ha hb hab => Or.inr ?_
    unfold targetRank
    rw [source_of_mem_grouped ha, source_of_mem_grouped hb]
    exact ⟨rfl, hab⟩
  · refine List.pairwise_lt_range.imp fun hlt a ha b hb => Or.inl ?_
    rw [source_of_mem_grouped ha, source_of_mem_grouped hb]
    exact hlt

/-! ## The multigraph -/

/-- The multigraph of a flow regroups its links and loses none. Its nodes are
the screens with their names. Its edges, as it lists them, are the connections
of the flow with the labels of their transitions: the links in another order,
by source, then by target in the order of first links, then by number. Those
between two screens are the transitions of the one that lead to the other,
numbered from zero in their order. Each leads to the first screen of the name
that its transition gives. -/
theorem multigraph_regroups (f : Flow) :
    (f.multigraph.nodes.map fun e => (e.1, e.2.name)) =
      ((List.range f.size).map fun i => (i, some (f.nameAt i))) ∧
    f.multigraph.arcs = (f.connections.map fun c => (c, c.transition.label)) ∧
    (f.connections.map Connection.toLink).Perm f.resolved ∧
    f.connections.Pairwise f.Precedes ∧
    (∀ s screen, f.screens[s]? = some screen → ∀ t,
      (f.connections.filter fun c => c.source = s ∧ c.target = t) =
        (screen.transitions.filter fun tr => f.indexOf? tr.target = some t).zipIdx.map
          fun (tr, k) => ⟨⟨s, t, tr⟩, k⟩) ∧
    ∀ c ∈ f.connections, f.names[c.target]? = some c.transition.target ∧
      ∀ j < c.target, f.names[j]? ≠ some c.transition.target := by
  refine ⟨?_, f.arcs_multigraph, f.connections_perm, f.connections_pairwise,
    fun s screen hscreen => connections_between hscreen, fun c hc => ?_⟩
  · rw [multigraph_eq, grownBy, List.map_map]
    rfl
  · have hlink : c.toLink ∈ f.resolved :=
      f.connections_perm.mem_iff.1 (List.mem_map.2 ⟨c, hc, rfl⟩)
    obtain ⟨-, -, -, hindex⟩ := mem_resolved.1 hlink
    exact indexOf?_eq_some_iff.1 hindex

end Flow

end Storyboard
