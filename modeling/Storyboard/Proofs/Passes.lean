import Mathlib.Data.List.Forall2
import Storyboard.Painter.Trace
import Storyboard.Proofs.CycleBreaking
import Storyboard.Proofs.Rendering

/-!
# The two passes of a rendering

The driver of a rendering looks targets up by name among the handles it was
given, and keeps a tally as it goes. The flow resolves the same names by
position, once and for all. Here the driver is compared with two passes that
have neither table nor tally: they place the screens and connect the handles
at the two ends of each link of the flow. The driver does what the passes do,
whether they succeed or fail, and if they succeed its tally counts the links
of the flow and lists the rest.

## Main results

* `Act.Records` — an act that does what another does, beside a record.
* `Painter.firstPass`, `Painter.secondPass` — the passes.
* `Painter.draw_records` — the driver does what the passes do, beside its
  tally.
* `Painter.render_of_passes`, `Painter.exists_passes_of_render` — a rendering
  succeeds exactly if the passes do.
* `Painter.traced_render_of_passes` — the trace of a rendering that succeeds.
-/

namespace Storyboard

/-! ## Acts beside a record -/

namespace Act

variable {σ ω β γ : Type} [Append ω]

/-- Whether `x` does what `y` does beside a record, to which `done` has been
added when it succeeds. -/
def Records (x : Act (σ × ω) β) (y : Act σ β) (done : ω) : Prop :=
  ∀ s w, ∃ w', x.run (s, w) = ((y.run s).1, ((y.run s).2, w')) ∧
    ∀ b, (y.run s).1 = .ok b → w' = w ++ done

theorem Records.pure {none : ω} (h : ∀ w : ω, w ++ none = w) (b : β) :
    Records (pure b : Act (σ × ω) β) (pure b) none :=
  fun _ w => ⟨w, rfl, fun _ _ => (h w).symm⟩

/-- Acts in sequence add one after the other to the record. -/
theorem Records.bind (hassoc : ∀ u v w : ω, u ++ v ++ w = u ++ (v ++ w))
    {x : Act (σ × ω) β} {y : Act σ β} {next : β → Act (σ × ω) γ} {next' : β → Act σ γ}
    {first rest : ω} (h : Records x y first)
    (hnext : ∀ s b s', y.run s = (.ok b, s') → Records (next b) (next' b) rest) :
    Records (x >>= next) (y >>= next') (first ++ rest) := by
  intro s w
  obtain ⟨w₁, hrun, hdone⟩ := h s w
  cases hy : y.run s with
  | mk outcome s₁ =>
      rw [hy] at hrun hdone
      cases outcome with
      | error failure =>
          refine ⟨w₁, ?_, ?_⟩
          · rw [run_bind_error hrun, run_bind_error hy]
          · rw [run_bind_error hy]
            intro b hb
            cases hb
      | ok b =>
          obtain ⟨w₂, hrun₂, hdone₂⟩ := hnext s b s₁ hy s₁ w₁
          refine ⟨w₂, ?_, ?_⟩
          · rw [run_bind_ok hrun, run_bind_ok hy, hrun₂]
          · rw [run_bind_ok hy, ← hassoc, ← hdone b rfl]
            exact hdone₂

end Act

/-! ## Tallies -/

/-- What was done in two parts, one after the other. -/
instance : Append Tally where
  append t u := ⟨t.placed + u.placed, t.connected + u.connected, t.skipped ++ u.skipped⟩

namespace Tally

theorem append_eq (t u : Tally) :
    t ++ u = ⟨t.placed + u.placed, t.connected + u.connected, t.skipped ++ u.skipped⟩ := rfl

theorem append_assoc (t u v : Tally) : t ++ u ++ v = t ++ (u ++ v) := by
  simp only [append_eq, Nat.add_assoc, List.append_assoc]

theorem append_empty (t : Tally) : t ++ ({} : Tally) = t := by
  simp [append_eq]

private theorem empty_append (t : Tally) : ({} : Tally) ++ t = t := by
  simp [append_eq]

end Tally

/-! ## Links and wires -/

/-- A connector between two handles. -/
structure Wire (η : Type) where
  source : η
  target : η
  label : String
deriving DecidableEq, Repr

/-- Whether a connector joins the handles at the two ends of a link, under the
label of its transition. -/
structure Wire.Joins {η : Type} (handles : List η) (l : Link) (w : Wire η) : Prop where
  source : handles[l.source]? = some w.source
  target : handles[l.target]? = some w.target
  label : w.label = l.transition.label

namespace Flow

/-- The connectors of a flow, whose screens have these handles: one for each
link, between the handles at its two ends. -/
def wires {η : Type} (f : Flow) (handles : List η) : List (Wire η) :=
  f.resolved.filterMap fun l => handles[l.source]?.bind fun source =>
    handles[l.target]?.map fun target => ⟨source, target, l.transition.label⟩

/-- What a rendering of the whole flow has done. -/
def tally (f : Flow) : Tally where
  placed := f.size
  connected := f.resolved.length
  skipped := f.unresolved.map fun e => (f.nameAt e.1, e.2)

end Flow

namespace Painter

variable {σ η α : Type} (p : Painter σ η α)

/-- Starts on a flow and places its screens, for their handles. -/
def firstPass (f : Flow) : Act σ (List η) := do
  p.start f
  f.screens.mapM p.place

/-- Draws connectors in order. -/
def connectWires (ws : List (Wire η)) : Act σ Unit :=
  forM ws fun w => p.connect w.source w.target w.label

/-- Connects the handles of the screens by the links of the flow, and
finishes. -/
def secondPass (f : Flow) (handles : List η) : Act σ α := do
  p.connectWires (f.wires handles)
  p.finish

theorem connectWires_cons (w : Wire η) (ws : List (Wire η)) :
    p.connectWires (w :: ws) =
      (p.connect w.source w.target w.label >>= fun _ => p.connectWires ws) :=
  List.forM_cons

private theorem connectWires_append (ws vs : List (Wire η)) :
    p.connectWires (ws ++ vs) = (p.connectWires ws >>= fun _ => p.connectWires vs) :=
  List.forM_append

/-! ## The driver's tally -/

theorem tallied_records {β : Type} (act : Act σ β) : Act.Records (tallied act) act ({} : Tally) :=
  fun _ t => ⟨t, rfl, fun _ _ => t.append_empty.symm⟩

/-- A note in the tally before an act. -/
theorem note_records {β : Type} {change : Tally → Tally} {first rest : Tally}
    (hchange : ∀ t, change t = t ++ first) {x : Act (σ × Tally) β} {y : Act σ β}
    (h : Act.Records x y rest) : Act.Records (note change >>= fun _ => x) y (first ++ rest) := by
  intro s t
  obtain ⟨t', hrun, hdone⟩ := h s (change t)
  rw [hchange, Tally.append_assoc] at hdone
  exact ⟨t', (Act.run_bind_ok (run_note change s t)).trans hrun, hdone⟩

private theorem placeAll_records (screens : List Screen) :
    Act.Records (p.placeAll screens) (screens.mapM p.place)
      ({ placed := screens.length } : Tally) := by
  induction screens with
  | nil => exact .pure Tally.append_empty []
  | cons s rest ih =>
      rw [List.mapM_cons]
      have hdone : ({ placed := (s :: rest).length } : Tally) =
          {} ++ ({ placed := 1 } ++ (({ placed := rest.length } : Tally) ++ {})) := by
        simp [Tally.append_eq, Nat.add_comm]
      rw [hdone]
      refine .bind Tally.append_assoc (tallied_records _) fun _ handle _ _ => ?_
      refine note_records (fun t => by simp [Tally.append_eq]) ?_
      refine .bind Tally.append_assoc ih fun _ handles _ _ => ?_
      exact .pure Tally.append_empty _

/-- The connectors that the driver draws for the transitions of a screen with
handle `source`. -/
def wiresFrom (handles : List (String × η)) (source : η) (ts : List Transition) :
    List (Wire η) :=
  ts.filterMap fun t => (handles.lookup t.target).map fun target => ⟨source, target, t.label⟩

/-- The transitions that the driver skips. -/
def skippedFrom (handles : List (String × η)) (name : String) (ts : List Transition) :
    List (String × Transition) :=
  ts.filterMap fun t => if (handles.lookup t.target).isNone then some (name, t) else none

private theorem connectScreen_records (handles : List (String × η)) (name : String) (source : η)
    (ts : List Transition) :
    Act.Records (p.connectScreen handles name source ts)
      (p.connectWires (wiresFrom handles source ts))
      ({ connected := (wiresFrom handles source ts).length
         skipped := skippedFrom handles name ts } : Tally) := by
  induction ts with
  | nil => exact .pure Tally.append_empty ()
  | cons t rest ih =>
      rw [connectScreen]
      cases hlookup : handles.lookup t.target with
      | none =>
          have hwires : wiresFrom handles source (t :: rest) = wiresFrom handles source rest := by
            simp [wiresFrom, hlookup]
          have hdone : ({ connected := (wiresFrom handles source (t :: rest)).length
                          skipped := skippedFrom handles name (t :: rest) } : Tally) =
              { skipped := [(name, t)] } ++
                ({ connected := (wiresFrom handles source rest).length
                   skipped := skippedFrom handles name rest } : Tally) := by
            simp [Tally.append_eq, hwires, skippedFrom, hlookup]
          rw [hdone, hwires]
          exact note_records (fun u => by simp [Tally.append_eq]) ih
      | some target =>
          have hwires : wiresFrom handles source (t :: rest) =
              ⟨source, target, t.label⟩ :: wiresFrom handles source rest := by
            simp [wiresFrom, hlookup]
          have hdone : ({ connected := (wiresFrom handles source (t :: rest)).length
                          skipped := skippedFrom handles name (t :: rest) } : Tally) =
              {} ++ ({ connected := 1 } ++
                ({ connected := (wiresFrom handles source rest).length
                   skipped := skippedFrom handles name rest } : Tally)) := by
            simp [Tally.append_eq, hwires, skippedFrom, hlookup, Nat.add_comm]
          rw [hdone, hwires, connectWires_cons]
          refine .bind Tally.append_assoc (tallied_records _) fun _ _ _ _ => ?_
          exact note_records (fun u => by simp [Tally.append_eq]) ih

/-- The connectors that the driver draws for all screens. -/
def driverWires (handles : List (String × η)) (screens : List (Screen × η)) : List (Wire η) :=
  screens.flatMap fun e => wiresFrom handles e.2 e.1.transitions

/-- The transitions that the driver skips in all screens. -/
def driverSkipped (handles : List (String × η)) (screens : List (Screen × η)) :
    List (String × Transition) :=
  screens.flatMap fun e => skippedFrom handles e.1.name e.1.transitions

private theorem connectAll_records (handles : List (String × η)) (screens : List (Screen × η)) :
    Act.Records (p.connectAll handles screens)
      (p.connectWires (driverWires handles screens))
      ({ connected := (driverWires handles screens).length
         skipped := driverSkipped handles screens } : Tally) := by
  induction screens with
  | nil => exact .pure Tally.append_empty ()
  | cons e rest ih =>
      have hdone : ({ connected := (driverWires handles (e :: rest)).length
                      skipped := driverSkipped handles (e :: rest) } : Tally) =
          { connected := (wiresFrom handles e.2 e.1.transitions).length
            skipped := skippedFrom handles e.1.name e.1.transitions } ++
            ({ connected := (driverWires handles rest).length
               skipped := driverSkipped handles rest } : Tally) := by
        simp [Tally.append_eq, driverWires, driverSkipped]
      rw [hdone, connectAll, driverWires, List.flatMap_cons, connectWires_append]
      exact .bind Tally.append_assoc (p.connectScreen_records handles e.1.name e.2 e.1.transitions)
        fun _ _ _ _ => ih

end Painter

/-! ## Names and positions -/

/-- The table of handles by name has, for each name, the handle at the
position of the first screen with that name. -/
theorem lookup_zip {η : Type} (names : List String) (name : String) :
    ∀ handles : List η, names.length = handles.length →
      (names.zip handles).lookup name =
        (names.findIdx? (· = name)).bind fun i => handles[i]? := by
  induction names with
  | nil =>
      intro handles _
      rfl
  | cons n names ih =>
      intro handles hlength
      cases handles with
      | nil => cases hlength
      | cons h handles =>
          have hrest := ih handles (Nat.succ.inj hlength)
          rw [List.zip_cons_cons, List.findIdx?_cons]
          by_cases hname : n = name
          · simp [hname]
          · have hother : (name == n) = false := by simp [Ne.symm hname]
            rw [List.lookup_cons, hother]
            simp [hrest, hname, Option.map_eq_bind, Option.bind_assoc]

/-- A list read with its positions is the list read beside another of the same
length. -/
theorem flatMap_zipIdx_eq {β γ δ : Type} {read : β × Nat → List δ} {pair : β × γ → List δ}
    (xs : List β) :
    ∀ (ys : List γ) (start : Nat), xs.length = ys.length →
      (∀ i x y, xs[i]? = some x → ys[i]? = some y → read (x, start + i) = pair (x, y)) →
        (xs.zipIdx start).flatMap read = (xs.zip ys).flatMap pair := by
  induction xs with
  | nil =>
      intro ys start _ _
      rfl
  | cons x xs ih =>
      intro ys start hlength h
      cases ys with
      | nil => cases hlength
      | cons y ys =>
          have hfirst : read (x, start) = pair (x, y) := h 0 x y rfl rfl
          have hrest := ih ys (start + 1) (Nat.succ.inj hlength) fun i x' y' hx hy => by
            rw [show start + 1 + i = start + (i + 1) by omega]
            exact h (i + 1) x' y' hx hy
          rw [List.zipIdx_cons, List.zip_cons_cons, List.flatMap_cons, List.flatMap_cons, hrest,
            hfirst]

namespace Flow

variable {η : Type} {f : Flow} {handles : List η}

/-- The driver's table resolves names as the flow does. -/
theorem lookup_names (h : handles.length = f.size) (name : String) :
    (f.names.zip handles).lookup name = (f.indexOf? name).bind fun i => handles[i]? := by
  rw [lookup_zip f.names name handles (by rw [h, length_names]), names, indexOf?,
    List.findIdx?_map]
  rfl

private theorem isNone_lookup_names (h : handles.length = f.size) (name : String) :
    ((f.names.zip handles).lookup name).isNone = (f.indexOf? name).isNone := by
  rw [lookup_names h]
  cases hindex : f.indexOf? name with
  | none => rfl
  | some i =>
      have hi : i < handles.length := by
        rw [h]
        exact (List.findIdx?_eq_some_iff_getElem.1 hindex).1
      rw [Option.bind_some, List.getElem?_eq_getElem hi]
      rfl

/-- The connectors of a flow, screen by screen. -/
theorem wires_eq_flatMap (f : Flow) (handles : List η) :
    f.wires handles = f.screens.zipIdx.flatMap fun e => e.1.transitions.filterMap fun t =>
      (f.indexOf? t.target).bind fun d => handles[e.2]?.bind fun source =>
        handles[d]?.map fun target => ⟨source, target, t.label⟩ := by
  rw [wires, resolved, edges, List.filterMap_filterMap, List.filterMap_flatMap]
  congr 1
  funext e
  rw [List.filterMap_map]
  congr 1
  funext t
  simp only [Function.comp_apply]
  cases f.indexOf? t.target with
  | none => rfl
  | some d => rfl

/-- The connectors of the driver are those of the flow's links. -/
theorem driverWires_eq (h : handles.length = f.size) :
    Painter.driverWires (f.names.zip handles) (f.screens.zip handles) = f.wires handles := by
  rw [wires_eq_flatMap, Painter.driverWires]
  refine (flatMap_zipIdx_eq f.screens handles 0 h.symm fun i s source _ hsource => ?_).symm
  dsimp only
  rw [Painter.wiresFrom, Nat.zero_add, hsource]
  congr 1
  funext t
  rw [lookup_names h]
  cases f.indexOf? t.target with
  | none => rfl
  | some d => rfl

/-- The transitions that lead nowhere, screen by screen. -/
theorem tally_skipped (f : Flow) :
    f.tally.skipped = f.screens.zipIdx.flatMap fun e => e.1.transitions.filterMap fun t =>
      if (f.indexOf? t.target).isNone then some (f.nameAt e.2, t) else none := by
  show f.unresolved.map (fun e => (f.nameAt e.1, e.2)) = _
  rw [unresolved, edges, List.map_filterMap, List.filterMap_flatMap]
  congr 1
  funext e
  rw [List.filterMap_map]
  congr 1
  funext t
  simp only [Function.comp_apply]
  split
  · rfl
  · rfl

/-- The transitions that the driver skips are those that lead nowhere. -/
theorem driverSkipped_eq (h : handles.length = f.size) :
    Painter.driverSkipped (f.names.zip handles) (f.screens.zip handles) = f.tally.skipped := by
  rw [tally_skipped, Painter.driverSkipped]
  refine (flatMap_zipIdx_eq f.screens handles 0 h.symm fun i s source hs _ => ?_).symm
  dsimp only
  rw [Painter.skippedFrom, Nat.zero_add, nameAt_eq hs]
  congr 1
  funext t
  rw [isNone_lookup_names h]

/-- Each link has one connector, between the handles at its two ends. -/
theorem forall₂_wires (h : handles.length = f.size) :
    List.Forall₂ (Wire.Joins handles) f.resolved (f.wires handles) := by
  rw [wires]
  have hall : ∀ l ∈ f.resolved, l.source < handles.length ∧ l.target < handles.length := by
    intro l hl
    rw [h]
    exact lt_size_of_mem_resolved hl
  generalize f.resolved = links at hall
  induction links with
  | nil => exact .nil
  | cons l links ih =>
      have hl := hall l (by simp)
      have hrest := ih fun k hk => hall k (by simp [hk])
      rw [List.filterMap_cons, List.getElem?_eq_getElem hl.1, List.getElem?_eq_getElem hl.2]
      exact .cons ⟨List.getElem?_eq_getElem hl.1, List.getElem?_eq_getElem hl.2, rfl⟩ hrest

private theorem length_wires (h : handles.length = f.size) :
    (f.wires handles).length = f.resolved.length :=
  (forall₂_wires h).length_eq.symm

end Flow

/-! ## The driver and the passes -/

namespace Painter

variable {σ η α : Type} (p : Painter σ η α)

/-- A screen placed has one handle. -/
theorem length_of_mapM_place (screens : List Screen) :
    ∀ (s s' : σ) (handles : List η), (screens.mapM p.place).run s = (.ok handles, s') →
      handles.length = screens.length := by
  induction screens with
  | nil =>
      intro s s' handles h
      cases h
      rfl
  | cons screen rest ih =>
      intro s s' handles h
      rw [List.mapM_cons] at h
      obtain ⟨handle, s₁, -, h⟩ := Act.exists_of_run_bind h
      obtain ⟨more, s₂, hmore, h⟩ := Act.exists_of_run_bind h
      cases h
      rw [List.length_cons, List.length_cons, ih _ _ more hmore]

/-- The driver does what the passes do, beside its tally. -/
theorem draw_records (f : Flow) :
    Act.Records (p.draw f) (p.firstPass f >>= p.secondPass f) f.tally := by
  have hpasses : (p.firstPass f >>= p.secondPass f) =
      (p.start f >>= fun _ => f.screens.mapM p.place >>= fun handles =>
        p.connectWires (f.wires handles) >>= fun _ => p.finish) := by
    rw [firstPass, bind_assoc]
    rfl
  have hdone : f.tally = {} ++ ({ placed := f.size } ++
      ({ connected := f.resolved.length, skipped := f.tally.skipped } ++ ({} : Tally))) := by
    simp [Tally.append_eq, Flow.tally]
  rw [hpasses, hdone]
  refine .bind Tally.append_assoc (tallied_records _) fun _ _ _ _ => ?_
  refine .bind Tally.append_assoc (p.placeAll_records f.screens) fun s handles s' hplaced => ?_
  have hlength : handles.length = f.size := p.length_of_mapM_place f.screens s s' handles hplaced
  have hconnect := p.connectAll_records (f.names.zip handles) (f.screens.zip handles)
  rw [Flow.driverWires_eq hlength, Flow.driverSkipped_eq hlength, Flow.length_wires hlength]
    at hconnect
  exact .bind Tally.append_assoc hconnect fun _ _ _ _ => tallied_records _

/-! ## The trace -/

/-- The acts of a rendering of the whole flow, in order. -/
def calls (f : Flow) (handles : List η) : List (Call η) :=
  (.start f.names :: f.names.map .place) ++
    ((f.wires handles).map (fun w => .connect w.source w.target w.label) ++ [.finish])

theorem logged_records {β : Type} (call : Call η) (act : Act σ β) :
    Act.Records (logged call act) act [call] :=
  fun _ log => ⟨log ++ [call], rfl, fun _ _ => rfl⟩

private theorem traced_mapM_records (screens : List Screen) :
    Act.Records (screens.mapM p.traced.place) (screens.mapM p.place)
      (screens.map fun s => .place s.name) := by
  induction screens with
  | nil => exact .pure List.append_nil []
  | cons s rest ih =>
      rw [List.mapM_cons, List.mapM_cons, List.map_cons, ← List.singleton_append,
        ← List.append_nil (rest.map _)]
      refine .bind List.append_assoc (logged_records _ _) fun _ handle _ _ => ?_
      refine .bind List.append_assoc ih fun _ handles _ _ => ?_
      exact .pure List.append_nil _

private theorem traced_connectWires_records (ws : List (Wire η)) :
    Act.Records (p.traced.connectWires ws) (p.connectWires ws)
      (ws.map fun w => .connect w.source w.target w.label) := by
  induction ws with
  | nil => exact .pure List.append_nil ()
  | cons w ws ih =>
      rw [connectWires_cons, connectWires_cons, List.map_cons, ← List.singleton_append]
      exact .bind List.append_assoc (logged_records _ _) fun _ _ _ _ => ih

private theorem traced_firstPass_records (f : Flow) :
    Act.Records (p.traced.firstPass f) (p.firstPass f) (.start f.names :: f.names.map .place) := by
  rw [firstPass, firstPass, ← List.singleton_append, Flow.names, List.map_map]
  exact .bind List.append_assoc (logged_records _ _) fun _ _ _ _ => p.traced_mapM_records f.screens

private theorem traced_secondPass_records (f : Flow) (handles : List η) :
    Act.Records (p.traced.secondPass f handles) (p.secondPass f handles)
      ((f.wires handles).map (fun w => .connect w.source w.target w.label) ++ [.finish]) :=
  .bind List.append_assoc (p.traced_connectWires_records _) fun _ _ _ _ => logged_records _ _

/-! ## Renderings that do not fail -/

variable {f : Flow} {s s' : σ}

/-- If the passes succeed, so does the rendering. -/
theorem render_of_passes {handles : List η} {s₁ : σ} {artifact : α}
    (hfirst : (p.firstPass f).run s = (.ok handles, s₁))
    (hsecond : (p.secondPass f handles).run s₁ = (.ok artifact, s')) :
    p.render f s = ⟨.ok { f.tally with artifact := artifact }, f.tally, s'⟩ := by
  have hpasses : (p.firstPass f >>= p.secondPass f).run s = (.ok artifact, s') :=
    (Act.run_bind_ok hfirst).trans hsecond
  obtain ⟨t, hrun, hdone⟩ := p.draw_records f s {}
  rw [hpasses] at hrun hdone
  rw [hdone artifact rfl, Tally.empty_append] at hrun
  exact render_ok hrun

/-- If a rendering succeeds, so do the passes, and it ends as they do. -/
theorem exists_passes_of_render {summary : Summary α} (h : (p.render f s).outcome = .ok summary) :
    ∃ handles s₁, (p.firstPass f).run s = (.ok handles, s₁) ∧
      (p.secondPass f handles).run s₁ = (.ok summary.artifact, (p.render f s).state) := by
  obtain ⟨t, hrun, -⟩ := p.draw_records f s {}
  cases hpasses : (p.firstPass f >>= p.secondPass f).run s with
  | mk outcome s₂ =>
      rw [hpasses] at hrun
      cases outcome with
      | error failure =>
          rw [render, hrun] at h
          cases h
      | ok artifact =>
          rw [render_ok hrun] at h ⊢
          cases h
          exact Act.exists_of_run_bind hpasses

theorem length_of_firstPass {handles : List η} {s₁ : σ}
    (h : (p.firstPass f).run s = (.ok handles, s₁)) : handles.length = f.size := by
  obtain ⟨_, s₂, -, hplaced⟩ := Act.exists_of_run_bind h
  exact p.length_of_mapM_place f.screens s₂ s₁ handles hplaced

/-- If the passes succeed, a traced painter has written down one act after the
other. -/
theorem traced_render_of_passes {handles : List η} {s₁ : σ} {artifact : α}
    (hfirst : (p.firstPass f).run s = (.ok handles, s₁))
    (hsecond : (p.secondPass f handles).run s₁ = (.ok artifact, s')) (log : List (Call η)) :
    (p.traced.render f (s, log)).state = (s', log ++ calls f handles) := by
  obtain ⟨log₁, hfirst', hlog₁⟩ := p.traced_firstPass_records f s log
  rw [hfirst] at hfirst' hlog₁
  obtain ⟨log₂, hsecond', hlog₂⟩ := p.traced_secondPass_records f handles s₁ log₁
  rw [hsecond] at hsecond' hlog₂
  rw [p.traced.render_of_passes hfirst' hsecond', hlog₂ artifact rfl, hlog₁ handles rfl, calls,
    List.append_assoc]

end Painter

end Storyboard
