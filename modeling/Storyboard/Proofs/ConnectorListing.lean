import Storyboard.Proofs.Passes
import Storyboard.Proofs.TextDiagram

/-!
# Text diagrams list every link

The handles of a text diagram are the numbers of the cards, so the connectors
on the sheet are the links of the flow, and each is listed with the names of
the two screens it joins. The name shown for its target is the one that the
transition was written with, since that is the name that the link was found
by.

## Main results

* `TextSheet.mapM_place_ok`, `TextSheet.run_connectWires` — what the passes
  leave on the sheet.
* `TextSheet.render_ok_iff` — when a rendering succeeds.
* `TextSheet.artifact_of_render` — the diagram of a rendering.
* `Flow.render_resolves` — renderings follow the links of the flow.
-/

namespace Storyboard

/-! ## Names of a link -/

namespace Flow

variable {f : Flow} {l : Link}

/-- The line of a link in a list of connectors. -/
def linkLine (f : Flow) (l : Link) : String :=
  "  [" ++ f.nameAt l.source ++ "] " ++ TextSheet.arrowText l.transition.label ++ " [" ++
    l.transition.target ++ "]"

/-- A link leads to a screen with the name that its transition gives. -/
theorem nameAt_target (h : l ∈ f.resolved) : f.nameAt l.target = l.transition.target := by
  obtain ⟨-, -, -, hindex⟩ := mem_resolved.1 h
  obtain ⟨hd, hname, -⟩ := List.findIdx?_eq_some_iff_getElem.1 hindex
  rw [nameAt_eq (List.getElem?_eq_getElem hd)]
  exact of_decide_eq_true hname

end Flow

namespace TextSheet

variable {o : Options} {f : Flow} {sheet : TextSheet}

/-! ## The passes on a sheet -/

/-- Placing that succeeds numbers the cards on from those on the sheet. -/
theorem mapM_place_ok (screens : List Screen) :
    ∀ (sheet sheet' : TextSheet) (handles : List Int),
      (screens.mapM (painter o).place).run sheet = (.ok handles, sheet') →
        handles = (List.range' sheet.names.length screens.length).map (fun (n : Nat) => (n : Int)) ∧
          sheet'.names = sheet.names ++ screens.map (·.name) ∧ sheet'.layout = sheet.layout ∧
          sheet'.connectors = sheet.connectors ∧ ∀ s ∈ screens, ∃ card, s.card = .ok card := by
  induction screens with
  | nil =>
      intro sheet sheet' handles h
      cases h
      simp
  | cons s rest ih =>
      intro sheet sheet' handles h
      rw [List.mapM_cons] at h
      obtain ⟨handle, sheet₁, hplace, h⟩ := Act.exists_of_run_bind h
      obtain ⟨more, sheet₂, hmore, h⟩ := Act.exists_of_run_bind h
      cases h
      obtain ⟨card, hcard⟩ := exists_card_of_place hplace
      rw [place_run hcard] at hplace
      cases hplace
      obtain ⟨hhandles, hnames, hlayout, hconnectors, hcards⟩ := ih _ _ _ hmore
      refine ⟨?_, ?_, hlayout, hconnectors, List.forall_mem_cons.2 ⟨⟨card, hcard⟩, hcards⟩⟩
      · rw [hhandles, List.length_cons, List.range'_succ, List.map_cons, List.length_append,
          List.length_singleton]
      · rw [hnames, List.map_cons, List.append_assoc, List.singleton_append]

/-- A connector of the flow, as the sheet keeps it. -/
def connectorOf (w : Wire Int) : Connector := ⟨w.source, w.target, w.label⟩

/-- Connectors are taken down and never fail. -/
theorem run_connectWires (ws : List (Wire Int)) :
    ∀ sheet : TextSheet, ((painter o).connectWires ws).run sheet =
      (.ok (), { sheet with connectors := sheet.connectors ++ ws.map connectorOf }) := by
  induction ws with
  | nil =>
      intro sheet
      rw [List.map_nil, List.append_nil]
      rfl
  | cons w ws ih =>
      intro sheet
      have hfirst : ((painter o).connect w.source w.target w.label).run sheet =
          (.ok (), { sheet with connectors := sheet.connectors ++ [connectorOf w] }) := rfl
      rw [Painter.connectWires_cons, Act.run_bind_ok hfirst, ih, List.map_cons, List.append_assoc,
        List.singleton_append]

/-- The connector of a link, between the numbers of two cards. -/
def connectorFor (l : Link) : Connector := ⟨l.source, l.target, l.transition.label⟩

/-- With the numbers of the cards for handles, the connectors are the links. -/
theorem map_connectorOf_wires (f : Flow) :
    (f.wires ((List.range' 0 f.size).map fun (n : Nat) => (n : Int))).map connectorOf =
      f.resolved.map connectorFor := by
  have hwires := Flow.forall₂_wires (f := f)
    (show ((List.range' 0 f.size).map fun (n : Nat) => (n : Int)).length = f.size by simp)
  have hnumber : ∀ {i : Nat} {h : Int},
      ((List.range' 0 f.size).map fun (n : Nat) => (n : Int))[i]? = some h → h = i := by
    intro i h hi
    obtain ⟨_, rfl⟩ := List.getElem?_eq_some_iff.1 hi
    simp
  rw [← List.forall₂_eq_eq_eq, List.forall₂_map_left_iff, List.forall₂_map_right_iff]
  refine hwires.flip.imp fun w l hends => ?_
  obtain ⟨source, target, label⟩ := w
  rw [connectorOf, connectorFor, show source = l.source from hnumber hends.source,
    show target = l.target from hnumber hends.target, show label = _ from hends.label]

/-! ## The sheet of a rendering -/

/-- What is known of the sheet when a rendering has succeeded. -/
structure Listed (f : Flow) (sheet : TextSheet) : Prop where
  layout : sheet.layout = f.layout Layout.usualPasses
  names : sheet.names = f.names
  connectors : sheet.connectors = f.resolved.map connectorFor

private theorem finish_ok {sheet' : TextSheet} {artifact : String}
    (h : ((painter o).finish).run sheet = (.ok artifact, sheet')) :
    sheet' = sheet ∧ diagram o sheet = .ok artifact := by
  rw [finish_run] at h
  cases hdiagram : diagram o sheet with
  | error fault =>
      rw [hdiagram] at h
      cases h
  | ok text =>
      rw [hdiagram] at h
      cases h
      exact ⟨rfl, rfl⟩

/-- A rendering that succeeds has placed every screen and taken down every
link. -/
theorem listed_of_render {before : TextSheet} {summary : Summary String}
    (h : ((painter o).render f before).outcome = .ok summary) :
    Listed f ((painter o).render f before).state ∧
      diagram o ((painter o).render f before).state = .ok summary.artifact ∧
      ∀ s ∈ f.screens, ∃ card, s.card = .ok card := by
  obtain ⟨handles, sheet₁, hfirst, hsecond⟩ := (painter o).exists_passes_of_render h
  obtain ⟨_, sheet₀, hstart, hplace⟩ := Act.exists_of_run_bind hfirst
  cases hstart
  obtain ⟨hhandles, hnames, hlayout, hconnectors, hcards⟩ := mapM_place_ok f.screens _ _ _ hplace
  obtain ⟨_, sheet₂, hconnect, hfinish⟩ := Act.exists_of_run_bind hsecond
  rw [run_connectWires, hconnectors, hhandles] at hconnect
  obtain ⟨hstate, hdiagram⟩ := finish_ok hfinish
  cases hconnect
  rw [hstate]
  exact ⟨⟨hlayout, hnames, map_connectorOf_wires f⟩, hdiagram, hcards⟩

/-! ## The list of connectors -/

theorem Listed.nameOf (h : Listed f sheet) {i : Nat} (hi : i < f.size) :
    sheet.nameOf i = .ok (f.nameAt i) := by
  rw [TextSheet.nameOf, Sequence.at?_natCast, h.names, Flow.getElem?_names hi]

/-- The line of a link shows the name that its transition gives. -/
theorem Listed.connectorLine (h : Listed f sheet) {l : Link} (hl : l ∈ f.resolved) :
    sheet.connectorLine (connectorFor l) = .ok (f.linkLine l) := by
  have hends := Flow.lt_size_of_mem_resolved hl
  rw [TextSheet.connectorLine, connectorFor, h.nameOf hends.1, h.nameOf hends.2,
    Flow.nameAt_target hl]
  rfl

private theorem mapM_eq_map {β γ : Type} {line : β → Except Fault γ} {text : β → γ} :
    ∀ xs : List β, (∀ x ∈ xs, line x = .ok (text x)) → xs.mapM line = .ok (xs.map text) := by
  intro xs
  induction xs with
  | nil =>
      intro _
      rfl
  | cons x xs ih =>
      intro h
      rw [List.mapM_cons, h x (by simp), ih fun y hy => h y (by simp [hy])]
      rfl

theorem Listed.listing (h : Listed f sheet) :
    sheet.listing =
      .ok (String.intercalate "\n" ("Transitions:" :: f.resolved.map f.linkLine)) := by
  have hlines : sheet.connectors.mapM sheet.connectorLine = .ok (f.resolved.map f.linkLine) := by
    rw [h.connectors, List.mapM_map]
    exact mapM_eq_map f.resolved fun l hl => h.connectorLine hl
  rw [TextSheet.listing, hlines]
  rfl

/-- The diagram that such a sheet gives is the block of cards, with one line
for each link under it if there are links. -/
theorem Listed.diagram_ok (h : Listed f sheet) {artifact : String}
    (hdiagram : diagram o sheet = .ok artifact) :
    ∃ block, cardBlock o sheet = .ok block ∧ artifact =
      if f.resolved = [] then block
      else block ++ "\n\n" ++
        String.intercalate "\n" ("Transitions:" :: f.resolved.map f.linkLine) := by
  have hconnectors : sheet.connectors = [] ↔ f.resolved = [] := by
    rw [h.connectors, List.map_eq_nil_iff]
  by_cases hnames : sheet.names = []
  · have hscreens : f.screens = [] := by
      rw [h.names] at hnames
      exact List.map_eq_nil_iff.1 hnames
    have hflow : f = ⟨[]⟩ := congrArg Flow.mk hscreens
    have hnone : f.resolved = [] := by
      rw [hflow]
      rfl
    have hblock : cardBlock o sheet = .ok "" :=
      cardBlock_empty hnames (by rw [h.layout, hflow])
    simp only [diagram, if_pos hnames, if_pos (hconnectors.2 hnone)] at hdiagram
    refine ⟨"", hblock, ?_⟩
    rw [if_pos hnone]
    exact (Except.ok.inj hdiagram).symm
  · cases hblock : cardBlock o sheet with
    | error fault =>
        simp only [diagram, if_neg hnames, hblock] at hdiagram
        cases hdiagram
    | ok block =>
        refine ⟨block, rfl, ?_⟩
        by_cases hnone : f.resolved = []
        · simp only [diagram, if_neg hnames, if_pos (hconnectors.2 hnone), hblock] at hdiagram
          rw [if_pos hnone]
          exact (Except.ok.inj hdiagram).symm
        · simp only [diagram, if_neg hnames, if_neg (mt hconnectors.1 hnone), hblock, h.listing]
            at hdiagram
          rw [if_neg hnone]
          exact (Except.ok.inj hdiagram).symm

/-! ## When a rendering succeeds -/

/-- Whether some cards are placed with the boxes that they have. -/
structure Boxed (boxes : List Box) (cards : List Nat) (spots : List Spot) : Prop where
  index : spots.map (·.index) = cards
  box : ∀ s ∈ spots, boxes[s.index]? = some s.box

/-- Cards that are there are placed, whatever the spacing. -/
theorem exists_placeRow (o : Options) (boxes : List Box) (row : List Nat) :
    ∀ x y : Int, (∀ i ∈ row, i < boxes.length) →
      ∃ spots, placeRow o boxes x y row = .ok spots ∧ Boxed boxes row spots := by
  induction row with
  | nil =>
      intro x y _
      exact ⟨[], rfl, rfl, by simp⟩
  | cons i row ih =>
      intro x y hrange
      have hi : i < boxes.length := hrange i (by simp)
      have hget : boxes[i]? = some boxes[i] := List.getElem?_eq_getElem hi
      obtain ⟨spots, hspots, hboxed⟩ :=
        ih (x + boxes[i].width + o.shadowSize + o.horizontalSpacing) y
          fun j hj => hrange j (by simp [hj])
      refine ⟨⟨i, x, y, boxes[i]⟩ :: spots, ?_, ?_, ?_⟩
      · rw [placeRow, hget]
        dsimp only
        rw [hspots]
        rfl
      · rw [List.map_cons, hboxed.index]
      · exact List.forall_mem_cons.2 ⟨hget, hboxed.box⟩

theorem exists_placeRows (o : Options) (boxes : List Box) (rows : List (List Nat)) :
    ∀ y : Int, (∀ i ∈ rows.flatten, i < boxes.length) →
      ∃ spots, placeRows o boxes y rows = .ok spots ∧ Boxed boxes rows.flatten spots := by
  induction rows with
  | nil =>
      intro y _
      exact ⟨[], rfl, rfl, by simp⟩
  | cons row rows ih =>
      intro y hrange
      rw [List.flatten_cons] at hrange ⊢
      obtain ⟨first, hfirst, hrow⟩ := exists_placeRow o boxes row 0 y fun i hi =>
        hrange i (List.mem_append_left _ hi)
      obtain ⟨spots, hspots, hboxed⟩ := ih (y + rowHeight o first + o.verticalSpacing) fun i hi =>
        hrange i (List.mem_append_right row hi)
      refine ⟨first ++ spots, ?_, ?_, ?_⟩
      · rw [placeRows, hfirst]
        dsimp only
        rw [hspots]
        rfl
      · rw [List.map_append, hrow.index, hboxed.index]
      · exact List.forall_mem_append.2 ⟨hrow.box, hboxed.box⟩

/-- Whatever the spacing, each screen has one place, with its own box. -/
theorem Finished.exists_boxed (h : Finished o f sheet) :
    ∃ places, spots o sheet = .ok places ∧
      Boxed sheet.boxes (sheet.layout.rows sheet.names.length).flatten places :=
  exists_placeRows o sheet.boxes (sheet.layout.rows sheet.names.length) 0 fun i hi => by
    rw [h.length_boxes]
    exact List.mem_range.1 (h.rows_perm.mem_iff.1 hi)

theorem Finished.exists_cardBlock (h : Finished o f sheet) :
    ∃ block, cardBlock o sheet = .ok block := by
  obtain ⟨places, hplaces, -⟩ := h.exists_boxed
  exact ⟨(drawSpots o (canvasFor o places) places).render, by rw [cardBlock, hplaces]; rfl⟩

/-- A rendering as text succeeds exactly if every screen has a card. -/
theorem render_ok_iff (o : Options) (f : Flow) (before : TextSheet) :
    (∃ summary, ((painter o).render f before).outcome = .ok summary) ↔
      ∀ s ∈ f.screens, ∃ card, s.card = .ok card := by
  constructor
  · rintro ⟨summary, h⟩
    exact (listed_of_render h).2.2
  · intro hcards
    obtain ⟨sheet, t, hfinished, hdraw⟩ := draw_run o before hcards
    obtain ⟨block, hblock⟩ := hfinished.exists_cardBlock
    obtain ⟨artifact, hartifact, -⟩ := hfinished.exists_diagram hblock
    exact ⟨{ t with artifact := artifact },
      congrArg Rendering.outcome (Painter.render_ok (hdraw artifact hartifact))⟩

/-- The diagram of a rendering as text. -/
theorem artifact_of_render {before : TextSheet} {summary : Summary String}
    (h : ((painter o).render f before).outcome = .ok summary) :
    ∃ block, cardBlock o ((painter o).render f before).state = .ok block ∧ summary.artifact =
      if f.resolved = [] then block
      else block ++ "\n\n" ++
        String.intercalate "\n" ("Transitions:" :: f.resolved.map f.linkLine) := by
  obtain ⟨hlisted, hdiagram, -⟩ := listed_of_render h
  exact hlisted.diagram_ok hdiagram

end TextSheet

/-! ## Rendering by links -/

/-- Renderings follow the links of the flow. For any painter, a rendering
succeeds exactly if the painter starts, answers a handle for each screen in
order, connects for each link in order the handles at its two ends, and
finishes. The acts it is asked for are then these and no others, the summary
has what finishing gave, and it counts the screens and the links and lists the
transitions that lead nowhere. A rendering as text succeeds exactly if every
screen has a card, and has one line for each link, with the name that its
transition gives for its target. -/
theorem Flow.render_resolves (f : Flow) :
    (∀ (σ η α : Type) (p : Painter σ η α) (s s' : σ) (summary : Summary α),
      ((p.render f s).outcome = .ok summary ∧ (p.render f s).state = s') ↔
        ∃ handles s₁, (p.firstPass f).run s = (.ok handles, s₁) ∧
          (p.secondPass f handles).run s₁ = (.ok summary.artifact, s') ∧
          handles.length = f.size ∧
          List.Forall₂ (Wire.Joins handles) f.resolved (f.wires handles) ∧
          (∀ log, (p.traced.render f (s, log)).state = (s', log ++ Painter.calls f handles)) ∧
          summary.placed = f.size ∧ summary.connected = f.resolved.length ∧
          summary.skipped = f.unresolved.map fun e => (f.nameAt e.1, e.2)) ∧
    ∀ (o : TextSheet.Options) (before : TextSheet),
      ((∃ summary, ((TextSheet.painter o).render f before).outcome = .ok summary) ↔
        ∀ s ∈ f.screens, ∃ card, s.card = .ok card) ∧
      ∀ summary, ((TextSheet.painter o).render f before).outcome = .ok summary →
        ∃ block, TextSheet.cardBlock o ((TextSheet.painter o).render f before).state = .ok block ∧
          summary.artifact =
            if f.resolved = [] then block
            else block ++ "\n\n" ++
              String.intercalate "\n" ("Transitions:" :: f.resolved.map f.linkLine) := by
  refine ⟨fun σ η α p s s' summary => ⟨?_, ?_⟩, fun o before =>
    ⟨TextSheet.render_ok_iff o f before, fun summary => TextSheet.artifact_of_render⟩⟩
  · rintro ⟨houtcome, rfl⟩
    obtain ⟨handles, s₁, hfirst, hsecond⟩ := p.exists_passes_of_render houtcome
    have hlength := p.length_of_firstPass hfirst
    have hsummary : summary = { f.tally with artifact := summary.artifact } := by
      rw [p.render_of_passes hfirst hsecond] at houtcome
      exact (Except.ok.inj houtcome).symm
    refine ⟨handles, s₁, hfirst, hsecond, hlength, Flow.forall₂_wires hlength,
      p.traced_render_of_passes hfirst hsecond, ?_⟩
    rw [hsummary]
    exact ⟨rfl, rfl, rfl⟩
  · rintro ⟨handles, s₁, hfirst, hsecond, -, -, -, hplaced, hconnected, hskipped⟩
    rw [p.render_of_passes hfirst hsecond]
    obtain ⟨⟨placed, connected, skipped⟩, artifact⟩ := summary
    refine ⟨?_, rfl⟩
    rw [Flow.tally, ← show placed = _ from hplaced, ← show connected = _ from hconnected,
      ← show skipped = _ from hskipped]

/-- A painter that gives every screen the same handle, counts its connectors,
and finishes with their number. -/
def blindPainter : Painter Nat (Option Unit) Nat where
  start _ := ExceptT.mk fun _ => (.ok (), 0)
  place _ := ExceptT.mk fun n => (.ok none, n)
  connect _ _ _ := ExceptT.mk fun n => (.ok (), n + 1)
  finish := ExceptT.mk fun n => (.ok n, n)

/-- Two screens of one name, a screen that leads to one after it, and a
transition that leads nowhere. -/
def crossed : Flow where
  screens :=
    [{ name := "Home", transitions := [⟨"Away", "Go", ""⟩, ⟨"Lost", "", ""⟩] },
     { name := "Home", transitions := [⟨"Home", "", "again"⟩] },
     { name := "Away", transitions := [⟨"Away", "", ""⟩] }]

theorem crossed_render :
    (blindPainter.render crossed 5).outcome = .ok ⟨⟨3, 3, [("Home", ⟨"Lost", "", ""⟩)]⟩, 3⟩ ∧
      (blindPainter.traced.render crossed (5, [])).state.2 =
        [.start ["Home", "Home", "Away"], .place "Home", .place "Home", .place "Away",
          .connect none none "Go", .connect none none "again", .connect none none "", .finish] ∧
      ∃ summary block, ((TextSheet.painter {}).render crossed {}).outcome = .ok summary ∧
        summary.artifact = block ++ "\n\n" ++ String.intercalate "\n"
          ["Transitions:", "  [Home] ──Go──► [Away]", "  [Home] ──again──► [Home]",
            "  [Away] ──► [Away]"] := by
  have houtcome : (blindPainter.render crossed 5).outcome =
      .ok ⟨⟨3, 3, [("Home", ⟨"Lost", "", ""⟩)]⟩, 3⟩ := rfl
  obtain ⟨handles, s₁, hfirst, -, -, -, htrace, -⟩ :=
    ((Flow.render_resolves crossed).1 _ _ _ blindPainter 5 3 _).1 ⟨houtcome, rfl⟩
  have hhandles : handles = [none, none, none] := by
    have hrun : (blindPainter.firstPass crossed).run 5 = (.ok [none, none, none], 0) := rfl
    rw [hrun] at hfirst
    cases hfirst
    rfl
  have htext := (Flow.render_resolves crossed).2 {} {}
  have hsections : ∀ s ∈ crossed.screens, ∀ k ∈ s.sections, 0 ≤ k := by decide
  obtain ⟨summary, hsummary⟩ := htext.1.2 fun s hs =>
    (Screen.exists_card (hsections s hs)).imp fun _ hcard => hcard.1
  obtain ⟨block, -, hartifact⟩ := htext.2 summary hsummary
  rw [if_neg (by decide)] at hartifact
  refine ⟨houtcome, ?_, summary, block, hsummary, hartifact⟩
  rw [htrace, hhandles]
  rfl

end Storyboard
