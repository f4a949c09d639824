import Storyboard.Proofs.CardPlacement
import Storyboard.Proofs.Cards
import Storyboard.Proofs.LayerCover
import Storyboard.Proofs.Rendering

/-!
# Text diagrams show every card

When all screens of a flow are placed, the sheet holds the layout of the flow
and one box for each screen, and connectors add nothing but themselves. So a
rendering ends with a diagram, and its block of cards shows the card of every
screen whole, with its shadow, apart from all others.

## Main results

* `TextSheet.placeAll_run` — the first pass, for screens that have cards.
* `TextSheet.Finished.exists_spots` — on a sheet with all screens placed, each
  has a place of its own.
* `TextSheet.render_shows_cards` — a rendering shows every card.
-/

namespace Storyboard.TextSheet

open Text

variable {o : Options} {f : Flow} {sheet : TextSheet}

/-! ## Placing the screens -/

/-- Whether a box is the one measured from a screen's card. -/
def IsBoxOf (o : Options) (s : Screen) (b : Box) : Prop :=
  ∃ card, s.card = .ok card ∧ b = Box.measure o.boxStyle card

theorem IsBoxOf.fits {s : Screen} {b : Box} (h : IsBoxOf o s b) : b.Fits := by
  obtain ⟨card, -, rfl⟩ := h
  exact Box.measure_fits (show (0 : Int) ≤ 1 by omega) card

theorem IsBoxOf.padding {s : Screen} {b : Box} (h : IsBoxOf o s b) : b.padding = 1 := by
  obtain ⟨card, -, rfl⟩ := h
  rfl

theorem place_run {s : Screen} {card : List String} (h : s.card = .ok card) (sheet : TextSheet) :
    ((painter o).place s).run sheet = (.ok (sheet.names.length : Int),
      { sheet with
        names := sheet.names ++ [s.name]
        boxes := sheet.boxes ++ [Box.measure o.boxStyle card] }) := by
  have hplace : ((painter o).place s).run sheet = (place o s) sheet := rfl
  rw [hplace, place, ExceptT.mk, h]

/-- A screen without a card has its name taken down before placing it fails. -/
theorem place_run_error {s : Screen} {fault : Fault} (h : s.card = .error fault)
    (sheet : TextSheet) : ((painter o).place s).run sheet =
      (.error (.plain fault), { sheet with names := sheet.names ++ [s.name] }) := by
  have hplace : ((painter o).place s).run sheet = (place o s) sheet := rfl
  rw [hplace, place, ExceptT.mk, h]

/-- A screen that could be placed has a card. -/
theorem exists_card_of_place {s : Screen} {handle : Int} {sheet' : TextSheet}
    (h : ((painter o).place s).run sheet = (.ok handle, sheet')) : ∃ card, s.card = .ok card := by
  cases hcard : s.card with
  | ok card => exact ⟨card, rfl⟩
  | error fault =>
      rw [place_run_error hcard] at h
      cases h

theorem finish_run (o : Options) (sheet : TextSheet) :
    (painter o).finish.run sheet = ((diagram o sheet).mapError .plain, sheet) := rfl

/-- Screens that have cards are all placed: each adds its name and its box,
and its handle is one of the numbers of the cards. -/
theorem placeAll_run (o : Options) :
    ∀ (screens : List Screen) (sheet : TextSheet) (t : Tally),
      (∀ s ∈ screens, ∃ card, s.card = .ok card) →
        ∃ handles boxes t', ((painter o).placeAll screens).run (sheet, t) = (.ok handles,
            ({ sheet with
              names := sheet.names ++ screens.map (·.name)
              boxes := sheet.boxes ++ boxes }, t')) ∧
          (∀ h ∈ handles, 0 ≤ h ∧ h < ((sheet.names.length + screens.length : Nat) : Int)) ∧
          List.Forall₂ (IsBoxOf o) screens boxes := by
  intro screens
  induction screens with
  | nil =>
      intro sheet t _
      refine ⟨[], [], t, ?_, by simp, List.Forall₂.nil⟩
      rw [List.map_nil, List.append_nil, List.append_nil]
      rfl
  | cons s rest ih =>
      intro sheet t hcards
      obtain ⟨card, hcard⟩ := hcards s (by simp)
      obtain ⟨handles, boxes, t', hrun, hhandles, hboxes⟩ := ih
        { sheet with
          names := sheet.names ++ [s.name]
          boxes := sheet.boxes ++ [Box.measure o.boxStyle card] }
        { t with placed := t.placed + 1 } fun r hr => hcards r (by simp [hr])
      refine ⟨(sheet.names.length : Int) :: handles, Box.measure o.boxStyle card :: boxes, t',
        ?_, ?_, List.Forall₂.cons ⟨card, hcard, rfl⟩ hboxes⟩
      · rw [Painter.placeAll, Act.run_bind_ok (Painter.run_tallied_ok t (place_run hcard sheet)),
          Act.run_bind_ok (Painter.run_note _ _ t), Act.run_bind_ok hrun]
        simp only [List.map_cons, List.append_assoc, List.singleton_append]
        rfl
      · intro h hh
        rw [List.length_cons]
        rcases List.mem_cons.1 hh with rfl | hh
        · omega
        · have hrange := hhandles h hh
          simp only [List.length_append, List.length_singleton] at hrange
          omega

/-! ## The sheet before it is finished -/

/-- Whether a handle is the number of a screen. -/
def IsCard (f : Flow) (h : Int) : Prop := 0 ≤ h ∧ h < (f.size : Int)

/-- What is known of the sheet once every screen of a flow is placed. -/
structure Finished (o : Options) (f : Flow) (sheet : TextSheet) : Prop where
  layout : sheet.layout = f.layout Layout.usualPasses
  names : sheet.names = f.names
  boxes : List.Forall₂ (IsBoxOf o) f.screens sheet.boxes
  connectors : ∀ c ∈ sheet.connectors, IsCard f c.source ∧ IsCard f c.target

theorem Finished.length_names (h : Finished o f sheet) : sheet.names.length = f.size := by
  rw [h.names, Flow.names, List.length_map, Flow.size]

theorem Finished.length_boxes (h : Finished o f sheet) : sheet.boxes.length = f.size :=
  h.boxes.length_eq.symm

theorem Finished.exists_screen (h : Finished o f sheet) {i : Nat} {b : Box}
    (hb : sheet.boxes[i]? = some b) :
    ∃ screen, f.screens[i]? = some screen ∧ IsBoxOf o screen b := by
  obtain ⟨hi, rfl⟩ := List.getElem?_eq_some_iff.1 hb
  have hi' : i < f.screens.length := by
    rw [h.boxes.length_eq]
    exact hi
  exact ⟨f.screens[i], List.getElem?_eq_getElem hi', h.boxes.get hi' hi⟩

/-- A connector between two cards leaves the sheet as it should be. -/
theorem Finished.connect {source target : Int} (label : String) (hsource : IsCard f source)
    (htarget : IsCard f target) (h : Finished o f sheet) :
    ∃ sheet', ((painter o).connect source target label).run sheet = (.ok (), sheet') ∧
      Finished o f sheet' := by
  refine ⟨{ sheet with connectors := sheet.connectors ++ [⟨source, target, label⟩] }, rfl,
    h.layout, h.names, h.boxes, ?_⟩
  intro c hc
  rcases List.mem_append.1 hc with hc | hc
  · exact h.connectors c hc
  · rw [List.mem_singleton.1 hc]
    exact ⟨hsource, htarget⟩

/-- Both passes bring any sheet to one with every screen placed. -/
theorem draw_run (o : Options) (before : TextSheet)
    (hcards : ∀ s ∈ f.screens, ∃ card, s.card = .ok card) :
    ∃ sheet t, Finished o f sheet ∧ ∀ artifact, diagram o sheet = .ok artifact →
      ((painter o).draw f).run (before, {}) = (.ok artifact, (sheet, t)) := by
  obtain ⟨handles, boxes, t₁, hplace, hhandles, hboxes⟩ :=
    placeAll_run o f.screens { layout := f.layout Layout.usualPasses } {} hcards
  have hvalid : ∀ h ∈ handles, IsCard f h := by
    intro h hh
    have hrange := hhandles h hh
    rwa [show ([] : List String).length + f.screens.length = f.size by
      rw [List.length_nil, Nat.zero_add, Flow.size]] at hrange
  have hplaced : Finished o f
      { layout := f.layout Layout.usualPasses, names := f.names, boxes := boxes } :=
    ⟨rfl, rfl, hboxes, by simp⟩
  have hnamed : ∀ e ∈ f.names.zip handles, IsCard f e.2 := fun e he =>
    hvalid e.2 (List.of_mem_zip he).2
  obtain ⟨sheet, t₂, hconnect, hfinished⟩ := Painter.connectAll_run
    (fun _ _ label _ hs ht hk => Finished.connect label hs ht hk) hnamed
    (f.screens.zip handles) _ t₁ (fun e he => hvalid e.2 (List.of_mem_zip he).2) hplaced
  refine ⟨sheet, t₂, hfinished, fun artifact hartifact => ?_⟩
  have hstart : ((painter o).start f).run before =
      (.ok (), { layout := f.layout Layout.usualPasses }) := rfl
  have hfinish : ((painter o).finish).run sheet = (.ok artifact, sheet) := by
    rw [finish_run, hartifact]
    rfl
  rw [Painter.draw, Act.run_bind_ok (Painter.run_tallied_ok {} hstart), Act.run_bind_ok hplace]
  exact (Act.run_bind_ok hconnect).trans (Painter.run_tallied_ok t₂ hfinish)

/-! ## The block of cards -/

/-- The rows of a sheet with every screen placed hold each screen once. -/
theorem Finished.rows_perm (h : Finished o f sheet) :
    (sheet.layout.rows sheet.names.length).flatten.Perm (List.range f.size) := by
  have hlayers := f.layout_layers_perm Layout.usualPasses
  rw [h.layout, h.length_names]
  exact Layout.rows_perm (hlayers.nodup_iff.2 List.nodup_range) f.size

/-- On a sheet with every screen placed, each screen has one place, and the
cards there show as they are. -/
theorem Finished.exists_spots (h : Finished o f sheet)
    (hsections : ∀ s ∈ f.screens, ∀ k ∈ s.sections, 0 ≤ k) (hh : 0 ≤ o.horizontalSpacing)
    (hv : 0 ≤ o.verticalSpacing) :
    ∃ places, spots o sheet = .ok places ∧ (places.map (·.index)).Perm (List.range f.size) ∧
      (∀ s ∈ places, ∃ screen, f.screens[s.index]? = some screen ∧ IsBoxOf o screen s.box) ∧
      Tidy o places := by
  have hrows := h.rows_perm
  have hwidth : ∀ b ∈ sheet.boxes, 0 ≤ b.width := by
    intro b hb
    obtain ⟨i, hi⟩ := List.mem_iff_getElem?.1 hb
    obtain ⟨screen, -, hbox⟩ := h.exists_screen hi
    have hpad := hbox.fits.padding
    have hwide := hbox.fits.width
    omega
  obtain ⟨places, hplaces, hplaced⟩ := placeRows_placed hh hv hwidth
    (sheet.layout.rows sheet.names.length) 0
    fun i hi => by rw [h.length_boxes]; exact List.mem_range.1 (hrows.mem_iff.1 hi)
  have hscreen : ∀ s ∈ places, ∃ screen, f.screens[s.index]? = some screen ∧
      IsBoxOf o screen s.box := fun s hs => h.exists_screen (hplaced.box s hs)
  refine ⟨places, hplaces, hplaced.index ▸ hrows, hscreen, ?_, ?_, ?_, hplaced.corner,
    hplaced.clears⟩
  · intro s hs
    obtain ⟨screen, -, hbox⟩ := hscreen s hs
    exact hbox.fits
  · intro s hs
    obtain ⟨screen, -, hbox⟩ := hscreen s hs
    exact hbox.padding
  · intro s hs r hr hrule c hc hblank
    obtain ⟨screen, hget, card, hcard, hbox⟩ := hscreen s hs
    obtain ⟨card', hcard', hlegible⟩ :=
      Screen.exists_card (hsections screen (List.mem_of_getElem? hget))
    rw [hcard] at hcard'
    cases hcard'
    rw [hbox] at hr
    exact Box.eq_space_of_mem_rows hlegible hr hrule hc hblank

/-! ## The diagram -/

theorem Finished.exists_nameOf (h : Finished o f sheet) {i : Int} (hi : IsCard f i) :
    ∃ name, sheet.nameOf i = .ok name := by
  have hcount := h.length_names
  obtain ⟨hlow, hhigh⟩ := hi
  obtain ⟨name, hname⟩ := Option.isSome_iff_exists.1 ((Sequence.isSome_at? sheet.names i).2
    (by omega))
  exact ⟨name, by rw [nameOf, hname]⟩

private theorem Finished.exists_connectorLine (h : Finished o f sheet) {c : Connector}
    (hc : c ∈ sheet.connectors) : ∃ line, sheet.connectorLine c = .ok line := by
  obtain ⟨hsource, htarget⟩ := h.connectors c hc
  obtain ⟨source, hs⟩ := h.exists_nameOf hsource
  obtain ⟨target, ht⟩ := h.exists_nameOf htarget
  exact ⟨"  [" ++ source ++ "] " ++ arrowText c.label ++ " [" ++ target ++ "]", by
    rw [connectorLine, hs, ht]
    rfl⟩

private theorem exists_connectorLines :
    ∀ cs : List Connector, (∀ c ∈ cs, ∃ line, sheet.connectorLine c = .ok line) →
      ∃ ls, cs.mapM sheet.connectorLine = .ok ls := by
  intro cs
  induction cs with
  | nil =>
      intro _
      exact ⟨[], rfl⟩
  | cons c rest ih =>
      intro hlines
      obtain ⟨line, hline⟩ := hlines c (by simp)
      obtain ⟨ls, hls⟩ := ih fun d hd => hlines d (by simp [hd])
      refine ⟨line :: ls, ?_⟩
      rw [List.mapM_cons, hline, hls]
      rfl

private theorem Finished.exists_listing (h : Finished o f sheet) :
    ∃ listing, sheet.listing = .ok listing := by
  obtain ⟨ls, hls⟩ := exists_connectorLines sheet.connectors fun c hc => h.exists_connectorLine hc
  exact ⟨String.intercalate "\n" ("Transitions:" :: ls), by rw [listing, hls]; rfl⟩

/-- Without screens there are no connectors. -/
theorem Finished.connectors_eq_nil (h : Finished o f sheet) (hnames : sheet.names = []) :
    sheet.connectors = [] := by
  have hsize := h.length_names
  rw [hnames, List.length_nil] at hsize
  apply List.eq_nil_iff_forall_not_mem.2
  intro c hc
  obtain ⟨⟨hlow, hhigh⟩, -⟩ := h.connectors c hc
  omega

theorem Finished.diagram_empty (h : Finished o f sheet) (hnames : sheet.names = []) :
    diagram o sheet = .ok "" := by
  simp only [diagram, if_pos hnames, if_pos (h.connectors_eq_nil hnames)]
  rfl

theorem cardBlock_empty (hnames : sheet.names = [])
    (hlayout : sheet.layout = (Flow.mk []).layout Layout.usualPasses) :
    cardBlock o sheet = .ok "" := by
  have hrows : ((Flow.mk []).layout Layout.usualPasses).rows 0 = [] := rfl
  have hblank : (Canvas.blank 1 1 " ").render = "" := by decide
  rw [cardBlock, spots, hlayout, hnames, List.length_nil, hrows, ← hblank]
  rfl

/-- The diagram of such a sheet is the block of cards, or the block and the
list of connectors under it. -/
theorem Finished.exists_diagram (h : Finished o f sheet) {block : String}
    (hblock : cardBlock o sheet = .ok block) :
    ∃ artifact, diagram o sheet = .ok artifact ∧
      (artifact = block ∨ ∃ listing, sheet.listing = .ok listing ∧
        artifact = block ++ "\n\n" ++ listing) := by
  obtain ⟨listing, hlisting⟩ := h.exists_listing
  by_cases hnames : sheet.names = []
  · refine ⟨"", h.diagram_empty hnames, Or.inl ?_⟩
    have hscreens : f.screens = [] := by
      rw [h.names] at hnames
      exact List.map_eq_nil_iff.1 hnames
    have hlayout : sheet.layout = (Flow.mk []).layout Layout.usualPasses := by
      rw [h.layout, ← hscreens]
    rw [cardBlock_empty hnames hlayout] at hblock
    exact Except.ok.inj hblock
  · by_cases hnone : sheet.connectors = []
    · refine ⟨block, ?_, Or.inl rfl⟩
      simp only [diagram, if_neg hnames, if_pos hnone, hblock]
      rfl
    · refine ⟨block ++ "\n\n" ++ listing, ?_, Or.inr ⟨listing, hlisting, rfl⟩⟩
      simp only [diagram, if_neg hnames, if_neg hnone, hblock, hlisting]
      rfl

/-- Every card stands whole in a rendered diagram. For any flow whose section
breaks are not below zero, any width of text, any spacings that are not below
zero, with shadows or without, rendering succeeds. Each screen then has one
place, with the box of its own card; the block of cards shows the card there
and its shadow, and all else in it is blank. No cell of a card or a shadow
belongs to another, or lies outside the canvas. -/
theorem render_shows_cards (o : Options) (f : Flow) (before : TextSheet)
    (hsections : ∀ s ∈ f.screens, ∀ k ∈ s.sections, 0 ≤ k) (hh : 0 ≤ o.horizontalSpacing)
    (hv : 0 ≤ o.verticalSpacing) :
    ∃ summary sheet places block,
      (painter o).render f before = ⟨.ok summary, summary.toTally, sheet⟩ ∧
      spots o sheet = .ok places ∧ cardBlock o sheet = .ok block ∧
      (summary.artifact = block ∨ ∃ listing, sheet.listing = .ok listing ∧
        summary.artifact = block ++ "\n\n" ++ listing) ∧
      (places.map (·.index)).Perm (List.range f.size) ∧
      (∀ s ∈ places, 0 ≤ s.x ∧ 0 ≤ s.y ∧ ∃ screen card, f.screens[s.index]? = some screen ∧
        screen.card = .ok card ∧ s.box = Box.measure o.boxStyle card ∧
          s.box.picture.length = s.box.height.toNat) ∧
      Shows o (rowsOf block) places ∧
      places.Pairwise (fun s t => ∀ a b, ¬(s.Covers o a b ∧ t.Covers o a b)) ∧
      ∀ s ∈ places, ∀ a b, s.Covers o a b → (canvasFor o places).Holds a b := by
  have hcards : ∀ s ∈ f.screens, ∃ card, s.card = .ok card := by
    intro s hs
    obtain ⟨card, hcard, -⟩ := Screen.exists_card (hsections s hs)
    exact ⟨card, hcard⟩
  obtain ⟨sheet, t, hfinished, hdraw⟩ := draw_run o before hcards
  obtain ⟨places, hplaces, hperm, hscreen, htidy⟩ := hfinished.exists_spots hsections hh hv
  have hblock : cardBlock o sheet =
      .ok (drawSpots o (canvasFor o places) places).render := by
    rw [cardBlock, hplaces]
    rfl
  obtain ⟨artifact, hartifact, hparts⟩ := hfinished.exists_diagram hblock
  refine ⟨{ t with artifact := artifact }, sheet, places, _,
    Painter.render_ok (hdraw artifact hartifact), hplaces, hblock, hparts, hperm, ?_,
    shows_drawSpots htidy, ?_, fun s hs a b hcover => htidy.holds hs hcover⟩
  · intro s hs
    obtain ⟨screen, hget, card, hcard, hbox⟩ := hscreen s hs
    exact ⟨(htidy.corner s hs).1, (htidy.corner s hs).2, screen, card, hget, hcard, hbox,
      Box.length_picture (htidy.fits s hs)⟩
  · refine htidy.clears.imp_of_mem fun {s u} hs hu hclear a b hboth => ?_
    exact hclear.not_covers (htidy.fits s hs) (htidy.fits u hu) hboth.1 hboth.2

/-- Two screens of one name. The first leads to itself and to a screen that is
not there, and has a section break before its action. -/
def twins : Flow where
  screens :=
    [{ name := "Home"
       components := [⟨.text, "A long\tgreeting"⟩, ⟨.action, "Go"⟩]
       requirements := { security := some "encrypted" }
       transitions := [⟨"Home", "Go", ""⟩, ⟨"Away", "", ""⟩]
       sections := [1] },
     { name := "Home", transitions := [⟨"Home", "", "again"⟩] }]

/-- The cards of the twins stand whole even if they are wrapped at three
columns and nothing is left between them. -/
theorem twins_show_cards :
    (∀ s ∈ twins.screens, ∀ k ∈ s.sections, 0 ≤ k) ∧
      ∃ summary sheet places block,
        (painter ⟨3, 0, 0, true⟩).render twins {} = ⟨.ok summary, summary.toTally, sheet⟩ ∧
        cardBlock ⟨3, 0, 0, true⟩ sheet = .ok block ∧
        (places.map (·.index)).Perm [0, 1] ∧ Shows ⟨3, 0, 0, true⟩ (rowsOf block) places := by
  have hsections : ∀ s ∈ twins.screens, ∀ k ∈ s.sections, 0 ≤ k := by decide
  obtain ⟨summary, sheet, places, block, hrender, -, hblock, -, hperm, -, hshows, -⟩ :=
    render_shows_cards ⟨3, 0, 0, true⟩ twins {} hsections (by decide) (by decide)
  exact ⟨hsections, summary, sheet, places, block, hrender, hblock, hperm, hshows⟩

end Storyboard.TextSheet
