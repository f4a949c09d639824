import Storyboard.Proofs.ConnectorListing
import Storyboard.Proofs.PainterReuse

/-!
# Rows hold the cards that were placed

Cards are drawn in rows, and the rows follow the layers of the flow that was
started on. But a painter may be asked for anything at any time: to place fewer
screens than the flow has, or more, or some without a start. What then stands in
the rows depends on two things only, the layout made at the last start and the
number of screens placed since, and every painter that numbers its cards has the
same.

## Main results

* `Layout.Arranged`, `Layout.rows_arranged` — what is asked of rows, and that
  rows meet it.
* `Stock` — what there is to draw after some tasks.
* `Painter.SetsDown`, `Painter.keeps_stock` — histories in which starting and
  placing succeed, and what they keep.
* `ImageSheet.start_cases`, `ImageSheet.place_cases`, `ImageSheet.finish_leaves` —
  what an act on a picture sheet leaves, whether it succeeds or fails.
* `TextSheet.Stocked.step`, `ImageSheet.Stocked.step` — one task of a painter.
* `Stock.rows_of_history` — the rows after any history.
-/

namespace Storyboard

/-! ## Rows -/

namespace Layout

/-- Rows of the first `placed` cards that follow some layers: each card stands
once and no row is empty; the cards of the layers stand in the order of the
layers, and within a row in the order of its layer; the others stand in
increasing order in one row at the end. -/
structure Arranged (layers : List (List Nat)) (placed : Nat) (rows : List (List Nat)) : Prop where
  perm : rows.flatten.Perm (List.range placed)
  ne_nil : ∀ row ∈ rows, row ≠ []
  split : ∃ known others, rows = known ++ others ∧
    (∃ used, used.Sublist layers ∧ List.Forall₂ List.Sublist known used) ∧
    others.length ≤ 1 ∧
    ∀ row ∈ others, row.Pairwise (· < ·) ∧ ∀ i, i ∈ row ↔ i < placed ∧ i ∉ layers.flatten

/-- Layers of which only some cards are left, and empty ones dropped, follow the
layers. -/
theorem forall₂_known (p : Nat → Bool) (layers : List (List Nat)) :
    ∃ used, used.Sublist layers ∧
      List.Forall₂ List.Sublist ((layers.map fun layer => layer.filter p).filter (!·.isEmpty))
        used := by
  induction layers with
  | nil => exact ⟨[], List.Sublist.refl _, List.Forall₂.nil⟩
  | cons layer rest ih =>
      obtain ⟨used, hused, hknown⟩ := ih
      rw [List.map_cons]
      by_cases hempty : layer.filter p = []
      · exact ⟨used, hused.cons layer, by rw [hempty]; exact hknown⟩
      · refine ⟨layer :: used, hused.cons_cons layer, ?_⟩
        rw [List.filter_cons_of_pos (by simpa using hempty)]
        exact List.Forall₂.cons List.filter_sublist hknown

/-- If the layout tells screens apart, its rows follow its layers. -/
theorem rows_arranged {l : Layout} (h : l.layers.flatten.Nodup) (placed : Nat) :
    Arranged l.layers placed (l.rows placed) := by
  have hperm := rows_perm h placed
  refine ⟨hperm, ?_, ?_⟩
  all_goals unfold rows
  all_goals dsimp only
  · intro row hrow
    split at hrow
    · simpa using (List.mem_filter.1 hrow).2
    · rename_i hsome
      rcases List.mem_append.1 hrow with hknown | hlast
      · simpa using (List.mem_filter.1 hknown).2
      · rw [List.mem_singleton.1 hlast]
        simpa using hsome
  · have hunknown : ∀ i, i ∈ (List.range placed).filter (fun i => i ∉ ((l.layers.map fun layer =>
        layer.filter (· < placed)).filter (!·.isEmpty)).flatten) ↔
        i < placed ∧ i ∉ l.layers.flatten := by
      intro i
      rw [flatten_filter_not_isEmpty, ← List.filter_flatten, List.mem_filter, List.mem_range,
        decide_eq_true_eq, List.mem_filter, decide_eq_true_eq]
      tauto
    split
    · exact ⟨_, [], (List.append_nil _).symm, forall₂_known _ _, by simp, by simp⟩
    · refine ⟨_, _, rfl, forall₂_known _ _, Nat.le_refl 1, fun row hrow => ?_⟩
      rw [List.mem_singleton.1 hrow]
      exact ⟨List.pairwise_lt_range.filter _, hunknown⟩

end Layout

/-! ## What there is to draw -/

/-- What the rows of a diagram depend on: the layout of the flow started on last,
and the number of screens placed since. -/
structure Stock where
  layout : Layout := {}
  placed : Nat := 0

namespace Stock

/-- The stock after one more task. -/
def after {η : Type} (stock : Stock) : Task η → Stock
  | .start f => { layout := f.layout Layout.usualPasses }
  | .place _ => { stock with placed := stock.placed + 1 }
  | .connect _ => stock
  | .finish => stock

/-- The stock after some tasks of a new painter. -/
def ofTasks {η : Type} (tasks : List (Task η)) : Stock := tasks.foldl after {}

/-- The rows of the cards. -/
def rows (stock : Stock) : List (List Nat) := stock.layout.rows stock.placed

private theorem nodup_layers {η : Type} (tasks : List (Task η)) :
    ∀ stock : Stock, stock.layout.layers.flatten.Nodup →
      (tasks.foldl after stock).layout.layers.flatten.Nodup := by
  induction tasks with
  | nil =>
      intro stock h
      exact h
  | cons task tasks ih =>
      intro stock h
      refine ih _ ?_
      cases task with
      | start f => exact (f.layout_layers_perm Layout.usualPasses).nodup_iff.2 List.nodup_range
      | place _ => exact h
      | connect _ => exact h
      | finish => exact h

end Stock

/-! ## Histories -/

/-- Whether a task sets something down: a flow or a screen. -/
def Task.sets {η : Type} : Task η → Bool
  | .start _ => true
  | .place _ => true
  | .connect _ => false
  | .finish => false

namespace Painter

variable {ι σ η α : Type}

/-- The state that tasks leave, whichever of them fail. Each comes with the
circumstances in which it is performed. -/
def leavesAll (painter : ι → Painter σ η α) (s : σ) (history : List (ι × Task η)) : σ :=
  history.foldl (fun s e => (painter e.1).leaves s (.task e.2)) s

/-- What each task of a history keeps, the history does. -/
theorem leavesAll_keeps {painter : ι → Painter σ η α} {keeps : σ → Prop}
    {history : List (ι × Task η)}
    (hstep : ∀ e ∈ history, ∀ s, keeps s → keeps ((painter e.1).leaves s (.task e.2))) {s : σ}
    (h : keeps s) : keeps (leavesAll painter s history) :=
  List.foldlRecOn history _ h fun s hs e he => hstep e he s hs

/-- Whether starting and placing succeed whenever a history asks for them.
Connecting and finishing may fail. -/
def SetsDown (painter : ι → Painter σ η α) : σ → List (ι × Task η) → Prop
  | _, [] => True
  | s, e :: rest =>
    (e.2.sets = true → ∃ handles s', ((painter e.1).perform e.2).run s = (.ok handles, s')) ∧
      SetsDown painter ((painter e.1).leaves s (.task e.2)) rest

/-- What each task keeps up with the stock, a history does. -/
theorem keeps_stock {painter : ι → Painter σ η α} (keeps : Stock → σ → Prop)
    (hstep : ∀ stock s i task, keeps stock s →
      (task.sets = true → ∃ handles s', ((painter i).perform task).run s = (.ok handles, s')) →
      keeps (stock.after task) ((painter i).leaves s (.task task))) :
    ∀ (history : List (ι × Task η)) (stock : Stock) (s : σ), keeps stock s →
      SetsDown painter s history →
      keeps ((history.map (·.2)).foldl Stock.after stock) (leavesAll painter s history) := by
  intro history
  induction history with
  | nil =>
      intro stock s h _
      exact h
  | cons e rest ih =>
      intro stock s h hdown
      exact ih _ _ (hstep stock s e.1 e.2 h hdown.1) hdown.2

/-- A screen that was placed has left what placing it leaves. -/
theorem exists_place_of_perform {p : Painter σ η α} {screen : Screen} {s s' : σ} {handles : List η}
    (h : (p.perform (.place screen)).run s = (.ok handles, s')) :
    ∃ handle, (p.place screen).run s = (.ok handle, s') := by
  obtain ⟨handle, s₁, hplace, hpure⟩ := Act.exists_of_run_bind h
  cases hpure
  exact ⟨handle, hplace⟩

end Painter

/-! ## Text sheets -/

namespace TextSheet

/-- Whether a sheet has a name and a box for each card of a stock, and its
layout. -/
structure Stocked (stock : Stock) (sheet : TextSheet) : Prop where
  layout : sheet.layout = stock.layout
  names : sheet.names.length = stock.placed
  boxes : sheet.boxes.length = stock.placed

variable {stock : Stock} {sheet : TextSheet}

theorem Stocked.step (o : Options) (task : Task Int) (h : Stocked stock sheet)
    (hdone : task.sets = true →
      ∃ handles sheet', ((painter o).perform task).run sheet = (.ok handles, sheet')) :
    Stocked (stock.after task) ((painter o).leaves sheet (.task task)) := by
  cases task with
  | start f => exact ⟨rfl, rfl, rfl⟩
  | place screen =>
      obtain ⟨handles, sheet', hrun⟩ := hdone rfl
      obtain ⟨handle, hplace⟩ := Painter.exists_place_of_perform hrun
      obtain ⟨card, hcard⟩ := exists_card_of_place hplace
      rw [place_run hcard] at hplace
      rw [Painter.leaves, hrun, ← congrArg Prod.snd hplace]
      exact ⟨h.layout, by simp [Stock.after, h.names], by simp [Stock.after, h.boxes]⟩
  | connect w => exact ⟨h.layout, h.names, h.boxes⟩
  | finish =>
      rw [Painter.leaves_finish]
      exact h

/-- On a sheet that has its stock, every card has one place. -/
theorem Stocked.exists_places (o : Options) (h : Stocked stock sheet)
    (hrows : Layout.Arranged stock.layout.layers stock.placed stock.rows) :
    ∃ places, spots o sheet = .ok places ∧ places.map (·.index) = stock.rows.flatten := by
  have hrange : ∀ i ∈ stock.rows.flatten, i < sheet.boxes.length := by
    intro i hi
    rw [h.boxes]
    exact List.mem_range.1 (hrows.perm.mem_iff.1 hi)
  obtain ⟨places, hplaces, hboxed⟩ := exists_placeRows o sheet.boxes stock.rows 0 hrange
  refine ⟨places, ?_, hboxed.index⟩
  rw [spots, h.layout, h.names]
  exact hplaces

end TextSheet

/-! ## Picture sheets -/

namespace ImageSheet

/-- Whether a sheet has the cards of a stock, and its layout. -/
structure Stocked (stock : Stock) (sheet : ImageSheet) : Prop where
  layout : sheet.layout = stock.layout
  cards : sheet.cards.length = stock.placed

variable {stock : Stock} {sheet : ImageSheet}

/-- Starting fails with the font, and leaves nothing but an old one, or lays out
the flow on a clear sheet. -/
theorem start_cases (w : Workshop) (o : Options) (f : Flow) (sheet : ImageSheet) :
    (∃ fault, ((painter w o).start f).run sheet =
      (.error (.render fault), { font := sheet.font })) ∨
    ∃ font, ((painter w o).start f).run sheet =
      (.ok (), { layout := f.layout Layout.usualPasses, font := some font }) := by
  have hact : ((painter w o).start f).run sheet = (start w o none f) sheet := rfl
  rw [hact, start, ExceptT.mk]
  cases loadFont w o with
  | error fault => exact Or.inl ⟨fault, rfl⟩
  | ok font => exact Or.inr ⟨font, rfl⟩

/-- Placing fails with the font and changes nothing, or fails with the card and
keeps the font, or adds the card. -/
theorem place_cases (w : Workshop) (o : Options) (screen : Screen) (sheet : ImageSheet) :
    (∃ fault, fontFor w o sheet = .error fault ∧
      ((painter w o).place screen).run sheet = (.error (.render fault), sheet)) ∨
    ∃ font, fontFor w o sheet = .ok font ∧
      ((∃ fault, screen.card = .error fault ∧ ((painter w o).place screen).run sheet =
        (.error (.plain fault), { sheet with font := some font })) ∨
      ∃ card, screen.card = .ok card ∧ ((painter w o).place screen).run sheet =
        (.ok sheet.cards.length,
          { sheet with font := some font, cards := sheet.cards ++ [card] })) := by
  have hact : ((painter w o).place screen).run sheet = (place w o screen) sheet := rfl
  rw [hact, place, ExceptT.mk]
  cases fontFor w o sheet with
  | error fault => exact Or.inl ⟨fault, rfl, rfl⟩
  | ok font =>
      cases screen.card with
      | error fault => exact Or.inr ⟨font, rfl, Or.inl ⟨fault, rfl, rfl⟩⟩
      | ok card => exact Or.inr ⟨font, rfl, Or.inr ⟨card, rfl, rfl⟩⟩

/-- A handle counts the cards that were there, and a card has come after them. -/
theorem place_ok {w : Workshop} {o : Options} {screen : Screen} {handle : Int}
    {after : ImageSheet} (h : ((painter w o).place screen).run sheet = (.ok handle, after)) :
    handle = sheet.cards.length ∧ ∃ font card,
      after = { sheet with font := some font, cards := sheet.cards ++ [card] } := by
  rcases place_cases w o screen sheet with
    ⟨fault, -, hfail⟩ | ⟨font, -, ⟨fault, -, hfail⟩ | ⟨card, -, hplaced⟩⟩
  · rw [hfail] at h
    cases h
  · rw [hfail] at h
    cases h
  · rw [hplaced] at h
    cases h
    exact ⟨rfl, font, card, rfl⟩

/-- The frames of a sheet after its cards were drawn: without cards those that it
had, and else those of the cards, put in the place of earlier ones. -/
def framesAfter (w : Workshop) (o : Options) (sheet : ImageSheet) : List (Nat × Frame) :=
  if sheet.cards = [] then sheet.frames
  else (framesFor o (sheet.cards.map (cardSize o (sheet.pen w))) sheet.rows).foldl setFrame
    sheet.frames

private theorem drawOn_leaves (w : Workshop) (width height : Int) (drawing : Drawing)
    (sheet : ImageSheet) :
    ∃ latest, (drawOn w width height drawing sheet).2 = { sheet with latest := latest } := by
  unfold drawOn
  split
  · exact ⟨sheet.latest, rfl⟩
  · exact ⟨_, rfl⟩

private theorem drawPicture_leaves (w : Workshop) (o : Options) (sheet : ImageSheet) :
    ∃ latest, (drawPicture w o sheet).2 =
      { sheet with frames := framesAfter w o sheet, latest := latest } := by
  unfold drawPicture framesAfter
  split
  · exact drawOn_leaves w _ _ _ sheet
  · exact drawOn_leaves w _ _ _ _

/-- Finishing changes the frames and the latest picture only, whether it succeeds
or fails. -/
theorem finish_leaves (w : Workshop) (o : Options) (sheet : ImageSheet) :
    ∃ latest, ((painter w o).finish.run sheet).2 =
      { sheet with frames := framesAfter w o sheet, latest := latest } := by
  have hact : (painter w o).finish.run sheet = (finish w o) sheet := rfl
  obtain ⟨latest, hdrawn⟩ := drawPicture_leaves w o sheet
  rw [hact, finish, ExceptT.mk]
  cases hdraw : drawPicture w o sheet with
  | mk outcome drawn =>
      rw [hdraw] at hdrawn
      cases outcome with
      | error fault => exact ⟨latest, hdrawn⟩
      | ok picture =>
          dsimp only at hdrawn ⊢
          split
          · exact ⟨latest, hdrawn⟩
          · split
            · exact ⟨latest, hdrawn⟩
            · exact ⟨_, by rw [hdrawn]⟩

theorem Stocked.step (w : Workshop) (o : Options) (task : Task Int) (h : Stocked stock sheet)
    (hdone : task.sets = true →
      ∃ handles sheet', ((painter w o).perform task).run sheet = (.ok handles, sheet')) :
    Stocked (stock.after task) ((painter w o).leaves sheet (.task task)) := by
  cases task with
  | start f =>
      obtain ⟨handles, sheet', hrun⟩ := hdone rfl
      obtain ⟨_, s₁, hstart, hpure⟩ := Act.exists_of_run_bind hrun
      cases hpure
      rw [Painter.leaves_start]
      rcases start_cases w o f sheet with ⟨fault, hfail⟩ | ⟨font, hstarted⟩
      · rw [hfail] at hstart
        cases hstart
      · rw [hstarted]
        exact ⟨rfl, rfl⟩
  | place screen =>
      obtain ⟨handles, sheet', hrun⟩ := hdone rfl
      obtain ⟨handle, hplace⟩ := Painter.exists_place_of_perform hrun
      obtain ⟨-, font, card, rfl⟩ := place_ok hplace
      rw [Painter.leaves_place, hplace]
      exact ⟨h.layout, by simp [Stock.after, h.cards]⟩
  | connect _ => exact ⟨h.layout, h.cards⟩
  | finish =>
      obtain ⟨latest, hfinish⟩ := finish_leaves w o sheet
      rw [Painter.leaves_finish, hfinish]
      exact ⟨h.layout, h.cards⟩

end ImageSheet

/-! ## Every history -/

namespace Stock

/-- Whatever a painter was asked for, as long as it could start and place, its
rows are those of its stock: the layers of the flow that was started on last,
without what was not placed since, and with what the layers do not know in a
last row. So the two painters have the same rows after the same tasks, and on a
text sheet each card placed has one place. -/
theorem rows_of_history (history : List (Workshop × Task Int)) :
    let stock := ofTasks (history.map (·.2))
    Layout.Arranged stock.layout.layers stock.placed stock.rows ∧
    (∀ o : TextSheet.Options,
      let sheet := Painter.leavesAll (fun _ => TextSheet.painter o) {} history
      Painter.SetsDown (fun _ => TextSheet.painter o) {} history →
        sheet.names.length = stock.placed ∧
        TextSheet.spots o sheet = TextSheet.placeRows o sheet.boxes 0 stock.rows ∧
        ∃ places, TextSheet.spots o sheet = .ok places ∧
          places.map (·.index) = stock.rows.flatten ∧
          (places.map (·.index)).Perm (List.range stock.placed)) ∧
    ∀ o : ImageSheet.Options,
      let sheet := Painter.leavesAll (fun w => ImageSheet.painter w o) {} history
      Painter.SetsDown (fun w => ImageSheet.painter w o) {} history →
        sheet.cards.length = stock.placed ∧ sheet.rows = stock.rows := by
  dsimp only
  have hrows : Layout.Arranged (ofTasks (history.map (·.2))).layout.layers
      (ofTasks (history.map (·.2))).placed (ofTasks (history.map (·.2))).rows :=
    Layout.rows_arranged (nodup_layers _ {} List.nodup_nil) _
  refine ⟨hrows, fun o hdown => ?_, fun o hdown => ?_⟩
  · have hstocked := Painter.keeps_stock TextSheet.Stocked
      (fun _ _ _ task h hdone => h.step o task hdone) history {} {} ⟨rfl, rfl, rfl⟩ hdown
    obtain ⟨places, hplaces, hindex⟩ := hstocked.exists_places o hrows
    refine ⟨hstocked.names, ?_, places, hplaces, hindex, hindex ▸ hrows.perm⟩
    rw [TextSheet.spots, hstocked.layout, hstocked.names]
    rfl
  · have hstocked := Painter.keeps_stock ImageSheet.Stocked
      (fun _ _ w task h hdone => h.step w o task hdone) history {} {} ⟨rfl, rfl⟩ hdown
    refine ⟨hstocked.cards, ?_⟩
    rw [ImageSheet.rows, hstocked.layout, hstocked.cards]
    rfl

/-- A workshop with the built-in font only. -/
def plainShop : Workshop where
  fonts := { present := fun _ => false, flaw? := fun _ => none }
  bounds := Font.blockBounds
  saveFault? _ := none

/-- A screen is placed too early, and after the start one too many; then a
connector leads to a card that is not there, so that finishing fails. -/
def scattered : List (Workshop × Task Int) :=
  [.place { name := "Early" },
   .start ⟨[{ name := "Home", transitions := [⟨"Away", "Go", ""⟩] }, { name := "Away" }]⟩,
   .place { name := "Home" }, .place { name := "Away" }, .place { name := "Late" },
   .connect ⟨0, 7, ""⟩, .finish].map fun task => (plainShop, task)

theorem scattered_rows :
    Painter.SetsDown (fun _ => TextSheet.painter {}) {} scattered ∧
    Painter.SetsDown (fun w => ImageSheet.painter w {}) {} scattered ∧
    (Painter.leavesAll (fun w => ImageSheet.painter w {}) {} scattered).rows = [[0], [1], [2]] ∧
    ∃ places, TextSheet.spots {} (Painter.leavesAll (fun _ => TextSheet.painter {}) {} scattered) =
      .ok places ∧ places.map (·.index) = [0, 1, 2] := by
  have hlayout : Flow.layout ⟨[{ name := "Home", transitions := [⟨"Away", "Go", ""⟩] },
      { name := "Away" }]⟩ Layout.usualPasses = ⟨[[0], [1]], [(0, 1)], [], false⟩ := by
    rw [Flow.layout_of_settled [] [[0], [1]]]
    all_goals decide +kernel
  have hstock : (ofTasks (scattered.map (·.2))).rows = [[0], [1], [2]] := by
    show Layout.rows (Flow.layout ⟨[_, _]⟩ Layout.usualPasses) 3 = _
    rw [hlayout]
    decide
  have htext : Painter.SetsDown (fun _ => TextSheet.painter {}) {} scattered :=
    ⟨fun _ => ⟨_, _, rfl⟩, fun _ => ⟨_, _, rfl⟩, fun _ => ⟨_, _, rfl⟩, fun _ => ⟨_, _, rfl⟩,
      fun _ => ⟨_, _, rfl⟩, nofun, nofun, trivial⟩
  have himage : Painter.SetsDown (fun w => ImageSheet.painter w {}) {} scattered :=
    ⟨fun _ => ⟨_, _, rfl⟩, fun _ => ⟨_, _, rfl⟩, fun _ => ⟨_, _, rfl⟩, fun _ => ⟨_, _, rfl⟩,
      fun _ => ⟨_, _, rfl⟩, nofun, nofun, trivial⟩
  obtain ⟨-, hplaced, hdrawn⟩ := rows_of_history scattered
  obtain ⟨-, -, places, hplaces, hindex, -⟩ := hplaced {} htext
  obtain ⟨-, hrows⟩ := hdrawn {} himage
  rw [hstock] at hindex hrows
  exact ⟨htext, himage, hrows, places, hplaces, hindex⟩

end Stock

end Storyboard
