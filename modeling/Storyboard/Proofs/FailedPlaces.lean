import Storyboard.Proofs.FramedCards

/-!
# What a failed place leaves

Placing fails if a screen has no card, because a section break of it counts back
beyond its first component, or if a font is needed and cannot be loaded. A painter
of pictures makes the card before it takes anything down, so a failed place leaves
nothing but a font, and all that follows goes as if the screen had never been
offered.

A painter of text takes down the name first. If then there is no card, the name
stays without a box, and from there on names and boxes are out of step: handles
count the stray name, and no diagram can be finished until the next start.

## Main results

* `TextSheet.place_cases` — what placing leaves on a text sheet.
* `TextSheet.Counted.step`, `TextSheet.Stray.step` — what every task keeps, and what
  every task but a start does.
* `TextSheet.finish_of_stray` — a stray name spoils the diagram.
* `ImageSheet.Alike`, `ImageSheet.Alike.step` — sheets that differ in a font that is
  as good as loaded.
* `Painter.failed_place_leaves` — failed places after any history.
-/

namespace Storyboard

/-! ## Text sheets -/

namespace TextSheet

variable {o : Options} {sheet : TextSheet}

/-- Placing takes down the name, and fails if there is no card or else adds its box. -/
theorem place_cases (o : Options) (screen : Screen) (sheet : TextSheet) :
    (∃ fault, screen.card = .error fault ∧ ((painter o).place screen).run sheet =
      (.error (.plain fault), { sheet with names := sheet.names ++ [screen.name] })) ∨
    ∃ card, screen.card = .ok card ∧ ((painter o).place screen).run sheet =
      (.ok (sheet.names.length : Int),
        { sheet with
          names := sheet.names ++ [screen.name]
          boxes := sheet.boxes ++ [Box.measure o.boxStyle card] }) := by
  cases hcard : screen.card with
  | error fault => exact Or.inl ⟨fault, rfl, place_run_error hcard sheet⟩
  | ok card => exact Or.inr ⟨card, rfl, place_run hcard sheet⟩

/-- A handle counts the names that are there. -/
theorem handle_of_place {screen : Screen} {handle : Int} {placed : TextSheet}
    (h : ((painter o).place screen).run sheet = (.ok handle, placed)) :
    handle = sheet.names.length := by
  obtain ⟨card, hcard⟩ := exists_card_of_place h
  rw [place_run hcard] at h
  cases h
  rfl

/-- What is kept on a text sheet whatever its painter is asked for, and whether it
succeeds: the layout tells screens apart, and each box has a name. -/
structure Counted (sheet : TextSheet) : Prop where
  layers : sheet.layout.layers.flatten.Nodup
  boxes : sheet.boxes.length ≤ sheet.names.length

/-- A sheet that has a name without a box. -/
structure Stray (sheet : TextSheet) : Prop extends Counted sheet where
  stray : sheet.boxes.length < sheet.names.length

private theorem Counted.stray_of_name (h : Counted sheet) (name : String) :
    Stray { sheet with names := sheet.names ++ [name] } := by
  have hmore : sheet.boxes.length < (sheet.names ++ [name]).length := by
    rw [List.length_append]
    exact Nat.lt_succ_of_le h.boxes
  exact ⟨⟨h.layers, Nat.le_of_lt hmore⟩, hmore⟩

theorem Counted.step (o : Options) (task : Task Int) (h : Counted sheet) :
    Counted ((painter o).leaves sheet (.task task)) := by
  cases task with
  | start f =>
      exact ⟨(f.layout_layers_perm Layout.usualPasses).nodup_iff.2 List.nodup_range, Nat.le_refl 0⟩
  | place screen =>
      rw [Painter.leaves_place]
      rcases place_cases o screen sheet with ⟨fault, -, hfail⟩ | ⟨card, -, hplaced⟩
      · rw [hfail]
        exact (h.stray_of_name screen.name).toCounted
      · rw [hplaced]
        exact ⟨h.layers, by simp [h.boxes]⟩
  | connect wire => exact ⟨h.layers, h.boxes⟩
  | finish =>
      rw [Painter.leaves_finish]
      exact h

/-- Whatever a painter of text was asked for, its sheet has a name for each box. -/
theorem counted_of_history (o : Options) (history : List (Workshop × Task Int)) :
    Counted (Painter.leavesAll (fun _ => painter o) {} history) :=
  Painter.leavesAll_keeps (fun e _ _ h => h.step o e.2) ⟨List.nodup_nil, Nat.le_refl 0⟩

/-- Only a start clears away a stray name. -/
theorem Stray.step (o : Options) {task : Task Int} (hstart : ∀ f, task ≠ .start f)
    (h : Stray sheet) : Stray ((painter o).leaves sheet (.task task)) := by
  cases task with
  | start f => exact absurd rfl (hstart f)
  | place screen =>
      rw [Painter.leaves_place]
      rcases place_cases o screen sheet with ⟨fault, -, hfail⟩ | ⟨card, -, hplaced⟩
      · rw [hfail]
        exact h.stray_of_name screen.name
      · rw [hplaced]
        exact ⟨⟨h.layers, by simp [h.boxes]⟩, by simp [h.stray]⟩
  | connect wire => exact ⟨⟨h.layers, h.boxes⟩, h.stray⟩
  | finish =>
      rw [Painter.leaves_finish]
      exact h

/-! ### Cards without a box -/

theorem placeRow_of_missing {boxes : List Box} {row : List Nat} :
    ∀ x y : Int, (∃ i ∈ row, boxes.length ≤ i) →
      placeRow o boxes x y row = .error .cardOutOfRange := by
  induction row with
  | nil =>
      rintro x y ⟨i, hi, -⟩
      cases hi
  | cons j row ih =>
      rintro x y ⟨i, hi, hmissing⟩
      rw [placeRow]
      cases hbox : boxes[j]? with
      | none => rfl
      | some box =>
          obtain ⟨hj, -⟩ := List.getElem?_eq_some_iff.1 hbox
          have hrest : i ∈ row := (List.mem_cons.1 hi).resolve_left (by omega)
          dsimp only
          rw [ih _ y ⟨i, hrest, hmissing⟩]
          rfl

private theorem placeRows_of_missing {boxes : List Box} {rows : List (List Nat)} :
    ∀ y : Int, (∃ i ∈ rows.flatten, boxes.length ≤ i) →
      placeRows o boxes y rows = .error .cardOutOfRange := by
  induction rows with
  | nil =>
      rintro y ⟨i, hi, -⟩
      cases hi
  | cons row rows ih =>
      rintro y ⟨i, hi, hmissing⟩
      rw [placeRows]
      by_cases hrow : ∃ j ∈ row, boxes.length ≤ j
      · rw [placeRow_of_missing 0 y hrow]
      · push Not at hrow
        obtain ⟨places, hplaces, -⟩ := exists_placeRow o boxes row 0 y hrow
        have hrest : i ∈ rows.flatten := by
          rw [List.flatten_cons, List.mem_append] at hi
          exact hi.resolve_left fun hi => absurd (hrow i hi) (by omega)
        rw [hplaces]
        dsimp only
        rw [ih _ ⟨i, hrest, hmissing⟩]
        rfl

/-- A stray name spoils the diagram: there is a card for it in the rows, and no
box. -/
theorem finish_of_stray (o : Options) (h : Stray sheet) :
    (painter o).finish.run sheet = (.error (.plain .cardOutOfRange), sheet) := by
  have hrows := Layout.rows_perm h.layers sheet.names.length
  have hspots : spots o sheet = .error .cardOutOfRange :=
    placeRows_of_missing 0 ⟨sheet.boxes.length,
      hrows.mem_iff.2 (List.mem_range.2 h.stray), Nat.le_refl _⟩
  have hnames : sheet.names ≠ [] := List.ne_nil_of_length_pos (by have := h.stray; omega)
  have hdiagram : diagram o sheet = .error .cardOutOfRange := by
    rw [diagram, if_neg hnames, cardBlock, hspots]
    rfl
  rw [finish_run, hdiagram]
  rfl

end TextSheet

/-! ## Picture sheets -/

namespace ImageSheet

variable {w : Workshop} {o : Options} {sheet other : ImageSheet} {font : Except RenderFault Font}

/-- Without cards nothing is written, so the font makes no difference to a drawing. -/
theorem finish_run_font (w : Workshop) (o : Options) (hcards : sheet.cards = [])
    (font : Option Font) :
    (painter w o).finish.run { sheet with font := font } =
      (((painter w o).finish.run sheet).1,
        { ((painter w o).finish.run sheet).2 with font := font }) := by
  have hact : ∀ s : ImageSheet, (painter w o).finish.run s = (finish w o) s := fun _ => rfl
  have hdraw : drawPicture w o { sheet with font := font } =
      ((drawPicture w o sheet).1, { (drawPicture w o sheet).2 with font := font }) := by
    rw [drawPicture, drawPicture, if_pos hcards, if_pos hcards, drawOn, drawOn]
    split
    · rfl
    · rfl
  rw [hact, hact, finish, ExceptT.mk]
  dsimp only
  rw [hdraw]
  cases drawPicture w o sheet with
  | mk outcome drawn =>
      cases outcome with
      | error fault => rfl
      | ok picture =>
          dsimp only
          split
          · rfl
          · split
            · rfl
            · rfl

/-- Two sheets that are the same, but for a font that the second has loaded before
there are any cards, and that the first would still load. -/
def Alike (font : Except RenderFault Font) (sheet other : ImageSheet) : Prop :=
  other = sheet ∨ sheet.cards = [] ∧ sheet.font = none ∧
    ∃ loaded, font = .ok loaded ∧ other = { sheet with font := some loaded }

private theorem Alike.eq_but_font (h : Alike font sheet other) :
    other = { sheet with font := other.font } := by
  rcases h with rfl | ⟨-, -, loaded, -, rfl⟩
  · rfl
  · rfl

theorem Alike.step (hfont : loadFont w o = font) (task : Task Int)
    (h : Alike font sheet other) :
    Alike font ((painter w o).leaves sheet (.task task))
      ((painter w o).leaves other (.task task)) := by
  rcases h with rfl | ⟨hcards, hnone, loaded, hloaded, rfl⟩
  · exact Or.inl rfl
  have hload : loadFont w o = .ok loaded := hfont.trans hloaded
  -- a start or a place makes sure of the font, and from there on the sheets are the same
  cases task with
  | start f =>
      left
      rw [Painter.leaves_start, Painter.leaves_start]
      show ((start w o none f) _).2 = ((start w o none f) _).2
      rw [start, ExceptT.mk, hload]
  | place screen =>
      left
      have hready : fontFor w o sheet = .ok loaded := by
        rw [fontFor, hnone]
        exact hload
      rw [Painter.leaves_place, Painter.leaves_place]
      show ((place w o screen) _).2 = ((place w o screen) _).2
      rw [place, ExceptT.mk]
      dsimp only
      rw [hready]
      rfl
  | connect wire => exact Or.inr ⟨hcards, hnone, loaded, hloaded, rfl⟩
  | finish =>
      obtain ⟨latest, hfinish⟩ := finish_leaves w o sheet
      right
      rw [Painter.leaves_finish, Painter.leaves_finish, finish_run_font w o hcards (some loaded),
        hfinish]
      exact ⟨hcards, hnone, loaded, hloaded, rfl⟩

theorem Alike.leavesAll {later : List (Workshop × Task Int)}
    (hfont : ∀ e ∈ later, loadFont e.1 o = font) :
    ∀ {sheet other : ImageSheet}, Alike font sheet other →
      Alike font (Painter.leavesAll (fun w => painter w o) sheet later)
        (Painter.leavesAll (fun w => painter w o) other later) := by
  induction later with
  | nil =>
      intro sheet other h
      exact h
  | cons e later ih =>
      intro sheet other h
      exact ih (fun d hd => hfont d (List.mem_cons_of_mem e hd))
        (h.step (hfont e List.mem_cons_self) e.2)

/-- Alike sheets give the same picture, or fail alike. -/
theorem Alike.finish (h : Alike font sheet other) (w : Workshop) (o : Options) :
    ((painter w o).finish.run other).1 = ((painter w o).finish.run sheet).1 := by
  rcases h with rfl | ⟨hcards, -, loaded, -, rfl⟩
  · rfl
  · rw [finish_run_font w o hcards]

/-- A failed place leaves a sheet like the one before. -/
theorem Coherent.alike_of_place_error (h : Coherent sheet) {screen : Screen} {failure : Failure}
    (hfail : ((painter w o).place screen).run sheet = (.error failure, other)) :
    Alike (loadFont w o) sheet other := by
  rcases place_cases w o screen sheet with
    ⟨fault, -, hunloaded⟩ | ⟨font, hfont, ⟨fault, -, hcardless⟩ | ⟨card, -, hplaced⟩⟩
  · rw [hunloaded] at hfail
    cases hfail
    exact Or.inl rfl
  · rw [hcardless] at hfail
    cases hfail
    cases hhad : sheet.font with
    | none =>
        rw [fontFor, hhad] at hfont
        refine Or.inr ⟨by_contra fun hcards => ?_, hhad, font, hfont, rfl⟩
        have hsome := h.font hcards
        rw [hhad] at hsome
        cases hsome
    | some had =>
        rw [fontFor, hhad] at hfont
        cases hfont
        left
        rw [← hhad]
  · rw [hplaced] at hfail
    cases hfail

end ImageSheet

/-! ## Failed places after any history -/

/-- What a failed place leaves after any history, whichever of its tasks failed. On a
picture sheet it leaves all as it was but for a font: the next handle is the one that
was free, and whatever is asked for later, as long as the same font can be loaded, a
picture is finished as if the place had never been tried. On a text sheet it leaves
the name of the screen: the next handle skips a number, and whatever is asked for
later, no diagram can be finished before another start. -/
theorem Painter.failed_place_leaves (history : List (Workshop × Task Int)) (screen : Screen)
    (failure : Failure) :
    (∀ (o : ImageSheet.Options) (w : Workshop) (after : ImageSheet),
      let sheet := leavesAll (fun w => ImageSheet.painter w o) {} history
      ((ImageSheet.painter w o).place screen).run sheet = (.error failure, after) →
        after = { sheet with font := after.font } ∧
        (∀ w' next handle placed,
          ((ImageSheet.painter w' o).place next).run after = (.ok handle, placed) →
            handle = sheet.cards.length) ∧
        ∀ later : List (Workshop × Task Int),
          (∀ e ∈ later, ImageSheet.loadFont e.1 o = ImageSheet.loadFont w o) → ∀ w',
            ((ImageSheet.painter w' o).finish.run
              (leavesAll (fun w => ImageSheet.painter w o) after later)).1 =
            ((ImageSheet.painter w' o).finish.run
              (leavesAll (fun w => ImageSheet.painter w o) sheet later)).1) ∧
    ∀ (o : TextSheet.Options) (after : TextSheet),
      let sheet := leavesAll (fun _ => TextSheet.painter o) {} history
      ((TextSheet.painter o).place screen).run sheet = (.error failure, after) →
        after = { sheet with names := sheet.names ++ [screen.name] } ∧
        (∀ next handle placed,
          ((TextSheet.painter o).place next).run after = (.ok handle, placed) →
            handle = sheet.names.length + 1) ∧
        ∀ later : List (Workshop × Task Int), (∀ e ∈ later, ∀ f, e.2 ≠ .start f) →
          ((TextSheet.painter o).finish.run
            (leavesAll (fun _ => TextSheet.painter o) after later)).1 =
              .error (.plain .cardOutOfRange) := by
  refine ⟨fun o w after => ?_, fun o after => ?_⟩
  · intro sheet hfail
    have halike : ImageSheet.Alike (ImageSheet.loadFont w o) sheet after :=
      (ImageSheet.coherent_of_history o history).alike_of_place_error hfail
    refine ⟨halike.eq_but_font, fun w' next handle placed hnext => ?_, fun later hlater w' => ?_⟩
    · rw [(ImageSheet.place_ok hnext).1, halike.eq_but_font]
    · exact (halike.leavesAll hlater).finish w' o
  · intro sheet hfail
    have hcounted : TextSheet.Counted sheet := TextSheet.counted_of_history o history
    rcases TextSheet.place_cases o screen sheet with ⟨fault, -, hnamed⟩ | ⟨card, -, hplaced⟩
    · rw [hnamed] at hfail
      cases hfail
      refine ⟨rfl, fun next handle placed hnext => ?_, fun later hlater => ?_⟩
      · rw [TextSheet.handle_of_place hnext, List.length_append]
        rfl
      · have hstray : TextSheet.Stray (leavesAll (fun _ => TextSheet.painter o)
            { sheet with names := sheet.names ++ [screen.name] } later) :=
          leavesAll_keeps (fun e he _ h => h.step o (hlater e he))
            (hcounted.stray_of_name screen.name)
        rw [TextSheet.finish_of_stray o hstray]
    · rw [hplaced] at hfail
      cases hfail

/-- A section break counts back further than there are components. -/
def broken : Screen where
  name := "Broken"
  components := [⟨.action, "go"⟩]
  sections := [-3]

/-- Before anything is started or placed, a connector is taken down, and a diagram is
asked for. -/
def hasty : List (Workshop × Task Int) :=
  [.connect ⟨1, 0, "back"⟩, .finish].map fun task => (Stock.plainShop, task)

/-- Two screens, and one that fails between them. -/
def resumed : List (Workshop × Task Int) :=
  [.place { name := "Home" }, .place broken, .place { name := "Away" }].map
    fun task => (Stock.plainShop, task)

theorem hasty_failed_place_leaves :
    (∃ after, ((ImageSheet.painter Stock.plainShop {}).place broken).run
        (Painter.leavesAll (fun w => ImageSheet.painter w {}) {} hasty) =
          (.error (.plain .componentOutOfRange), after) ∧
      after.font.isSome = true ∧ after.cards = [] ∧ after.connectors = [⟨1, 0, "back"⟩] ∧
      ((ImageSheet.painter Stock.plainShop {}).finish.run
        (Painter.leavesAll (fun w => ImageSheet.painter w {}) after resumed)).1 =
      ((ImageSheet.painter Stock.plainShop {}).finish.run
        (Painter.leavesAll (fun w => ImageSheet.painter w {}) {} (hasty ++ resumed))).1) ∧
    ∃ after, ((TextSheet.painter {}).place broken).run
        (Painter.leavesAll (fun _ => TextSheet.painter {}) {} hasty) =
          (.error (.plain .componentOutOfRange), after) ∧
      after.names = ["Broken"] ∧
      ((TextSheet.painter {}).finish.run
        (Painter.leavesAll (fun _ => TextSheet.painter {}) after resumed)).1 =
          .error (.plain .cardOutOfRange) := by
  obtain ⟨hpictures, htexts⟩ :=
    Painter.failed_place_leaves hasty broken (.plain .componentOutOfRange)
  refine ⟨⟨_, rfl, rfl, rfl, rfl, ?_⟩, _, rfl, rfl, ?_⟩
  · obtain ⟨-, -, hlater⟩ := hpictures {} Stock.plainShop _ rfl
    exact hlater resumed (by simp [resumed]) Stock.plainShop
  · obtain ⟨-, -, hlater⟩ := htexts {} _ rfl
    exact hlater resumed (by simp [resumed])

/-- A failed place of a painter of text is seen later: a screen placed after it gets
the handle 1, and there is no diagram, though on a new sheet the screen gets the handle
0 and is drawn. -/
theorem broken_place_lasts :
    ∃ named placed fresh,
      ((TextSheet.painter {}).place broken).run {} =
        (.error (.plain .componentOutOfRange), named) ∧ named ≠ {} ∧
      ((TextSheet.painter {}).place { name := "Home" }).run named = (.ok 1, placed) ∧
      (TextSheet.painter {}).finish.run placed = (.error (.plain .cardOutOfRange), placed) ∧
      ((TextSheet.painter {}).place { name := "Home" }).run {} = (.ok 0, fresh) ∧
      (TextSheet.painter {}).finish.run fresh =
        (.ok "┌────────┐\n│ [Home] │░\n└────────┘░\n ░░░░░░░░░░", fresh) := by
  have hdiagram : TextSheet.diagram {}
      { names := ["Home"], boxes := [Box.measure (TextSheet.Options.boxStyle {}) ["[Home]"]] } =
        .ok "┌────────┐\n│ [Home] │░\n└────────┘░\n ░░░░░░░░░░" := by decide +kernel
  have hfinish := TextSheet.finish_run {}
    { names := ["Home"], boxes := [Box.measure (TextSheet.Options.boxStyle {}) ["[Home]"]] }
  rw [hdiagram] at hfinish
  exact ⟨_, _, _, rfl, by decide, rfl, rfl, rfl, hfinish⟩

end Storyboard
