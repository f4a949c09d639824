import Storyboard.Painter.ImageSheet
import Storyboard.Painter.TextSheet
import Storyboard.Proofs.FailedActs

/-!
# A used painter draws like a new one

A painter keeps its state from one rendering to the next, and it may have been
left in the middle of one: a font was missing, a card could not be written, a
connector led nowhere, or a picture could not be saved. None of this shows in
the next rendering, since starting leaves nothing of a sheet. Only the picture
painter keeps something over a start, namely its font if it cannot load one; but
then the rendering has failed before any font is needed.

## Main results

* `Deed`, `Painter.leaves` — what may have been done with a painter, and the
  state that it leaves.
* `Painter.render_eq_of_start_eq` — a rendering depends on what starting leaves.
* `TextSheet.render_eq`, `ImageSheet.render_eq` — renderings from two sheets.
* `Flow.render_forgets_history` — a rendering after any history.
-/

namespace Storyboard

/-! ## Histories -/

/-- What can be done with a painter: one task by itself, or a rendering. -/
inductive Deed (η : Type) where
  | task (task : Task η)
  | rendering (f : Flow)

namespace Painter

variable {σ η α : Type}

/-- The state that a deed leaves, whether it succeeds or fails. -/
def leaves (p : Painter σ η α) (s : σ) : Deed η → σ
  | .task task => ((p.perform task).run s).2
  | .rendering f => (p.render f s).state

theorem leaves_start (p : Painter σ η α) (s : σ) (f : Flow) :
    p.leaves s (.task (.start f)) = ((p.start f).run s).2 :=
  Act.run_bind_pure_snd (p.start f) (fun _ => []) s

theorem leaves_place (p : Painter σ η α) (s : σ) (screen : Screen) :
    p.leaves s (.task (.place screen)) = ((p.place screen).run s).2 :=
  Act.run_bind_pure_snd (p.place screen) (fun handle => [handle]) s

theorem leaves_connect (p : Painter σ η α) (s : σ) (w : Wire η) :
    p.leaves s (.task (.connect w)) = ((p.connect w.source w.target w.label).run s).2 :=
  Act.run_bind_pure_snd (p.connect w.source w.target w.label) (fun _ => []) s

theorem leaves_finish (p : Painter σ η α) (s : σ) :
    p.leaves s (.task .finish) = (p.finish.run s).2 :=
  Act.run_bind_pure_snd p.finish (fun _ => []) s

/-! ## Starting -/

variable {p : Painter σ η α} {f : Flow}

/-- A rendering takes from the state before it only what starting leaves. -/
theorem render_eq_of_start_eq {s t : σ} (h : (p.start f).run s = (p.start f).run t) :
    p.render f s = p.render f t := by
  have hstart : (tallied (p.start f)).run (s, {}) = (tallied (p.start f)).run (t, {}) := by
    show (((p.start f).run s).1, (((p.start f).run s).2, ({} : Tally))) =
      (((p.start f).run t).1, (((p.start f).run t).2, {}))
    rw [h]
  have hdraw : (p.draw f).run (s, {}) = (p.draw f).run (t, {}) := by
    cases hrun : (tallied (p.start f)).run (t, {}) with
    | mk outcome after =>
        rw [hrun] at hstart
        cases outcome with
        | error failure => rw [draw, Act.run_bind_error hstart, Act.run_bind_error hrun]
        | ok _ => rw [draw, Act.run_bind_ok hstart, Act.run_bind_ok hrun]
  rw [render, render, hdraw]

/-- If a painter cannot start, nothing has been done. -/
theorem render_of_start_error {s s' : σ} {failure : Failure}
    (h : (p.start f).run s = (.error failure, s')) :
    p.render f s = ⟨.error failure.toRenderFault, {}, s'⟩ := by
  have hstart : (tallied (p.start f)).run (s, {}) = (.error failure, (s', {})) := by
    show (((p.start f).run s).1, (((p.start f).run s).2, ({} : Tally))) = _
    rw [h]
  rw [render, draw, Act.run_bind_error hstart]

end Painter

/-! ## The two painters -/

/-- Starting clears a text sheet. -/
theorem TextSheet.render_eq (o : Options) (f : Flow) (before other : TextSheet) :
    (painter o).render f before = (painter o).render f other :=
  Painter.render_eq_of_start_eq rfl

/-- Starting clears a picture sheet but for a font that it cannot replace, and
then it fails. -/
theorem ImageSheet.render_eq (w : Workshop) (o : Options) (f : Flow) (before other : ImageSheet) :
    (painter w o).render f before =
      { (painter w o).render f other with
        state := { ((painter w o).render f other).state with
          font := ((painter w o).render f before).state.font } } := by
  cases hfont : loadFont w o with
  | error fault =>
      have hstart : ∀ sheet : ImageSheet, ((painter w o).start f).run sheet =
          (.error (.render fault), { font := sheet.font }) := by
        intro sheet
        show (start w o none f) sheet = _
        rw [start, ExceptT.mk, hfont]
      rw [Painter.render_of_start_error (hstart before),
        Painter.render_of_start_error (hstart other)]
  | ok font =>
      have hstart : ∀ sheet : ImageSheet, ((painter w o).start f).run sheet =
          (.ok (), { layout := f.layout Layout.usualPasses, font := some font }) := by
        intro sheet
        show (start w o none f) sheet = _
        rw [start, ExceptT.mk, hfont]
        rfl
      rw [Painter.render_eq_of_start_eq ((hstart before).trans (hstart other).symm)]

/-- A rendering forgets what its painter was used for. Whatever tasks and
renderings a painter of text has been through, and whether they succeeded or
failed, a rendering is the same as with a new painter. So it is with a painter
of pictures, in whatever workshops it was used before: the outcome is the same,
and so are the tally, the frames of the cards and the picture drawn. -/
theorem Flow.render_forgets_history (f : Flow) :
    (∀ (o : TextSheet.Options) (history : List (Deed Int)),
      (TextSheet.painter o).render f (history.foldl (TextSheet.painter o).leaves {}) =
        (TextSheet.painter o).render f {}) ∧
    ∀ (o : ImageSheet.Options) (w : Workshop) (history : List (Workshop × Deed Int)),
      let used := history.foldl (fun sheet e => (ImageSheet.painter e.1 o).leaves sheet e.2) {}
      let again := (ImageSheet.painter w o).render f used
      let fresh := (ImageSheet.painter w o).render f {}
      again.outcome = fresh.outcome ∧ again.tally = fresh.tally ∧
        again.state.frames = fresh.state.frames ∧ again.state.latest = fresh.state.latest := by
  refine ⟨fun o history => TextSheet.render_eq o f _ _, fun o w history => ?_⟩
  dsimp only
  rw [ImageSheet.render_eq w o f _ {}]
  exact ⟨rfl, rfl, rfl, rfl⟩

end Storyboard
