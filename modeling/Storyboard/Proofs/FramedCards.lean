import Storyboard.Proofs.CardRows
import Storyboard.Proofs.FrameRows

/-!
# Every card of a picture has one place

A picture sheet keeps the frames of its cards from one drawing to the next, and
each drawing puts new frames in the place of old ones. Between two drawings cards
may be added but none is taken away, unless the sheet is cleared by a start. So
there is never a frame without a card, and after a drawing there is one frame for
each card, whatever the painter was asked for before and whether it succeeded.

With sizes and spacings that are not negative, these frames keep their distances
and the margins, and no two of them overlap.

## Main results

* `ImageSheet.foldl_setFrame_perm` — new frames take the place of old ones.
* `ImageSheet.Coherent`, `ImageSheet.Coherent.step` — what every task keeps.
* `ImageSheet.frames_placed` — the places of cards after any history.
-/

namespace Storyboard.ImageSheet

/-! ## New frames for old ones -/

variable {frames entries : List (Nat × Frame)}

private theorem nodup_foldl_setFrame (h : (frames.map (·.1)).Nodup) (entries : List (Nat × Frame)) :
    ((entries.foldl setFrame frames).map (·.1)).Nodup :=
  List.foldlRecOn (motive := fun frames => (frames.map (·.1)).Nodup) entries setFrame h
    fun _ hframes _ _ => Sequence.nodup_keys_amend hframes

private theorem mem_foldl_setFrame {e : Nat × Frame} :
    ∀ frames : List (Nat × Frame), (frames.map (·.1)).Nodup → (entries.map (·.1)).Nodup →
      (e ∈ entries.foldl setFrame frames ↔
        e ∈ entries ∨ e ∈ frames ∧ e.1 ∉ entries.map (·.1)) := by
  induction entries with
  | nil =>
      intro frames _ _
      simp
  | cons entry rest ih =>
      intro frames hframes hentries
      rw [List.map_cons, List.nodup_cons] at hentries
      have hset : ((setFrame frames entry).map (·.1)).Nodup := Sequence.nodup_keys_amend hframes
      have hmem : e ∈ setFrame frames entry ↔ e = entry ∨ e ∈ frames ∧ e.1 ≠ entry.1 :=
        Sequence.mem_put_iff hframes
      rw [List.foldl_cons, ih _ hset hentries.2, hmem, List.mem_cons, List.map_cons,
        List.mem_cons, not_or]
      have hlater : e = entry → e.1 ∉ rest.map (·.1) := fun he => he ▸ hentries.1
      tauto

/-- If every card that had a frame gets a new one, the new frames are all there
are. -/
theorem foldl_setFrame_perm (hframes : (frames.map (·.1)).Nodup)
    (hentries : (entries.map (·.1)).Nodup) (hold : ∀ e ∈ frames, e.1 ∈ entries.map (·.1)) :
    (entries.foldl setFrame frames).Perm entries := by
  have hnodup : (entries.foldl setFrame frames).Nodup :=
    (nodup_foldl_setFrame hframes entries).of_map
  refine (List.perm_ext_iff_of_nodup hnodup hentries.of_map).2 fun e => ?_
  rw [mem_foldl_setFrame frames hframes hentries]
  constructor
  · rintro (hnew | ⟨he, hfree⟩)
    · exact hnew
    · exact absurd (hold e he) hfree
  · exact Or.inl

/-! ## What every task keeps -/

/-- What is kept on a picture sheet whatever its painter is asked for, and whether it
succeeds: the layout tells screens apart, each frame belongs to a card and no two to
the same, and there is a font once there are cards. -/
structure Coherent (sheet : ImageSheet) : Prop where
  layers : sheet.layout.layers.flatten.Nodup
  frames : (sheet.frames.map (·.1)).Nodup
  known : ∀ e ∈ sheet.frames, e.1 < sheet.cards.length
  font : sheet.cards ≠ [] → sheet.font.isSome = true

private theorem coherent_empty : Coherent {} where
  layers := List.nodup_nil
  frames := List.nodup_nil
  known := by simp
  font := by simp

variable {sheet : ImageSheet}

theorem Coherent.rows_perm (h : Coherent sheet) :
    sheet.rows.flatten.Perm (List.range sheet.cards.length) :=
  Layout.rows_perm h.layers sheet.cards.length

/-- A drawing leaves the frames of its cards, row by row, and no others. -/
theorem Coherent.framed (h : Coherent sheet) (o : Options) (sizes : List (Int × Int)) :
    ((framesFor o sizes sheet.rows).foldl setFrame sheet.frames).Perm
      (framesFor o sizes sheet.rows) := by
  have hrows := h.rows_perm
  refine foldl_setFrame_perm h.frames ?_ fun e he => ?_
  · rw [map_index_framesFor]
    exact hrows.nodup_iff.2 List.nodup_range
  · rw [map_index_framesFor, hrows.mem_iff]
    exact List.mem_range.2 (h.known e he)

private theorem Coherent.map_index_framed (h : Coherent sheet) (o : Options)
    (sizes : List (Int × Int)) :
    (((framesFor o sizes sheet.rows).foldl setFrame sheet.frames).map (·.1)).Perm
      (List.range sheet.cards.length) := by
  refine ((h.framed o sizes).map (·.1)).trans ?_
  rw [map_index_framesFor]
  exact h.rows_perm

theorem Coherent.step (w : Workshop) (o : Options) (task : Task Int) (h : Coherent sheet) :
    Coherent ((painter w o).leaves sheet (.task task)) := by
  cases task with
  | start f =>
      rw [Painter.leaves_start]
      rcases start_cases w o f sheet with ⟨fault, hfail⟩ | ⟨font, hstarted⟩
      · rw [hfail]
        exact { coherent_empty with font := by simp }
      · rw [hstarted]
        exact {
          layers := (f.layout_layers_perm Layout.usualPasses).nodup_iff.2 List.nodup_range
          frames := List.nodup_nil
          known := by simp
          font := by simp }
  | place screen =>
      rw [Painter.leaves_place]
      rcases place_cases w o screen sheet with
        ⟨fault, -, hfail⟩ | ⟨font, -, ⟨fault, -, hfail⟩ | ⟨card, -, hplaced⟩⟩
      · rw [hfail]
        exact h
      · rw [hfail]
        exact { layers := h.layers, frames := h.frames, known := h.known, font := by simp }
      · rw [hplaced]
        refine { layers := h.layers, frames := h.frames, known := fun e he => ?_, font := by simp }
        rw [List.length_append]
        exact Nat.lt_succ_of_lt (h.known e he)
  | connect wire =>
      rw [Painter.leaves_connect]
      exact { layers := h.layers, frames := h.frames, known := h.known, font := h.font }
  | finish =>
      obtain ⟨latest, hfinish⟩ := finish_leaves w o sheet
      rw [Painter.leaves_finish, hfinish]
      refine { layers := h.layers, frames := ?_, known := ?_, font := h.font }
      all_goals unfold framesAfter
      all_goals split
      · exact h.frames
      · exact nodup_foldl_setFrame h.frames _
      · exact h.known
      · intro e he
        have hindex := (h.map_index_framed o _).mem_iff.1 (List.mem_map.2 ⟨e, he, rfl⟩)
        exact List.mem_range.1 hindex

/-- Whatever a painter of pictures was asked for, its sheet is coherent. -/
theorem coherent_of_history (o : Options) (history : List (Workshop × Task Int)) :
    Coherent (Painter.leavesAll (fun w => painter w o) {} history) :=
  Painter.leavesAll_keeps (fun e _ _ h => h.step e.1 o e.2) coherent_empty

/-! ## Places after any history -/

/-- Cards are placed after any history: whatever a painter of pictures was asked
for, if there are cards then a drawing gives each of them one box of its size. The
boxes stand in rows, those of the layers of the flow started on last and one more for
cards that it does not have, and the rows stand in the picture as `Placement` says:
gaps between cards and between rows, a margin on all four sides, every row centred
to the pixel, and no pixel in two boxes. -/
theorem frames_placed (o : Options) (history : List (Workshop × Task Int))
    (sizes : List (Int × Int)) (hscale : 0 ≤ o.scale) (hacross : 0 ≤ o.horizontalSpacing)
    (hdown : 0 ≤ o.verticalSpacing) (hsizes : ∀ size ∈ sizes, 0 ≤ size.1 ∧ 0 ≤ size.2) :
    let sheet := Painter.leavesAll (fun w => painter w o) {} history
    let frames := (framesFor o sizes sheet.rows).foldl setFrame sheet.frames
    sheet.cards ≠ [] → sizes.length = sheet.cards.length →
      (frames.map (·.1)).Perm (List.range sizes.length) ∧
      ∃ layers, frames.Perm layers.flatten ∧ layers.map (·.map (·.1)) = sheet.rows ∧
        Layout.Arranged sheet.layout.layers sizes.length sheet.rows ∧
        Placement o sizes (pictureSize o sizes sheet.rows).1 (pictureSize o sizes sheet.rows).2
          layers := by
  intro sheet frames hcards hlength
  have hcoherent : Coherent sheet := coherent_of_history o history
  have harranged : Layout.Arranged sheet.layout.layers sheet.cards.length sheet.rows :=
    Layout.rows_arranged hcoherent.layers sheet.cards.length
  have hrows : sheet.rows ≠ [] := by
    intro hnone
    have hempty := harranged.perm.length_eq
    rw [hnone, List.length_range] at hempty
    exact hcards (List.length_eq_zero_iff.1 hempty.symm)
  have hrange : ∀ i ∈ sheet.rows.flatten, i < sizes.length := by
    intro i hi
    rw [hlength]
    exact List.mem_range.1 (harranged.perm.mem_iff.1 hi)
  refine ⟨hlength ▸ hcoherent.map_index_framed o sizes,
    frameLayers o sizes (widest o sizes sheet.rows) (o.margin * o.scale) sheet.rows, ?_,
    map_index_frameLayers _ _ _, hlength ▸ harranged,
    frameLayers_placement hscale hacross hdown hsizes hrows harranged.ne_nil hrange⟩
  rw [flatten_frameLayers]
  exact hcoherent.framed o sizes

/-- Two of three screens share a layer. -/
def forked : Flow where
  screens :=
    [{ name := "Home", transitions := [⟨"Left", "", ""⟩, ⟨"Right", "", ""⟩] },
     { name := "Left" }, { name := "Right" }]

/-- A picture is drawn, and then one more screen is placed than the flow has. -/
def crowded : List (Workshop × Task Int) :=
  [.start forked, .place { name := "Home" }, .place { name := "Left" },
   .place { name := "Right" }, .finish,
   .place { name := "Late" }].map fun task => (Stock.plainShop, task)

/-- Small spacings. -/
def tight : Options where
  scale := 1
  horizontalSpacing := 3
  verticalSpacing := 2
  margin := 2

theorem crowded_frames_placed :
    (Painter.leavesAll (fun w => painter w tight) {} crowded).frames.length = 3 ∧
    (Painter.leavesAll (fun w => painter w tight) {} crowded).rows = [[0], [1, 2], [3]] ∧
    ∃ layers, layers.map (·.map (·.1)) = [[0], [1, 2], [3]] ∧
      Placement tight [(8, 5), (4, 2), (6, 3), (3, 3)] 17 19 layers := by
  have hlayout : forked.layout Layout.usualPasses =
      ⟨[[0], [1, 2]], [(0, 1), (0, 2)], [], false⟩ := by
    rw [Flow.layout_of_settled [] [[0], [1, 2]]]
    all_goals decide +kernel
  have hstart : Painter.leavesAll (fun w => painter w tight) {} crowded =
      Painter.leavesAll (fun w => painter w tight)
        { layout := forked.layout Layout.usualPasses, font := some ⟨none, 12⟩ }
        crowded.tail := rfl
  rw [hlayout] at hstart
  have hframes : (Painter.leavesAll (fun w => painter w tight) {} crowded).frames.length = 3 := by
    rw [hstart]
    decide +kernel
  have hrows : (Painter.leavesAll (fun w => painter w tight) {} crowded).rows =
      [[0], [1, 2], [3]] := by
    rw [hstart]
    decide +kernel
  have hcards : (Painter.leavesAll (fun w => painter w tight) {} crowded).cards.length = 4 := by
    rw [hstart]
    decide +kernel
  obtain ⟨-, layers, -, hindex, -, hplacement⟩ := frames_placed tight crowded
    [(8, 5), (4, 2), (6, 3), (3, 3)] (by decide) (by decide) (by decide) (by decide)
    (List.ne_nil_of_length_pos (by rw [hcards]; decide)) hcards.symm
  rw [hrows] at hindex hplacement
  exact ⟨hframes, hrows, layers, hindex, hplacement⟩

end Storyboard.ImageSheet
