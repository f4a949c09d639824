import Storyboard.Proofs.BoxDrawing

/-!
# The cells of a box

Which character stands where on a box is said here cell by cell, in the order in
which one reads a box and not in the order in which it is drawn: the lines across
it, the sides and the text of each row, and the shadow. A cell that nothing is
said of is left as it was, so that a box shows what lies behind it wherever it
has no character of its own.

The columns and lines of a box are counted from its top left corner. The box may
stand anywhere; what falls outside the grid is not drawn.

## Main results

* `Box.OnEdge`, `Box.Paints` — the characters of a box.
* `Box.paints_iff` — they are its ink.
* `Canvas.drawBox_cells` — a canvas after a box was drawn on it.
-/

namespace Storyboard

namespace Box

/-! ## The characters of a box -/

/-- The characters of a line across a box of width `w`: one at either end and
strokes between. -/
inductive OnEdge (w : Int) (left right : Char) : Int → Char → Prop
  | left : OnEdge w left right 0 left
  | right : OnEdge w left right (w - 1) right
  | between {i : Int} : 0 < i → i < w - 1 → OnEdge w left right i '─'

/-- The characters of a box, by column and line. -/
inductive Paints (b : Box) (shadow : Bool) : Int → Int → Char → Prop
  | top {i : Int} {ch : Char} : OnEdge b.width '┌' '┐' i ch → Paints b shadow i 0 ch
  | bottom {i : Int} {ch : Char} :
    OnEdge b.width '└' '┘' i ch → Paints b shadow i (b.height - 1) ch
  | rule {r : Nat} {row : Row} {i : Int} {ch : Char} :
    b.rows[r]? = some row → row.isRule = true → OnEdge b.width '├' '┤' i ch →
      Paints b shadow i (r + 1 : Nat) ch
  | leftSide {r : Nat} {row : Row} :
    b.rows[r]? = some row → row.isRule = false → Paints b shadow 0 (r + 1 : Nat) '│'
  | rightSide {r : Nat} {row : Row} :
    b.rows[r]? = some row → row.isRule = false → Paints b shadow (b.width - 1) (r + 1 : Nat) '│'
  | text {r : Nat} {row : Row} {k : Nat} {ch : Char} :
    b.rows[r]? = some row → row.isRule = false → row.text.toList[k]? = some ch →
      Paints b shadow (1 + b.padding + k) (r + 1 : Nat) ch
  | shadowBeside {j : Int} :
    shadow = true → 1 ≤ j → j ≤ b.height - 1 → Paints b shadow b.width j '░'
  | shadowBelow {i : Int} :
    shadow = true → 1 ≤ i → i ≤ b.width → Paints b shadow i b.height '░'

theorem edgeInk_eq_some_iff {w i : Int} {left right ch : Char} (hw : 2 ≤ w) :
    edgeInk w left right i = some ch ↔ OnEdge w left right i ch := by
  constructor
  · intro h
    unfold edgeInk at h
    split at h
    · rename_i hi
      subst hi
      cases h
      exact .left
    · split at h
      · rename_i hi
        subst hi
        cases h
        exact .right
      · split at h
        · rename_i hi
          cases h
          exact .between hi.1 hi.2
        · cases h
  · intro h
    cases h with
    | left => simp [edgeInk]
    | right => rw [edgeInk, if_neg (by omega), if_pos rfl]
    | between hleft hright =>
        rw [edgeInk, if_neg (by omega), if_neg (by omega), if_pos ⟨hleft, hright⟩]

/-- The characters of a row of text. -/
theorem Row.ink_eq_some {row : Row} (hrule : row.isRule = false) {w padding i : Int} {ch : Char}
    (h : row.ink w padding i = some ch) :
    ((i = 0 ∨ i = w - 1) ∧ ch = '│') ∨
      ∃ k : Nat, row.text.toList[k]? = some ch ∧ i = 1 + padding + k := by
  rw [Row.ink, if_neg (by simp [hrule])] at h
  split at h
  · rename_i hside
    exact Or.inl ⟨hside, (Option.some.inj h).symm⟩
  · split at h
    · exact Or.inr ⟨(i - 1 - padding).toNat, h, by omega⟩
    · cases h

section

variable {b : Box} {shadow : Bool} {i j : Int} {ch : Char}

theorem ink_of_cardInk (h : b.cardInk i j = some ch) : b.ink shadow i j = some ch := by
  rw [ink, h]
  rfl

private theorem ink_of_onShadow (hb : b.Fits) (h : b.OnShadow i j) : b.ink true i j = some '░' := by
  rw [ink, cardInk_eq_none hb h, if_pos ⟨rfl, h⟩]
  rfl

/-- A character of a text has its place between the sides. -/
theorem Fits.text_between (hb : b.Fits) {r : Nat} {row : Row} (hr : b.rows[r]? = some row)
    (hrule : row.isRule = false) {k : Nat} (hk : k < row.text.length) :
    0 < 1 + b.padding + k ∧ 1 + b.padding + k < b.width - 1 := by
  have hpad := hb.padding
  have htext := hb.text row (List.mem_of_getElem? hr) hrule
  omega

/-- The characters of a box are in its ink. -/
theorem Paints.ink_eq (hb : b.Fits) (h : b.Paints shadow i j ch) : b.ink shadow i j = some ch := by
  have hpad := hb.padding
  have hwidth := hb.width
  have hheight := hb.height
  cases h with
  | top hedge =>
      apply ink_of_cardInk
      rw [cardInk, if_pos rfl]
      exact (edgeInk_eq_some_iff (by omega)).2 hedge
  | bottom hedge =>
      apply ink_of_cardInk
      rw [cardInk, if_neg (by omega), if_pos rfl]
      exact (edgeInk_eq_some_iff (by omega)).2 hedge
  | rule hr hrule hedge =>
      apply ink_of_cardInk
      rw [cardInk_row hb hr, Row.ink, if_pos hrule]
      exact (edgeInk_eq_some_iff (by omega)).2 hedge
  | leftSide hr hrule =>
      apply ink_of_cardInk
      rw [cardInk_row hb hr, Row.ink, if_neg (by simp [hrule]), if_pos (Or.inl rfl)]
  | rightSide hr hrule =>
      apply ink_of_cardInk
      rw [cardInk_row hb hr, Row.ink, if_neg (by simp [hrule]), if_pos (Or.inr rfl)]
  | @text r row k ch hr hrule hch =>
      have hk : k < row.text.length := by
        rw [← String.length_toList]
        exact (List.getElem?_eq_some_iff.1 hch).1
      have hbetween := hb.text_between hr hrule hk
      apply ink_of_cardInk
      rw [cardInk_row hb hr, Row.ink, if_neg (by simp [hrule]), if_neg (by omega),
        if_pos (by omega), show (1 + b.padding + k - 1 - b.padding).toNat = k by omega]
      exact hch
  | shadowBeside hshadow hlow hhigh =>
      subst hshadow
      exact ink_of_onShadow hb (Or.inl ⟨rfl, hlow, hhigh⟩)
  | shadowBelow hshadow hlow hhigh =>
      subst hshadow
      exact ink_of_onShadow hb (Or.inr ⟨rfl, hlow, hhigh⟩)

/-- The ink of the rows is that of their characters. -/
theorem Paints.of_rowInk (hb : b.Fits) (h : b.rowInk i j = some ch) : b.Paints shadow i j ch := by
  have hpad := hb.padding
  have hwidth := hb.width
  unfold rowInk at h
  split at h
  · rename_i hj
    obtain ⟨row, hr, hink⟩ := Option.bind_eq_some_iff.1 h
    have hline : j = ((j - 1).toNat + 1 : Nat) := by omega
    rw [hline]
    cases hrule : row.isRule with
    | true =>
        rw [Row.ink, if_pos hrule] at hink
        exact .rule hr hrule ((edgeInk_eq_some_iff (by omega)).1 hink)
    | false =>
        rcases Row.ink_eq_some hrule hink with ⟨hside, rfl⟩ | ⟨k, hk, rfl⟩
        · rcases hside with rfl | rfl
          · exact .leftSide hr hrule
          · exact .rightSide hr hrule
        · exact .text hr hrule hk
  · cases h

/-- The ink of a box is that of its characters. -/
theorem Paints.of_ink (hb : b.Fits) (h : b.ink shadow i j = some ch) : b.Paints shadow i j ch := by
  have hpad := hb.padding
  have hwidth := hb.width
  rcases Option.or_eq_some_iff.1 h with hcard | ⟨-, hshade⟩
  · unfold cardInk at hcard
    split at hcard
    · rename_i hj
      subst hj
      exact .top ((edgeInk_eq_some_iff (by omega)).1 hcard)
    · split at hcard
      · rename_i hj
        subst hj
        exact .bottom ((edgeInk_eq_some_iff (by omega)).1 hcard)
      · exact .of_rowInk hb hcard
  · split at hshade
    · rename_i hon
      cases hshade
      rcases hon with ⟨hshadow, ⟨rfl, hlow, hhigh⟩ | ⟨rfl, hlow, hhigh⟩⟩
      · exact .shadowBeside hshadow hlow hhigh
      · exact .shadowBelow hshadow hlow hhigh
    · cases hshade

theorem paints_iff (hb : b.Fits) : b.Paints shadow i j ch ↔ b.ink shadow i j = some ch :=
  ⟨Paints.ink_eq hb, Paints.of_ink hb⟩

/-! ## Cells without a character -/

/-- Nothing is drawn outside the card and the shadow. -/
theorem not_paints_outside (hb : b.Fits) (hcard : i < 0 ∨ b.width ≤ i ∨ j < 0 ∨ b.height ≤ j)
    (hshadow : ¬(shadow = true ∧ b.OnShadow i j)) : ¬b.Paints shadow i j ch := by
  intro h
  rcases ink_eq_some hb (h.ink_eq hb) with hin | hon
  · omega
  · exact hshadow hon

/-- Nothing is drawn beside the text of a row. -/
theorem not_paints_beside (hb : b.Fits) {r : Nat} {row : Row} (hr : b.rows[r]? = some row)
    (hrule : row.isRule = false) (hleft : 0 < i) (hright : i < b.width - 1)
    (hout : i < 1 + b.padding ∨ 1 + b.padding + row.text.length ≤ i) :
    ¬b.Paints shadow i (r + 1 : Nat) ch := by
  intro h
  have hheight := hb.height
  have hlt := (List.getElem?_eq_some_iff.1 hr).1
  have hnot : ¬(shadow = true ∧ b.OnShadow i (r + 1 : Nat)) := by
    unfold OnShadow
    omega
  have hink := h.ink_eq hb
  rw [ink, if_neg hnot, Option.or_none, cardInk_row hb hr] at hink
  rcases Row.ink_eq_some hrule hink with ⟨hside, -⟩ | ⟨k, hk, rfl⟩
  · omega
  · have hlength := (List.getElem?_eq_some_iff.1 hk).1
    rw [String.length_toList] at hlength
    omega

end

end Box

/-! ## Drawing a box -/

namespace Canvas

/-- A cell after a box was drawn. -/
theorem get_drawBox (c : Canvas) (x y : Int) {b : Box} (hb : b.Fits) (shadow : Bool) (i j : Int) :
    (∀ ch, b.Paints shadow i j ch → c.Holds (x + i) (y + j) →
      (c.drawBox x y b shadow).get (x + i) (y + j) = String.singleton ch) ∧
    ((∀ ch, ¬b.Paints shadow i j ch) →
      (c.drawBox x y b shadow).get (x + i) (y + j) = c.get (x + i) (y + j)) := by
  have hdrawn := drawn_drawBox c x y hb shadow
  have hcol : x + i - x = i := by omega
  have hline : y + j - y = j := by omega
  constructor
  · intro ch hpaints hold
    rw [hdrawn.get _ _ hold, hcol, hline, (Box.paints_iff hb).1 hpaints]
    rfl
  · intro hnone
    by_cases hold : c.Holds (x + i) (y + j)
    · have hink : b.ink shadow i j = none := by
        cases hsome : b.ink shadow i j with
        | none => rfl
        | some ch => exact absurd ((Box.paints_iff hb).2 hsome) (hnone ch)
      rw [hdrawn.get _ _ hold, hcol, hline, hink]
      rfl
    · rw [get, get, if_neg hold, if_neg fun h => hold ((hdrawn.holds_iff _ _).1 h)]

/-- Drawing a box that was measured, with its corner anywhere, paints the
characters of the box and nothing else. The text of a row stays between the sides.
All other cells keep what they had: those beside the text, those right of the top
line and below the left side, and, without a shadow, all that lie right of the
box or below it. The canvas keeps its size. -/
theorem drawBox_cells (c : Canvas) (x y : Int) (style : Box.Style) (hpad : 0 ≤ style.padding)
    (content : List String) :
    let b := Box.measure style content
    let d := c.drawBox x y b style.shadow
    (∀ i j ch, b.Paints style.shadow i j ch → c.Holds (x + i) (y + j) →
      d.get (x + i) (y + j) = String.singleton ch) ∧
    (∀ i j, (∀ ch, ¬b.Paints style.shadow i j ch) →
      d.get (x + i) (y + j) = c.get (x + i) (y + j)) ∧
    (∀ r row, b.rows[r]? = some row → row.isRule = false →
      (∀ k : Nat, k < row.text.length →
        0 < 1 + b.padding + k ∧ 1 + b.padding + k < b.width - 1) ∧
      ∀ i, 0 < i → i < b.width - 1 → (i < 1 + b.padding ∨ 1 + b.padding + row.text.length ≤ i) →
        d.get (x + i) (y + (r + 1 : Nat)) = c.get (x + i) (y + (r + 1 : Nat))) ∧
    d.get (x + b.width) y = c.get (x + b.width) y ∧
    d.get x (y + b.height) = c.get x (y + b.height) ∧
    (style.shadow = false → ∀ t,
      d.get (x + b.width) (y + t) = c.get (x + b.width) (y + t) ∧
        d.get (x + t) (y + b.height) = c.get (x + t) (y + b.height)) ∧
    d.width = c.width ∧ d.height = c.height ∧ d.rows.size = c.rows.size ∧
    ∀ k (hd : k < d.rows.size) (hc : k < c.rows.size), d.rows[k].size = c.rows[k].size := by
  intro b d
  have hb : b.Fits := Box.measure_fits hpad content
  have hdrawn : Drawn c d _ := drawn_drawBox c x y hb style.shadow
  have hwidth := hb.width
  have hheight := hb.height
  have hkept : ∀ i j, (∀ ch, ¬b.Paints style.shadow i j ch) →
      d.get (x + i) (y + j) = c.get (x + i) (y + j) := fun i j =>
    (get_drawBox c x y hb style.shadow i j).2
  refine ⟨fun i j => (get_drawBox c x y hb style.shadow i j).1, hkept, fun r row hr hrule => ?_,
    ?_, ?_, fun hshadow t => ?_, hdrawn.width, hdrawn.height, ?_, fun k hd hc => ?_⟩
  · refine ⟨fun k hk => hb.text_between hr hrule hk, fun i hleft hright hout => ?_⟩
    exact hkept i _ fun ch => Box.not_paints_beside hb hr hrule hleft hright hout
  · have hcell := hkept b.width 0 fun ch =>
      Box.not_paints_outside hb (by omega) (by unfold Box.OnShadow; omega)
    rwa [Int.add_zero] at hcell
  · have hcell := hkept 0 b.height fun ch =>
      Box.not_paints_outside hb (by omega) (by unfold Box.OnShadow; omega)
    rwa [Int.add_zero] at hcell
  · have hnone : ∀ i j, ¬(style.shadow = true ∧ b.OnShadow i j) := by simp [hshadow]
    constructor
    · exact hkept _ _ fun ch => Box.not_paints_outside hb (by omega) (hnone _ _)
    · exact hkept _ _ fun ch => Box.not_paints_outside hb (by omega) (hnone _ _)
  · rw [d.size_rows, c.size_rows, hdrawn.height]
  · rw [d.size_row k hd, c.size_row k hc, hdrawn.width]

/-- A box without padding that hangs over the left and the upper end of a small
canvas. -/
theorem overhanging_cells :
    let style : Box.Style := { textWidth := 4, padding := 0, ruleMark := "=" }
    let c := Canvas.blank 6 5 "."
    let d := c.drawBox (-1) (-1) (Box.measure style ["ab c", "==", "d"]) style.shadow
    0 ≤ style.padding ∧ d.get 0 0 = "a" ∧ d.get 4 1 = "┤" ∧ d.get 1 2 = "." ∧ d.get 5 0 = "░" ∧
      d.width = 6 ∧ d.height = 5 := by
  intro style c d
  have hpad : 0 ≤ style.padding := by decide
  have hfirst : (Box.measure style ["ab c", "==", "d"]).rows[0]? = some ⟨"ab c", false⟩ := by
    decide +kernel
  have hrule : (Box.measure style ["ab c", "==", "d"]).rows[1]? = some ⟨"==", true⟩ := by
    decide +kernel
  have hlast : (Box.measure style ["ab c", "==", "d"]).rows[2]? = some ⟨"d", false⟩ := by
    decide +kernel
  have hwidth : (Box.measure style ["ab c", "==", "d"]).width = 6 := by decide +kernel
  have hheight : (Box.measure style ["ab c", "==", "d"]).height = 5 := by decide +kernel
  obtain ⟨hpainted, -, hbeside, -, -, -, hw, hh, -⟩ :=
    drawBox_cells c (-1) (-1) style hpad ["ab c", "==", "d"]
  have hchar := hpainted _ _ 'a' (.text hfirst rfl (k := 0) rfl) (by decide)
  have htee := hpainted _ _ '┤' (.rule hrule rfl .right) (by rw [hwidth]; decide)
  have hkept := (hbeside 2 _ hlast rfl).2 2 (by decide) (by rw [hwidth]; decide) (by decide)
  have hshadow := hpainted _ 1 '░' (.shadowBeside rfl (by decide) (by rw [hheight]; decide))
    (by rw [hwidth]; decide)
  rw [hwidth] at htee hshadow
  exact ⟨hpad, hchar, htee, hkept, hshadow, hw, hh⟩

end Canvas

end Storyboard
