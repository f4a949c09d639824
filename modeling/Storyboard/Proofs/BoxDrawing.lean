import Mathlib.Order.Bounds.Basic
import Storyboard.Canvas.Box
import Storyboard.Proofs.Sequence

/-!
# What drawing a box leaves on a canvas

A drawing is described by its *ink*: the character that it leaves at each
column of each line, if it leaves one there. `Canvas.Drawn` says that one
canvas is another with some ink over it, cell by cell and clipped at the ends
of the grid, and it composes: what is drawn later lies on top.

The ink of a box is given outright, by the frame, the rows and the shadow, and
not by the order in which `Canvas.drawBox` writes. The text of a row stays
between the frame's sides because a box is as wide as its longest row needs,
which is what `Box.Fits` says and what `Box.measure` provides.

## Main results

* `Canvas.drawn_drawBox` — drawing a box that fits leaves its ink and nothing
  else, wherever it stands.
* `Box.textColumns_isGreatest`, `Box.measure_fits` — how wide the text of a box is,
  and that a box that was measured fits.
* `Box.ink_eq_some` — the ink of a box lies on the card or on its shadow.
* `Box.cardInk_eq_picture` — the ink of the card is `Box.picture`, the card
  written out line by line.
-/

namespace Storyboard

/-! ## Ink -/

/-- The character that a drawing leaves at each column of each line. -/
abbrev Ink : Type := Int → Int → Option Char

/-- One drawing on top of another. -/
def Ink.over (upper lower : Ink) : Ink := fun x y => (upper x y).or (lower x y)

namespace Canvas

/-- Whether `d` is the canvas `c` with some ink over it. -/
structure Drawn (c d : Canvas) (ink : Ink) : Prop where
  width : d.width = c.width
  height : d.height = c.height
  get : ∀ x y, c.Holds x y → d.get x y = ((ink x y).map String.singleton).getD (c.get x y)

theorem Drawn.holds_iff {c d : Canvas} {ink : Ink} (h : Drawn c d ink) (x y : Int) :
    d.Holds x y ↔ c.Holds x y := by
  simp only [Holds, h.width, h.height]

theorem Drawn.refl (c : Canvas) : Drawn c c fun _ _ => none :=
  ⟨rfl, rfl, fun _ _ _ => rfl⟩

theorem Drawn.trans {c d e : Canvas} {lower upper : Ink} (h : Drawn c d lower)
    (k : Drawn d e upper) : Drawn c e (upper.over lower) := by
  refine ⟨k.width.trans h.width, k.height.trans h.height, fun x y hold => ?_⟩
  rw [k.get x y ((h.holds_iff x y).2 hold), h.get x y hold, Ink.over]
  cases upper x y <;> rfl

theorem Drawn.congr {c d : Canvas} {ink other : Ink} (h : Drawn c d ink)
    (heq : ∀ x y, ink x y = other x y) : Drawn c d other :=
  ⟨h.width, h.height, fun x y hold => by rw [h.get x y hold, heq]⟩

/-- The ink of a single cell. -/
def dot (x y : Int) (ch : Char) : Ink := fun a b => if a = x ∧ b = y then some ch else none

theorem drawn_set (c : Canvas) (x y : Int) (ch : Char) :
    Drawn c (c.set x y (String.singleton ch)) (dot x y ch) := by
  refine ⟨width_set .., height_set .., fun a b hold => ?_⟩
  rw [get_set, dot]
  by_cases hab : a = x ∧ b = y
  · obtain ⟨rfl, rfl⟩ := hab
    simp [hold]
  · rw [if_neg hab, if_neg fun h => hab h.2]
    rfl

/-- The ink of a text from column `x` on. -/
def textInk (x y : Int) (cs : List Char) : Ink :=
  fun a b => if b = y ∧ x ≤ a then cs[(a - x).toNat]? else none

private theorem drawn_drawText (y : Int) :
    ∀ (cs : List Char) (c : Canvas) (x : Int), Drawn c (c.drawText x y cs) (textInk x y cs) := by
  intro cs
  induction cs with
  | nil =>
      intro c x
      exact (Drawn.refl c).congr fun a b => by simp [textInk]
  | cons ch cs ih =>
      intro c x
      apply ((drawn_set c x y ch).trans (ih _ (x + 1))).congr
      intro a b
      simp only [Ink.over, textInk, dot]
      by_cases hb : b = y
      · rcases Int.lt_trichotomy a x with hlt | heq | hgt
        · simp [hb, show ¬x + 1 ≤ a by omega, show ¬x ≤ a by omega, show a ≠ x by omega]
        · simp [hb, heq, show ¬x + 1 ≤ x by omega]
        · have hidx : (a - x).toNat = (a - (x + 1)).toNat + 1 := by omega
          simp [hb, show x + 1 ≤ a by omega, show x ≤ a by omega, show a ≠ x by omega, hidx]
      · simp [hb]

/-- The ink of a run of one character from column `x` on. -/
def runInk (x y : Int) (ch : Char) (count : Nat) : Ink :=
  fun a b => if b = y ∧ x ≤ a ∧ a < x + count then some ch else none

private theorem drawn_drawRow (y : Int) (ch : Char) :
    ∀ (count : Nat) (c : Canvas) (x : Int),
      Drawn c (c.drawRow x y (String.singleton ch) count) (runInk x y ch count) := by
  intro count
  induction count with
  | zero =>
      intro c x
      apply (Drawn.refl c).congr
      intro a b
      rw [runInk, if_neg (by omega)]
  | succ count ih =>
      intro c x
      apply ((drawn_set c x y ch).trans (ih _ (x + 1))).congr
      intro a b
      simp only [Ink.over, runInk, dot]
      by_cases hrest : b = y ∧ x + 1 ≤ a ∧ a < x + 1 + count
      · rw [if_pos hrest, Option.some_or, if_pos (by omega)]
      · rw [if_neg hrest, Option.none_or]
        by_cases hfirst : a = x ∧ b = y
        · rw [if_pos hfirst, if_pos (by omega)]
        · rw [if_neg hfirst, if_neg (by omega)]

end Canvas

/-! ## The ink of a box -/

namespace Box

/-- A line across a box of width `w` with `left` and `right` at its ends, by
the column in the box. -/
def edgeInk (w : Int) (left right : Char) (i : Int) : Option Char :=
  if i = 0 then some left
  else if i = w - 1 then some right
  else if 0 < i ∧ i < w - 1 then some '─'
  else none

/-- A row of a box of width `w`, by the column in the box. -/
def Row.ink (r : Row) (w padding i : Int) : Option Char :=
  if r.isRule then edgeInk w '├' '┤' i
  else if i = 0 ∨ i = w - 1 then some '│'
  else if 1 + padding ≤ i then r.text.toList[(i - 1 - padding).toNat]?
  else none

/-- The rows of a box from its line `1` on. -/
def rowInk (b : Box) (i j : Int) : Option Char :=
  if 1 ≤ j then (b.rows[(j - 1).toNat]?).bind fun r => r.ink b.width b.padding i else none

/-- The card of a box: its frame and its rows. -/
def cardInk (b : Box) (i j : Int) : Option Char :=
  if j = 0 then edgeInk b.width '┌' '┐' i
  else if j = b.height - 1 then edgeInk b.width '└' '┘' i
  else b.rowInk i j

/-- Whether the shadow of a box falls on column `i` of line `j` of it. -/
def OnShadow (b : Box) (i j : Int) : Prop :=
  (i = b.width ∧ 1 ≤ j ∧ j ≤ b.height - 1) ∨ (j = b.height ∧ 1 ≤ i ∧ i ≤ b.width)

instance (b : Box) (i j : Int) : Decidable (b.OnShadow i j) :=
  inferInstanceAs (Decidable (_ ∨ _))

/-- The ink of a box: its card, and its shadow if it has one. -/
def ink (b : Box) (shadow : Bool) (i j : Int) : Option Char :=
  (b.cardInk i j).or (if shadow ∧ b.OnShadow i j then some '░' else none)

/-- Whether the rows of a box have room between its sides. -/
structure Fits (b : Box) : Prop where
  padding : 0 ≤ b.padding
  height : b.height = b.rows.length + 2
  width : 2 * b.padding + 3 ≤ b.width
  text : ∀ r ∈ b.rows, r.isRule = false → (r.text.length : Int) + 2 * b.padding + 2 ≤ b.width

/-! ### Where the ink lies -/

theorem edgeInk_inside {w i : Int} {left right ch : Char} (hw : 1 ≤ w)
    (h : edgeInk w left right i = some ch) : 0 ≤ i ∧ i < w := by
  unfold edgeInk at h
  split at h
  · omega
  · split at h
    · omega
    · split at h
      · omega
      · cases h

private theorem rowInk_inside {b : Box} (hb : b.Fits) {i j : Int} {ch : Char}
    (h : b.rowInk i j = some ch) : (0 ≤ i ∧ i < b.width) ∧ 1 ≤ j ∧ j < b.height - 1 := by
  have hpad := hb.padding
  have hwidth := hb.width
  have hheight := hb.height
  unfold rowInk at h
  split at h
  · rename_i hj
    obtain ⟨r, hr, hink⟩ := Option.bind_eq_some_iff.1 h
    obtain ⟨hlt, hget⟩ := List.getElem?_eq_some_iff.1 hr
    have hmem : r ∈ b.rows := hget ▸ List.getElem_mem hlt
    refine ⟨?_, hj, by omega⟩
    unfold Row.ink at hink
    split at hink
    · exact edgeInk_inside (by omega) hink
    · rename_i hrule
      have htext := hb.text r hmem (by simpa using hrule)
      split at hink
      · omega
      · split at hink
        · obtain ⟨hcol, -⟩ := List.getElem?_eq_some_iff.1 hink
          rw [String.length_toList] at hcol
          omega
        · cases hink
  · cases h

/-- Between the top and the bottom, the card of a box has its rows. -/
theorem cardInk_row {b : Box} (hb : b.Fits) {r : Nat} {row : Row} (hr : b.rows[r]? = some row)
    (i : Int) : b.cardInk i (r + 1 : Nat) = row.ink b.width b.padding i := by
  have hheight := hb.height
  have hlt := (List.getElem?_eq_some_iff.1 hr).1
  rw [cardInk, if_neg (by omega), if_neg (by omega), rowInk, if_pos (by omega),
    show (((r + 1 : Nat) : Int) - 1).toNat = r by omega, hr]
  rfl

/-- The card of a box lies between its corners. -/
theorem cardInk_inside {b : Box} (hb : b.Fits) {i j : Int} {ch : Char}
    (h : b.cardInk i j = some ch) : (0 ≤ i ∧ i < b.width) ∧ 0 ≤ j ∧ j < b.height := by
  have hpad := hb.padding
  have hwidth := hb.width
  have hheight := hb.height
  unfold cardInk at h
  split at h
  · exact ⟨edgeInk_inside (by omega) h, by omega, by omega⟩
  · split at h
    · exact ⟨edgeInk_inside (by omega) h, by omega, by omega⟩
    · obtain ⟨hcol, hline⟩ := rowInk_inside hb h
      exact ⟨hcol, by omega, by omega⟩

/-- The card of a box has no ink where its shadow falls. -/
theorem cardInk_eq_none {b : Box} (hb : b.Fits) {i j : Int} (hon : b.OnShadow i j) :
    b.cardInk i j = none := by
  cases hink : b.cardInk i j with
  | none => rfl
  | some ch =>
      have hinside := cardInk_inside hb hink
      unfold OnShadow at hon
      omega

/-- The ink of a box lies on its card or on its shadow. -/
theorem ink_eq_some {b : Box} (hb : b.Fits) {shadow : Bool} {i j : Int} {ch : Char}
    (h : b.ink shadow i j = some ch) :
    ((0 ≤ i ∧ i < b.width) ∧ 0 ≤ j ∧ j < b.height) ∨ (shadow = true ∧ b.OnShadow i j) := by
  unfold ink at h
  rcases Option.or_eq_some_iff.1 h with hcard | ⟨-, hshade⟩
  · exact Or.inl (cardInk_inside hb hcard)
  · split at hshade
    · rename_i hon
      exact Or.inr hon
    · cases hshade

/-- The only blanks in the ink of a box are those in its text. -/
theorem eq_space_of_ink {b : Box} (hplain : ∀ r ∈ b.rows, r.isRule = false →
      ∀ c ∈ r.text.toList, Text.isBlank c = true → c = ' ')
    {shadow : Bool} {i j : Int} {ch : Char} (h : b.ink shadow i j = some ch)
    (hblank : Text.isBlank ch = true) : ch = ' ' := by
  have hedge : ∀ left right, Text.isBlank left = false → Text.isBlank right = false →
      edgeInk b.width left right i = some ch → ch = ' ' := by
    intro left right hleft hright hink
    unfold edgeInk at hink
    repeat' split at hink
    · rw [Option.some.inj hink, hblank] at hleft
      cases hleft
    · rw [Option.some.inj hink, hblank] at hright
      cases hright
    · rw [← Option.some.inj hink] at hblank
      exact absurd hblank (by decide)
    · cases hink
  unfold ink at h
  rcases Option.or_eq_some_iff.1 h with hcard | ⟨-, hshade⟩
  · unfold cardInk at hcard
    split at hcard
    · exact hedge _ _ (by decide) (by decide) hcard
    · split at hcard
      · exact hedge _ _ (by decide) (by decide) hcard
      · unfold rowInk at hcard
        split at hcard
        · obtain ⟨r, hr, hink⟩ := Option.bind_eq_some_iff.1 hcard
          unfold Row.ink at hink
          split at hink
          · exact hedge _ _ (by decide) (by decide) hink
          · rename_i hrule
            split at hink
            · rw [← Option.some.inj hink] at hblank
              exact absurd hblank (by decide)
            · split at hink
              · exact hplain r (List.mem_of_getElem? hr) (by simpa using hrule) ch
                  (List.mem_of_getElem? hink) hblank
              · cases hink
        · cases hcard
  · split at hshade
    · rw [← Option.some.inj hshade] at hblank
      exact absurd hblank (by decide)
    · cases hshade

end Box

/-! ## Boxes that were measured -/

namespace Box

/-- The text of rows is as wide as the longest of them, and one column at least. -/
theorem textColumns_isGreatest (rows : List Row) :
    IsGreatest (insert 1 {n | ∃ row ∈ rows, row.isRule = false ∧ row.text.length = n})
      (textColumns rows) := by
  have hmem : ∀ n, n ∈ (rows.filter (!·.isRule)).map (·.text.length) ↔
      ∃ row ∈ rows, row.isRule = false ∧ row.text.length = n := by
    intro n
    simp [List.mem_map, List.mem_filter, and_assoc]
  constructor
  · have hattained := Sequence.foldl_max_mem ((rows.filter (!·.isRule)).map (·.text.length)) 1
    rcases hattained with hone | hsome
    · exact Or.inl hone
    · exact Or.inr ((hmem _).1 hsome)
  · have hmax := Sequence.le_foldl_max ((rows.filter (!·.isRule)).map (·.text.length)) 1
    rintro n (rfl | hn)
    · exact hmax.1
    · exact hmax.2 n ((hmem n).2 hn)

/-- A box that was measured fits. -/
theorem measure_fits {style : Style} (hpad : 0 ≤ style.padding) (content : List String) :
    (measure style content).Fits := by
  have hgreatest := (textColumns_isGreatest (style.rows content)).2
  have hone : 1 ≤ textColumns (style.rows content) := hgreatest (Or.inl rfl)
  refine ⟨hpad, rfl, ?_, ?_⟩
  · show 2 * style.padding + 3 ≤ (textColumns (style.rows content) : Int) + 2 * style.padding + 2
    omega
  · intro r hr hrule
    have hle : r.text.length ≤ textColumns (style.rows content) :=
      hgreatest (Or.inr ⟨r, hr, hrule, rfl⟩)
    show (r.text.length : Int) + 2 * style.padding + 2 ≤
      (textColumns (style.rows content) : Int) + 2 * style.padding + 2
    omega

/-! ### The card line by line -/

/-- A line across a card of width `w`. -/
def edgeRow (w : Nat) (left right : Char) : List Char :=
  left :: (List.replicate (w - 2) '─' ++ [right])

/-- A line of text on a card of width `w`: between the sides and a space from
either, and filled up with spaces. -/
def textRow (w : Nat) (text : List Char) : List Char :=
  '│' :: ' ' :: (text ++ List.replicate (w - 4 - text.length) ' ' ++ [' ', '│'])

/-- A row on a card of width `w`. -/
def Row.picture (w : Nat) (r : Row) : List Char :=
  if r.isRule then edgeRow w '├' '┤' else textRow w r.text.toList

/-- The card of a box, line by line from the top. -/
def picture (b : Box) : List (List Char) :=
  edgeRow b.width.toNat '┌' '┐' ::
    (b.rows.map (Row.picture b.width.toNat) ++ [edgeRow b.width.toNat '└' '┘'])

private theorem length_edgeRow {w : Nat} (hw : 2 ≤ w) (left right : Char) :
    (edgeRow w left right).length = w := by
  simp [edgeRow]
  omega

private theorem length_textRow {w : Nat} {text : List Char} (h : text.length + 4 ≤ w) :
    (textRow w text).length = w := by
  simp [textRow]
  omega

private theorem getElem?_edgeRow {w i : Nat} (hw : 2 ≤ w) (hi : i < w) (left right : Char) :
    (edgeRow w left right)[i]? = some ((edgeInk w left right i).getD ' ') := by
  unfold edgeInk edgeRow
  by_cases h0 : i = 0
  · subst h0
    simp
  · obtain ⟨k, rfl⟩ : ∃ k, i = k + 1 := ⟨i - 1, by omega⟩
    rw [List.getElem?_cons_succ, if_neg (by omega)]
    by_cases hlast : k + 2 = w
    · rw [if_pos (by omega), List.getElem?_append_right (by simp; omega)]
      simp [show k - (w - 2) = 0 by omega]
    · rw [if_neg (by omega), if_pos (by omega), List.getElem?_append_left (by simp; omega),
        List.getElem?_replicate, if_pos (by omega)]
      rfl

private theorem getElem?_textRow {w i : Nat} {r : Row} (hrule : r.isRule = false)
    (hfit : r.text.length + 4 ≤ w) (hi : i < w) :
    (textRow w r.text.toList)[i]? = some ((r.ink w 1 i).getD ' ') := by
  have hlen : r.text.toList.length = r.text.length := String.length_toList
  unfold Row.ink textRow
  rw [if_neg (by simp [hrule])]
  match i with
  | 0 => simp
  | 1 => simp [show ¬(1 : Int) = w - 1 by omega]
  | k + 2 =>
      have hidx : ((k + 2 : Nat) : Int) - 1 - 1 = k := by omega
      rw [List.getElem?_cons_succ, List.getElem?_cons_succ, hidx, Int.toNat_natCast]
      by_cases hlast : k + 3 = w
      · rw [if_pos (by omega), List.getElem?_append_right (by simp [hlen]; omega)]
        have hone : k - (r.text.length + (w - 4 - r.text.length)) = 1 := by omega
        simp [hlen, hone]
      · rw [if_neg (by omega), if_pos (by omega)]
        by_cases htext : k < r.text.length
        · rw [List.append_assoc, List.getElem?_append_left (by omega),
            List.getElem?_eq_getElem (by omega)]
          rfl
        · rw [List.getElem?_eq_none (show r.text.toList.length ≤ k by omega), Option.getD_none]
          by_cases hfill : k < w - 4
          · rw [List.getElem?_append_left (by simp [hlen]; omega),
              List.getElem?_append_right (by omega), List.getElem?_replicate,
              if_pos (by omega)]
          · rw [List.getElem?_append_right (by simp [hlen]; omega)]
            have hzero : k - (r.text.length + (w - 4 - r.text.length)) = 0 := by omega
            simp [hlen, hzero]

theorem length_picture {b : Box} (hb : b.Fits) : b.picture.length = b.height.toNat := by
  have hheight := hb.height
  simp [picture]
  omega

/-- A line of the card is the ink of the card on that line, with spaces where
there is none. -/
theorem cardInk_eq_picture {b : Box} (hb : b.Fits) (hpad : b.padding = 1) {j : Nat}
    (hj : j < b.height.toNat) :
    ∃ row, b.picture[j]? = some row ∧ row.length = b.width.toNat ∧
      ∀ i : Nat, i < b.width.toNat → row[i]? = some ((b.cardInk i j).getD ' ') := by
  have hwidth := hb.width
  have hheight := hb.height
  have hcast : ((b.width.toNat : Nat) : Int) = b.width := by omega
  have hw : 2 ≤ b.width.toNat := by omega
  by_cases h0 : j = 0
  · subst h0
    refine ⟨_, rfl, length_edgeRow hw _ _, fun i hi => ?_⟩
    rw [getElem?_edgeRow hw hi, hcast, cardInk, if_pos (by omega)]
  · obtain ⟨k, rfl⟩ : ∃ k, j = k + 1 := ⟨j - 1, by omega⟩
    by_cases hlast : k = b.rows.length
    · have hget : b.picture[k + 1]? = some (edgeRow b.width.toNat '└' '┘') := by
        rw [picture, List.getElem?_cons_succ, List.getElem?_append_right (by simp; omega)]
        simp [hlast]
      refine ⟨_, hget, length_edgeRow hw _ _, fun i hi => ?_⟩
      rw [getElem?_edgeRow hw hi, hcast, cardInk, if_neg (by omega), if_pos (by omega)]
    · have hk : k < b.rows.length := by omega
      have hget : b.picture[k + 1]? = some (b.rows[k].picture b.width.toNat) := by
        rw [picture, List.getElem?_cons_succ, List.getElem?_append_left (by simp; omega),
          List.getElem?_map, List.getElem?_eq_getElem hk]
        rfl
      have hink : ∀ i : Int,
          b.cardInk i (k + 1 : Nat) = b.rows[k].ink b.width b.padding i := fun i =>
        cardInk_row hb (List.getElem?_eq_getElem hk) i
      refine ⟨_, hget, ?_⟩
      unfold Row.picture
      by_cases hrule : b.rows[k].isRule = true
      · rw [if_pos hrule]
        refine ⟨length_edgeRow hw _ _, fun i hi => ?_⟩
        rw [getElem?_edgeRow hw hi, hcast, hink, Row.ink, if_pos hrule]
      · have hfalse : b.rows[k].isRule = false := by simpa using hrule
        have htext := hb.text b.rows[k] (List.getElem_mem hk) hfalse
        have hfit : b.rows[k].text.length + 4 ≤ b.width.toNat := by omega
        rw [if_neg hrule]
        refine ⟨length_textRow (by rw [String.length_toList]; exact hfit), fun i hi => ?_⟩
        rw [getElem?_textRow hfalse hfit hi, hcast, hink, hpad]

/-- Every line of a card ends with a stroke of the frame. -/
theorem exists_cardInk_right {b : Box} (hb : b.Fits) {j : Int} (h0 : 0 ≤ j) (hj : j < b.height) :
    ∃ ch, b.cardInk (b.width - 1) j = some ch ∧ Text.isBlank ch = false := by
  have hpad := hb.padding
  have hwidth := hb.width
  have hheight := hb.height
  have hedge : ∀ left right, edgeInk b.width left right (b.width - 1) = some right := by
    intro left right
    rw [edgeInk, if_neg (by omega), if_pos rfl]
  unfold cardInk
  split
  · exact ⟨_, hedge _ _, by decide⟩
  · split
    · exact ⟨_, hedge _ _, by decide⟩
    · have hlt : (j - 1).toNat < b.rows.length := by omega
      rw [rowInk, if_pos (by omega), List.getElem?_eq_getElem hlt, Option.bind_some, Row.ink]
      split
      · exact ⟨_, hedge _ _, by decide⟩
      · exact ⟨_, if_pos (Or.inr rfl), by decide⟩

end Box

/-! ## Drawing a box -/

namespace Canvas

private theorem drawn_drawEdge (c : Canvas) (x y : Int) {w : Int} (hw : 2 ≤ w) (left right : Char) :
    Drawn c (c.drawEdge x y w (String.singleton left) (String.singleton right))
      fun a b => if b = y then Box.edgeInk w left right (a - x) else none := by
  have hleft := drawn_set c x y left
  have hrun := drawn_drawRow y '─' (w - 2).toNat (c.set x y (String.singleton left)) (x + 1)
  have hright := drawn_set ((c.set x y (String.singleton left)).drawRow (x + 1) y "─"
    (w - 2).toNat) (x + w - 1) y right
  apply ((hleft.trans hrun).trans hright).congr
  intro a b
  simp only [Ink.over, dot, runInk, Box.edgeInk]
  by_cases hb : b = y
  · rw [if_pos hb]
    by_cases h1 : a = x + w - 1
    · rw [if_pos ⟨h1, hb⟩, Option.some_or, if_neg (show ¬a - x = 0 by omega),
        if_pos (show a - x = w - 1 by omega)]
    · rw [if_neg fun h => h1 h.1, Option.none_or, if_neg (show ¬a - x = w - 1 by omega)]
      by_cases h0 : a = x
      · rw [if_neg (show ¬(b = y ∧ x + 1 ≤ a ∧ a < x + 1 + ((w - 2).toNat : Int)) by omega),
          Option.none_or, if_pos ⟨h0, hb⟩, if_pos (show a - x = 0 by omega)]
      · rw [if_neg (show ¬(a = x ∧ b = y) by omega), Option.or_none,
          if_neg (show ¬a - x = 0 by omega)]
        by_cases hin : 0 < a - x ∧ a - x < w - 1
        · rw [if_pos hin, if_pos (by omega)]
        · rw [if_neg hin, if_neg (by omega)]
  · simp [hb]

/-- One row of a box with the shadow beside it. -/
theorem drawn_row (c : Canvas) (x y : Int) {w padding : Int} (hpad : 0 ≤ padding) (hw : 2 ≤ w)
    (row : Box.Row)
    (htext : row.isRule = false → (row.text.length : Int) + 2 * padding + 2 ≤ w) :
    Drawn c
      (if row.isRule then c.drawEdge x y w "├" "┤"
        else ((c.set x y "│").set (x + w - 1) y "│").drawText (x + 1 + padding) y
          row.text.toList)
      fun a b => if b = y then row.ink w padding (a - x) else none := by
  by_cases hrule : row.isRule = true
  · rw [if_pos hrule]
    apply (drawn_drawEdge c x y hw '├' '┤').congr
    intro a b
    rw [Box.Row.ink, if_pos hrule]
  · rw [if_neg hrule]
    have hfit := htext (by simpa using hrule)
    have hleft := drawn_set c x y '│'
    have hright := drawn_set (c.set x y "│") (x + w - 1) y '│'
    have hline := drawn_drawText y row.text.toList ((c.set x y "│").set (x + w - 1) y "│")
      (x + 1 + padding)
    apply ((hleft.trans hright).trans hline).congr
    intro a b
    simp only [Ink.over, dot, textInk, Box.Row.ink, if_neg hrule]
    by_cases hb : b = y
    · by_cases hside : a - x = 0 ∨ a - x = w - 1
      · have hnone : (if b = y ∧ x + 1 + padding ≤ a
            then row.text.toList[(a - (x + 1 + padding)).toNat]? else none) = none := by
          split
          · rw [List.getElem?_eq_none_iff, String.length_toList]
            omega
          · rfl
        rw [hnone, if_pos hb, if_pos hside, Option.none_or]
        by_cases h1 : a = x + w - 1
        · rw [if_pos ⟨h1, hb⟩, Option.some_or]
        · rw [if_neg fun h => h1 h.1, if_pos (by omega), Option.none_or]
      · rw [if_neg (show ¬(a = x + w - 1 ∧ b = y) by omega),
          if_neg (show ¬(a = x ∧ b = y) by omega), Option.or_none, Option.or_none, if_pos hb,
          if_neg hside]
        by_cases hcol : x + 1 + padding ≤ a
        · rw [if_pos ⟨hb, hcol⟩, if_pos (by omega),
            show a - (x + 1 + padding) = a - x - 1 - padding by omega]
        · rw [if_neg fun h => hcol h.2, if_neg (by omega)]
    · simp [hb]

/-- The rows of a box with the shadow beside them. -/
theorem drawn_drawRows (x : Int) {w padding : Int} (hpad : 0 ≤ padding) (hw : 2 ≤ w)
    (shadow : Bool) :
    ∀ (rows : List Box.Row) (c : Canvas) (y : Int),
      (∀ r ∈ rows, r.isRule = false → (r.text.length : Int) + 2 * padding + 2 ≤ w) →
      Drawn c (c.drawRows x y w padding shadow rows) fun a b =>
        if y ≤ b then
          (rows[(b - y).toNat]?).bind fun r =>
            (if shadow ∧ a = x + w then some '░' else none).or (r.ink w padding (a - x))
        else none := by
  intro rows
  induction rows with
  | nil =>
      intro c y _
      exact (Drawn.refl c).congr fun a b => by simp
  | cons row rest ih =>
      intro c y hfit
      have hrow := drawn_row c x y hpad hw row (hfit row (by simp))
      unfold drawRows
      dsimp only
      revert hrow
      generalize (if row.isRule then c.drawEdge x y w "├" "┤"
        else ((c.set x y "│").set (x + w - 1) y "│").drawText (x + 1 + padding) y
          row.text.toList) = drawn
      intro hrow
      have hshade : Drawn drawn (if shadow then drawn.set (x + w) y "░" else drawn)
          fun a b => if shadow ∧ a = x + w ∧ b = y then some '░' else none := by
        cases shadow with
        | true => exact (drawn_set drawn (x + w) y '░').congr fun a b => by simp [dot]
        | false => exact (Drawn.refl drawn).congr fun a b => by simp
      have hrest := ih (if shadow then drawn.set (x + w) y "░" else drawn) (y + 1)
        fun r hr => hfit r (by simp [hr])
      apply ((hrow.trans hshade).trans hrest).congr
      intro a b
      simp only [Ink.over]
      rcases Int.lt_trichotomy b y with hlt | heq | hgt
      · simp [show ¬y + 1 ≤ b by omega, show ¬y ≤ b by omega, show b ≠ y by omega]
      · simp [heq, show ¬y + 1 ≤ y by omega]
      · have hidx : (b - y).toNat = (b - (y + 1)).toNat + 1 := by omega
        simp [show y + 1 ≤ b by omega, show y ≤ b by omega, show b ≠ y by omega, hidx]

/-- What is drawn of the shadow after the frame: its corner and its lower
side. -/
theorem drawn_lowerShadow (c : Canvas) (x y : Int) {b : Box} (hw : 0 ≤ b.width) (shadow : Bool) :
    Drawn c
      (if shadow then
        (c.set (x + b.width) (y + b.height - 1) "░").drawRow (x + 1) (y + b.height) "░"
          b.width.toNat
      else c)
      fun a l => if shadow ∧ (a - x = b.width ∧ l - y = b.height - 1 ∨
        l - y = b.height ∧ 1 ≤ a - x ∧ a - x ≤ b.width) then some '░' else none := by
  cases shadow with
  | false => exact (Drawn.refl c).congr fun a l => by simp
  | true =>
      rw [if_pos rfl]
      have hcorner := drawn_set c (x + b.width) (y + b.height - 1) '░'
      have hunder := drawn_drawRow (y + b.height) '░' b.width.toNat
        (c.set (x + b.width) (y + b.height - 1) "░") (x + 1)
      apply (hcorner.trans hunder).congr
      intro a l
      simp only [Ink.over, dot, runInk, true_and]
      by_cases hbelow : l - y = b.height ∧ 1 ≤ a - x ∧ a - x ≤ b.width
      · rw [if_pos (by omega), if_pos (Or.inr hbelow), Option.some_or]
      · rw [if_neg (by omega), Option.none_or]
        by_cases hat : a - x = b.width ∧ l - y = b.height - 1
        · rw [if_pos (by omega), if_pos (Or.inl hat)]
        · rw [if_neg (by omega), if_neg (by omega)]

end Canvas

namespace Box

/-- The ink of a box in the order in which it is drawn: the top, the rows with
the shadow beside them, the bottom, and what is left of the shadow. -/
def layers (b : Box) (shadow : Bool) (i j : Int) : Option Char :=
  (if shadow ∧ (i = b.width ∧ j = b.height - 1 ∨ j = b.height ∧ 1 ≤ i ∧ i ≤ b.width)
    then some '░' else none).or
  ((if j = b.height - 1 then edgeInk b.width '└' '┘' i else none).or
  ((if 1 ≤ j then (b.rows[(j - 1).toNat]?).bind fun r =>
      (if shadow ∧ i = b.width then some '░' else none).or (r.ink b.width b.padding i)
    else none).or
  (if j = 0 then edgeInk b.width '┌' '┐' i else none)))

private theorem layers_of_onShadow {b : Box} (hb : b.Fits) {i j : Int} (hon : b.OnShadow i j) :
    b.layers true i j = some '░' := by
  have hheight := hb.height
  unfold OnShadow at hon
  unfold layers
  by_cases hlower : i = b.width ∧ j = b.height - 1 ∨ j = b.height ∧ 1 ≤ i ∧ i ≤ b.width
  · rw [if_pos ⟨rfl, hlower⟩, Option.some_or]
  · have hbeside : i = b.width ∧ 1 ≤ j ∧ j < b.height - 1 := by omega
    obtain ⟨r, hr⟩ : ∃ r, b.rows[(j - 1).toNat]? = some r :=
      ⟨_, List.getElem?_eq_getElem (by omega)⟩
    rw [if_neg fun h => hlower h.2, if_neg (show ¬j = b.height - 1 by omega),
      if_pos (show 1 ≤ j by omega), hr, Option.bind_some, if_pos ⟨rfl, hbeside.1⟩]
    rfl

private theorem layers_of_not_onShadow {b : Box} (hb : b.Fits) {shadow : Bool} {i j : Int}
    (hon : ¬(shadow = true ∧ b.OnShadow i j)) : b.layers shadow i j = b.cardInk i j := by
  have hheight := hb.height
  have hlower : ¬(shadow = true ∧ (i = b.width ∧ j = b.height - 1 ∨
      j = b.height ∧ 1 ≤ i ∧ i ≤ b.width)) := by
    rintro ⟨hs, hat⟩
    refine hon ⟨hs, ?_⟩
    unfold OnShadow
    omega
  unfold layers cardInk rowInk
  rw [if_neg hlower, Option.none_or]
  by_cases h0 : j = 0
  · rw [if_pos h0, if_neg (show ¬j = b.height - 1 by omega), if_neg (show ¬1 ≤ j by omega),
      if_pos h0]
    rfl
  · rw [if_neg h0, if_neg h0, Option.or_none]
    by_cases h1 : j = b.height - 1
    · have hpast : b.rows[(j - 1).toNat]? = none := List.getElem?_eq_none (by omega)
      rw [if_pos h1, if_pos h1, hpast]
      simp
    · rw [if_neg h1, if_neg h1, Option.none_or]
      by_cases hin : 1 ≤ j
      · rw [if_pos hin, if_pos hin]
        cases hr : b.rows[(j - 1).toNat]? with
        | none => rfl
        | some r =>
            obtain ⟨hlt, -⟩ := List.getElem?_eq_some_iff.1 hr
            have hbeside : ¬(shadow = true ∧ i = b.width) := by
              rintro ⟨hs, hat⟩
              refine hon ⟨hs, ?_⟩
              unfold OnShadow
              omega
            simp [hbeside]
      · rw [if_neg hin, if_neg hin]

private theorem layers_eq_ink {b : Box} (hb : b.Fits) (shadow : Bool) (i j : Int) :
    b.layers shadow i j = b.ink shadow i j := by
  unfold ink
  by_cases hon : shadow = true ∧ b.OnShadow i j
  · rw [if_pos hon, cardInk_eq_none hb hon.2, hon.1, layers_of_onShadow hb hon.2]
    rfl
  · rw [if_neg hon, Option.or_none, layers_of_not_onShadow hb hon]

end Box

namespace Canvas

/-- Drawing a box leaves its ink and nothing else. -/
theorem drawn_drawBox (c : Canvas) (x y : Int) {b : Box} (hb : b.Fits) (shadow : Bool) :
    Drawn c (c.drawBox x y b shadow) fun a l => b.ink shadow (a - x) (l - y) := by
  have hpad := hb.padding
  have hwidth := hb.width
  have htop := drawn_drawEdge c x y (show 2 ≤ b.width by omega) '┌' '┐'
  have hbody := drawn_drawRows x hpad (show 2 ≤ b.width by omega) shadow b.rows
    (c.drawEdge x y b.width "┌" "┐") (y + 1) hb.text
  have hbottom := drawn_drawEdge ((c.drawEdge x y b.width "┌" "┐").drawRows x (y + 1) b.width
    b.padding shadow b.rows) x (y + b.height - 1) (show 2 ≤ b.width by omega) '└' '┘'
  have hshade := drawn_lowerShadow (((c.drawEdge x y b.width "┌" "┐").drawRows x (y + 1) b.width
    b.padding shadow b.rows).drawEdge x (y + b.height - 1) b.width "└" "┘") x y
    (show 0 ≤ b.width by omega) shadow
  apply (((htop.trans hbody).trans hbottom).trans hshade).congr
  intro a l
  have hcol : (a = x + b.width) ↔ a - x = b.width := by omega
  have hline : l - (y + 1) = l - y - 1 := by omega
  have hbot : (l = y + b.height - 1) ↔ l - y = b.height - 1 := by omega
  have hlow : (y + 1 ≤ l) ↔ 1 ≤ l - y := by omega
  have hup : (l = y) ↔ l - y = 0 := by omega
  simp only [Ink.over, hcol, hline, hbot, hlow, hup]
  exact Box.layers_eq_ink hb shadow (a - x) (l - y)

end Canvas

end Storyboard
