import Storyboard.Text.Blank

/-!
# Canvases

A canvas is a grid of cells, each holding a string. Cells are written and
read by column and row; writing outside the grid changes nothing, and reading
outside it gives a space. Shown as text, a canvas loses the blanks at the end
of each row and the empty rows at its bottom.

## Main definitions

* `Canvas.blank` — a canvas with every cell alike.
* `Canvas.get`, `Canvas.set` — one cell.
* `Canvas.drawText`, `Canvas.drawRow` — runs of cells.
* `Canvas.render` — the canvas as text.

## Main results

* `Canvas.get_set` — `set` changes the cell it names, if the grid has it, and
  no other.
-/

namespace Storyboard

/-- A grid of cells with `height` rows of `width` cells. -/
structure Canvas where
  width : Nat
  height : Nat
  rows : Array (Array String)
  size_rows : rows.size = height
  size_row : ∀ (i : Nat) (h : i < rows.size), rows[i].size = width

namespace Canvas

/-- A canvas with `fill` in every cell; a measure below zero counts as
zero. -/
def blank (width height : Int) (fill : String) : Canvas where
  width := width.toNat
  height := height.toNat
  rows := Array.ofFn fun (_ : Fin height.toNat) => Array.replicate width.toNat fill
  size_rows := by simp
  size_row := by simp

/-- Whether the grid has a cell at column `x` of row `y`. -/
def Holds (c : Canvas) (x y : Int) : Prop :=
  (0 ≤ x ∧ x < c.width) ∧ 0 ≤ y ∧ y < c.height

instance (c : Canvas) (x y : Int) : Decidable (c.Holds x y) :=
  inferInstanceAs (Decidable (_ ∧ _))

/-- The cell at column `x` of row `y`; a space outside the grid. -/
def get (c : Canvas) (x y : Int) : String :=
  if c.Holds x y then ((c.rows[y.toNat]?).bind fun row => row[x.toNat]?).getD " " else " "

/-- Writes the cell at column `x` of row `y`, if the grid has it. -/
def set (c : Canvas) (x y : Int) (cell : String) : Canvas :=
  if c.Holds x y then
    { width := c.width
      height := c.height
      rows := c.rows.modify y.toNat fun row => row.setIfInBounds x.toNat cell
      size_rows := by rw [Array.size_modify]; exact c.size_rows
      size_row := by
        intro i h
        rw [Array.getElem_modify]
        split
        · rw [Array.size_setIfInBounds]; exact c.size_row i (by simpa using h)
        · exact c.size_row i (by simpa using h) }
  else c

/-- Writes the characters of a text into the cells from column `x` on. -/
def drawText (c : Canvas) (x y : Int) : List Char → Canvas
  | [] => c
  | ch :: rest => (c.set x y (String.singleton ch)).drawText (x + 1) y rest

/-- Writes `cell` into `count` cells from column `x` on. -/
def drawRow (c : Canvas) (x y : Int) (cell : String) : (count : Nat) → Canvas
  | 0 => c
  | n + 1 => (c.set x y cell).drawRow (x + 1) y cell n

/-- The rows of a canvas as lines, without blanks at their ends and without
the empty ones at the bottom. -/
def lines (c : Canvas) : List String :=
  Sequence.dropEndWhile (· = "")
    (c.rows.toList.map fun row => Text.stripEnd (String.join row.toList))

/-- A canvas as text. -/
def render (c : Canvas) : String :=
  String.intercalate "\n" c.lines

/-! ## Reading after writing -/

@[simp] theorem width_set (c : Canvas) (x y : Int) (cell : String) :
    (c.set x y cell).width = c.width := by
  unfold set; split <;> rfl

@[simp] theorem height_set (c : Canvas) (x y : Int) (cell : String) :
    (c.set x y cell).height = c.height := by
  unfold set; split <;> rfl

@[simp] theorem holds_set (c : Canvas) (x y a b : Int) (cell : String) :
    (c.set x y cell).Holds a b ↔ c.Holds a b := by
  simp [Holds]

/-- Writing changes the cell named, if the grid has it, and no other. -/
theorem get_set (c : Canvas) (x y a b : Int) (cell : String) :
    (c.set x y cell).get a b = if c.Holds x y ∧ a = x ∧ b = y then cell else c.get a b := by
  by_cases hold : c.Holds x y
  · by_cases hab : c.Holds a b
    · obtain ⟨⟨ha0, ha1⟩, hb0, hb1⟩ := hab
      obtain ⟨⟨hx0, hx1⟩, hy0, hy1⟩ := hold
      have hb : b.toNat < c.rows.size := by have := c.size_rows; omega
      have ha : a.toNat < c.rows[b.toNat].size := by have := c.size_row _ hb; omega
      have hset : (c.set x y cell).rows
          = c.rows.modify y.toNat fun row => row.setIfInBounds x.toNat cell := by
        simp [set, Holds, hx0, hx1, hy0, hy1]
      have hxy : c.Holds x y := ⟨⟨hx0, hx1⟩, hy0, hy1⟩
      have habs : (c.set x y cell).Holds a b := by simp [Holds, ha0, ha1, hb0, hb1]
      have habc : c.Holds a b := ⟨⟨ha0, ha1⟩, hb0, hb1⟩
      by_cases hrow : b = y
      · subst hrow
        by_cases hcol : a = x
        · subst hcol
          simp [get, hset, hb, ha, hxy, Array.getElem_modify]
        · have hne : x.toNat ≠ a.toNat := by omega
          simp [get, hset, hb, ha, habs, habc, hcol, hne, Array.getElem_modify]
      · have hne : y.toNat ≠ b.toNat := by omega
        simp [get, hset, hb, ha, habs, habc, hrow, hne, Array.getElem_modify]
    · have hne : ¬(a = x ∧ b = y) := by rintro ⟨rfl, rfl⟩; exact hab hold
      simp [get, hab, hne]
  · simp [set, hold]

end Canvas

end Storyboard
