import Storyboard.Canvas
import Storyboard.Proofs.Sequence

/-!
# Reading a canvas back from its text

A canvas is shown as text without the blanks at the end of its rows and
without the empty rows at its bottom. As long as each cell holds one character
and spaces are the only blanks, nothing is lost by that: what is missing from
the text is read as a space, and every cell has its character at its column of
its line.

## Main results

* `Canvas.cellAt_lines` — a cell of a plain canvas read from its lines.
* `Canvas.cellAt_render` — the same from the whole text, cut at line feeds.
-/

namespace Storyboard

namespace Text

/-- The character at column `x` of line `y`; a space where the text has
none. -/
def cellAt (lines : List (List Char)) (x y : Nat) : Char :=
  (((lines[y]?).getD [])[x]?).getD ' '

/-- The lines of a text as they are cut at line feeds. -/
def rowsOf (text : String) : List (List Char) := text.toList.splitOn '\n'

/-- The character of a cell. -/
def charOf (cell : String) : Char := cell.toList.headD ' '

@[simp] theorem charOf_singleton (ch : Char) : charOf (String.singleton ch) = ch := by
  simp [charOf]

end Text

namespace Canvas

open Text

/-- Whether each cell holds one character and no blank but the space. -/
def Plain (c : Canvas) : Prop :=
  ∀ x y, c.Holds x y → ∃ ch, c.get x y = String.singleton ch ∧ (isBlank ch = true → ch = ' ')

theorem get_of_not_holds {c : Canvas} {x y : Int} (h : ¬c.Holds x y) : c.get x y = " " :=
  if_neg h

/-- The cells of a row by column. -/
theorem getElem?_row (c : Canvas) {y : Nat} (hy : y < c.rows.size) (x : Nat) :
    c.rows[y].toList[x]? = if x < c.width then some (c.get x y) else none := by
  have hheight := c.size_rows
  have hsize := c.size_row y hy
  by_cases hx : x < c.width
  · have hold : c.Holds x y := ⟨⟨by omega, by omega⟩, by omega, by omega⟩
    rw [if_pos hx, get, if_pos hold]
    simp [hy, show x < c.rows[y].size by omega]
  · rw [if_neg hx]
    exact List.getElem?_eq_none (by simp; omega)

/-- Cells of one character each, put together, are their characters. -/
theorem flatMap_toList_eq_map {cells : List String}
    (h : ∀ s ∈ cells, ∃ ch, s = String.singleton ch) :
    cells.flatMap String.toList = cells.map charOf := by
  induction cells with
  | nil => rfl
  | cons s cells ih =>
      obtain ⟨ch, rfl⟩ := h s (by simp)
      rw [List.flatMap_cons, List.map_cons, ih fun t ht => h t (by simp [ht]), charOf_singleton]
      simp

/-- The characters of a row of a plain canvas. -/
def rowChars (c : Canvas) (y : Nat) : List Char :=
  (List.range c.width).map fun x : Nat => charOf (c.get x y)

private theorem toList_join_row {c : Canvas} (hc : c.Plain) {y : Nat} (hy : y < c.rows.size) :
    (String.join c.rows[y].toList).toList = c.rowChars y := by
  have hheight := c.size_rows
  have hcells : c.rows[y].toList = (List.range c.width).map fun x : Nat => c.get x y := by
    apply List.ext_getElem?
    intro x
    rw [getElem?_row c hy, List.getElem?_map]
    by_cases hx : x < c.width
    · rw [if_pos hx, List.getElem?_range hx]
      rfl
    · rw [if_neg hx, List.getElem?_eq_none (by rw [List.length_range]; omega)]
      rfl
  have hsingle : ∀ s ∈ c.rows[y].toList, ∃ ch, s = String.singleton ch := by
    intro s hs
    rw [hcells] at hs
    obtain ⟨x, hx, rfl⟩ := List.mem_map.1 hs
    have hlt := List.mem_range.1 hx
    obtain ⟨ch, hch, -⟩ := hc x y ⟨⟨by omega, by omega⟩, by omega, by omega⟩
    exact ⟨ch, hch⟩
  rw [String.toList_join, flatMap_toList_eq_map hsingle, hcells, List.map_map]
  rfl

/-- The only blanks in a row of a plain canvas are spaces. -/
theorem eq_space_of_mem_rowChars {c : Canvas} (hc : c.Plain) {y : Nat} (hy : y < c.height)
    {ch : Char} (h : ch ∈ c.rowChars y) (hblank : isBlank ch = true) : ch = ' ' := by
  obtain ⟨x, hx, rfl⟩ := List.mem_map.1 h
  have hlt := List.mem_range.1 hx
  obtain ⟨ch, hch, hspace⟩ := hc x y ⟨⟨by omega, by omega⟩, by omega, by omega⟩
  rw [hch, charOf_singleton] at hblank ⊢
  exact hspace hblank

/-- The lines of a plain canvas before the empty ones at its bottom are
dropped. -/
theorem lines_eq {c : Canvas} (hc : c.Plain) :
    c.lines = Sequence.dropEndWhile (· = "")
      ((List.range c.height).map fun y => String.ofList (trimEnd (c.rowChars y))) := by
  unfold lines
  congr 1
  apply List.ext_getElem?
  intro y
  rw [List.getElem?_map, List.getElem?_map]
  by_cases hy : y < c.rows.size
  · have hrow : c.rows.toList[y]? = some c.rows[y] := by simp [hy]
    rw [hrow, List.getElem?_range (by rw [← c.size_rows]; exact hy)]
    simp only [Option.map_some, stripEnd, toList_join_row hc hy]
  · have hheight := c.size_rows
    rw [List.getElem?_eq_none (by simp; omega), List.getElem?_eq_none (by simp; omega)]
    rfl

/-- A cell of a plain canvas, read from its lines. -/
theorem cellAt_lines {c : Canvas} (hc : c.Plain) (x y : Nat) :
    cellAt (c.lines.map String.toList) x y = charOf (c.get x y) := by
  have hline : ((c.lines.map String.toList)[y]?).getD [] = ((c.lines[y]?).getD "").toList := by
    rw [List.getElem?_map]
    cases c.lines[y]? <;> rfl
  rw [cellAt, hline, lines_eq hc, Sequence.getD_dropEndWhile (by simp), List.getElem?_map]
  by_cases hy : y < c.height
  · have hspaces : ∀ ch ∈ c.rowChars y, isBlank ch = true → ch = ' ' :=
      fun ch hch hblank => eq_space_of_mem_rowChars hc hy hch hblank
    rw [List.getElem?_range hy, Option.map_some, Option.getD_some, String.toList_ofList, trimEnd,
      Sequence.getD_dropEndWhile hspaces, rowChars, List.getElem?_map]
    by_cases hx : x < c.width
    · rw [List.getElem?_range hx]
      rfl
    · have hout : ¬c.Holds x y := fun h => hx (by have := h.1.2; omega)
      rw [List.getElem?_eq_none (by rw [List.length_range]; omega), get_of_not_holds hout]
      rfl
  · have hout : ¬c.Holds x y := fun h => hy (by have := h.2.2; omega)
    have hpast : (List.range c.height)[y]? = none :=
      List.getElem?_eq_none (by rw [List.length_range]; omega)
    rw [hpast, get_of_not_holds hout]
    rfl

/-- No line of a plain canvas holds a line feed. -/
theorem not_mem_lines {c : Canvas} (hc : c.Plain) {l : String} (hl : l ∈ c.lines) :
    '\n' ∉ l.toList := by
  intro hfeed
  rw [lines_eq hc] at hl
  obtain ⟨tail, heq, -⟩ := Sequence.exists_append_dropEndWhile (· = "")
    ((List.range c.height).map fun y => String.ofList (trimEnd (c.rowChars y)))
  have hmem : l ∈ (List.range c.height).map fun y => String.ofList (trimEnd (c.rowChars y)) := by
    rw [heq]
    exact List.mem_append_left tail hl
  obtain ⟨y, hy, rfl⟩ := List.mem_map.1 hmem
  rw [String.toList_ofList] at hfeed
  obtain ⟨rest, hrow, -⟩ := Sequence.exists_append_dropEndWhile isBlank (c.rowChars y)
  have hchar : '\n' ∈ c.rowChars y := by
    rw [hrow]
    exact List.mem_append_left rest hfeed
  have hspace := eq_space_of_mem_rowChars hc (List.mem_range.1 hy) hchar (by decide)
  exact absurd hspace (by decide)

/-- A cell of a plain canvas, read from its text. -/
theorem cellAt_render {c : Canvas} (hc : c.Plain) (x y : Nat) :
    cellAt (rowsOf c.render) x y = charOf (c.get x y) := by
  rw [← cellAt_lines hc, rowsOf, render, String.toList_intercalate]
  by_cases hne : c.lines = []
  · rw [hne]
    cases y <;> rfl
  · have hfree : ∀ l ∈ c.lines.map String.toList, '\n' ∉ l := by
      intro l hl
      obtain ⟨s, hs, rfl⟩ := List.mem_map.1 hl
      exact not_mem_lines hc hs
    exact congrArg (fun ls => cellAt ls x y)
      (List.splitOn_intercalate '\n' hfree (by simpa using hne))

end Canvas

end Storyboard
