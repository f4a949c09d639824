import Mathlib.Order.Bounds.Basic
import Storyboard.Proofs.BoxDrawing
import Storyboard.Proofs.GreedyLines
import Storyboard.Proofs.Sequence
import Storyboard.Proofs.WiderLines

/-!
# How boxes are measured

Each content line of a box gives a block of rows, and the rows of the box are the
blocks one after the other. How many rows a block has depends on how its line
wraps, so the number of a row says nothing by itself; but every row stands in one
block, after the rows of the blocks before it. A separator's block is one row,
drawn as a rule, and no row of any other block is a rule. The width of a box goes
by its longest row that is not a rule.

The lines of a card are empty or have something to show, so that every row of
text on it was wrapped, and no card is wider than its text may be.

## Main results

* `Box.Style.Separates`, `Box.Style.Block` — what a content line is, and the rows
  it takes.
* `Box.mem_ruleRows_measure` — which rows are rules.
* `Box.textColumns_le_of_card` — how wide the text of a card can be.
* `Box.measure_exact` — the measures of a box.
-/

namespace Storyboard

namespace Text

private theorem wrap_ne_nil (text : String) (width : Int) : wrap text width ≠ [] := by
  apply List.length_pos_iff.1
  rw [length_wrap]
  omega

/-- A wrapped line is no longer than the width in force. -/
theorem length_le_of_mem_wrap {text : String} {width : Int} {l : String}
    (hl : l ∈ wrap text width) : l.length ≤ lineWidth width := by
  obtain ⟨groups, hlines, hfilled, -⟩ := wrap_filled text width
  rw [hlines] at hl
  obtain ⟨group, hgroup, rfl⟩ := List.mem_map.1 hl
  rw [String.length_ofList]
  exact hfilled.fits group hgroup

end Text

namespace Box

/-! ## Blocks -/

/-- Whether a content line is a separator: it has characters, and each of them is
the style's mark. -/
def Style.Separates (style : Style) (line : String) : Prop :=
  line ≠ "" ∧ ∀ c ∈ line.toList, String.singleton c = style.ruleMark

/-- The rows that a content line takes: separators and blank lines take one and
are kept as they are, others are wrapped. -/
inductive Style.Block (style : Style) (line : String) : List String → Prop
  | separator : style.Separates line → Block style line [line]
  | blank : (∀ c ∈ line.toList, Text.isBlank c = true) → Block style line [line]
  | wrapped : ¬style.Separates line → (∃ c ∈ line.toList, Text.isBlank c = false) →
    Block style line (Text.wrap line style.textWidth)

theorem isRule_iff {style : Style} {line : String} :
    style.isRule line = true ↔ style.Separates line := by
  simp [Style.isRule, Style.Separates]

private theorem strip_eq_empty_iff {line : String} :
    Text.strip line = "" ↔ ∀ c ∈ line.toList, Text.isBlank c = true := by
  rw [← Text.trim_eq_nil_iff, ← Text.toList_strip, String.toList_eq_nil_iff]

/-- The texts of the rows of a content line. -/
def Style.blockOf (style : Style) (line : String) : List String :=
  (style.rowsOf line).map (·.text)

private theorem block_blockOf (style : Style) (line : String) :
    style.Block line (style.blockOf line) := by
  unfold Style.blockOf Style.rowsOf
  split
  · rename_i hrule
    exact .separator (isRule_iff.1 hrule)
  · rename_i hrule
    split
    · rename_i hblank
      exact .blank (strip_eq_empty_iff.1 hblank)
    · rename_i hblank
      have hletter : ∃ c ∈ line.toList, Text.isBlank c = false := by
        simpa [strip_eq_empty_iff] using hblank
      rw [List.map_map, Function.comp_def, List.map_id']
      exact .wrapped (fun hsep => hrule (isRule_iff.2 hsep)) hletter

private theorem rowsOf_ne_nil (style : Style) (line : String) : style.rowsOf line ≠ [] := by
  unfold Style.rowsOf
  split
  · exact List.cons_ne_nil _ _
  · split
    · exact List.cons_ne_nil _ _
    · simpa using Text.wrap_ne_nil line style.textWidth

private theorem rows_of_ne_nil (style : Style) {content : List String} (h : content ≠ []) :
    style.rows content = content.flatMap style.rowsOf := by
  unfold Style.rows
  split
  · rename_i hnone
    cases content with
    | nil => exact absurd rfl h
    | cons line rest =>
        have hline := List.append_eq_nil_iff.1 (List.flatMap_cons ▸ hnone)
        exact absurd hline.1 (rowsOf_ne_nil style line)
  · rfl

/-- The texts of the rows are the blocks of the content lines. -/
theorem map_text_rows (style : Style) (content : List String) :
    (style.rows content).map (·.text) =
      if content = [] then [""] else (content.map style.blockOf).flatten := by
  by_cases h : content = []
  · subst h
    rfl
  · rw [rows_of_ne_nil style h, if_neg h, List.map_flatMap, ← List.flatMap_def]
    rfl

/-- The rows before a block. -/
theorem length_take_blocks (style : Style) (content : List String) (k : Nat) :
    (((content.map style.blockOf).take k).flatten).length =
      ((content.take k).flatMap style.rowsOf).length := by
  rw [← List.map_take, ← List.flatMap_def,
    ← List.length_map (f := fun r : Row => r.text), List.map_flatMap]
  rfl

/-! ## Rules -/

theorem mem_ruleRows {b : Box} {n : Nat} :
    n ∈ b.ruleRows ↔ ∃ row, b.rows[n]? = some row ∧ row.isRule = true := by
  unfold ruleRows
  rw [List.mem_filterMap]
  constructor
  · rintro ⟨⟨row, m⟩, hmem, hsome⟩
    have hrow := List.mem_zipIdx_iff_getElem?.1 hmem
    dsimp only at hsome
    split at hsome
    · rename_i hrule
      cases hsome
      exact ⟨row, hrow, hrule⟩
    · cases hsome
  · rintro ⟨row, hrow, hrule⟩
    exact ⟨(row, n), List.mem_zipIdx_iff_getElem?.2 hrow, if_pos hrule⟩

/-- Of the rows of a content line, only that of a separator is a rule. -/
theorem isRule_of_rowsOf {style : Style} {line : String} {m : Nat} {row : Row}
    (h : (style.rowsOf line)[m]? = some row) :
    row.isRule = true ↔ style.Separates line ∧ m = 0 := by
  rw [← isRule_iff]
  unfold Style.rowsOf at h
  split at h
  · rename_i hrule
    cases m with
    | zero =>
        cases h
        simp [hrule]
    | succ m => simp at h
  · rename_i hrule
    have hfalse : row.isRule = false := by
      split at h
      · rw [List.mem_singleton.1 (List.mem_of_getElem? h)]
      · obtain ⟨l, -, rfl⟩ := List.mem_map.1 (List.mem_of_getElem? h)
        rfl
    simp [hrule, hfalse]

private theorem getElem?_rows_isRule (style : Style) (content : List String) (n : Nat) :
    (∃ row, (style.rows content)[n]? = some row ∧ row.isRule = true) ↔
      ∃ row, (content.flatMap style.rowsOf)[n]? = some row ∧ row.isRule = true := by
  by_cases h : content = []
  · subst h
    cases n with
    | zero => simp [Style.rows]
    | succ n => simp [Style.rows]
  · rw [rows_of_ne_nil style h]

/-- The rules of a box are where the blocks of separators begin. -/
theorem mem_ruleRows_measure {style : Style} {content : List String} {n : Nat} :
    n ∈ (measure style content).ruleRows ↔ ∃ k line, content[k]? = some line ∧
      style.Separates line ∧ n = ((content.take k).flatMap style.rowsOf).length := by
  rw [mem_ruleRows]
  change (∃ row, (style.rows content)[n]? = some row ∧ _) ↔ _
  rw [getElem?_rows_isRule]
  constructor
  · rintro ⟨row, hrow, hrule⟩
    obtain ⟨k, line, m, hline, hm, rfl⟩ := (Sequence.getElem?_flatMap_iff _ _ _).1 hrow
    obtain ⟨hsep, rfl⟩ := (isRule_of_rowsOf hm).1 hrule
    exact ⟨k, line, hline, hsep, rfl⟩
  · rintro ⟨k, line, hline, hsep, rfl⟩
    have hfirst : (style.rowsOf line)[0]? = some ⟨line, true⟩ := by
      rw [Style.rowsOf, if_pos (isRule_iff.2 hsep)]
      rfl
    exact ⟨_, (Sequence.getElem?_flatMap_iff _ _ _).2 ⟨k, line, 0, hline, hfirst, rfl⟩, rfl⟩

/-- No row of another block is a rule. -/
theorem not_mem_ruleRows_of_block {style : Style} {content : List String} {k m : Nat}
    {line : String} (hline : content[k]? = some line) (hsep : ¬style.Separates line)
    (hm : m < (style.blockOf line).length) :
    ((content.take k).flatMap style.rowsOf).length + m ∉ (measure style content).ruleRows := by
  intro hmem
  have hrules := mem_ruleRows.1 hmem
  change ∃ row, (style.rows content)[_]? = some row ∧ _ at hrules
  rw [getElem?_rows_isRule] at hrules
  obtain ⟨row, hrow, hrule⟩ := hrules
  have hlt : m < (style.rowsOf line).length := by simpa [Style.blockOf] using hm
  have hget := List.getElem?_eq_getElem hlt
  have hsame := (Sequence.getElem?_flatMap_iff _ content _).2 ⟨k, line, m, hline, hget, rfl⟩
  rw [hrow, ← hget] at hsame
  exact hsep ((isRule_of_rowsOf hsame.symm).1 hrule).1

/-! ## Widths -/

theorem setOf_text_lengths (b : Box) :
    {n | ∃ k row, b.rows[k]? = some row ∧ k ∉ b.ruleRows ∧ row.text.length = n} =
      {n | ∃ row ∈ b.rows, row.isRule = false ∧ row.text.length = n} := by
  ext n
  constructor
  · rintro ⟨k, row, hrow, hnot, hlength⟩
    refine ⟨row, List.mem_of_getElem? hrow, ?_, hlength⟩
    exact Bool.eq_false_iff.2 fun hrule => hnot (mem_ruleRows.2 ⟨row, hrow, hrule⟩)
  · rintro ⟨row, hmem, hrule, hlength⟩
    obtain ⟨k, hk⟩ := List.getElem?_of_mem hmem
    refine ⟨k, row, hk, fun hin => ?_, hlength⟩
    obtain ⟨other, hother, htrue⟩ := mem_ruleRows.1 hin
    rw [hk] at hother
    cases hother
    rw [hrule] at htrue
    cases htrue

/-- The text of a card is no wider than it may be. -/
theorem textColumns_le_of_card {style : Style} {content : List String}
    (h : ∀ l ∈ content, Screen.Legible l) :
    textColumns (measure style content).rows ≤ Text.lineWidth style.textWidth := by
  have hpos := Text.lineWidth_pos style.textWidth
  have hattained := (textColumns_isGreatest (measure style content).rows).1
  rcases hattained with hone | ⟨row, hmem, hrule, hlen⟩
  · omega
  · rw [← hlen]
    rcases text_of_mem_rows h hmem hrule with hnil | ⟨l, -, hline⟩
    · rw [hnil]
      exact Nat.zero_le _
    · exact Text.length_le_of_mem_wrap hline

/-! ## Measures -/

/-- The measures of a box. Its rows are the blocks of the content lines in order,
and one empty row if there is no content. Its rules are the rows where the block
of a separator begins, and no row of another block, whatever it looks like. It is
two lines higher than it has rows. It is as wide as its longest row that is not a
rule, but one column at least, with the padding and the sides. And on the card of
a screen no text is wider than the style says. -/
theorem measure_exact (style : Style) (content : List String) :
    let b := measure style content
    (∃ blocks, List.Forall₂ style.Block content blocks ∧
      b.rows.map (·.text) = (if content = [] then [""] else blocks.flatten) ∧
      (∀ n, n ∈ b.ruleRows ↔ ∃ k line, content[k]? = some line ∧ style.Separates line ∧
        n = (blocks.take k).flatten.length) ∧
      ∀ k line block m, content[k]? = some line → ¬style.Separates line →
        blocks[k]? = some block → m < block.length →
          (blocks.take k).flatten.length + m ∉ b.ruleRows) ∧
    b.height = b.rows.length + 2 ∧
    (∃ columns : Nat, IsGreatest (insert 1 {n | ∃ k row, b.rows[k]? = some row ∧ k ∉ b.ruleRows ∧
        row.text.length = n}) columns ∧
      b.width = 2 * style.padding + 2 + columns) ∧
    ∀ s : Screen, s.card = .ok content →
      b.width - 2 * style.padding - 2 ≤ max 1 style.textWidth := by
  intro b
  have hwidth : b.width = 2 * style.padding + 2 + textColumns b.rows := by
    change (textColumns b.rows : Int) + 2 * style.padding + 2 = _
    omega
  refine ⟨⟨content.map style.blockOf, ?_, map_text_rows style content, fun n => ?_,
    fun k line block m hline hsep hblock hm => ?_⟩, rfl, ⟨textColumns b.rows, ?_, hwidth⟩,
    fun s hcard => ?_⟩
  · exact List.forall₂_map_right_iff.2 (List.forall₂_same.2 fun line _ => block_blockOf style line)
  · simp only [length_take_blocks]
    exact mem_ruleRows_measure
  · rw [List.getElem?_map, hline] at hblock
    cases hblock
    rw [length_take_blocks]
    exact not_mem_ruleRows_of_block hline hsep hm
  · rw [setOf_text_lengths]
    exact textColumns_isGreatest b.rows
  · have hlegible := fun l hl => (Screen.cardLine_of_mem_card hcard l hl).legible
    have hcolumns : textColumns b.rows ≤ Text.lineWidth style.textWidth :=
      textColumns_le_of_card hlegible
    have hline : (Text.lineWidth style.textWidth : Int) = max 1 style.textWidth := by
      rw [Text.lineWidth]
      omega
    rw [hwidth]
    omega

/-- A screen whose card has a separator and a longer line that wraps to dashes. -/
def dashes : Screen where
  name := "A"
  components := [⟨.action, "---------------"⟩]
  sections := [0]

theorem dashes_measure :
    let style : Style := { textWidth := 12 }
    let card := ["[A]", "", "------------", "ACTION: ---------------"]
    dashes.card = .ok card ∧
    (measure style card).rows.map (·.text) =
      ["[A]", "", "------------", "ACTION:", "------------", "---"] ∧
    (measure style card).ruleRows = [2] ∧
    (measure style card).width - 2 * style.padding - 2 ≤ max 1 12 := by
  intro style card
  have hcard : dashes.card = .ok card := by decide +kernel
  have hwidth := (measure_exact style card).2.2.2 dashes hcard
  exact ⟨hcard, by decide +kernel, by decide +kernel, hwidth⟩

end Box

end Storyboard
