import Mathlib.Tactic.Ring
import Storyboard.Painter.ImageSheet
import Storyboard.Proofs.Sequence

/-!
# The lines of a card fill its box

A card of a picture is measured before it is drawn, and by another rule. Measuring
counts the height of every line and the room between two lines; drawing goes down
by a line and the room after it, the last line included, and writes nothing for an
empty line and a rule for a separator. Both come to the same: each line has a slot
of its own, of the height of a line, and the slots fill the box between its paddings
with the room for spacing between them and none left over.

## Main results

* `ImageSheet.slot` — where the slot of a line begins.
* `ImageSheet.filterMap_lineMarks` — what is drawn for lines, line by line.
* `ImageSheet.slot_last` — the last slot ends at the padding.
* `ImageSheet.Fills`, `ImageSheet.boxMarks_fill` — the marks of a card in a box of
  its size.
-/

namespace Storyboard

/-- The place and the content of a text. -/
def Mark.text? : Mark → Option (Point × String)
  | .text place content _ _ => some (place, content)
  | _ => none

/-- The points of a line. -/
def Mark.line? : Mark → Option (List Point)
  | .line points _ _ => some points
  | _ => none

namespace ImageSheet

variable {o : Options} {pen : Pen}

/-! ## Slots -/

/-- Where the slot of the line with a number begins, the first of them at `top`. -/
def slot (o : Options) (pen : Pen) (top : Int) (k : Nat) : Int :=
  top + k * (pen.lineHeight + o.lineSpacing)

@[simp] theorem slot_zero (top : Int) : slot o pen top 0 = top := by
  simp [slot]

theorem slot_succ (top : Int) (k : Nat) :
    slot o pen top (k + 1) = slot o pen top k + (pen.lineHeight + o.lineSpacing) := by
  simp only [slot]
  push_cast
  ring

private theorem lineSpacing_nonneg (h : 0 ≤ o.scale) : 0 ≤ o.lineSpacing := by
  unfold Options.lineSpacing
  omega

private theorem slot_mono (hheight : 0 ≤ pen.lineHeight) (hscale : 0 ≤ o.scale) (top : Int)
    {j k : Nat} (h : j ≤ k) : slot o pen top j ≤ slot o pen top k := by
  have hroom := lineSpacing_nonneg hscale
  induction k, h using Nat.le_induction with
  | base => exact le_refl _
  | succ k _ ih =>
      rw [slot_succ]
      omega

/-- A slot ends before the next one begins. -/
theorem slot_add_le (hheight : 0 ≤ pen.lineHeight) (hscale : 0 ≤ o.scale) (top : Int) {j k : Nat}
    (h : j < k) : slot o pen top j + pen.lineHeight ≤ slot o pen top k := by
  have hroom := lineSpacing_nonneg hscale
  have hnext := slot_mono hheight hscale top (Nat.succ_le_of_lt h)
  rw [slot_succ] at hnext
  omega

/-- The height of a card is that of its slots, the room between them and the
paddings: the last slot ends where the lower padding begins. -/
theorem slot_last (o : Options) (pen : Pen) {lines : List String} (h : lines ≠ []) (y : Int) :
    slot o pen (y + o.boxPadding * o.scale) (lines.length - 1) + pen.lineHeight =
      y + (cardSize o pen lines).2 - o.boxPadding * o.scale := by
  obtain ⟨l, rest, rfl⟩ := List.exists_cons_of_ne_nil h
  simp only [slot, cardSize, textHeight, List.length_cons, Nat.add_sub_cancel]
  ring

/-! ## Widths -/

/-- Every line fits between the paddings. -/
theorem width_le_cardSize {lines : List String} {l : String} (hl : l ∈ lines) (hne : l ≠ "") :
    (pen.bounds l).width ≤ (cardSize o pen lines).1 - 2 * (o.boxPadding * o.scale) := by
  have hwidest : (pen.bounds l).width ≤ textWidth pen lines := by
    refine (Sequence.le_foldl_max _ 0).2 _ (List.mem_map.2 ⟨l, hl, ?_⟩)
    rw [if_neg hne]
  have hcard : textWidth pen lines + o.boxPadding * 2 * o.scale ≤ (cardSize o pen lines).1 :=
    le_max_right _ _
  have hpadding : o.boxPadding * 2 * o.scale = 2 * (o.boxPadding * o.scale) := by ring
  omega

/-! ## Marks -/

theorem lineMarks_cons (f : Frame) (y : Int) (l : String) (rest : List String) :
    lineMarks o pen f y (l :: rest) =
      lineMarks o pen f y [l] ++ lineMarks o pen f (y + (pen.lineHeight + o.lineSpacing)) rest := by
  simp [lineMarks]

/-- What is seen of the marks of lines is what is seen of each line in its slot: if
some lines show by one thing each, and other lines by nothing, then these things are
seen in the order of the lines. -/
theorem filterMap_lineMarks {β : Type} {f : Frame} {view : Mark → Option β} {shows : String → Bool}
    {seen : Int → String → β}
    (hline : ∀ y l, (lineMarks o pen f y [l]).filterMap view =
      if shows l then [seen y l] else []) (top : Int) (lines : List String) :
    ∀ n : Nat, (lineMarks o pen f (slot o pen top n) lines).filterMap view =
      ((lines.zipIdx n).filter fun e => shows e.1).map fun e => seen (slot o pen top e.2) e.1 := by
  induction lines with
  | nil =>
      intro n
      rfl
  | cons l rest ih =>
      intro n
      rw [lineMarks_cons, List.filterMap_append, hline, ← slot_succ, ih (n + 1), List.zipIdx_cons,
        List.filter_cons]
      split
      · rfl
      · rfl

/-- A line is written unless it is empty or a separator. -/
theorem filterMap_text?_lineMarks (o : Options) (pen : Pen) (f : Frame) (y : Int) (l : String) :
    (lineMarks o pen f y [l]).filterMap Mark.text? =
      if decide (l ≠ "" ∧ l ≠ separator) then [(⟨f.x + o.boxPadding * o.scale, y⟩, l)] else [] := by
  by_cases hseparator : l = separator
  · simp [hseparator, lineMarks, Mark.text?]
  · by_cases hempty : l = ""
    · simp [hempty, lineMarks, Mark.text?]
    · simp [hseparator, hempty, lineMarks, Mark.text?]

/-- Only a separator is drawn as a rule. -/
theorem filterMap_line?_lineMarks (o : Options) (pen : Pen) (f : Frame) (y : Int) (l : String) :
    (lineMarks o pen f y [l]).filterMap Mark.line? =
      if decide (l = separator) then
        [[⟨f.x, y + pen.lineHeight / 2⟩, ⟨f.x + f.width, y + pen.lineHeight / 2⟩]]
      else [] := by
  by_cases hseparator : l = separator
  · simp [hseparator, lineMarks, Mark.line?]
  · by_cases hempty : l = ""
    · subst hempty
      simp [Ne.symm hseparator, lineMarks]
    · simp [hseparator, hempty, lineMarks, Mark.line?]

/-- For lines, nothing is drawn but texts and rules. -/
theorem isSome_of_mem_lineMarks {f : Frame} {m : Mark} {lines : List String} :
    ∀ {y : Int}, m ∈ lineMarks o pen f y lines → m.text?.isSome = true ∨ m.line?.isSome = true := by
  induction lines with
  | nil =>
      intro y hm
      cases hm
  | cons l rest ih =>
      intro y hm
      unfold lineMarks at hm
      rcases List.mem_append.1 hm with hm | hm
      · split at hm
        · rw [List.mem_singleton.1 hm]
          exact Or.inr rfl
        · split at hm
          · cases hm
          · rw [List.mem_singleton.1 hm]
            exact Or.inl rfl
      · exact ih hm

/-! ## Cards in their boxes -/

/-- What is asked of the marks of a card in a box `f`, when the slots of its lines
begin at `top`. -/
structure Fills (o : Options) (pen : Pen) (f : Frame) (lines : List String) (top : Nat → Int)
    (marks : List Mark) : Prop where
  /-- Lines with something to read are written once each, in order, behind the padding
  and from the top of their slots. -/
  texts : marks.filterMap Mark.text? =
    (lines.zipIdx.filter fun e => e.1 ≠ "" ∧ e.1 ≠ separator).map fun e =>
      (⟨f.x + o.boxPadding * o.scale, top e.2⟩, e.1)
  /-- What is written ends before the padding on the right. -/
  fits : ∀ l ∈ lines, l ≠ "" → (pen.bounds l).width ≤ f.width - 2 * (o.boxPadding * o.scale)
  /-- Separators are drawn once each, in order, as rules across the box, and a rule lies
  in the slot of its line. -/
  rules : ∃ rule : Nat → Int,
    (∀ k, top k ≤ rule k ∧ rule k ≤ top k + pen.lineHeight ∧
      (0 < pen.lineHeight → rule k < top k + pen.lineHeight)) ∧
    marks.filterMap Mark.line? = (lines.zipIdx.filter fun e => e.1 = separator).map fun e =>
      [⟨f.x, rule e.2⟩, ⟨f.x + f.width, rule e.2⟩]
  /-- The box itself comes first, and there is nothing else. -/
  box : marks.head? = some (.rectangle ⟨f.x, f.y⟩ ⟨f.x + f.width, f.y + f.height⟩ cream
    (some black) o.strokeWidth)
  only : ∀ m ∈ marks.tail, m.text?.isSome = true ∨ m.line?.isSome = true
  /-- The slots of all lines lie between the paddings. -/
  within : ∀ k < lines.length, f.y + o.boxPadding * o.scale ≤ top k ∧
    top k + pen.lineHeight ≤ f.y + f.height - o.boxPadding * o.scale
  /-- Slots follow each other with the same room between them, and do not overlap. -/
  spaced : ∀ k, top (k + 1) = top k + pen.lineHeight + 4 * o.scale
  apart : ∀ j k, j < k → top j + pen.lineHeight ≤ top k
  /-- The first slot begins and the last one ends at a padding. -/
  first : top 0 = f.y + o.boxPadding * o.scale
  last : top (lines.length - 1) + pen.lineHeight = f.y + f.height - o.boxPadding * o.scale

/-- A card drawn in a box of the size that was measured for it fills the box: its
lines have their slots between the paddings, from the upper to the lower one, and
what is drawn for a line lies in its slot and between the paddings on either side.
The measures of texts may be anything, as long as lines have no negative height. -/
theorem boxMarks_fill (o : Options) (pen : Pen) (lines : List String) (x y : Int)
    (hlines : lines ≠ []) (hheight : 0 ≤ pen.lineHeight) (hscale : 0 ≤ o.scale) :
    let f : Frame := ⟨x, y, (cardSize o pen lines).1, (cardSize o pen lines).2⟩
    Fills o pen f lines (slot o pen (y + o.boxPadding * o.scale)) (boxMarks o pen f lines) := by
  intro f
  have hlast := slot_last o pen hlines y
  have hlength : 0 < lines.length := List.length_pos_of_ne_nil hlines
  constructor
  case texts =>
    have htexts := filterMap_lineMarks (filterMap_text?_lineMarks o pen f)
      (y + o.boxPadding * o.scale) lines 0
    rw [slot_zero] at htexts
    exact htexts
  case fits =>
    intro l hl hne
    exact width_le_cardSize hl hne
  case rules =>
    have hrules := filterMap_lineMarks (filterMap_line?_lineMarks o pen f)
      (y + o.boxPadding * o.scale) lines 0
    rw [slot_zero] at hrules
    refine ⟨fun k => slot o pen (y + o.boxPadding * o.scale) k + pen.lineHeight / 2,
      fun k => ?_, hrules⟩
    dsimp only
    omega
  case box => rfl
  case only =>
    intro m hm
    exact isSome_of_mem_lineMarks hm
  case within =>
    intro k hk
    have hfirst := slot_mono hheight hscale (y + o.boxPadding * o.scale) (Nat.zero_le k)
    have hbelow := slot_mono hheight hscale (y + o.boxPadding * o.scale)
      (show k ≤ lines.length - 1 by omega)
    rw [slot_zero] at hfirst
    exact ⟨hfirst, by dsimp only [f]; omega⟩
  case spaced =>
    intro k
    rw [slot_succ, Options.lineSpacing]
    omega
  case apart => exact fun j k hjk => slot_add_le hheight hscale _ hjk
  case first => exact slot_zero _
  case last => exact hlast

/-- A pen with block letters. -/
def blockPen : Pen := ⟨⟨none, 24⟩, Font.blockBounds ⟨none, 24⟩⟩

theorem blockPen_fill :
    blockPen.lineHeight = 30 ∧
    cardSize {} blockPen ["[A]", "", separator, "ACTION: go"] = (280, 192) ∧
    Fills {} blockPen ⟨7, 9, 280, 192⟩ ["[A]", "", separator, "ACTION: go"] (slot {} blockPen 33)
      (boxMarks {} blockPen ⟨7, 9, 280, 192⟩ ["[A]", "", separator, "ACTION: go"]) := by
  have hheight : blockPen.lineHeight = 30 := by decide
  have hsize : cardSize {} blockPen ["[A]", "", separator, "ACTION: go"] = (280, 192) := by decide
  have hfill := boxMarks_fill {} blockPen ["[A]", "", separator, "ACTION: go"] 7 9 (by decide)
    (by rw [hheight]; decide) (by decide)
  rw [hsize] at hfill
  exact ⟨hheight, hsize, hfill⟩

end ImageSheet

end Storyboard
