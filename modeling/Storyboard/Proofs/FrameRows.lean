import Mathlib.Data.List.Chain
import Mathlib.Tactic.Ring
import Storyboard.Painter.ImageSheet
import Storyboard.Proofs.Sequence

/-!
# Where the cards of a picture stand

The cards of a picture stand in rows. A row is put down from left to right, with a
gap after each card, and is centred in the width of the widest row; the next row
begins a gap below the tallest card. After the last row there is one gap too many,
which is taken away again when the height of the picture is worked out.

The rows are followed card by card and then row by row. What is known of a row
after its last card (`InRow`) does not depend on the other rows, and what is known
of rows (`Placement`) follows from that and from the lines at which they begin and
end.

## Main results

* `ImageSheet.InRow`, `ImageSheet.frameRow_inRow` — the boxes of one row.
* `ImageSheet.frameLayers` — the boxes row by row.
* `ImageSheet.frameLayers_stacked` — rows stand one below the other.
* `ImageSheet.Placement`, `ImageSheet.frameLayers_placement` — the boxes of all
  cards in the picture.
-/

namespace Storyboard

/-- Whether a pixel belongs to a box. -/
def Frame.Covers (f : Frame) (a b : Int) : Prop :=
  (f.x ≤ a ∧ a < f.x + f.width) ∧ f.y ≤ b ∧ b < f.y + f.height

namespace ImageSheet

variable {o : Options} {sizes : List (Int × Int)}

/-! ## Measures of a row -/

theorem rowWidth_singleton (i : Nat) : rowWidth o sizes [i] = (sizeAt sizes i).1 := by
  simp [rowWidth]

private theorem rowWidth_cons_cons (i j : Nat) (rest : List Nat) :
    rowWidth o sizes (i :: j :: rest) =
      (sizeAt sizes i).1 + o.horizontalSpacing * o.scale + rowWidth o sizes (j :: rest) := by
  simp only [rowWidth, ← List.sum_eq_foldl, List.map_cons, List.sum_cons, List.length_cons]
  push_cast
  ring

private theorem le_rowHeight {row : List Nat} {i : Nat} (hi : i ∈ row) :
    (sizeAt sizes i).2 ≤ rowHeight sizes row :=
  Sequence.le_greatest (List.mem_map.2 ⟨i, hi, rfl⟩)

private theorem rowHeight_nonneg (h : ∀ i, 0 ≤ (sizeAt sizes i).2) (row : List Nat) :
    0 ≤ rowHeight sizes row := by
  cases row with
  | nil => exact le_refl 0
  | cons i rest => exact le_trans (h i) (le_rowHeight List.mem_cons_self)

/-- A size is one of those given, or that of a card that is not there. -/
theorem sizeAt_nonneg (h : ∀ size ∈ sizes, 0 ≤ size.1 ∧ 0 ≤ size.2) (i : Nat) :
    0 ≤ (sizeAt sizes i).1 ∧ 0 ≤ (sizeAt sizes i).2 := by
  unfold sizeAt
  cases hsize : sizes[i]? with
  | none => exact ⟨le_refl 0, le_refl 0⟩
  | some size => exact h size (List.mem_of_getElem? hsize)

/-! ## One row -/

/-- Boxes, each with the number of its card, that make up a row from `left` to
`right`: each has the size of its card and stands at line `y`, a gap lies between
neighbours, and none reaches over an end of the row or into another. -/
structure InRow (o : Options) (sizes : List (Int × Int)) (left right y : Int) (row : List Nat)
    (boxes : List (Nat × Frame)) : Prop where
  index : boxes.map (·.1) = row
  size : ∀ e ∈ boxes, (e.2.width, e.2.height) = sizeAt sizes e.1
  top : ∀ e ∈ boxes, e.2.y = y
  beside : boxes.IsChain fun a b => b.2.x = a.2.x + a.2.width + o.horizontalSpacing * o.scale
  first : ∀ e ∈ boxes.head?, e.2.x = left
  last : ∀ e ∈ boxes.getLast?, e.2.x + e.2.width = right
  within : ∀ e ∈ boxes, left ≤ e.2.x ∧ e.2.x + e.2.width ≤ right
  apart : boxes.Pairwise fun a b => a.2.x + a.2.width ≤ b.2.x

private theorem frameRow_cons (x y : Int) (i : Nat) (rest : List Nat) :
    frameRow o sizes x y (i :: rest) =
      (i, ⟨x, y, (sizeAt sizes i).1, (sizeAt sizes i).2⟩) ::
        frameRow o sizes (x + (sizeAt sizes i).1 + o.horizontalSpacing * o.scale) y rest := rfl

/-- One card makes up a row by itself. -/
theorem inRow_singleton (x y : Int) (i : Nat) :
    InRow o sizes x (x + (sizeAt sizes i).1) y [i]
      [(i, ⟨x, y, (sizeAt sizes i).1, (sizeAt sizes i).2⟩)] := by
  constructor <;> simp

/-- A card put before a row with a gap between makes it a longer row. -/
theorem InRow.cons (hgap : 0 ≤ o.horizontalSpacing * o.scale)
    (hwidth : ∀ i, 0 ≤ (sizeAt sizes i).1) {x y right : Int} {i : Nat} {row : List Nat}
    {boxes : List (Nat × Frame)} (hne : boxes ≠ [])
    (h : InRow o sizes (x + (sizeAt sizes i).1 + o.horizontalSpacing * o.scale) right y row boxes) :
    InRow o sizes x right y (i :: row)
      ((i, ⟨x, y, (sizeAt sizes i).1, (sizeAt sizes i).2⟩) :: boxes) := by
  have hpos := hwidth i
  obtain ⟨b, rest, rfl⟩ := List.exists_cons_of_ne_nil hne
  have hb := h.within b List.mem_cons_self
  have hbwidth : 0 ≤ b.2.width := by
    rw [show b.2.width = (sizeAt sizes b.1).1 from congrArg Prod.fst (h.size b List.mem_cons_self)]
    exact hwidth b.1
  constructor
  case index => rw [List.map_cons, h.index]
  case size =>
    intro e he
    rcases List.mem_cons.1 he with rfl | he
    · rfl
    · exact h.size e he
  case top =>
    intro e he
    rcases List.mem_cons.1 he with rfl | he
    · rfl
    · exact h.top e he
  case beside => exact List.isChain_cons.2 ⟨fun e he => h.first e he, h.beside⟩
  case first =>
    intro e he
    cases he
    rfl
  case last =>
    rw [List.getLast?_cons_cons]
    exact h.last
  case within =>
    intro e he
    rcases List.mem_cons.1 he with rfl | he
    · exact ⟨le_refl x, by dsimp only; omega⟩
    · have hin := h.within e he
      omega
  case apart =>
    refine List.pairwise_cons.2 ⟨fun e he => ?_, h.apart⟩
    have hin := h.within e he
    dsimp only
    omega

/-- The boxes of a row stand side by side from its left end to its right end. -/
theorem frameRow_inRow (hgap : 0 ≤ o.horizontalSpacing * o.scale)
    (hwidth : ∀ i, 0 ≤ (sizeAt sizes i).1) (y : Int) :
    ∀ (row : List Nat) (x : Int), row ≠ [] →
      InRow o sizes x (x + rowWidth o sizes row) y row (frameRow o sizes x y row) := by
  intro row
  induction row with
  | nil =>
      intro x hne
      exact absurd rfl hne
  | cons i rest ih =>
      intro x _
      cases rest with
      | nil =>
          rw [rowWidth_singleton]
          exact inRow_singleton x y i
      | cons j rest =>
          have htail := ih (x + (sizeAt sizes i).1 + o.horizontalSpacing * o.scale)
            (List.cons_ne_nil j rest)
          rw [frameRow_cons, rowWidth_cons_cons]
          refine InRow.cons hgap hwidth (List.cons_ne_nil _ _) ?_
          rw [show x + ((sizeAt sizes i).1 + o.horizontalSpacing * o.scale +
              rowWidth o sizes (j :: rest)) = x + (sizeAt sizes i).1 +
              o.horizontalSpacing * o.scale + rowWidth o sizes (j :: rest) by omega]
          exact htail

/-! ## All rows -/

/-- Where a row begins that is centred in a width. -/
def rowLeft (o : Options) (sizes : List (Int × Int)) (width : Int) (row : List Nat) : Int :=
  o.margin * o.scale + (width - rowWidth o sizes row) / 2

/-- The boxes of rows of cards from `y` on, row by row. -/
def frameLayers (o : Options) (sizes : List (Int × Int)) (width y : Int) :
    List (List Nat) → List (List (Nat × Frame))
  | [] => []
  | row :: rest =>
    frameRow o sizes (rowLeft o sizes width row) y row ::
      frameLayers o sizes width (y + rowHeight sizes row + o.verticalSpacing * o.scale) rest

/-- The line that the row after some rows would begin at. -/
def lineAfter (o : Options) (sizes : List (Int × Int)) (y : Int) (rows : List (List Nat)) : Int :=
  rows.foldl (fun y row => y + rowHeight sizes row + o.verticalSpacing * o.scale) y

theorem flatten_frameLayers (width : Int) (rows : List (List Nat)) :
    ∀ y : Int, (frameLayers o sizes width y rows).flatten = frameRows o sizes width y rows := by
  induction rows with
  | nil =>
      intro y
      rfl
  | cons row rest ih =>
      intro y
      rw [frameLayers, List.flatten_cons, ih, frameRows, rowLeft]

private theorem map_index_frameRow (y : Int) (row : List Nat) :
    ∀ x : Int, (frameRow o sizes x y row).map (·.1) = row := by
  induction row with
  | nil =>
      intro x
      rfl
  | cons i rest ih =>
      intro x
      rw [frameRow_cons, List.map_cons, ih]

/-- The boxes stand in the rows of their cards. -/
theorem map_index_frameLayers (width : Int) (rows : List (List Nat)) :
    ∀ y : Int, (frameLayers o sizes width y rows).map (·.map (·.1)) = rows := by
  induction rows with
  | nil =>
      intro y
      rfl
  | cons row rest ih =>
      intro y
      rw [frameLayers, List.map_cons, ih, map_index_frameRow]

theorem map_index_framesFor (rows : List (List Nat)) :
    (framesFor o sizes rows).map (·.1) = rows.flatten := by
  rw [framesFor, ← flatten_frameLayers, List.map_flatten, map_index_frameLayers]

/-- Every row stands somewhere, centred in the width. -/
theorem exists_inRow_of_mem (hgap : 0 ≤ o.horizontalSpacing * o.scale)
    (hwidth : ∀ i, 0 ≤ (sizeAt sizes i).1) (width : Int) {row : List Nat} (hne : row ≠ [])
    {rows : List (List Nat)} (hrow : row ∈ rows) :
    ∀ y : Int, ∃ layer ∈ frameLayers o sizes width y rows, ∃ top,
      InRow o sizes (rowLeft o sizes width row) (rowLeft o sizes width row + rowWidth o sizes row)
        top row layer := by
  induction rows with
  | nil => cases hrow
  | cons r rest ih =>
      intro y
      rcases List.mem_cons.1 hrow with rfl | hrow
      · exact ⟨_, List.mem_cons_self, y, frameRow_inRow hgap hwidth y row _ hne⟩
      · obtain ⟨layer, hlayer, hin⟩ :=
          ih hrow (y + rowHeight sizes r + o.verticalSpacing * o.scale)
        exact ⟨layer, List.mem_cons_of_mem _ hlayer, hin⟩

/-- What stands somewhere is a row, centred in the width. -/
theorem inRow_of_mem_frameLayers (hgap : 0 ≤ o.horizontalSpacing * o.scale)
    (hwidth : ∀ i, 0 ≤ (sizeAt sizes i).1) (width : Int) {rows : List (List Nat)}
    (hne : ∀ row ∈ rows, row ≠ []) :
    ∀ y : Int, ∀ layer ∈ frameLayers o sizes width y rows, ∃ row ∈ rows, ∃ top,
      InRow o sizes (rowLeft o sizes width row) (rowLeft o sizes width row + rowWidth o sizes row)
        top row layer := by
  induction rows with
  | nil =>
      intro y layer h
      cases h
  | cons r rest ih =>
      intro y layer h
      rcases List.mem_cons.1 h with rfl | h
      · exact ⟨r, List.mem_cons_self, y,
          frameRow_inRow hgap hwidth y r _ (hne r List.mem_cons_self)⟩
      · obtain ⟨row, hrow, hin⟩ := ih (fun s hs => hne s (List.mem_cons_of_mem r hs)) _ layer h
        exact ⟨row, List.mem_cons_of_mem r hrow, hin⟩

private theorem InRow.exists_ends {left right y : Int} {row : List Nat} {boxes : List (Nat × Frame)}
    (h : InRow o sizes left right y row boxes) (hne : row ≠ []) :
    ∃ first ∈ boxes.head?, ∃ last ∈ boxes.getLast?,
      first.2.x = left ∧ last.2.x + last.2.width = right := by
  have hboxes : boxes ≠ [] := by
    rintro rfl
    exact hne h.index.symm
  have hfirst := List.head?_eq_some_head hboxes
  have hlast := List.getLast?_eq_some_getLast hboxes
  exact ⟨_, hfirst, _, hlast, h.first _ hfirst, h.last _ hlast⟩

private theorem InRow.height_le {left right y : Int} {row : List Nat} {boxes : List (Nat × Frame)}
    (h : InRow o sizes left right y row boxes) {e : Nat × Frame} (he : e ∈ boxes) :
    e.2.height ≤ rowHeight sizes row := by
  have hmem : e.1 ∈ row := h.index ▸ List.mem_map.2 ⟨e, he, rfl⟩
  rw [show e.2.height = (sizeAt sizes e.1).2 from congrArg Prod.snd (h.size e he)]
  exact le_rowHeight hmem

/-- What is known of rows from top to bottom: they begin no higher than `y`, each
box ends a gap above `bottom`, and the boxes of a row begin a gap below those of the
rows before it. -/
structure Stacked (o : Options) (y bottom : Int) (layers : List (List (Nat × Frame))) : Prop where
  from_top : ∀ layer ∈ layers, ∀ e ∈ layer, y ≤ e.2.y
  to_bottom : ∀ layer ∈ layers, ∀ e ∈ layer,
    e.2.y + e.2.height + o.verticalSpacing * o.scale ≤ bottom
  below : layers.Pairwise fun upper lower => ∀ a ∈ upper, ∀ b ∈ lower,
    a.2.y + a.2.height + o.verticalSpacing * o.scale ≤ b.2.y

private theorem le_lineAfter (hgap : 0 ≤ o.verticalSpacing * o.scale)
    (hheight : ∀ i, 0 ≤ (sizeAt sizes i).2) (rows : List (List Nat)) :
    ∀ y : Int, y ≤ lineAfter o sizes y rows := by
  induction rows with
  | nil =>
      intro y
      exact le_refl y
  | cons row rest ih =>
      intro y
      have hrow := rowHeight_nonneg hheight row
      have hrest := ih (y + rowHeight sizes row + o.verticalSpacing * o.scale)
      rw [lineAfter, List.foldl_cons]
      exact le_trans (by omega) hrest

theorem frameLayers_stacked (hacross : 0 ≤ o.horizontalSpacing * o.scale)
    (hdown : 0 ≤ o.verticalSpacing * o.scale) (hwidth : ∀ i, 0 ≤ (sizeAt sizes i).1)
    (hheight : ∀ i, 0 ≤ (sizeAt sizes i).2) (width : Int) (rows : List (List Nat)) :
    ∀ y : Int, (∀ row ∈ rows, row ≠ []) →
      Stacked o y (lineAfter o sizes y rows) (frameLayers o sizes width y rows) := by
  induction rows with
  | nil =>
      intro y _
      exact ⟨by simp [frameLayers], by simp [frameLayers], List.Pairwise.nil⟩
  | cons row rest ih =>
      intro y hne
      have hrow := frameRow_inRow (o := o) hacross hwidth y row
        (rowLeft o sizes width row) (hne row List.mem_cons_self)
      have htall := rowHeight_nonneg hheight row
      have hrest := ih (y + rowHeight sizes row + o.verticalSpacing * o.scale)
        fun r hr => hne r (List.mem_cons_of_mem row hr)
      have hend := le_lineAfter hdown hheight rest
        (y + rowHeight sizes row + o.verticalSpacing * o.scale)
      have hafter : lineAfter o sizes y (row :: rest) =
          lineAfter o sizes (y + rowHeight sizes row + o.verticalSpacing * o.scale) rest := rfl
      rw [hafter]
      constructor
      case from_top =>
        intro layer hlayer e he
        rcases List.mem_cons.1 hlayer with rfl | hlayer
        · exact (hrow.top e he).ge
        · have htop := hrest.from_top layer hlayer e he
          omega
      case to_bottom =>
        intro layer hlayer e he
        rcases List.mem_cons.1 hlayer with rfl | hlayer
        · have htop := hrow.top e he
          have hfits := hrow.height_le he
          omega
        · exact hrest.to_bottom layer hlayer e he
      case below =>
        refine List.pairwise_cons.2 ⟨fun layer hlayer a ha b hb => ?_, hrest.below⟩
        have htop := hrow.top a ha
        have hfits := hrow.height_le ha
        have hunder := hrest.from_top layer hlayer b hb
        omega

/-! ## The picture -/

/-- What is asked of the boxes of all cards in a picture of a width and a height.
They are given row by row, each with the number of its card. -/
structure Placement (o : Options) (sizes : List (Int × Int)) (width height : Int)
    (layers : List (List (Nat × Frame))) : Prop where
  /-- Each box has the size of its card. -/
  size : ∀ layer ∈ layers, ∀ e ∈ layer, sizes[e.1]? = some (e.2.width, e.2.height)
  /-- Neighbours in a row are a gap apart. -/
  beside : ∀ layer ∈ layers, layer.IsChain fun a b =>
    b.2.x = a.2.x + a.2.width + o.horizontalSpacing * o.scale
  /-- The boxes of a row begin at the same line. -/
  level : ∀ layer ∈ layers, ∀ a ∈ layer, ∀ b ∈ layer, a.2.y = b.2.y
  /-- A row begins at least a gap below every box of the rows before it. -/
  below : layers.Pairwise fun upper lower => ∀ a ∈ upper, ∀ b ∈ lower,
    a.2.y + a.2.height + o.verticalSpacing * o.scale ≤ b.2.y
  /-- There is a margin around all boxes. -/
  margins : ∀ layer ∈ layers, ∀ e ∈ layer,
    (o.margin * o.scale ≤ e.2.x ∧ e.2.x + e.2.width + o.margin * o.scale ≤ width) ∧
      o.margin * o.scale ≤ e.2.y ∧ e.2.y + e.2.height + o.margin * o.scale ≤ height
  /-- Between the margins, a row has as much room on its right as on its left, or
  one pixel more. -/
  centred : ∀ layer ∈ layers, ∀ first ∈ layer.head?, ∀ last ∈ layer.getLast?,
    let left := first.2.x - o.margin * o.scale
    let right := width - o.margin * o.scale - (last.2.x + last.2.width)
    right = left ∨ right = left + 1
  /-- The widest row takes all the room between the margins. -/
  widest : ∃ layer ∈ layers, ∃ first ∈ layer.head?, ∃ last ∈ layer.getLast?,
    first.2.x = o.margin * o.scale ∧ last.2.x + last.2.width = width - o.margin * o.scale
  /-- No pixel belongs to two boxes. -/
  apart : layers.flatten.Pairwise fun a b => ∀ x y, a.2.Covers x y → ¬b.2.Covers x y

private theorem rowWidth_le_widest (o : Options) (sizes : List (Int × Int)) {row : List Nat}
    {rows : List (List Nat)} (hrow : row ∈ rows) :
    rowWidth o sizes row ≤ widest o sizes rows :=
  Sequence.le_greatest (List.mem_map.2 ⟨row, hrow, rfl⟩)

private theorem exists_widest (o : Options) (sizes : List (Int × Int)) {rows : List (List Nat)}
    (h : rows ≠ []) :
    ∃ row ∈ rows, rowWidth o sizes row = widest o sizes rows :=
  List.mem_map.1 (Sequence.greatest_mem (by simpa using h))

/-- Boxes side by side in a row, or in rows one below the other, have no pixel in
common. -/
theorem apart_of_rows {layers : List (List (Nat × Frame))}
    (hrow : ∀ layer ∈ layers, layer.Pairwise fun a b => a.2.x + a.2.width ≤ b.2.x)
    (hbelow : layers.Pairwise fun upper lower => ∀ a ∈ upper, ∀ b ∈ lower,
      a.2.y + a.2.height ≤ b.2.y) :
    layers.flatten.Pairwise fun a b => ∀ x y, a.2.Covers x y → ¬b.2.Covers x y := by
  refine List.pairwise_flatten.2 ⟨fun layer hlayer => ?_, hbelow.imp fun h a ha b hb => ?_⟩
  · refine (hrow layer hlayer).imp fun {a b} hab x y ha hb => ?_
    have hleft := ha.1.2
    have hright := hb.1.1
    omega
  · intro x y hcovers hcovers'
    have hab := h a ha b hb
    have hupper := hcovers.2.2
    have hlower := hcovers'.2.1
    omega

/-- The boxes of rows of cards stand in the picture as asked. -/
theorem frameLayers_placement {rows : List (List Nat)} (hscale : 0 ≤ o.scale)
    (hacross : 0 ≤ o.horizontalSpacing) (hdown : 0 ≤ o.verticalSpacing)
    (hsizes : ∀ size ∈ sizes, 0 ≤ size.1 ∧ 0 ≤ size.2) (hrows : rows ≠ [])
    (hne : ∀ row ∈ rows, row ≠ []) (hrange : ∀ i ∈ rows.flatten, i < sizes.length) :
    Placement o sizes (pictureSize o sizes rows).1 (pictureSize o sizes rows).2
      (frameLayers o sizes (widest o sizes rows) (o.margin * o.scale) rows) := by
  have hgap : 0 ≤ o.horizontalSpacing * o.scale := Int.mul_nonneg hacross hscale
  have hdrop : 0 ≤ o.verticalSpacing * o.scale := Int.mul_nonneg hdown hscale
  have hwidth : ∀ i, 0 ≤ (sizeAt sizes i).1 := fun i => (sizeAt_nonneg hsizes i).1
  have hheight : ∀ i, 0 ≤ (sizeAt sizes i).2 := fun i => (sizeAt_nonneg hsizes i).2
  have hstacked := frameLayers_stacked hgap hdrop hwidth hheight (widest o sizes rows) rows
    (o.margin * o.scale) hne
  have hlayers := inRow_of_mem_frameLayers hgap hwidth (widest o sizes rows) hne
    (o.margin * o.scale)
  have hpictureWidth : (pictureSize o sizes rows).1 =
      widest o sizes rows + 2 * (o.margin * o.scale) := rfl
  have hpictureHeight : (pictureSize o sizes rows).2 = lineAfter o sizes (o.margin * o.scale) rows -
      o.verticalSpacing * o.scale + o.margin * o.scale := rfl
  rw [hpictureWidth, hpictureHeight]
  constructor
  case size =>
    intro layer hlayer e he
    obtain ⟨row, hrow, top, hin⟩ := hlayers layer hlayer
    have hmem : e.1 ∈ rows.flatten :=
      List.mem_flatten.2 ⟨row, hrow, hin.index ▸ List.mem_map.2 ⟨e, he, rfl⟩⟩
    rw [hin.size e he, sizeAt, List.getElem?_eq_getElem (hrange _ hmem)]
    rfl
  case beside =>
    intro layer hlayer
    obtain ⟨row, hrow, top, hin⟩ := hlayers layer hlayer
    exact hin.beside
  case level =>
    intro layer hlayer a ha b hb
    obtain ⟨row, hrow, top, hin⟩ := hlayers layer hlayer
    rw [hin.top a ha, hin.top b hb]
  case below => exact hstacked.below
  case margins =>
    intro layer hlayer e he
    obtain ⟨row, hrow, top, hin⟩ := hlayers layer hlayer
    have hwide := rowWidth_le_widest o sizes hrow
    have hside := hin.within e he
    unfold rowLeft at hside
    have htop := hstacked.from_top layer hlayer e he
    have hbottom := hstacked.to_bottom layer hlayer e he
    omega
  case centred =>
    intro layer hlayer first hfirst last hlast
    obtain ⟨row, hrow, top, hin⟩ := hlayers layer hlayer
    have hleft := hin.first first hfirst
    have hright := hin.last last hlast
    unfold rowLeft at hleft hright
    dsimp only
    omega
  case widest =>
    obtain ⟨row, hrow, hwide⟩ := exists_widest o sizes hrows
    obtain ⟨layer, hlayer, top, hin⟩ := exists_inRow_of_mem hgap hwidth
      (widest o sizes rows) (hne row hrow) hrow (o.margin * o.scale)
    obtain ⟨first, hfirst, last, hlast, hleft, hright⟩ := hin.exists_ends (hne row hrow)
    unfold rowLeft at hleft hright
    exact ⟨layer, hlayer, first, hfirst, last, hlast, by omega, by omega⟩
  case apart =>
    refine apart_of_rows (fun layer hlayer => ?_) ?_
    · obtain ⟨row, hrow, top, hin⟩ := hlayers layer hlayer
      exact hin.apart
    · refine hstacked.below.imp fun h a ha b hb => ?_
      have hab := h a ha b hb
      omega

end ImageSheet

end Storyboard
