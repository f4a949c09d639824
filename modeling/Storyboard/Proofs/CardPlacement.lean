import Storyboard.Painter.TextSheet
import Storyboard.Proofs.BoxDrawing
import Storyboard.Proofs.CanvasText

/-!
# Where the cards of a text diagram stand

Cards are placed row by row and, in a row, from left to right, each past the
shadow of the one before. With spacings that are not negative no card or
shadow reaches into another, and the canvas is large enough for all of them.
So the block of cards shows every card as it is, its shadow, and nothing else.

## Main results

* `TextSheet.placeRows_placed` — where rows of cards are placed.
* `TextSheet.cellAt_drawSpots` — the block of cards, cell by cell.
* `TextSheet.shows_drawSpots` — the block shows each card line by line, its
  shadow, and blanks everywhere else.
-/

namespace Storyboard.TextSheet

open Text

variable {o : Options}

private theorem Options.shadowSize_nonneg (o : Options) : 0 ≤ o.shadowSize := by
  unfold Options.shadowSize
  split <;> omega

/-! ## Cells of a card -/

/-- What a card leaves on the canvas. -/
def Spot.ink (o : Options) (s : Spot) : Ink := fun a b => s.box.ink o.shadow (a - s.x) (b - s.y)

/-- Whether a cell belongs to a card or to its shadow. -/
def Spot.Covers (o : Options) (s : Spot) (a b : Int) : Prop :=
  ((s.x ≤ a ∧ a < s.x + s.box.width) ∧ s.y ≤ b ∧ b < s.y + s.box.height) ∨
    (o.shadow = true ∧ s.box.OnShadow (a - s.x) (b - s.y))

/-- Whether a card stands to the right of another and its shadow, or below
them. -/
def Spot.Clears (o : Options) (s t : Spot) : Prop :=
  s.x + s.box.width + o.shadowSize ≤ t.x ∨ s.y + s.box.height + o.shadowSize ≤ t.y

theorem Spot.Covers.bounds {s : Spot} {a b : Int} (h : s.Covers o a b) (hs : s.box.Fits) :
    (s.x ≤ a ∧ a < s.x + s.box.width + o.shadowSize) ∧
      s.y ≤ b ∧ b < s.y + s.box.height + o.shadowSize := by
  have hsize := o.shadowSize_nonneg
  have hpad := hs.padding
  have hwidth := hs.width
  have hheight := hs.height
  rcases h with hcard | ⟨hshadow, hon⟩
  · omega
  · have hone : o.shadowSize = 1 := by rw [Options.shadowSize, if_pos hshadow]
    unfold Box.OnShadow at hon
    omega

theorem Spot.Clears.not_covers {s t : Spot} (h : s.Clears o t) (hs : s.box.Fits)
    (ht : t.box.Fits) {a b : Int} (hcover : s.Covers o a b) : ¬t.Covers o a b := by
  intro hcovert
  have hsb := hcover.bounds hs
  have htb := hcovert.bounds ht
  unfold Spot.Clears at h
  omega

theorem Spot.ink_eq_none {s : Spot} (hs : s.box.Fits) {a b : Int} (h : ¬s.Covers o a b) :
    s.ink o a b = none := by
  cases hink : s.ink o a b with
  | none => rfl
  | some ch =>
      refine absurd ?_ h
      rcases Box.ink_eq_some hs hink with hcard | hshadow
      · exact Or.inl (by omega)
      · exact Or.inr hshadow

/-! ## Placing -/

/-- What is known of cards placed from line `y` on: which they are, that each
is at or below that line, and that each clears those before it. -/
structure Placed (o : Options) (boxes : List Box) (y : Int) (cards : List Nat)
    (spots : List Spot) : Prop where
  index : spots.map (·.index) = cards
  box : ∀ s ∈ spots, boxes[s.index]? = some s.box
  corner : ∀ s ∈ spots, 0 ≤ s.x ∧ y ≤ s.y
  clears : spots.Pairwise (Spot.Clears o)

private theorem placeRow_placed {boxes : List Box} (hh : 0 ≤ o.horizontalSpacing)
    (hwidth : ∀ b ∈ boxes, 0 ≤ b.width) (y : Int) :
    ∀ (row : List Nat) (x : Int), 0 ≤ x → (∀ i ∈ row, i < boxes.length) →
      ∃ spots, placeRow o boxes x y row = .ok spots ∧ Placed o boxes y row spots ∧
        ∀ s ∈ spots, x ≤ s.x ∧ s.y = y := by
  have hsize := o.shadowSize_nonneg
  intro row
  induction row with
  | nil =>
      intro x _ _
      exact ⟨[], rfl, ⟨rfl, by simp, by simp, List.Pairwise.nil⟩, by simp⟩
  | cons i rest ih =>
      intro x hx hrow
      have hi : i < boxes.length := hrow i (by simp)
      have hget : boxes[i]? = some boxes[i] := List.getElem?_eq_getElem hi
      have hpos : 0 ≤ boxes[i].width := hwidth _ (List.getElem_mem hi)
      obtain ⟨spots, hspots, hplaced, hline⟩ :=
        ih (x + boxes[i].width + o.shadowSize + o.horizontalSpacing) (by omega)
          fun j hj => hrow j (by simp [hj])
      refine ⟨⟨i, x, y, boxes[i]⟩ :: spots, ?_, ⟨?_, ?_, ?_, ?_⟩, ?_⟩
      · rw [placeRow, hget]
        dsimp only
        rw [hspots]
        rfl
      · rw [List.map_cons, hplaced.index]
      · intro s hs
        rcases List.mem_cons.1 hs with rfl | hs
        · exact hget
        · exact hplaced.box s hs
      · intro s hs
        rcases List.mem_cons.1 hs with rfl | hs
        · exact ⟨hx, le_refl y⟩
        · exact hplaced.corner s hs
      · refine List.pairwise_cons.2 ⟨fun s hs => ?_, hplaced.clears⟩
        have hright := (hline s hs).1
        exact Or.inl (show x + boxes[i].width + o.shadowSize ≤ s.x by omega)
      · intro s hs
        rcases List.mem_cons.1 hs with rfl | hs
        · exact ⟨le_refl x, rfl⟩
        · have hright := hline s hs
          exact ⟨by omega, hright.2⟩

/-- Rows of cards are placed one below the other, each clear of those above. -/
theorem placeRows_placed {boxes : List Box} (hh : 0 ≤ o.horizontalSpacing)
    (hv : 0 ≤ o.verticalSpacing) (hwidth : ∀ b ∈ boxes, 0 ≤ b.width) :
    ∀ (rows : List (List Nat)) (y : Int), (∀ i ∈ rows.flatten, i < boxes.length) →
      ∃ spots, placeRows o boxes y rows = .ok spots ∧ Placed o boxes y rows.flatten spots := by
  intro rows
  induction rows with
  | nil =>
      intro y _
      exact ⟨[], rfl, rfl, by simp, by simp, List.Pairwise.nil⟩
  | cons row rest ih =>
      intro y hrows
      rw [List.flatten_cons] at hrows ⊢
      obtain ⟨first, hfirst, hrow, hline⟩ := placeRow_placed hh hwidth y row 0 (le_refl 0)
        fun i hi => hrows i (List.mem_append_left _ hi)
      obtain ⟨below, hbelow, hrest⟩ := ih (y + rowHeight o first + o.verticalSpacing)
        fun i hi => hrows i (List.mem_append_right _ hi)
      have hmax := Sequence.le_foldl_max (first.map fun s => s.box.height + o.shadowSize) 0
      have hheight : 0 ≤ rowHeight o first := hmax.1
      have htall : ∀ s ∈ first, s.box.height + o.shadowSize ≤ rowHeight o first := fun s hs =>
        hmax.2 _ (List.mem_map.2 ⟨s, hs, rfl⟩)
      refine ⟨first ++ below, ?_, ?_, ?_, ?_, ?_⟩
      · rw [placeRows, hfirst]
        dsimp only
        rw [hbelow]
        rfl
      · rw [List.map_append, hrow.index, hrest.index]
      · intro s hs
        exact (List.mem_append.1 hs).elim (hrow.box s) (hrest.box s)
      · intro s hs
        rcases List.mem_append.1 hs with hs | hs
        · exact hrow.corner s hs
        · have hcorner := hrest.corner s hs
          exact ⟨hcorner.1, by omega⟩
      · refine List.pairwise_append.2 ⟨hrow.clears, hrest.clears, fun s hs t ht => Or.inr ?_⟩
        have habove := (hline s hs).2
        have hfits := htall s hs
        have hunder := (hrest.corner t ht).2
        omega

/-! ## Drawing -/

/-- The cards drawn in order. -/
def spotsInk (o : Options) : List Spot → Ink
  | [] => fun _ _ => none
  | s :: rest => (spotsInk o rest).over (s.ink o)

/-- What is asked of cards so that each shows as it is. -/
structure Tidy (o : Options) (spots : List Spot) : Prop where
  fits : ∀ s ∈ spots, s.box.Fits
  padding : ∀ s ∈ spots, s.box.padding = 1
  plain : ∀ s ∈ spots, ∀ r ∈ s.box.rows, r.isRule = false →
    ∀ c ∈ r.text.toList, isBlank c = true → c = ' '
  corner : ∀ s ∈ spots, 0 ≤ s.x ∧ 0 ≤ s.y
  clears : spots.Pairwise (Spot.Clears o)

variable {spots : List Spot}

private theorem drawn_drawSpots :
    ∀ (spots : List Spot) (c : Canvas), (∀ s ∈ spots, s.box.Fits) →
      Canvas.Drawn c (drawSpots o c spots) (spotsInk o spots) := by
  intro spots
  induction spots with
  | nil =>
      intro c _
      exact Canvas.Drawn.refl c
  | cons s rest ih =>
      intro c hfits
      have hfirst := Canvas.drawn_drawBox c s.x s.y (hfits s (by simp)) o.shadow
      exact hfirst.trans (ih _ fun t ht => hfits t (by simp [ht]))

private theorem spotsInk_eq_none {a b : Int} (h : ∀ s ∈ spots, s.ink o a b = none) :
    spotsInk o spots a b = none := by
  induction spots with
  | nil => rfl
  | cons s rest ih =>
      rw [spotsInk, Ink.over, ih fun t ht => h t (by simp [ht]), h s (by simp)]
      rfl

/-- On the cells of a card and its shadow, no other card leaves anything. -/
theorem spotsInk_eq {s : Spot} {a b : Int} (hs : s ∈ spots) (hcover : s.Covers o a b) :
    (∀ t ∈ spots, t.box.Fits) → spots.Pairwise (Spot.Clears o) →
      spotsInk o spots a b = s.ink o a b := by
  induction spots with
  | nil => cases hs
  | cons t rest ih =>
      intro hfits hclears
      obtain ⟨hfirst, hrest⟩ := List.pairwise_cons.1 hclears
      rw [spotsInk, Ink.over]
      rcases List.mem_cons.1 hs with rfl | hs
      · have hnone : spotsInk o rest a b = none := spotsInk_eq_none fun u hu =>
          Spot.ink_eq_none (hfits u (by simp [hu]))
            ((hfirst u hu).not_covers (hfits s (by simp)) (hfits u (by simp [hu])) hcover)
        rw [hnone, Option.none_or]
      · have hnone : t.ink o a b = none := by
          apply Spot.ink_eq_none (hfits t (by simp))
          intro ht
          exact (hfirst s hs).not_covers (hfits t (by simp)) (hfits s (by simp [hs])) ht hcover
        rw [ih hs (fun u hu => hfits u (by simp [hu])) hrest, hnone, Option.or_none]

private theorem exists_of_spotsInk {a b : Int} {ch : Char} (h : spotsInk o spots a b = some ch) :
    ∃ s ∈ spots, s.ink o a b = some ch := by
  induction spots with
  | nil => cases h
  | cons s rest ih =>
      rw [spotsInk, Ink.over] at h
      rcases Option.or_eq_some_iff.1 h with hrest | ⟨-, hfirst⟩
      · obtain ⟨t, ht, hink⟩ := ih hrest
        exact ⟨t, by simp [ht], hink⟩
      · exact ⟨s, by simp, hfirst⟩

/-! ## The canvas -/

theorem get_blank (w h : Int) (x y : Int) : (Canvas.blank w h " ").get x y = " " := by
  unfold Canvas.get
  split
  · rename_i hold
    obtain ⟨⟨hx0, hx1⟩, hy0, hy1⟩ := hold
    have hx : x.toNat < w.toNat := by
      have hx2 : x < (w.toNat : Int) := hx1
      omega
    have hy : y.toNat < h.toNat := by
      have hy2 : y < (h.toNat : Int) := hy1
      omega
    simp [Canvas.blank, hx, hy]
  · rfl

/-- The canvas has room for every card and shadow. -/
theorem Tidy.holds (h : Tidy o spots) {s : Spot} (hs : s ∈ spots) {a b : Int}
    (hcover : s.Covers o a b) : (canvasFor o spots).Holds a b := by
  have hbounds := hcover.bounds (h.fits s hs)
  have hcorner := h.corner s hs
  have hwide := Sequence.le_greatest
    (List.mem_map.2 ⟨s, hs, rfl⟩ : s.x + s.box.width + o.shadowSize ∈
      spots.map fun s => s.x + s.box.width + o.shadowSize)
  have htall := Sequence.le_greatest
    (List.mem_map.2 ⟨s, hs, rfl⟩ : s.y + s.box.height + o.shadowSize ∈
      spots.map fun s => s.y + s.box.height + o.shadowSize)
  refine ⟨⟨by omega, ?_⟩, by omega, ?_⟩
  · show a < ((Sequence.greatest (spots.map fun s => s.x + s.box.width + o.shadowSize) + 1).toNat
      : Int)
    omega
  · show b < ((Sequence.greatest (spots.map fun s => s.y + s.box.height + o.shadowSize) + 1).toNat
      : Int)
    omega

theorem Tidy.get (h : Tidy o spots) (x y : Int) :
    (drawSpots o (canvasFor o spots) spots).get x y =
      String.singleton ((spotsInk o spots x y).getD ' ') := by
  have hdrawn := @drawn_drawSpots o spots (canvasFor o spots) h.fits
  by_cases hold : (canvasFor o spots).Holds x y
  · rw [hdrawn.get x y hold, canvasFor, get_blank]
    cases spotsInk o spots x y <;> rfl
  · have hnone : spotsInk o spots x y = none := spotsInk_eq_none fun s hs =>
      Spot.ink_eq_none (h.fits s hs) fun hcover => hold (h.holds hs hcover)
    rw [hnone, Canvas.get_of_not_holds fun hh => hold ((hdrawn.holds_iff x y).1 hh)]
    rfl

private theorem Tidy.canvas_plain (h : Tidy o spots) :
    (drawSpots o (canvasFor o spots) spots).Plain := by
  intro x y _
  refine ⟨_, h.get x y, fun hblank => ?_⟩
  cases hink : spotsInk o spots x y with
  | none => rfl
  | some ch =>
      rw [hink] at hblank
      obtain ⟨s, hs, hspot⟩ := exists_of_spotsInk hink
      exact Box.eq_space_of_ink (h.plain s hs) hspot hblank

/-- The block of cards, cell by cell. -/
theorem cellAt_drawSpots (h : Tidy o spots) (x y : Nat) :
    cellAt (rowsOf (drawSpots o (canvasFor o spots) spots).render) x y =
      (spotsInk o spots x y).getD ' ' := by
  rw [Canvas.cellAt_render h.canvas_plain, h.get, charOf_singleton]

/-- What it means that a text shows cards: each line of each card stands in
its place, so does each shadow, and all other cells are blank. -/
structure Shows (o : Options) (lines : List (List Char)) (spots : List Spot) : Prop where
  card : ∀ s ∈ spots, ∀ k < s.box.height.toNat, ∃ row, s.box.picture[k]? = some row ∧
    row.length = s.box.width.toNat ∧
    (((lines[s.y.toNat + k]?).getD []).drop s.x.toNat).take s.box.width.toNat = row
  shadow : o.shadow = true → ∀ s ∈ spots, ∀ i j : Nat, s.box.OnShadow i j →
    cellAt lines (s.x.toNat + i) (s.y.toNat + j) = '░'
  blank : ∀ x y : Nat, (∀ s ∈ spots, ¬s.Covers o x y) → cellAt lines x y = ' '

/-- A run of cells that ends with no space is a piece of its line. -/
theorem take_drop_eq {shown row : List Char} {x : Nat} (hne : row ≠ [])
    (hcells : ∀ i < row.length, (shown[x + i]?).getD ' ' = (row[i]?).getD ' ')
    (hlast : (row[row.length - 1]?).getD ' ' ≠ ' ') : (shown.drop x).take row.length = row := by
  have hpos : 0 < row.length := List.length_pos_iff.2 hne
  have hlong : x + row.length ≤ shown.length := by
    by_contra hshort
    apply hlast
    rw [← hcells _ (by omega), List.getElem?_eq_none (by omega)]
    rfl
  apply List.ext_getElem?
  intro i
  by_cases hi : i < row.length
  · have hcell := hcells i hi
    rw [List.getElem?_eq_getElem (show x + i < shown.length by omega),
      List.getElem?_eq_getElem hi] at hcell
    rw [List.getElem?_take_of_lt hi, List.getElem?_drop,
      List.getElem?_eq_getElem (show x + i < shown.length by omega), List.getElem?_eq_getElem hi]
    exact congrArg some hcell
  · rw [List.getElem?_eq_none (by simp; omega), List.getElem?_eq_none (by omega)]

/-- A cell of a card shows what the card has there. -/
theorem Tidy.cellAt_card (h : Tidy o spots) {s : Spot} (hs : s ∈ spots) {i k : Nat}
    (hi : i < s.box.width.toNat) (hk : k < s.box.height.toNat) :
    cellAt (rowsOf (drawSpots o (canvasFor o spots) spots).render) (s.x.toNat + i)
      (s.y.toNat + k) = (s.box.cardInk i k).getD ' ' := by
  have hcorner := h.corner s hs
  have hx : ((s.x.toNat + i : Nat) : Int) - s.x = i := by omega
  have hy : ((s.y.toNat + k : Nat) : Int) - s.y = k := by omega
  have hcover : s.Covers o ((s.x.toNat + i : Nat) : Int) ((s.y.toNat + k : Nat) : Int) :=
    Or.inl (by omega)
  have hnot : ¬s.box.OnShadow i k := by
    unfold Box.OnShadow
    omega
  rw [cellAt_drawSpots h, spotsInk_eq hs hcover h.fits h.clears, Spot.ink, hx, hy, Box.ink,
    if_neg fun hon => hnot hon.2, Option.or_none]

/-- A cell of a shadow is shaded. -/
theorem Tidy.cellAt_shadow (h : Tidy o spots) (hshadow : o.shadow = true) {s : Spot}
    (hs : s ∈ spots) {i j : Nat} (hon : s.box.OnShadow i j) :
    cellAt (rowsOf (drawSpots o (canvasFor o spots) spots).render) (s.x.toNat + i)
      (s.y.toNat + j) = '░' := by
  have hcorner := h.corner s hs
  have hx : ((s.x.toNat + i : Nat) : Int) - s.x = i := by omega
  have hy : ((s.y.toNat + j : Nat) : Int) - s.y = j := by omega
  have hcover : s.Covers o ((s.x.toNat + i : Nat) : Int) ((s.y.toNat + j : Nat) : Int) :=
    Or.inr ⟨hshadow, by rw [hx, hy]; exact hon⟩
  rw [cellAt_drawSpots h, spotsInk_eq hs hcover h.fits h.clears, Spot.ink, hx, hy, Box.ink,
    Box.cardInk_eq_none (h.fits s hs) hon, if_pos ⟨hshadow, hon⟩]
  rfl

/-- A line of a card stands whole in the block: no trimming reaches into it,
since every line of a card ends with a stroke of its frame. -/
theorem Tidy.take_drop_card (h : Tidy o spots) {s : Spot} (hs : s ∈ spots) {k : Nat}
    (hk : k < s.box.height.toNat) :
    ∃ row, s.box.picture[k]? = some row ∧ row.length = s.box.width.toNat ∧
      ((((rowsOf (drawSpots o (canvasFor o spots) spots).render)[s.y.toNat + k]?).getD []).drop
        s.x.toNat).take s.box.width.toNat = row := by
  have hfits := h.fits s hs
  have hpad := hfits.padding
  have hwidth := hfits.width
  obtain ⟨row, hrow, hlen, hink⟩ := Box.cardInk_eq_picture hfits (h.padding s hs) hk
  have hcells : ∀ i < row.length,
      (((rowsOf (drawSpots o (canvasFor o spots) spots).render)[s.y.toNat + k]?.getD
        [])[s.x.toNat + i]?).getD ' ' = (row[i]?).getD ' ' := by
    intro i hi
    have hat := h.cellAt_card hs (show i < s.box.width.toNat by omega) hk
    rw [hink i (by omega), Option.getD_some]
    exact hat
  have hlast : (row[row.length - 1]?).getD ' ' ≠ ' ' := by
    obtain ⟨ch, hch, hletter⟩ := Box.exists_cardInk_right hfits (show (0 : Int) ≤ k by omega)
      (by omega)
    rw [hink (row.length - 1) (by omega),
      show ((row.length - 1 : Nat) : Int) = s.box.width - 1 by omega, hch]
    rintro hspace
    have hch' : ch = ' ' := hspace
    rw [hch'] at hletter
    exact absurd hletter (by decide)
  have hne : row ≠ [] := by
    intro hnil
    rw [hnil, List.length_nil] at hlen
    omega
  refine ⟨row, hrow, hlen, ?_⟩
  rw [← hlen]
  exact take_drop_eq hne hcells hlast

/-- The block of cards shows the cards. -/
theorem shows_drawSpots (h : Tidy o spots) :
    Shows o (rowsOf (drawSpots o (canvasFor o spots) spots).render) spots := by
  constructor
  · intro s hs k hk
    exact h.take_drop_card hs hk
  · intro hshadow s hs i j hon
    exact h.cellAt_shadow hshadow hs hon
  · intro x y hout
    have hnone : spotsInk o spots x y = none := spotsInk_eq_none fun s hs =>
      Spot.ink_eq_none (h.fits s hs) (hout s hs)
    rw [cellAt_drawSpots h, hnone]
    rfl

end Storyboard.TextSheet
