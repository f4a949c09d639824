import Mathlib.Algebra.Order.BigOperators.Group.List
import Mathlib.Algebra.Order.Group.Nat
import Storyboard.Proofs.Cards

/-!
# Wider lines are never more

A word that is too long for a line is cut at other places when lines are wider,
so two widths do not even set the same pieces. Of a page that is being filled,
all that matters for what is yet to be set is how many lines are begun and how
much room is left on the last of them. A page of wider lines is never behind in
this: it has fewer lines, or as many and at least as much room. Word by word this
stays so, and in the end it says that there are no more lines.

## Main results

* `Text.Page.put`, `Text.length_setLines` — a page, and the lines it has in the
  end.
* `Text.Page.Ahead.putWord`, `Text.Page.Ahead.foldl` — what setting one word
  keeps, and what setting all of them keeps.
* `Text.length_wrap_le` — a text wrapped at two widths.
* `Box.card_height_le` — the height of a card at two widths.
-/

namespace Storyboard

namespace Text

/-! ## Pages -/

/-- How far a page of lines of `width` characters is filled: the lines begun and
the characters that the last of them still takes. -/
structure Page (width : Nat) where
  lines : Nat
  room : Nat
  room_le : room ≤ width

namespace Page

variable {width narrow wide : Nat}

/-- A page on which no line is begun. -/
def empty (width : Nat) : Page width := ⟨0, 0, Nat.zero_le width⟩

/-- Sets a piece of `n` characters: on the last line, after a space, if there is
room, and on a new line otherwise. -/
def put (page : Page width) (n : Nat) : Page width :=
  if n < page.room then
    ⟨page.lines, page.room - (n + 1), Nat.le_trans (Nat.sub_le _ _) page.room_le⟩
  else ⟨page.lines + 1, width - n, Nat.sub_le _ _⟩

/-- Sets pieces in order. -/
def putAll (page : Page width) (ps : List (List Char)) : Page width :=
  ps.foldl (fun page p => page.put p.length) page

/-- Sets a word, cut if it is longer than a line. -/
def putWord (page : Page width) (word : List Char) : Page width :=
  page.putAll (chop width word)

/-- That a page is not behind another: it has fewer lines, or as many and no less
room. -/
def Ahead (a : Page wide) (b : Page narrow) : Prop :=
  a.lines < b.lines ∨ (a.lines = b.lines ∧ b.room ≤ a.room)

private theorem lines_put (page : Page width) (n : Nat) :
    page.lines ≤ (page.put n).lines ∧ (page.put n).lines ≤ page.lines + 1 := by
  unfold put
  split
  · exact ⟨Nat.le_refl _, Nat.le_succ _⟩
  · exact ⟨Nat.le_succ _, Nat.le_refl _⟩

private theorem lines_le_putAll (ps : List (List Char)) :
    ∀ page : Page width, page.lines ≤ (page.putAll ps).lines := by
  induction ps with
  | nil =>
      intro page
      exact Nat.le_refl _
  | cons p ps ih =>
      intro page
      exact Nat.le_trans (page.lines_put p.length).1 (ih (page.put p.length))

/-- A piece as long as a line has one to itself. -/
theorem put_width (page : Page width) :
    page.put width = ⟨page.lines + 1, 0, Nat.zero_le width⟩ := by
  have hroom : ¬width < page.room := Nat.not_lt.2 page.room_le
  simp [put, hroom]

theorem putWord_of_length_le (page : Page width) {word : List Char} (hword : 0 < word.length)
    (hle : word.length ≤ width) : page.putWord word = page.put word.length := by
  rw [putWord, chop_of_length_le hword hle]
  rfl

/-- A longer word fills a line, and the rest of it is set below. -/
theorem putWord_of_lt_length (page : Page width) {word : List Char} (hwidth : 0 < width)
    (hlt : width < word.length) :
    page.putWord word =
      (⟨page.lines + 1, 0, Nat.zero_le width⟩ : Page width).putWord (word.drop width) := by
  have hfull : (word.take width).length = width := by
    rw [List.length_take]
    omega
  rw [putWord, chop_of_lt_length hwidth hlt, putAll, List.foldl_cons, hfull, put_width]
  rfl

/-- Where no room is left, a word begins a line. -/
theorem lines_lt_putWord (page : Page width) (word : List Char) (hroom : page.room = 0)
    (hwidth : 0 < width) (hword : 0 < word.length) :
    page.lines < (page.putWord word).lines := by
  by_cases hle : word.length ≤ width
  · rw [putWord_of_length_le page hword hle, put, if_neg (by omega)]
    exact Nat.lt_succ_self _
  · rw [putWord_of_lt_length page hwidth (by omega)]
    exact lines_le_putAll (chop width (word.drop width)) ⟨page.lines + 1, 0, Nat.zero_le width⟩

/-! ## Two widths -/

/-- Setting a piece, and on the wider page one that is no longer, keeps it
ahead. -/
theorem Ahead.put {a : Page wide} {b : Page narrow} (h : Ahead a b) (hle : narrow ≤ wide)
    {m n : Nat} (hmn : m ≤ n) : Ahead (a.put m) (b.put n) := by
  have hroom := b.room_le
  unfold Ahead at h ⊢
  unfold Page.put
  split
  · split
    · dsimp only
      omega
    · dsimp only
      omega
  · split
    · dsimp only
      omega
    · dsimp only
      omega

/-- Setting a word, and on the wider page one that is no longer, keeps it ahead.
The induction is on what is left of the word on the narrower page. -/
theorem Ahead.putWord {a : Page wide} {b : Page narrow} (h : Ahead a b) (hnarrow : 0 < narrow)
    (hle : narrow ≤ wide) {v w : List Char} (hv : 0 < v.length) (hvw : v.length ≤ w.length) :
    Ahead (a.putWord v) (b.putWord w) := by
  induction hn : w.length using Nat.strongRecOn generalizing v w a b with
  | ind n ih =>
      have hvdrop : (v.drop wide).length = v.length - wide := List.length_drop
      have hwdrop : (w.drop narrow).length = w.length - narrow := List.length_drop
      by_cases hw : w.length ≤ narrow
      · rw [putWord_of_length_le b (by omega) hw, putWord_of_length_le a hv (by omega)]
        exact h.put hle hvw
      rw [putWord_of_lt_length b hnarrow (by omega)]
      by_cases hfits : v.length ≤ wide
      · -- the wider page takes the word on one line, the other begins two
        rw [putWord_of_length_le a hv hfits]
        have hone := (a.lines_put v.length).2
        have htwo := lines_lt_putWord ⟨b.lines + 1, 0, Nat.zero_le narrow⟩ (w.drop narrow) rfl
          hnarrow (by omega)
        dsimp only at htwo
        unfold Ahead at h ⊢
        omega
      · have hfull : Ahead (⟨a.lines + 1, 0, Nat.zero_le wide⟩ : Page wide)
            (⟨b.lines + 1, 0, Nat.zero_le narrow⟩ : Page narrow) := by
          unfold Ahead at h ⊢
          dsimp only
          omega
        rw [putWord_of_lt_length a (by omega) (by omega)]
        exact ih (w.drop narrow).length (by omega) hfull (by omega) (by omega) rfl

/-- Setting words one after the other keeps the wider page ahead. -/
theorem Ahead.foldl (hnarrow : 0 < narrow) (hle : narrow ≤ wide) :
    ∀ (ws : List (List Char)), (∀ word ∈ ws, 0 < word.length) →
      ∀ {a : Page wide} {b : Page narrow}, Ahead a b →
        Ahead (ws.foldl Page.putWord a) (ws.foldl Page.putWord b) := by
  intro ws
  induction ws with
  | nil =>
      intro _ a b h
      exact h
  | cons word ws ih =>
      intro hws a b h
      exact ih (fun v hv => hws v (List.mem_cons_of_mem word hv))
        (h.putWord hnarrow hle (hws word List.mem_cons_self) (Nat.le_refl _))

end Page

/-! ## The number of lines -/

/-- The lines of a page on which a line is begun. -/
theorem length_fillLines {width : Nat} :
    ∀ (ps : List (List Char)) (line : List Char) (k : Nat), line.length ≤ width →
      (∀ p ∈ ps, p.length ≤ width) →
      ((⟨k + 1, width - line.length, Nat.sub_le _ _⟩ : Page width).putAll ps).lines =
        k + (fillLines width line ps).length := by
  intro ps
  induction ps with
  | nil =>
      intro line k _ _
      rfl
  | cons p ps ih =>
      intro line k hline hps
      have hp : p.length ≤ width := hps p List.mem_cons_self
      have hrest : ∀ q ∈ ps, q.length ≤ width := fun q hq => hps q (List.mem_cons_of_mem p hq)
      rw [Page.putAll, List.foldl_cons, ← Page.putAll, Page.put]
      unfold fillLines
      by_cases hfits : line.length + 1 + p.length ≤ width
      · have hroom : p.length < width - line.length := by omega
        have hnext := ih (line ++ ' ' :: p) k (by rw [List.length_append, List.length_cons]; omega)
          hrest
        rw [if_pos hroom, if_pos hfits, ← hnext]
        congr 3
        rw [List.length_append, List.length_cons]
        dsimp only
        omega
      · have hroom : ¬p.length < width - line.length := by omega
        have hnext := ih p (k + 1) hp hrest
        rw [if_neg hroom, if_neg hfits, List.length_cons]
        exact hnext.trans (by omega)

/-- The lines of a page on which pieces are set. -/
theorem length_setLines {width : Nat} {ps : List (List Char)} (hps : ∀ p ∈ ps, p.length ≤ width) :
    (setLines width ps).length = max 1 ((Page.empty width).putAll ps).lines := by
  cases ps with
  | nil => rfl
  | cons p ps =>
      have hlines := length_fillLines ps p 0 (hps p List.mem_cons_self)
        fun q hq => hps q (List.mem_cons_of_mem p hq)
      have hfirst : (Page.empty width).put p.length =
          ⟨0 + 1, width - p.length, Nat.sub_le _ _⟩ := if_neg (Nat.not_lt_zero _)
      have hsome := Page.lines_le_putAll ps
        (⟨0 + 1, width - p.length, Nat.sub_le _ _⟩ : Page width)
      rw [Page.putAll, List.foldl_cons, hfirst, ← Page.putAll, setLines]
      dsimp only at hsome
      omega

/-- The lines of a wrapped text are those of a page on which its words are
set. -/
theorem length_wrap (text : String) (width : Int) :
    (wrap text width).length =
      max 1 ((words text.toList).foldl Page.putWord (Page.empty (lineWidth width))).lines := by
  rw [wrap, List.length_map,
    length_setLines fun p hp => (length_of_mem_pieces (lineWidth_pos width) hp).2, pieces,
    Page.putAll, List.foldl_flatMap]
  rfl

/-- A text has no more lines when they are wider. -/
theorem length_wrap_le {narrow wide : Int} (h : narrow ≤ wide) (text : String) :
    (wrap text wide).length ≤ (wrap text narrow).length := by
  have hwidth : lineWidth narrow ≤ lineWidth wide := by
    rw [lineWidth, lineWidth]
    omega
  have hwords : ∀ word ∈ words text.toList, 0 < word.length := fun word hword =>
    List.length_pos_iff.2 (ne_nil_of_mem_words word hword)
  have hahead := Page.Ahead.foldl (lineWidth_pos narrow) hwidth (words text.toList) hwords
    (Or.inr ⟨rfl, Nat.le_refl _⟩ :
      (Page.empty (lineWidth wide)).Ahead (Page.empty (lineWidth narrow)))
  rw [length_wrap, length_wrap]
  unfold Page.Ahead at hahead
  omega

end Text

/-! ## The height of a card -/

namespace Box

private theorem length_rows (style : Style) (content : List String) :
    (style.rows content).length = max 1 (content.flatMap style.rowsOf).length := by
  unfold Style.rows
  split
  · rename_i hnone
    rw [hnone]
    rfl
  · rename_i hsome
    have hpos := List.length_pos_iff.2 hsome
    omega

/-- Only the rows of a line that is wrapped depend on the width of text. -/
theorem length_rowsOf_le (style : Style) {narrow wide : Int} (h : narrow ≤ wide) (line : String) :
    (Style.rowsOf { style with textWidth := wide } line).length ≤
      (Style.rowsOf { style with textWidth := narrow } line).length := by
  unfold Style.rowsOf
  rw [show Style.isRule { style with textWidth := wide } line =
    Style.isRule { style with textWidth := narrow } line from rfl]
  split
  · exact Nat.le_refl _
  · split
    · exact Nat.le_refl _
    · rw [List.length_map, List.length_map]
      exact Text.length_wrap_le h line

/-- Wider cards are never taller. A text has no more lines when it is wrapped at
a greater width, and so the box of a card is no higher; every screen whose
section breaks are not below zero has one. -/
theorem card_height_le (narrow wide : Int) (h : narrow ≤ wide) :
    (∀ text, (Text.wrap text wide).length ≤ (Text.wrap text narrow).length) ∧
    ∀ s : Screen, (∀ k ∈ s.sections, 0 ≤ k) → ∃ card, s.card = .ok card ∧ ∀ style : Style,
      (measure { style with textWidth := wide } card).height ≤
        (measure { style with textWidth := narrow } card).height := by
  refine ⟨Text.length_wrap_le h, fun s hsections => ?_⟩
  obtain ⟨card, hcard, -⟩ := Screen.exists_card hsections
  refine ⟨card, hcard, fun style => ?_⟩
  have hrows : (card.flatMap (Style.rowsOf { style with textWidth := wide })).length ≤
      (card.flatMap (Style.rowsOf { style with textWidth := narrow })).length := by
    rw [List.length_flatMap, List.length_flatMap]
    exact List.sum_le_sum fun l _ => length_rowsOf_le style h l
  have hwide := length_rows { style with textWidth := wide } card
  have hnarrow := length_rows { style with textWidth := narrow } card
  unfold measure
  dsimp only
  omega

/-- A screen whose name is cut at other places when lines are one column
wider. -/
def longName : Screen where
  name := "abcdefghijk"
  components := [⟨.action, "go"⟩]
  sections := [0]

theorem longName_height_le :
    (5 : Int) ≤ 6 ∧
    (Text.wrap "to abcdefghijk lm" 6).length ≤ (Text.wrap "to abcdefghijk lm" 5).length ∧
    ∃ card, longName.card = .ok card ∧
      (measure { textWidth := 6 } card).height ≤ (measure { textWidth := 5 } card).height := by
  obtain ⟨hlines, hcards⟩ := card_height_le 5 6 (by decide)
  obtain ⟨card, hcard, hheight⟩ := hcards longName (by decide)
  exact ⟨by decide, hlines _, card, hcard, hheight {}⟩

end Box

end Storyboard
