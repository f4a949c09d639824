import Storyboard.Proofs.GreedyLines
import Storyboard.Proofs.WiderLines

/-!
# Wrapped lines are as few as can be

Pieces can be set into lines in many ways, and filling the lines greedily is only
one of them. Take any other way, and set its groups one after the other on a page
that is being filled greedily. A group that fits on one line begins at most one
line there: as soon as one of its pieces begins a line, the pieces after it in the
group have room on that line. So there are never more lines begun than groups
set, whatever the other way was.

The lines of a text can be joined to one text again, and its words are the pieces
that were set. None of them is cut a second time, and so the lines are the same.

## Main results

* `Text.Setting` — a way of setting pieces into lines.
* `Text.Page.lines_putAll_le`, `Text.Page.lines_putAll_flatten_le` — what setting
  one group does to a page, and what setting all groups does.
* `Text.CutEvery.eq_chop` — there is one way of cutting a word.
* `Text.words_joined` — the words of a joined text.
* `Text.wrap_fewest` — a wrapped text has the fewest lines, and wrapping its lines
  again gives them back.
-/

namespace Storyboard.Text

/-! ## Ways of setting pieces -/

/-- That groups are pieces set into lines of at most `width` characters, in any
way that leaves no line empty. -/
structure Setting (width : Nat) (pieces : List (List Char)) (groups : List (List (List Char))) :
    Prop where
  flatten : groups.flatten = pieces
  ne_nil : ∀ group ∈ groups, group ≠ []
  fits : ∀ group ∈ groups, (joined group).length ≤ width

theorem Filled.setting {width : Nat} {pieces : List (List Char)} {groups : List (List (List Char))}
    (h : Filled width pieces groups) (hne : pieces ≠ []) : Setting width pieces groups :=
  ⟨h.flatten, h.ne_nil hne, h.fits⟩

theorem length_joined_cons_cons (p q : List Char) (group : List (List Char)) :
    (joined (p :: q :: group)).length = p.length + 1 + (joined (q :: group)).length := by
  simp only [joined_cons_cons, List.length_append, List.length_cons]
  omega

namespace Page

variable {width : Nat}

private theorem putAll_cons (page : Page width) (p : List Char) (ps : List (List Char)) :
    page.putAll (p :: ps) = (page.put p.length).putAll ps := rfl

private theorem putAll_append (page : Page width) (ps qs : List (List Char)) :
    page.putAll (ps ++ qs) = (page.putAll ps).putAll qs :=
  List.foldl_append

/-- A group for which there is room on the last line begins no line. -/
theorem lines_putAll_of_lt_room (group : List (List Char)) :
    ∀ page : Page width, (group ≠ [] → (joined group).length < page.room) →
      (page.putAll group).lines = page.lines := by
  induction group with
  | nil =>
      intro page _
      rfl
  | cons p group ih =>
      intro page hroom
      have hgroup := hroom (List.cons_ne_nil p group)
      have hp : p.length < page.room := by
        cases group with
        | nil => simpa using hgroup
        | cons q group =>
            rw [length_joined_cons_cons] at hgroup
            omega
      rw [putAll_cons, put, if_pos hp]
      apply ih
      intro hne
      cases group with
      | nil => exact absurd rfl hne
      | cons q group =>
          rw [length_joined_cons_cons] at hgroup
          dsimp only
          omega

/-- A group that fits on a line begins at most one. -/
theorem lines_putAll_le (group : List (List Char)) :
    ∀ page : Page width, (joined group).length ≤ width →
      (page.putAll group).lines ≤ page.lines + 1 := by
  induction group with
  | nil =>
      intro page _
      exact Nat.le_succ _
  | cons p group ih =>
      intro page hfits
      rw [putAll_cons, put]
      by_cases hp : p.length < page.room
      · -- the piece stays on the last line, and the rest of the group is shorter
        rw [if_pos hp]
        apply ih
        cases group with
        | nil => exact Nat.zero_le _
        | cons q group =>
            rw [length_joined_cons_cons] at hfits
            omega
      · -- the piece begins a line, which has room for the rest of the group
        rw [if_neg hp, lines_putAll_of_lt_room]
        intro hne
        cases group with
        | nil => exact absurd rfl hne
        | cons q group =>
            rw [length_joined_cons_cons] at hfits
            dsimp only
            omega

/-- Groups that fit on lines begin at most one each. -/
theorem lines_putAll_flatten_le (groups : List (List (List Char))) :
    ∀ page : Page width, (∀ group ∈ groups, (joined group).length ≤ width) →
      (page.putAll groups.flatten).lines ≤ page.lines + groups.length := by
  induction groups with
  | nil =>
      intro page _
      exact Nat.le_refl _
  | cons group groups ih =>
      intro page hfits
      have hgroup := lines_putAll_le group page (hfits group List.mem_cons_self)
      have hrest := ih (page.putAll group) fun g hg => hfits g (List.mem_cons_of_mem group hg)
      rw [List.flatten_cons, putAll_append, List.length_cons]
      omega

end Page

/-- No way of setting pieces has fewer lines than filling them greedily. -/
theorem Setting.length_setLines_le {width : Nat} {ps : List (List Char)}
    {groups : List (List (List Char))} (h : Setting width ps groups) (hne : ps ≠ [])
    (hps : ∀ p ∈ ps, p.length ≤ width) : (setLines width ps).length ≤ groups.length := by
  have hsome : groups ≠ [] := by
    intro hnil
    have hflat := h.flatten
    rw [hnil] at hflat
    exact hne hflat.symm
  have hpos := List.length_pos_iff.2 hsome
  have hlines := Page.lines_putAll_flatten_le groups (Page.empty width) h.fits
  rw [h.flatten] at hlines
  rw [length_setLines hps]
  change _ ≤ 0 + groups.length at hlines
  omega

/-! ## Cutting words -/

/-- There is one way of cutting a word every `width` characters. -/
theorem CutEvery.eq_chop {width : Nat} (hwidth : 0 < width) {pieces : List (List Char)} :
    ∀ {word : List Char}, CutEvery width word pieces → pieces = chop width word := by
  induction pieces with
  | nil =>
      intro word h
      have hlast := h.last
      simp at hlast
  | cons p rest ih =>
      intro word h
      have hlengths := h.length_le hwidth
      have hp := hlengths p List.mem_cons_self
      cases rest with
      | nil =>
          have hword : p = word := by simpa using h.flatten
          rw [← hword, chop_of_length_le hp.1 hp.2]
      | cons q rest =>
          have hfull : p.length = width := h.full p (by simp)
          have hword : word = p ++ (q :: rest).flatten := by rw [← h.flatten, List.flatten_cons]
          have hq : 0 < q.length := (hlengths q (by simp)).1
          have hlt : width < word.length := by
            rw [hword, List.flatten_cons, List.length_append, List.length_append]
            omega
          have hrest : CutEvery width (q :: rest).flatten (q :: rest) :=
            ⟨rfl, fun r hr => h.full r (by simp [hr]), by simpa using h.last⟩
          rw [chop_of_lt_length hwidth hlt, hword, List.take_left' hfull, List.drop_left' hfull,
            ← ih hrest]

private theorem forall₂_cutEvery_iff {w : Nat} (hw : 0 < w) {cs : List Char}
    {cuts : List (List (List Char))} :
    List.Forall₂ (CutEvery w) (words cs) cuts ↔ cuts = (words cs).map (chop w) := by
  constructor
  · intro h
    have heq : List.Forall₂ (fun word cut => chop w word = cut) (words cs) cuts :=
      h.imp fun _ _ hcut => (hcut.eq_chop hw).symm
    rw [← List.forall₂_map_left_iff, List.forall₂_eq_eq_eq] at heq
    exact heq.symm
  · intro h
    rw [h]
    exact forall₂_cutEvery hw cs

/-! ## The words of joined texts -/

/-- A word that ends is the first of the words. -/
theorem words_append {word rest : List Char} (hne : word ≠ [])
    (hletters : ∀ c ∈ word, isBlank c = false) (hend : atWordEnd rest = true) :
    words (word ++ rest) = word :: words rest := by
  induction word with
  | nil => exact absurd rfl hne
  | cons c word ih =>
      have hc : ¬isBlank c = true := by simp [hletters c List.mem_cons_self]
      cases word with
      | nil =>
          change words (c :: rest) = [c] :: words rest
          rw [words, if_neg hc, if_pos hend]
      | cons d word =>
          have hd : ¬isBlank d = true := by simp [hletters d (by simp)]
          have hrest := ih (List.cons_ne_nil d word) fun e he =>
            hletters e (List.mem_cons_of_mem c he)
          change words (c :: (d :: word ++ rest)) = (c :: d :: word) :: words rest
          rw [words, if_neg hc, if_neg (show ¬atWordEnd (d :: word ++ rest) = true from hd), hrest]

/-- The words of pieces with single spaces between them are the pieces. -/
theorem words_joined {ps : List (List Char)} (hne : ∀ p ∈ ps, p ≠ [])
    (hletters : ∀ p ∈ ps, ∀ c ∈ p, isBlank c = false) : words (joined ps) = ps := by
  induction ps with
  | nil => rfl
  | cons p ps ih =>
      have hp := hne p List.mem_cons_self
      have hpl := hletters p List.mem_cons_self
      cases ps with
      | nil =>
          have hword := words_append hp hpl (show atWordEnd [] = true from rfl)
          simpa [words] using hword
      | cons q ps =>
          have hrest := ih (fun r hr => hne r (List.mem_cons_of_mem p hr))
            fun r hr => hletters r (List.mem_cons_of_mem p hr)
          rw [joined_cons_cons, words_append hp hpl rfl, words, if_pos (by rfl), hrest]

/-- Pieces that were cut before are not cut again. -/
theorem pieces_joined {w : Nat} (hw : 0 < w) (cs : List Char) :
    pieces w (joined (pieces w cs)) = pieces w cs := by
  have hlength : ∀ p ∈ pieces w cs, 0 < p.length ∧ p.length ≤ w := fun p hp =>
    length_of_mem_pieces hw hp
  have hwords : words (joined (pieces w cs)) = pieces w cs :=
    words_joined (fun p hp => List.length_pos_iff.1 (hlength p hp).1) isBlank_of_mem_pieces
  have hwhole : ∀ p ∈ pieces w cs, chop w p = [p] := fun p hp =>
    chop_of_length_le (hlength p hp).1 (hlength p hp).2
  calc pieces w (joined (pieces w cs))
      = (pieces w cs).flatMap (chop w) := by rw [pieces, hwords]
    _ = (pieces w cs).flatMap fun p => [p] := List.flatMap_congr hwhole
    _ = pieces w cs := by simp

/-- The lines of groups joined to one text are their pieces joined. -/
theorem joined_map_joined {groups : List (List (List Char))} (h : ∀ group ∈ groups, group ≠ []) :
    joined (groups.map joined) = joined groups.flatten := by
  induction groups with
  | nil => rfl
  | cons group groups ih =>
      have hrest := ih fun g hg => h g (List.mem_cons_of_mem group hg)
      cases groups with
      | nil => simp
      | cons next groups =>
          have hnext : (next :: groups).flatten ≠ [] := by
            simp [h next (by simp)]
          rw [List.map_cons, List.map_cons, joined_cons_cons, ← List.map_cons, hrest,
            ← joined_append (h group List.mem_cons_self) hnext]
          rfl

/-! ## The lines of a text -/

/-- Wrapping the lines of a text again gives them back. -/
theorem wrap_intercalate_wrap (text : String) (width : Int) :
    wrap (String.intercalate " " (wrap text width)) width = wrap text width := by
  have hw := lineWidth_pos width
  by_cases hwords : words text.toList = []
  · rw [wrap_of_words_eq_nil width hwords]
    exact wrap_of_words_eq_nil width rfl
  · obtain ⟨groups, hlines, hfilled, -⟩ := wrap_filled text width
    have hsetting := hfilled.setting (pieces_ne_nil hw hwords)
    have htext : (String.intercalate " " (wrap text width)).toList =
        joined (pieces (lineWidth width) text.toList) := by
      rw [String.toList_intercalate, hlines, List.map_map, ← hsetting.flatten,
        ← joined_map_joined hsetting.ne_nil]
      simp only [Function.comp_def, String.toList_ofList]
      rfl
    rw [wrap, htext, pieces_joined hw]
    rfl

/-- Wrapping uses the fewest lines. There is one way to cut the words of a text
every so many characters as fit on a line. If the text is not blank, its wrapped
lines are one way of setting the pieces into lines, and every way has at least as
many. Wrapping the lines once more, joined by spaces, changes nothing. -/
theorem wrap_fewest (text : String) (width : Int) :
    (∃ cuts, (∀ cuts', List.Forall₂ (CutEvery (lineWidth width))
        ((text.toList.splitOnP isBlank).filter (· ≠ [])) cuts' ↔ cuts' = cuts) ∧
      ((∃ c ∈ text.toList, isBlank c = false) →
        (∃ groups, Setting (lineWidth width) cuts.flatten groups ∧
          wrap text width = groups.map fun group => String.ofList (joined group)) ∧
        ∀ groups, Setting (lineWidth width) cuts.flatten groups →
          (wrap text width).length ≤ groups.length)) ∧
    wrap (String.intercalate " " (wrap text width)) width = wrap text width := by
  have hw := lineWidth_pos width
  refine ⟨⟨(words text.toList).map (chop (lineWidth width)), fun cuts => ?_, fun hletter => ?_⟩,
    wrap_intercalate_wrap text width⟩
  · rw [← words_eq_splitOnP]
    exact forall₂_cutEvery_iff hw
  have hwords : words text.toList ≠ [] := by
    intro hnone
    obtain ⟨c, hc, hblank⟩ := hletter
    rw [words_eq_nil_iff.1 hnone c hc] at hblank
    cases hblank
  have hne := pieces_ne_nil hw hwords
  rw [← List.flatMap_def]
  change (∃ groups, Setting _ (pieces (lineWidth width) text.toList) groups ∧ _) ∧
    ∀ groups, Setting _ (pieces (lineWidth width) text.toList) groups → _
  constructor
  · obtain ⟨groups, hlines, hfilled, -⟩ := wrap_filled text width
    exact ⟨groups, hfilled.setting hne, hlines⟩
  · intro groups hgroups
    rw [wrap, List.length_map]
    exact hgroups.length_setLines_le hne fun p hp => (length_of_mem_pieces hw hp).2

/-- The pieces of ` ABC\tD EFG HIJKLM` in lines of five characters, set in another
way than greedily. -/
def balanced : List (List (List Char)) :=
  [["ABC".toList], ["D".toList, "EFG".toList], ["HIJKL".toList], ["M".toList]]

theorem balanced_fewest :
    (∃ c ∈ " ABC\tD EFG HIJKLM".toList, isBlank c = false) ∧
    Setting 5 balanced.flatten balanced ∧
    wrap " ABC\tD EFG HIJKLM" 5 ≠ (balanced.map fun group => String.ofList (joined group)) ∧
    (wrap " ABC\tD EFG HIJKLM" 5).length ≤ balanced.length ∧
    wrap (String.intercalate " " (wrap " ABC\tD EFG HIJKLM" 5)) 5 =
      wrap " ABC\tD EFG HIJKLM" 5 := by
  have hletter : ∃ c ∈ " ABC\tD EFG HIJKLM".toList, isBlank c = false := ⟨'A', by decide⟩
  have hcuts : List.Forall₂ (CutEvery (lineWidth 5))
      ((" ABC\tD EFG HIJKLM".toList.splitOnP isBlank).filter (· ≠ []))
      [["ABC".toList], ["D".toList], ["EFG".toList], ["HIJKL".toList, "M".toList]] := by
    rw [← words_eq_splitOnP]
    exact (forall₂_cutEvery_iff (lineWidth_pos 5)).2 (by decide +kernel)
  have hsetting : Setting 5 balanced.flatten balanced := ⟨rfl, by decide, by decide⟩
  obtain ⟨⟨cuts, hunique, hfewest⟩, hstable⟩ := wrap_fewest " ABC\tD EFG HIJKLM" 5
  rw [← (hunique _).1 hcuts] at hfewest
  exact ⟨hletter, hsetting, by decide +kernel, (hfewest hletter).2 balanced hsetting, hstable⟩

end Storyboard.Text
