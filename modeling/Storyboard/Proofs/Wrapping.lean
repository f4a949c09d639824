import Storyboard.Text.Wrap

/-!
# What wrapped lines are made of

A wrapped line is made of pieces of words with single spaces between them. The
words of a text are what stands between its blanks. They hold no blank, so
whatever blanks the text has, its wrapped lines hold none but spaces. A word is
cut from its beginning, one width after the other, so that only its last piece
can be shorter than a line.

## Main results

* `Text.isBlank_of_mem_words` — words hold no blank.
* `Text.words_eq_splitOnP`, `Text.flatten_words` — the words of a text are what
  its blanks leave of it.
* `Text.chop_cutEvery` — how a word is cut.
* `Text.eq_space_of_mem_wrap` — the only blanks of a wrapped line are spaces.
-/

namespace Storyboard.Text

/-! ## Words -/

/-- Words hold no blank. -/
theorem isBlank_of_mem_words {cs : List Char} :
    ∀ w ∈ words cs, ∀ c ∈ w, isBlank c = false := by
  induction cs with
  | nil =>
      intro w hw
      simp [words] at hw
  | cons a cs ih =>
      unfold words
      split
      · exact ih
      · rename_i hletter
        have ha : isBlank a = false := by simpa using hletter
        split
        · intro w hw c hc
          rcases List.mem_cons.1 hw with rfl | hw
          · rw [List.mem_singleton.1 hc]
            exact ha
          · exact ih w hw c hc
        · split
          · intro w hw c hc
            rw [List.mem_singleton.1 hw] at hc
            rw [List.mem_singleton.1 hc]
            exact ha
          · rename_i v vs hwords
            rw [hwords] at ih
            intro w hw c hc
            rcases List.mem_cons.1 hw with rfl | hw
            · rcases List.mem_cons.1 hc with rfl | hc
              · exact ha
              · exact ih v (by simp) c hc
            · exact ih w (by simp [hw]) c hc

/-- The words of a text are what stands between its blanks, if anything does. -/
theorem words_eq_splitOnP (cs : List Char) :
    words cs = (cs.splitOnP isBlank).filter (· ≠ []) := by
  induction cs with
  | nil => simp [words]
  | cons c rest ih =>
      unfold words
      rw [List.splitOnP_cons_eq_if_modifyHead]
      split
      · simpa using ih
      · cases rest with
        | nil => simp [atWordEnd, words]
        | cons d rest =>
            rw [List.splitOnP_cons_eq_if_modifyHead] at ih ⊢
            cases hd : isBlank d with
            | true =>
                simp only [hd, if_true, List.filter_cons] at ih
                simp [atWordEnd, hd, ih]
            | false =>
                obtain ⟨w, ws, hsplit⟩ :=
                  List.exists_cons_of_ne_nil (List.splitOnP_ne_nil isBlank rest)
                rw [hsplit] at ih ⊢
                simp [atWordEnd, hd] at ih ⊢
                rw [ih]

theorem ne_nil_of_mem_words {cs : List Char} : ∀ w ∈ words cs, w ≠ [] := by
  intro w hw
  rw [words_eq_splitOnP] at hw
  simpa using (List.mem_filter.1 hw).2

/-- The words of a text together are the text without its blanks. -/
theorem flatten_words (cs : List Char) : (words cs).flatten = cs.filter (!isBlank ·) := by
  induction cs with
  | nil => rfl
  | cons c rest ih =>
      unfold words
      split
      · rename_i hblank
        rw [ih, List.filter_cons_of_neg (by simp [hblank])]
      · rename_i hletter
        rw [List.filter_cons_of_pos (by simpa using hletter), ← ih]
        split
        · rfl
        · split
          · rename_i hnone
            rw [hnone]
            rfl
          · rename_i w ws hwords
            rw [hwords]
            rfl

theorem words_eq_nil_iff {cs : List Char} : words cs = [] ↔ ∀ c ∈ cs, isBlank c = true := by
  constructor
  · intro hnone
    have hflat := flatten_words cs
    rw [hnone] at hflat
    simpa using List.filter_eq_nil_iff.1 hflat.symm
  · intro hblank
    have hflat := flatten_words cs
    rw [List.filter_eq_nil_iff.2 (by simpa using hblank)] at hflat
    apply List.eq_nil_iff_forall_not_mem.2
    intro w hw
    exact ne_nil_of_mem_words w hw (List.flatten_eq_nil_iff.1 hflat w hw)

/-! ## Cutting words -/

theorem lineWidth_pos (width : Int) : 0 < lineWidth width := by
  rw [lineWidth]
  omega

/-- That pieces are those of a word cut every `width` characters: all are of that
length, but for the last, which has what is left of the word. -/
structure CutEvery (width : Nat) (word : List Char) (pieces : List (List Char)) : Prop where
  flatten : pieces.flatten = word
  full : ∀ p ∈ pieces.dropLast, p.length = width
  last : ∃ p, pieces.getLast? = some p ∧ 0 < p.length ∧ p.length ≤ width

theorem CutEvery.length_le {width : Nat} {word : List Char} {pieces : List (List Char)}
    (h : CutEvery width word pieces) (hwidth : 0 < width) :
    ∀ p ∈ pieces, 0 < p.length ∧ p.length ≤ width := by
  obtain ⟨last, hlast, hpos, hle⟩ := h.last
  obtain ⟨before, rfl⟩ := List.getLast?_eq_some_iff.1 hlast
  intro p hp
  rcases List.mem_append.1 hp with hp | hp
  · have hfull := h.full p (by simpa using hp)
    omega
  · rw [List.mem_singleton.1 hp]
    exact ⟨hpos, hle⟩

/-- A word that fits on a line is not cut. -/
theorem chop_of_length_le {width : Nat} {word : List Char} (hword : 0 < word.length)
    (hle : word.length ≤ width) : chop width word = [word] := by
  have hcount : (word.length + width - 1) / width = 1 :=
    Nat.div_eq_of_lt_le (by omega) (by omega)
  rw [chop, hcount]
  simp [List.take_of_length_le hle]

/-- A longer word is cut after a line, and then what is left of it. -/
theorem chop_of_lt_length {width : Nat} {word : List Char} (hwidth : 0 < width)
    (hlt : width < word.length) :
    chop width word = word.take width :: chop width (word.drop width) := by
  have hcount : (word.length + width - 1) / width =
      ((word.drop width).length + width - 1) / width + 1 := by
    rw [List.length_drop, ← Nat.add_div_right _ hwidth]
    congr 1
    omega
  rw [chop, hcount, List.range_succ_eq_map, List.map_cons, List.map_map, chop]
  congr 1
  · simp
  · refine List.map_congr_left fun k _ => ?_
    rw [List.drop_drop, Function.comp_apply, Nat.succ_mul, Nat.add_comm]

/-- A word is cut every `width` characters. -/
theorem chop_cutEvery {width : Nat} (hwidth : 0 < width) {word : List Char} (hne : word ≠ []) :
    CutEvery width word (chop width word) := by
  induction hn : word.length using Nat.strongRecOn generalizing word with
  | ind n ih =>
      have hpos := List.length_pos_iff.2 hne
      by_cases hle : word.length ≤ width
      · rw [chop_of_length_le hpos hle]
        exact ⟨by simp, by simp, word, rfl, hpos, hle⟩
      · have hlt : width < word.length := Nat.lt_of_not_le hle
        have hlength : (word.drop width).length = word.length - width := List.length_drop
        have hrest : word.drop width ≠ [] := List.length_pos_iff.1 (by omega)
        have hcut := ih (word.drop width).length (by omega) hrest rfl
        have hsome : chop width (word.drop width) ≠ [] := by
          intro hnil
          obtain ⟨last, hlast, -⟩ := hcut.last
          rw [hnil] at hlast
          cases hlast
        rw [chop_of_lt_length hwidth hlt]
        refine ⟨?_, ?_, ?_⟩
        · rw [List.flatten_cons, hcut.flatten, List.take_append_drop]
        · intro p hp
          rw [List.dropLast_cons_of_ne_nil hsome] at hp
          rcases List.mem_cons.1 hp with rfl | hp
          · rw [List.length_take]
            omega
          · exact hcut.full p hp
        · rw [List.getLast?_cons_of_ne_nil hsome]
          exact hcut.last

/-- A piece is not empty and fits on a line. -/
theorem length_of_mem_pieces {width : Nat} (hwidth : 0 < width) {cs p : List Char}
    (hp : p ∈ pieces width cs) : 0 < p.length ∧ p.length ≤ width := by
  obtain ⟨word, hword, hpiece⟩ := List.mem_flatMap.1 hp
  have hcut := chop_cutEvery hwidth (ne_nil_of_mem_words word hword)
  exact hcut.length_le hwidth p hpiece

/-! ## Blanks of wrapped lines -/

theorem isBlank_of_mem_pieces {width : Nat} {cs : List Char} :
    ∀ p ∈ pieces width cs, ∀ c ∈ p, isBlank c = false := by
  intro p hp c hc
  obtain ⟨w, hw, hp⟩ := List.mem_flatMap.1 hp
  obtain ⟨k, -, rfl⟩ := List.mem_map.1 hp
  exact isBlank_of_mem_words w hw c (List.mem_of_mem_drop (List.mem_of_mem_take hc))

/-- A line begun and the pieces that follow it are set into lines of the same
characters and spaces. -/
theorem mem_fillLines {width : Nat} {good : Char → Prop} (hspace : good ' ') :
    ∀ (ps : List (List Char)) (line : List Char), (∀ c ∈ line, good c) →
      (∀ p ∈ ps, ∀ c ∈ p, good c) → ∀ l ∈ fillLines width line ps, ∀ c ∈ l, good c := by
  intro ps
  induction ps with
  | nil =>
      intro line hline _ l hl c hc
      rw [List.mem_singleton.1 hl] at hc
      exact hline c hc
  | cons p ps ih =>
      intro line hline hps
      have hp : ∀ c ∈ p, good c := hps p (by simp)
      have hrest : ∀ q ∈ ps, ∀ c ∈ q, good c := fun q hq => hps q (by simp [hq])
      unfold fillLines
      split
      · refine ih (line ++ ' ' :: p) (fun c hc => ?_) hrest
        rcases List.mem_append.1 hc with hc | hc
        · exact hline c hc
        · rcases List.mem_cons.1 hc with rfl | hc
          · exact hspace
          · exact hp c hc
      · intro l hl
        rcases List.mem_cons.1 hl with rfl | hl
        · exact hline
        · exact ih p hp hrest l hl

/-- The only blanks of a wrapped line are spaces. -/
theorem eq_space_of_mem_wrap {text : String} {width : Int} {l : String}
    (hl : l ∈ wrap text width) {c : Char} (hc : c ∈ l.toList) (hblank : isBlank c = true) :
    c = ' ' := by
  obtain ⟨cs, hcs, rfl⟩ := List.mem_map.1 hl
  rw [String.toList_ofList] at hc
  have hletters : ∀ p ∈ pieces (lineWidth width) text.toList, ∀ c ∈ p,
      isBlank c = true → c = ' ' := by
    intro p hp c hc hb
    rw [isBlank_of_mem_pieces p hp c hc] at hb
    cases hb
  revert hcs
  generalize pieces (lineWidth width) text.toList = ps at hletters
  intro hcs
  cases ps with
  | nil =>
      rw [List.mem_singleton.1 hcs] at hc
      cases hc
  | cons p ps =>
      exact mem_fillLines (fun _ => rfl) ps p (hletters p (by simp))
        (fun q hq => hletters q (by simp [hq])) cs hcs c hc hblank

end Storyboard.Text
