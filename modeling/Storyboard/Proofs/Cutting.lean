import Mathlib.Data.List.Infix
import Storyboard.Text.Blank

/-!
# Lines and cuts of a text

A text is cut into lines at its breaks, and a line into two parts at the first
or the last place of a mark. What a cut gives are pieces of what was cut, and
the part that was searched does not have the mark. The other way round, parts
without the mark are found again when they are put together around it.

## Main results

* `Text.isBreak_of_mem_lines`, `Text.lines_append_newline` — what lines are
  free of, and how they are put together.
* `Text.lines_append`, `Text.lines_intercalate` — the lines of two texts, and
  of lines rejoined.
* `Text.cutFirst?_eq_some`, `Text.cutLast?_eq_some` — what a cut at the first
  or the last mark leaves.
* `Text.Unbordered.cutFirst?_append`, `Text.Unbordered.cutLast?_append` — marks
  that do not overlap themselves are found where they are put.
-/

namespace Storyboard.Text

/-! ## Lines -/

theorem isBreak_of_mem_lines {cs : List Char} : ∀ l ∈ lines cs, ∀ c ∈ l, isBreak c = false := by
  induction cs using lines.induct with
  | case1 =>
      intro l hl
      cases hl
  | case2 rest ih =>
      intro l hl
      rw [lines] at hl
      rcases List.mem_cons.1 hl with rfl | hl
      · simp
      · exact ih l hl
  | case3 c rest hpair hbreak ih =>
      intro l hl
      rw [lines, if_pos hbreak] at hl
      · rcases List.mem_cons.1 hl with rfl | hl
        · simp
        · exact ih l hl
      · exact hpair
  | case4 c rest hpair hbreak hnil ih =>
      intro l hl
      rw [lines, if_neg hbreak, hnil] at hl
      · rw [List.mem_singleton.1 hl]
        simpa using hbreak
      · exact hpair
  | case5 c rest hpair hbreak first more hcons ih =>
      intro l hl
      rw [lines, if_neg hbreak, hcons] at hl
      · rw [hcons] at ih
        rcases List.mem_cons.1 hl with rfl | hl
        · intro d hd
          rcases List.mem_cons.1 hd with rfl | hd
          · simpa using hbreak
          · exact ih first (by simp) d hd
        · exact ih l (by simp [hl])
      · exact hpair

/-- A line and what follows it, put together with a line feed. -/
theorem lines_append_newline {l : List Char} (h : ∀ c ∈ l, isBreak c = false)
    (rest : List Char) : lines (l ++ '\n' :: rest) = l :: lines rest := by
  induction l with
  | nil =>
      rw [List.nil_append, lines, if_pos (by decide)]
      intro more hpair
      cases hpair
  | cons c l ih =>
      have hc : isBreak c = false := h c (by simp)
      rw [List.cons_append, lines, if_neg (by simp [hc]), ih fun d hd => h d (by simp [hd])]
      intro more hreturn
      rw [hreturn] at hc
      cases hc

private theorem lines_eq_nil_iff {cs : List Char} : lines cs = [] ↔ cs = [] := by
  constructor
  · intro h
    unfold lines at h
    split at h
    · rfl
    · cases h
    · split at h
      · cases h
      · split at h <;> cases h
  · intro h
    rw [h]
    rfl

/-- A character that is no break goes to the front of the first line. -/
theorem lines_cons {c : Char} (h : isBreak c = false) {cs l : List Char} {ls : List (List Char)}
    (hlines : lines cs = l :: ls) : lines (c :: cs) = (c :: l) :: ls := by
  rw [lines, if_neg (by simp [h]), hlines]
  intro more hreturn
  rw [hreturn] at h
  cases h

/-- What follows a line feed has no part in the lines before it. -/
theorem lines_newline (cs rest : List Char) :
    lines (cs ++ '\n' :: rest) = lines (cs ++ ['\n']) ++ lines rest := by
  induction cs using lines.induct with
  | case1 => simp [lines, isBreak]
  | case2 cs ih => simp [lines, ih]
  | case3 c cs hpair hbreak ih =>
      by_cases hend : c = '\r' ∧ cs = []
      · -- A carriage return at the end makes one break with the line feed.
        rw [hend.1, hend.2]
        simp [lines]
      · have hapart : ∀ tail more, c = '\r' → cs ++ '\n' :: tail = '\n' :: more → False := by
          intro tail more hreturn hmore
          cases cs with
          | nil => exact hend ⟨hreturn, rfl⟩
          | cons d cs => exact hpair cs hreturn (by rw [(List.cons.inj hmore).1])
        rw [List.cons_append, List.cons_append, lines, lines, if_pos hbreak, if_pos hbreak, ih]
        · rfl
        · exact hapart []
        · exact hapart rest
  | case4 c cs hpair hbreak hnil ih =>
      obtain rfl := lines_eq_nil_iff.1 hnil
      have hc : isBreak c = false := by simpa using hbreak
      have hfeed : ∀ tail, lines ('\n' :: tail) = [] :: lines tail := fun tail => by
        simp [lines, isBreak]
      rw [List.singleton_append, List.singleton_append, lines_cons hc (hfeed rest),
        lines_cons hc (hfeed [])]
      rfl
  | case5 c cs hpair hbreak first more hcons ih =>
      have hc : isBreak c = false := by simpa using hbreak
      obtain ⟨l, ls, hl⟩ := List.exists_cons_of_ne_nil
        (mt lines_eq_nil_iff.1 (show cs ++ ['\n'] ≠ [] by simp))
      rw [hl] at ih
      rw [List.cons_append, List.cons_append, lines_cons hc ih, lines_cons hc hl]
      rfl

/-- The lines of two texts put together, if the first is empty or ends with a
line feed. -/
theorem lines_append {cs : List Char} (h : cs = [] ∨ ∃ start, cs = start ++ ['\n'])
    (rest : List Char) : lines (cs ++ rest) = lines cs ++ lines rest := by
  rcases h with rfl | ⟨start, rfl⟩
  · rfl
  · rw [List.append_assoc]
    exact lines_newline start rest

/-- The text of one line that is not empty has that line. -/
theorem lines_of_not_isBreak {l : List Char} (h : ∀ c ∈ l, isBreak c = false) (hne : l ≠ []) :
    lines l = [l] := by
  induction l with
  | nil => exact absurd rfl hne
  | cons c l ih =>
      have hc : isBreak c = false := h c (by simp)
      cases l with
      | nil =>
          rw [lines, if_neg (by simp [hc])]
          · rfl
          · intro more _ hmore
            cases hmore
      | cons d l => exact lines_cons hc (ih (fun e he => h e (by simp [he])) (by simp))

/-- Lines rejoined with line feeds are found again, except for an empty line
at the end. -/
theorem lines_intercalate {ls : List (List Char)} (h : ∀ l ∈ ls, ∀ c ∈ l, isBreak c = false) :
    ls = lines (List.intercalate ['\n'] ls) ∨ ls = lines (List.intercalate ['\n'] ls) ++ [[]] := by
  induction ls with
  | nil => exact Or.inl rfl
  | cons l ls ih =>
      have hl := h l (by simp)
      cases ls with
      | nil =>
          rw [List.intercalate_singleton]
          by_cases hne : l = []
          · rw [hne]
            exact Or.inr rfl
          · exact Or.inl (lines_of_not_isBreak hl hne).symm
      | cons d ls =>
          have hrest := ih fun k hk => h k (by simp [hk])
          rw [List.intercalate_cons_cons, List.append_assoc, List.singleton_append,
            lines_append_newline hl]
          rcases hrest with hrest | hrest
          · exact Or.inl (congrArg (l :: ·) hrest)
          · exact Or.inr (congrArg (l :: ·) hrest)

/-! ## Marks -/

theorem isPrefixOf?_eq_some_iff {mark cs after : List Char} :
    mark.isPrefixOf? cs = some after ↔ cs = mark ++ after := by
  induction mark generalizing cs with
  | nil => simp [List.isPrefixOf?, eq_comm]
  | cons m mark ih =>
      cases cs with
      | nil => simp [List.isPrefixOf?]
      | cons c cs =>
          by_cases hc : m = c
          · simp [List.isPrefixOf?, hc, ih]
          · simp [List.isPrefixOf?, hc, Ne.symm hc]

theorem isPrefixOf?_eq_none_iff {mark cs : List Char} :
    mark.isPrefixOf? cs = none ↔ ¬mark <+: cs := by
  rw [Option.eq_none_iff_forall_ne_some]
  constructor
  · rintro h ⟨after, hafter⟩
    exact h after (isPrefixOf?_eq_some_iff.2 hafter.symm)
  · intro h after hafter
    exact h ⟨after, (isPrefixOf?_eq_some_iff.1 hafter).symm⟩

private theorem prefix_of_not_mem {mark u w : List Char} {d : Char} (hd : d ∉ mark)
    (h : mark <+: u ++ d :: w) : mark <+: u := by
  by_cases hlen : mark.length ≤ u.length
  · exact List.prefix_of_prefix_length_le h (List.prefix_append u (d :: w)) hlen
  · have hstart : u ++ [d] <+: u ++ d :: w := ⟨w, by simp⟩
    have hlong : u ++ [d] <+: mark := by
      apply List.prefix_of_prefix_length_le hstart h
      rw [List.length_append, List.length_singleton]
      omega
    exact absurd (hlong.subset (by simp)) hd

/-- A character that is not of the mark completes no mark. -/
theorem not_infix_concat {mark cs : List Char} (h : ¬mark <:+: cs) {d : Char} (hd : d ∉ mark) :
    ¬mark <:+: cs ++ [d] := by
  induction cs with
  | nil =>
      intro hmark
      rcases List.infix_cons_iff.1 hmark with hstart | hend
      · exact h (prefix_of_not_mem hd hstart).isInfix
      · exact h hend
  | cons c cs ih =>
      rw [List.infix_cons_iff, not_or] at h
      rw [List.cons_append, List.infix_cons_iff, not_or]
      exact ⟨fun hstart => h.1 (prefix_of_not_mem hd hstart), ih h.2⟩

/-! ## Cuts at the first mark -/

variable {mark : List Char}

theorem cutFirst?_eq_none_iff (hmark : mark ≠ []) {cs : List Char} :
    cutFirst? mark cs = none ↔ ¬mark <:+: cs := by
  induction cs with
  | nil => simp [cutFirst?, hmark]
  | cons c cs ih =>
      rw [cutFirst?, List.infix_cons_iff]
      cases hfound : mark.isPrefixOf? (c :: cs) with
      | none =>
          have hnot := isPrefixOf?_eq_none_iff.1 hfound
          simp [hnot, ih]
      | some after =>
          have hyes : mark <+: c :: cs := ⟨after, (isPrefixOf?_eq_some_iff.1 hfound).symm⟩
          simp [hyes]

/-- A cut at the first mark takes the mark out, and the part before it has
none. -/
theorem cutFirst?_eq_some (hmark : mark ≠ []) {cs before after : List Char}
    (h : cutFirst? mark cs = some (before, after)) :
    cs = before ++ (mark ++ after) ∧ ¬mark <:+: before := by
  induction cs generalizing before with
  | nil => cases h
  | cons c cs ih =>
      rw [cutFirst?] at h
      cases hfound : mark.isPrefixOf? (c :: cs) with
      | some rest =>
          rw [hfound] at h
          cases h
          constructor
          · rw [List.nil_append]
            exact isPrefixOf?_eq_some_iff.1 hfound
          · rw [List.infix_nil]
            exact hmark
      | none =>
          rw [hfound] at h
          obtain ⟨p, hp, heq⟩ := Option.map_eq_some_iff.1 h
          cases heq
          obtain ⟨hcs, hfree⟩ := ih hp
          have hnot := isPrefixOf?_eq_none_iff.1 hfound
          refine ⟨by rw [hcs]; rfl, ?_⟩
          rw [List.infix_cons_iff]
          rintro (hstart | hlater)
          · apply hnot
            rw [hcs]
            exact hstart.trans (List.prefix_append (c :: p.1) _)
          · exact hfree hlater

/-! ## Cuts at the last mark -/

theorem cutLast?_eq_none_iff (hmark : mark ≠ []) {cs : List Char} :
    cutLast? mark cs = none ↔ ¬mark <:+: cs := by
  induction cs with
  | nil => simp [cutLast?, hmark]
  | cons c cs ih =>
      rw [cutLast?, List.infix_cons_iff, not_or, ← ih]
      cases hrest : cutLast? mark cs with
      | none => simp [isPrefixOf?_eq_none_iff]
      | some p => simp

/-- A cut at the last mark takes the mark out, and the part after it has
none. -/
theorem cutLast?_eq_some (hmark : mark ≠ []) {cs before after : List Char}
    (h : cutLast? mark cs = some (before, after)) :
    cs = before ++ (mark ++ after) ∧ ¬mark <:+: after := by
  induction cs generalizing before with
  | nil => cases h
  | cons c cs ih =>
      rw [cutLast?] at h
      cases hrest : cutLast? mark cs with
      | some p =>
          rw [hrest] at h
          cases h
          obtain ⟨hcs, hfree⟩ := ih hrest
          exact ⟨by rw [hcs]; rfl, hfree⟩
      | none =>
          rw [hrest] at h
          obtain ⟨rest, hfound, heq⟩ := Option.map_eq_some_iff.1 h
          cases heq
          have hcs := isPrefixOf?_eq_some_iff.1 hfound
          refine ⟨hcs, fun hinfix => (cutLast?_eq_none_iff hmark).1 hrest ?_⟩
          obtain ⟨m, ms, rfl⟩ := List.exists_cons_of_ne_nil hmark
          rw [List.cons_append, List.cons.injEq] at hcs
          rw [hcs.2]
          exact hinfix.trans (List.suffix_append ms after).isInfix

/-- What stands before a text that has the mark does not change its last
place. -/
theorem cutLast?_append {cs : List Char} {p : List Char × List Char}
    (h : cutLast? mark cs = some p) (before : List Char) :
    cutLast? mark (before ++ cs) = some (before ++ p.1, p.2) := by
  induction before with
  | nil => exact h
  | cons c before ih =>
      rw [List.cons_append, cutLast?, ih]
      rfl

/-! ## Marks that do not overlap themselves -/

/-- Whether no end of a mark is also a start of it, so that two places of the
mark in a text are apart from each other. -/
def Unbordered (mark : List Char) : Prop := ∀ n < mark.length, 0 < n → ¬mark.drop n <+: mark

instance (mark : List Char) : Decidable (Unbordered mark) :=
  inferInstanceAs (Decidable (∀ n < mark.length, 0 < n → ¬mark.drop n <+: mark))

/-- Such a mark does not begin in a part without it that the mark follows. -/
theorem Unbordered.not_prefix_append (h : Unbordered mark) {part : List Char} (hpart : part ≠ [])
    (hfree : ¬mark <+: part) (after : List Char) : ¬mark <+: part ++ (mark ++ after) := by
  intro hfound
  by_cases hlen : mark.length ≤ part.length
  · exact hfree (List.prefix_of_prefix_length_le hfound (List.prefix_append part _) hlen)
  · have hlong : part.length ≤ mark.length := by omega
    obtain ⟨tail, htail⟩ :=
      List.prefix_of_prefix_length_le (List.prefix_append part (mark ++ after)) hfound hlong
    have hdrop : mark.drop part.length = tail := by
      conv_lhs => rw [← htail]
      exact List.drop_left
    have hstart : tail <+: mark ++ after := by
      rw [← htail, List.prefix_append_right_inj] at hfound
      rwa [htail] at hfound
    have hshort : tail.length ≤ mark.length := by
      rw [← hdrop, List.length_drop]
      omega
    apply h part.length (by omega) (List.length_pos_iff.2 hpart)
    rw [hdrop]
    exact List.prefix_of_prefix_length_le hstart (List.prefix_append mark after) hshort

/-- A part without the mark and the mark behind it are cut there. -/
theorem Unbordered.cutFirst?_append (h : Unbordered mark) (hmark : mark ≠ []) {before : List Char}
    (hfree : ¬mark <:+: before) (after : List Char) :
    cutFirst? mark (before ++ (mark ++ after)) = some (before, after) := by
  induction before with
  | nil =>
      obtain ⟨m, ms, rfl⟩ := List.exists_cons_of_ne_nil hmark
      have hstart := isPrefixOf?_eq_some_iff.2 (Eq.refl ((m :: ms) ++ after))
      rw [List.cons_append] at hstart
      rw [List.nil_append, List.cons_append, cutFirst?, hstart]
  | cons c before ih =>
      rw [List.infix_cons_iff, not_or] at hfree
      have hnone := isPrefixOf?_eq_none_iff.2
        (h.not_prefix_append (List.cons_ne_nil c before) hfree.1 after)
      rw [List.cons_append] at hnone ⊢
      rw [cutFirst?, hnone, ih hfree.2]
      rfl

/-- Such a mark does not begin in its own end, if the text behind has none. -/
theorem Unbordered.not_infix_append (h : Unbordered mark) {after : List Char}
    (hfree : ¬mark <:+: after) :
    ∀ n, 0 < n → ¬mark <:+: mark.drop n ++ after := by
  intro n hn
  induction hlen : mark.length - n generalizing n with
  | zero =>
      rw [List.drop_eq_nil_of_le (by omega), List.nil_append]
      exact hfree
  | succ k ih =>
      have hlt : n < mark.length := by omega
      rw [List.drop_eq_getElem_cons hlt, List.cons_append, List.infix_cons_iff, not_or]
      refine ⟨fun hfound => ?_, ih (n + 1) (by omega) (by omega)⟩
      rw [← List.cons_append, ← List.drop_eq_getElem_cons hlt] at hfound
      apply h n hlt hn
      apply List.prefix_of_prefix_length_le (List.prefix_append (mark.drop n) after) hfound
      rw [List.length_drop]
      omega

/-- A part without the mark and the mark before it are cut there. -/
theorem Unbordered.cutLast?_append (h : Unbordered mark) (hmark : mark ≠ []) {after : List Char}
    (hfree : ¬mark <:+: after) (before : List Char) :
    cutLast? mark (before ++ (mark ++ after)) = some (before, after) := by
  have hnone := (cutLast?_eq_none_iff hmark).2 (h.not_infix_append hfree 1 (by omega))
  have hsome : mark.isPrefixOf? (mark ++ after) = some after := isPrefixOf?_eq_some_iff.2 rfl
  have hlast : cutLast? mark (mark ++ after) = some ([], after) := by
    obtain ⟨m, ms, rfl⟩ := List.exists_cons_of_ne_nil hmark
    rw [List.drop_succ_cons, List.drop_zero] at hnone
    rw [List.cons_append] at hsome ⊢
    rw [cutLast?, hnone]
    dsimp only
    rw [hsome]
    rfl
  rw [Text.cutLast?_append hlast before, List.append_nil]

end Storyboard.Text
