import Storyboard.Proofs.Cutting
import Storyboard.Proofs.LineByLine
import Storyboard.Proofs.Trimming

/-!
# Terminators and padding

How the lines of a text are ended, and what blanks are written around them, has
no part in what the text is read as. Lines are found again behind any one
terminator, be it a single break or a carriage return with its line feed; and a
line is trimmed before anything else is asked about it, so blanks at its ends
are never seen. Blanks that are breaks themselves are no padding, since they
would end the line.

A text must keep to one terminator. A carriage return after one line and a line
feed after the next, empty one would be a single break.

## Main results

* `Text.terminators`, `Text.mem_terminators_iff` — what can end a line.
* `Text.lines_flatMap_terminator` — lines found again behind a terminator.
* `Text.trim_padded` — blanks around a text are trimmed.
* `Notation.readLines_map_trim` — reading sees lines trimmed.
* `Notation.read_padded` — padded lines behind any terminator are read as the
  lines themselves.
-/

namespace Storyboard

namespace Text

/-! ## Terminators -/

/-- What can end a line: line feed, carriage return, both together, vertical
tab, form feed, the file, group and record separators, next line, and the line
and paragraph separators. -/
def terminators : List (List Char) :=
  [['\n'], ['\r'], ['\r', '\n'], ['\x0b'], ['\x0c'], ['\x1c'], ['\x1d'], ['\x1e'], ['\u0085'],
    ['\u2028'], ['\u2029']]

/-- The terminators are the breaks, and a carriage return with a line feed. -/
theorem mem_terminators_iff {t : List Char} :
    t ∈ terminators ↔ t = ['\r', '\n'] ∨ ∃ c, isBreak c = true ∧ t = [c] := by
  constructor
  · intro h
    have hlisted : ∀ s ∈ terminators, s = ['\r', '\n'] ∨
        s.length = 1 ∧ s.all isBreak = true := by decide
    refine (hlisted t h).imp id fun hsingle => ?_
    obtain ⟨c, rfl⟩ := List.length_eq_one_iff.1 hsingle.1
    exact ⟨c, List.all_eq_true.1 hsingle.2 c List.mem_cons_self, rfl⟩
  · rintro (rfl | ⟨c, hc, rfl⟩)
    · decide
    · have hcode : c.toNat ∈ [10, 11, 12, 13, 28, 29, 30, 0x85, 0x2028, 0x2029] := by
        simp only [isBreak, Bool.or_eq_true, Bool.and_eq_true, decide_eq_true_eq, beq_iff_eq] at hc
        simp only [List.mem_cons, List.not_mem_nil, or_false]
        omega
      have hlisted : ∀ n ∈ [10, 11, 12, 13, 28, 29, 30, 0x85, 0x2028, 0x2029],
          [Char.ofNat n] ∈ terminators := by decide
      have hmem := hlisted _ hcode
      rwa [Char.ofNat_toNat] at hmem

/-- A terminator ends the line before it. A carriage return takes a line feed
that follows with it. -/
theorem lines_terminator {t : List Char} (ht : t ∈ terminators) {rest : List Char}
    (hrest : t = ['\r'] → rest.head? ≠ some '\n') : lines (t ++ rest) = [] :: lines rest := by
  rcases mem_terminators_iff.1 ht with rfl | ⟨c, hc, rfl⟩
  · rfl
  · rw [List.singleton_append, lines, if_pos hc]
    intro more hreturn hmore
    rw [hreturn, hmore] at hrest
    exact hrest rfl rfl

/-- What is free of breaks goes to the front of the first line. -/
theorem lines_append_of_cons {rest first : List Char} {more : List (List Char)}
    (hrest : lines rest = first :: more) {l : List Char} (h : ∀ c ∈ l, isBreak c = false) :
    lines (l ++ rest) = (l ++ first) :: more := by
  induction l with
  | nil => exact hrest
  | cons c l ih => exact lines_cons (h c (by simp)) (ih fun d hd => h d (by simp [hd]))

/-- Lines that each have a carriage return behind them do not begin with a line
feed. -/
theorem head?_flatMap_return {ls : List (List Char)} (h : ∀ l ∈ ls, ∀ c ∈ l, isBreak c = false) :
    (ls.flatMap (· ++ ['\r'])).head? ≠ some '\n' := by
  cases ls with
  | nil => simp
  | cons l ls =>
      cases l with
      | nil => simp
      | cons c l =>
          intro hhead
          have hc : isBreak c = false := h (c :: l) (by simp) c (by simp)
          rw [show c = '\n' by simpa using hhead] at hc
          cases hc

/-- Lines are found again when one terminator is put behind each of them. -/
theorem lines_flatMap_terminator {t : List Char} (ht : t ∈ terminators) {ls : List (List Char)}
    (h : ∀ l ∈ ls, ∀ c ∈ l, isBreak c = false) : lines (ls.flatMap (· ++ t)) = ls := by
  induction ls with
  | nil => rfl
  | cons l ls ih =>
      have hls : ∀ k ∈ ls, ∀ c ∈ k, isBreak c = false := fun k hk => h k (by simp [hk])
      have hended : lines (t ++ ls.flatMap (· ++ t)) = [] :: ls := by
        rw [lines_terminator ht, ih hls]
        intro hreturn
        rw [hreturn]
        exact head?_flatMap_return hls
      rw [List.flatMap_cons, List.append_assoc, lines_append_of_cons hended (h l (by simp)),
        List.append_nil]

-- Two terminators in one text may run together, and an empty line is lost.
example : lines ("a".toList ++ ['\r'] ++ ([] ++ ['\n'])) = ["a".toList] := by decide

/-! ## Padding -/

theorem trim_append_of_blank (cs : List Char) {after : List Char}
    (h : ∀ c ∈ after, isBlank c = true) : trim (cs ++ after) = trim cs := by
  by_cases hblank : ∀ c ∈ cs, isBlank c = true
  · rw [trim_eq_nil_iff.2 hblank, trim_eq_nil_iff]
    intro c hc
    exact (List.mem_append.1 hc).elim (hblank c) (h c)
  · -- Something of the text is left at its start, so only its end is changed.
    have hleft : (cs.dropWhile isBlank).isEmpty = false := by
      rw [List.isEmpty_eq_false_iff]
      exact fun hnil => hblank (List.dropWhile_eq_nil_iff.1 hnil)
    have hstart : trimStart (cs ++ after) = trimStart cs ++ after := by
      rw [trimStart, trimStart, List.dropWhile_append, hleft]
      rfl
    rw [trim, trim, hstart, trimEnd, trimEnd, Sequence.dropEndWhile, Sequence.dropEndWhile,
      List.reverse_append, List.dropWhile_append_of_pos]
    intro c hc
    exact h c (List.mem_reverse.1 hc)

/-- Blanks around a text are trimmed with its own. -/
theorem trim_padded {before after : List Char} (hbefore : ∀ c ∈ before, isBlank c = true)
    (hafter : ∀ c ∈ after, isBlank c = true) (cs : List Char) :
    trim (before ++ cs ++ after) = trim cs := by
  rw [trim_append_of_blank _ hafter, trim, trimStart, List.dropWhile_append_of_pos hbefore]
  rfl

end Text

namespace Notation

/-- Reading sees lines trimmed, whatever stands open before them and whatever
their numbers are. -/
theorem readLines_map_trim (ls : List (List Char)) :
    ∀ (current : Option Screen) (number : Nat),
      readLines current number (ls.map Text.trim) = readLines current number ls := by
  induction ls with
  | nil =>
      intro current number
      rfl
  | cons raw rest ih =>
      intro current number
      have htrim : Text.trim (Text.trim raw) = Text.trim raw := Text.trim_trimmed raw
      rw [List.map_cons]
      by_cases hblank : Text.trim raw = []
      · rw [readLines_blank (htrim.trans hblank), readLines_blank hblank, ih]
      · rw [readLines_line (fun hnil => hblank (htrim.symm.trans hnil)), readLines_line hblank,
          htrim, ih]

/-! ## Padded lines -/

/-- Whether a character can pad a line: it is blank, and it does not end the
line. -/
def isPadding (c : Char) : Bool := Text.isBlank c && !Text.isBreak c

/-- A line, and the padding that is written around it. Nothing of it breaks a
line. -/
structure PaddedLine where
  before : List Char := []
  text : List Char
  after : List Char := []
  before_pads : before.all isPadding = true := by decide
  text_unbroken : (text.all fun c => !Text.isBreak c) = true := by decide
  after_pads : after.all isPadding = true := by decide

private theorem isBlank_of_pads {cs : List Char} (h : cs.all isPadding = true) :
    ∀ c ∈ cs, Text.isBlank c = true := by
  intro c hc
  exact (Bool.and_eq_true_iff.1 (List.all_eq_true.1 h c hc)).1

private theorem unbroken_of_pads {cs : List Char} (h : cs.all isPadding = true) :
    ∀ c ∈ cs, Text.isBreak c = false := by
  intro c hc
  exact Bool.not_eq_eq_eq_not.1 (Bool.and_eq_true_iff.1 (List.all_eq_true.1 h c hc)).2

namespace PaddedLine

/-- The line with its padding. -/
def written (l : PaddedLine) : List Char := l.before ++ l.text ++ l.after

private theorem trim_written (l : PaddedLine) : Text.trim l.written = Text.trim l.text :=
  Text.trim_padded (isBlank_of_pads l.before_pads) (isBlank_of_pads l.after_pads) l.text

private theorem not_isBreak_of_mem_text (l : PaddedLine) :
    ∀ c ∈ l.text, Text.isBreak c = false := by
  intro c hc
  exact Bool.not_eq_eq_eq_not.1 (List.all_eq_true.1 l.text_unbroken c hc)

private theorem written_unbroken (l : PaddedLine) : ∀ c ∈ l.written, Text.isBreak c = false := by
  simp only [written, List.forall_mem_append]
  exact ⟨⟨unbroken_of_pads l.before_pads, l.not_isBreak_of_mem_text⟩,
    unbroken_of_pads l.after_pads⟩

end PaddedLine

/-- The text of some lines with a terminator behind each of them. -/
def terminated (t : List Char) (ls : List (List Char)) : String :=
  String.ofList (ls.flatMap (· ++ t))

private theorem read_terminated {t : List Char} (ht : t ∈ Text.terminators) {ls : List (List Char)}
    (h : ∀ l ∈ ls, ∀ c ∈ l, Text.isBreak c = false) :
    read (terminated t ls) = ⟨⟨(readLines none 1 ls).1⟩, (readLines none 1 ls).2⟩ := by
  rw [read, terminated, String.toList_ofList, Text.lines_flatMap_terminator ht h]

/-- Lines with any padding, and any one terminator behind each of them, are read
as the lines themselves with line feeds behind them: the screens are the same,
and so are the reports with their numbers, texts and reasons. -/
theorem read_padded (ls : List PaddedLine) {t : List Char} (ht : t ∈ Text.terminators) :
    read (terminated t (ls.map PaddedLine.written)) =
      read (terminated ['\n'] (ls.map PaddedLine.text)) := by
  have hwritten : ∀ l ∈ ls.map PaddedLine.written, ∀ c ∈ l, Text.isBreak c = false := by
    simp only [List.forall_mem_map]
    exact fun l _ => l.written_unbroken
  have htext : ∀ l ∈ ls.map PaddedLine.text, ∀ c ∈ l, Text.isBreak c = false := by
    simp only [List.forall_mem_map]
    exact fun l _ => l.not_isBreak_of_mem_text
  have hsame : (ls.map PaddedLine.written).map Text.trim =
      (ls.map PaddedLine.text).map Text.trim := by
    simp only [List.map_map, Function.comp_def, PaddedLine.trim_written]
  rw [read_terminated ht hwritten, read_terminated (by decide) htext,
    ← readLines_map_trim (ls.map PaddedLine.written), hsame, readLines_map_trim]

/-- Lines padded with blanks of several kinds, the unit separator among them. A
blank line counts, and two lines are skipped. -/
def indented : List PaddedLine :=
  [{ before := ['\x1f'], text := "=> Nowhere".toList },
   { before := ['\t', ' '], text := "[ Home ]".toList, after := ['\u00a0', '\x1f'] },
   { before := ['\u3000'], text := [] },
   { text := " // X: y".toList, after := ['\u2003'] },
   { before := [' '], text := "A Stay => Home\t".toList }]

theorem indented_read_padded :
    ['\r', '\n'] ∈ Text.terminators ∧
    terminated ['\r', '\n'] (indented.map PaddedLine.written) =
    "\x1f=> Nowhere\r\n\t [ Home ]\u00a0\x1f\r\n\u3000\r\n // X: y\u2003\r\n A Stay => Home\t\r\n" ∧
    (read (terminated ['\n'] (indented.map PaddedLine.text))).skipped.map (·.number) = [1, 4] ∧
    read (terminated ['\r', '\n'] (indented.map PaddedLine.written)) =
      read (terminated ['\n'] (indented.map PaddedLine.text)) :=
  ⟨by decide, by decide, by decide, read_padded indented (by decide)⟩

end Notation

end Storyboard
