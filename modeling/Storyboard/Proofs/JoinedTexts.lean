import Storyboard.Proofs.Segments

/-!
# Texts put together at a header

A header closes the screen before it, so a text that begins with a header can
be put behind any whole lines: the screens of both come one after the other,
and so do the reports, with the second text's lines counted on from the
first's.

## Main results

* `Notation.readLines_append` — two runs of lines, the second from a header.
* `Notation.read_append` — two texts, the second from a header.
-/

namespace Storyboard

namespace Notation

/-! ## Reading on from a header -/

/-- Whether the first line that is not blank opens a screen. -/
def BeginsWithHeader (ls : List (List Char)) : Prop :=
  ∃ line name, ((ls.map Text.trim).filter (· ≠ [])).head? = some line ∧ Opens line name

/-- At a header, the screen that is open is closed and has no further part in
the reading. -/
theorem readLines_restart (ls : List (List Char)) (h : BeginsWithHeader ls) :
    ∀ (current : Option Screen) (number : Nat), readLines current number ls =
      (current.toList ++ (readLines none number ls).1, (readLines none number ls).2) := by
  induction ls with
  | nil =>
      obtain ⟨line, name, hnone, -⟩ := h
      cases hnone
  | cons raw rest ih =>
      intro current number
      obtain ⟨line, name, hfirst, hopens⟩ := h
      by_cases hblank : Text.trim raw = []
      · rw [List.map_cons, hblank] at hfirst
        rw [readLines_blank hblank, readLines_blank hblank]
        exact ih ⟨line, name, hfirst, hopens⟩ current (number + 1)
      · have hline : line = Text.trim raw := by
          simpa [hblank, eq_comm] using hfirst
        rw [hline] at hopens
        rw [readLines_line hblank, readLines_line hblank, read_eq_header_iff.2 hopens]
        rfl

/-- Lines, and further lines that begin with a header. -/
theorem readLines_append {more : List (List Char)} (h : BeginsWithHeader more)
    (ls : List (List Char)) :
    ∀ (current : Option Screen) (number : Nat), readLines current number (ls ++ more) =
      ((readLines current number ls).1 ++ (readLines none (number + ls.length) more).1,
        (readLines current number ls).2 ++ (readLines none (number + ls.length) more).2) := by
  induction ls with
  | nil =>
      intro current number
      exact readLines_restart more h current number
  | cons raw rest ih =>
      intro current number
      have hcount : number + (raw :: rest).length = number + 1 + rest.length := by
        rw [List.length_cons]
        omega
      rw [List.cons_append, hcount]
      by_cases hblank : Text.trim raw = []
      · rw [readLines_blank hblank, readLines_blank hblank]
        exact ih current (number + 1)
      · rw [readLines_line hblank, readLines_line hblank, ih, List.append_assoc, List.append_assoc]

/-- Two texts put together, the first empty or of whole lines, the second with
a header as its first line that is not blank: its screens are those of both,
and its reports are those of both, with the lines of the first counted before
those of the second. -/
theorem read_append {a b : String} (ha : a = "" ∨ ∃ start, a = start ++ "\n")
    (hb : ∃ line name, (contents b).head? = some line ∧ Opens line name) :
    read (a ++ b) =
      ⟨⟨(read a).flow.screens ++ (read b).flow.screens⟩,
        (read a).skipped ++ (read b).skipped.map (Skipped.shift (Text.lines a.toList).length)⟩ := by
  have hwhole : a.toList = [] ∨ ∃ start, a.toList = start ++ ['\n'] := by
    rcases ha with rfl | ⟨start, rfl⟩
    · exact Or.inl rfl
    · exact Or.inr ⟨start.toList, String.toList_append⟩
  have hlines : Text.lines (a ++ b).toList = Text.lines a.toList ++ Text.lines b.toList := by
    rw [String.toList_append, Text.lines_append hwhole]
  rw [read, hlines, readLines_append hb, readLines_shift]
  rfl

/-- A first text whose last screen is still open at its end, with lines
skipped before and inside it. -/
def opening : String := "T lost\r\n[Home]\n=>\n[ ]\n"

/-- A second text that begins with a blank line, and has a line skipped. -/
def closing : String := "\n\t[Away]\nhm\n=> Home"

theorem opening_closing_read :
    (read opening).skipped.map (·.number) = [1, 3, 4] ∧
      (read closing).skipped.map (·.number) = [3] ∧
      read (opening ++ closing) =
        ⟨⟨(read opening).flow.screens ++ (read closing).flow.screens⟩,
          (read opening).skipped ++ (read closing).skipped.map (Skipped.shift 4)⟩ := by
  have hopens : Opens "[Away]".toList "Away" := ⟨"Away".toList, by decide, by decide, by decide⟩
  have hjoined := read_append (a := opening) (b := closing)
    (Or.inr ⟨"T lost\r\n[Home]\n=>\n[ ]", by decide⟩)
    ⟨"[Away]".toList, "Away", by decide, hopens⟩
  exact ⟨by decide, by decide, hjoined⟩

end Notation

end Storyboard
