import Storyboard.Proofs.Cutting
import Storyboard.Proofs.LineByLine

/-!
# Skipped lines have no effect

A line that is reported as skipped leaves the reading as it was, and so does a
blank line. So any of them can be taken out of a text: the screens stay the
same, and what is reported is what was reported of the lines that are left. If
all reported lines are taken out, nothing is skipped any more.

## Main results

* `Notation.readLines_without` — some skipped and blank lines taken out.
* `Notation.read_remaining` — all skipped lines taken out of a text, and any
  blank ones.
-/

namespace Storyboard.Notation

/-- The lines left when those with certain numbers are taken out. The first
line has number `number`. -/
def without (gone : Nat → Bool) (number : Nat) (ls : List (List Char)) : List (List Char) :=
  ((ls.zipIdx number).filter fun e => !gone e.2).map (·.1)

/-- What a report says, apart from the number of the line. -/
def Skipped.content (r : Skipped) : String × Reason := (r.text, r.reason)

/-- Whether a reading reports a line as skipped. -/
def Reading.reports (r : Reading) (number : Nat) : Bool :=
  r.skipped.any (·.number == number)

/-- The lines of a text without those reported as skipped, and without the
blank ones among those with chosen numbers. -/
def remaining (text : String) (chosen : Nat → Bool) : List (List Char) :=
  (((Text.lines text.toList).zipIdx 1).filter fun e =>
    !((read text).reports e.2 || (Text.trim e.1 = [] && chosen e.2))).map (·.1)

/-! ## Taking lines out of a run -/

variable {gone : Nat → Bool} {number : Nat}

private theorem without_cons_of_gone (h : gone number = true) (raw : List Char)
    (rest : List (List Char)) :
    without gone number (raw :: rest) = without gone (number + 1) rest := by
  simp [without, List.zipIdx_cons, h]

private theorem without_cons_of_left (h : gone number = false) (raw : List Char)
    (rest : List (List Char)) :
    without gone number (raw :: rest) = raw :: without gone (number + 1) rest := by
  simp [without, List.zipIdx_cons, h]

/-- Lines taken out of a run, each of them blank or reported as skipped,
change no screen and no other report. -/
theorem readLines_without (gone : Nat → Bool) (ls : List (List Char)) :
    ∀ (current : Option Screen) (number number' : Nat),
      (∀ e ∈ ls.zipIdx number, gone e.2 = true → Text.trim e.1 = [] ∨
        ∃ r ∈ (readLines current number ls).2, r.number = e.2) →
      (readLines current number' (without gone number ls)).1 = (readLines current number ls).1 ∧
        (readLines current number' (without gone number ls)).2.map Skipped.content =
          ((readLines current number ls).2.filter fun r => !gone r.number).map Skipped.content := by
  induction ls with
  | nil =>
      intro current number number' _
      exact ⟨rfl, rfl⟩
  | cons raw rest ih =>
      intro current number number' h
      rw [List.zipIdx_cons, List.forall_mem_cons] at h
      by_cases hblank : Text.trim raw = []
      · rw [readLines_blank hblank] at h ⊢
        cases hgone : gone number with
        | true =>
            rw [without_cons_of_gone hgone]
            exact ih current (number + 1) number' h.2
        | false =>
            rw [without_cons_of_left hgone, readLines_blank hblank]
            exact ih current (number + 1) (number' + 1) h.2
      · have hrest : ∀ e ∈ rest.zipIdx (number + 1), gone e.2 = true → Text.trim e.1 = [] ∨
            ∃ r ∈ (readLines (step current (Line.read (Text.trim raw))).opened
              (number + 1) rest).2, r.number = e.2 := by
          intro e he hgone
          have hlater : number < e.2 := by
            have hle := List.le_snd_of_mem_zipIdx he
            omega
          rw [← reported_later_iff hblank hlater]
          exact h.2 e he hgone
        cases hgone : gone number with
        | true =>
            -- The line is reported, so its step neither closes nor changes a screen.
            obtain ⟨reason, hreason⟩ :=
              (reported_first_iff hblank number rest).1 ((h.1 hgone).resolve_left hblank)
            obtain ⟨hclosed, hopened⟩ := step_skipped hreason
            rw [hopened] at hrest
            have hind := ih current (number + 1) number' hrest
            rw [without_cons_of_gone hgone, readLines_line hblank, hclosed, hopened, hreason]
            refine ⟨hind.1, hind.2.trans ?_⟩
            simp [Skipped.ofLine, hgone]
        | false =>
            have hind := ih _ (number + 1) (number' + 1) hrest
            rw [without_cons_of_left hgone, readLines_line hblank, readLines_line hblank, hind.1]
            refine ⟨rfl, ?_⟩
            rw [List.map_append, hind.2, List.filter_append, List.map_append]
            cases (step current (Line.read (Text.trim raw))).skipped with
            | none => rfl
            | some reason => simp [Skipped.ofLine, Skipped.content, hgone]

/-- A blank line at the end of a run does nothing. -/
theorem readLines_concat_nil (ls : List (List Char)) :
    ∀ (current : Option Screen) (number : Nat),
      readLines current number (ls ++ [[]]) = readLines current number ls := by
  induction ls with
  | nil =>
      intro current number
      exact readLines_blank rfl number []
  | cons raw rest ih =>
      intro current number
      rw [List.cons_append]
      by_cases hblank : Text.trim raw = []
      · rw [readLines_blank hblank, readLines_blank hblank, ih]
      · rw [readLines_line hblank, readLines_line hblank, ih]

/-- Lines without breaks are read the same after they were rejoined. -/
theorem read_intercalate {ls : List (List Char)} (h : ∀ l ∈ ls, ∀ c ∈ l, Text.isBreak c = false) :
    read (String.ofList (List.intercalate ['\n'] ls)) =
      ⟨⟨(readLines none 1 ls).1⟩, (readLines none 1 ls).2⟩ := by
  have hlines : readLines none 1 (Text.lines (List.intercalate ['\n'] ls)) =
      readLines none 1 ls := by
    rcases Text.lines_intercalate h with heq | heq
    · rw [← heq]
    · conv_rhs => rw [heq, readLines_concat_nil]
  rw [read, String.toList_ofList, hlines]

/-! ## Taking lines out of a text -/

theorem any_number_iff {skipped : List Skipped} {n : Nat} :
    skipped.any (·.number == n) = true ↔ ∃ report ∈ skipped, report.number = n := by
  simp

private theorem reports_iff {r : Reading} {n : Nat} :
    r.reports n = true ↔ ∃ report ∈ r.skipped, report.number = n :=
  any_number_iff

/-- The lines that remain, told by numbers alone: what is taken out is blank or
reported, and all that is reported is taken out. -/
theorem exists_remaining_eq (text : String) (chosen : Nat → Bool) :
    ∃ gone : Nat → Bool, remaining text chosen = without gone 1 (Text.lines text.toList) ∧
      (∀ r ∈ (read text).skipped, gone r.number = true) ∧
      ∀ e ∈ (Text.lines text.toList).zipIdx 1, gone e.2 = true → Text.trim e.1 = [] ∨
        ∃ r ∈ (read text).skipped, r.number = e.2 := by
  let blank (n : Nat) : Bool := (Text.lines text.toList)[n - 1]?.any fun l => Text.trim l = []
  have hblank : ∀ e ∈ (Text.lines text.toList).zipIdx 1,
      blank e.2 = decide (Text.trim e.1 = []) := by
    intro e he
    have hline := (List.mk_mem_zipIdx_iff_le_and_getElem?_sub.1 he).2
    simp [blank, hline]
  refine ⟨fun n => (read text).reports n || (blank n && chosen n), ?_, ?_, ?_⟩
  · rw [remaining, without]
    congr 1
    apply List.filter_congr
    intro e he
    rw [hblank e he]
  · intro r hr
    simp [reports_iff.2 ⟨r, hr, rfl⟩]
  · intro e he hgone
    simp only [Bool.or_eq_true, Bool.and_eq_true, hblank e he, reports_iff,
      decide_eq_true_eq] at hgone
    exact hgone.symm.imp (·.1) id

/-- The lines of a text that are left when all lines reported as skipped and
any of the blank ones are taken out, rejoined with line feeds, are read as the
same flow, with nothing skipped. -/
theorem read_remaining (text : String) (chosen : Nat → Bool) :
    read (String.ofList (List.intercalate ['\n'] (remaining text chosen))) =
      ⟨(read text).flow, []⟩ := by
  obtain ⟨gone, hremaining, hreported, hgone⟩ := exists_remaining_eq text chosen
  have hfree : ∀ l ∈ remaining text chosen, ∀ c ∈ l, Text.isBreak c = false := by
    intro l hl
    obtain ⟨e, he, rfl⟩ := List.mem_map.1 hl
    exact Text.isBreak_of_mem_lines e.1 (List.fst_mem_of_mem_zipIdx (List.mem_of_mem_filter he))
  obtain ⟨hscreens, hreports⟩ :=
    readLines_without gone (Text.lines text.toList) none 1 1 hgone
  have hnone : ((readLines none 1 (Text.lines text.toList)).2.filter
      fun r => !gone r.number) = [] := by
    rw [List.filter_eq_nil_iff]
    intro r hr
    simp [hreported r hr]
  rw [hnone, List.map_nil, List.map_eq_nil_iff] at hreports
  rw [read_intercalate hfree, hremaining, hscreens, hreports]
  rfl

end Storyboard.Notation
