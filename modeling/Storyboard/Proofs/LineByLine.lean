import Storyboard.Notation.Reading

/-!
# Reading one line after another

What one line does to a reading, and what follows for a run over lines: the
number of the first line only shifts the reports, and a report is made for the
line that it names.

## Main results

* `Notation.readLines_blank`, `Notation.readLines_line` — one line.
* `Notation.step_skipped` — a line that is skipped does nothing else.
* `Notation.readLines_shift` — the same lines under other numbers.
* `Notation.reported_first_iff`, `Notation.reported_later_iff` — which line a
  report is about.
-/

namespace Storyboard.Notation

/-- The report of a line that is skipped. -/
def Skipped.ofLine (number : Nat) (line : List Char) (reason : Reason) : Skipped :=
  ⟨number, String.ofList line, reason⟩

/-- The same report of a line `k` lines further down. -/
def Skipped.shift (k : Nat) (r : Skipped) : Skipped :=
  { r with number := r.number + k }

variable {current : Option Screen} {raw : List Char}

theorem readLines_blank (h : Text.trim raw = []) (number : Nat) (rest : List (List Char)) :
    readLines current number (raw :: rest) = readLines current (number + 1) rest := by
  rw [readLines]
  dsimp only
  rw [if_pos h]

theorem readLines_line (h : Text.trim raw ≠ []) (number : Nat) (rest : List (List Char)) :
    readLines current number (raw :: rest) =
      ((step current (Line.read (Text.trim raw))).closed.toList ++
          (readLines (step current (Line.read (Text.trim raw))).opened (number + 1) rest).1,
        ((step current (Line.read (Text.trim raw))).skipped.map
            (Skipped.ofLine number (Text.trim raw))).toList ++
          (readLines (step current (Line.read (Text.trim raw))).opened (number + 1) rest).2) := by
  rw [readLines]
  dsimp only
  rw [if_neg h]
  rfl

/-- A line that is skipped closes nothing and leaves the open screen alone. -/
theorem step_skipped {line : Line} {reason : Reason}
    (h : (step current line).skipped = some reason) :
    (step current line).closed = none ∧ (step current line).opened = current := by
  cases line with
  | header name => cases h
  | emptyHeader => exact ⟨rfl, rfl⟩
  | unrecognized => exact ⟨rfl, rfl⟩
  | body form content =>
      cases current with
      | none => exact ⟨rfl, rfl⟩
      | some s =>
          cases content with
          | error flaw => exact ⟨rfl, rfl⟩
          | ok item => cases h

/-- Lines read under numbers that begin `k` later give the same screens, and
reports with numbers that are greater by `k`. -/
theorem readLines_shift (k : Nat) (ls : List (List Char)) :
    ∀ (current : Option Screen) (number : Nat), readLines current (number + k) ls =
      ((readLines current number ls).1, (readLines current number ls).2.map (Skipped.shift k)) := by
  induction ls with
  | nil =>
      intro current number
      rfl
  | cons raw rest ih =>
      intro current number
      have hnext : number + k + 1 = number + 1 + k := by omega
      by_cases hblank : Text.trim raw = []
      · rw [readLines_blank hblank, readLines_blank hblank, hnext, ih]
      · rw [readLines_line hblank, readLines_line hblank, hnext, ih]
        cases (step current (Line.read (Text.trim raw))).skipped with
        | none => rfl
        | some reason => rfl

/-- A report is about a line at or behind the first one read. -/
theorem le_number_of_mem_readLines (ls : List (List Char)) :
    ∀ (current : Option Screen) (number : Nat),
      ∀ r ∈ (readLines current number ls).2, number ≤ r.number := by
  induction ls with
  | nil =>
      intro current number r hr
      cases hr
  | cons raw rest ih =>
      intro current number r hr
      by_cases hblank : Text.trim raw = []
      · rw [readLines_blank hblank] at hr
        have hlater := ih current (number + 1) r hr
        omega
      · rw [readLines_line hblank] at hr
        rcases List.mem_append.1 hr with hr | hr
        · rw [Option.mem_toList] at hr
          obtain ⟨reason, -, rfl⟩ := Option.map_eq_some_iff.1 hr
          exact Nat.le_refl number
        · have hlater := ih _ (number + 1) r hr
          omega

/-- The first line is reported exactly if its step says why it is skipped. -/
theorem reported_first_iff (h : Text.trim raw ≠ []) (number : Nat) (rest : List (List Char)) :
    (∃ r ∈ (readLines current number (raw :: rest)).2, r.number = number) ↔
      ∃ reason, (step current (Line.read (Text.trim raw))).skipped = some reason := by
  rw [readLines_line h]
  constructor
  · rintro ⟨r, hr, hnumber⟩
    rcases List.mem_append.1 hr with hr | hr
    · rw [Option.mem_toList] at hr
      obtain ⟨reason, hreason, -⟩ := Option.map_eq_some_iff.1 hr
      exact ⟨reason, hreason⟩
    · have hlater := le_number_of_mem_readLines rest _ (number + 1) r hr
      omega
  · rintro ⟨reason, hreason⟩
    refine ⟨Skipped.ofLine number (Text.trim raw) reason, ?_, rfl⟩
    rw [hreason]
    exact List.mem_append_left _ (List.mem_singleton_self _)

/-- A later line is reported exactly if it is in the rest of the run. -/
theorem reported_later_iff (h : Text.trim raw ≠ []) {number n : Nat} (hn : number < n)
    (rest : List (List Char)) :
    (∃ r ∈ (readLines current number (raw :: rest)).2, r.number = n) ↔
      ∃ r ∈ (readLines (step current (Line.read (Text.trim raw))).opened (number + 1) rest).2,
        r.number = n := by
  rw [readLines_line h]
  constructor
  · rintro ⟨r, hr, hnumber⟩
    rcases List.mem_append.1 hr with hr | hr
    · rw [Option.mem_toList] at hr
      obtain ⟨reason, -, rfl⟩ := Option.map_eq_some_iff.1 hr
      exact absurd hnumber (Nat.ne_of_lt hn)
    · exact ⟨r, hr, hnumber⟩
  · rintro ⟨r, hr, hnumber⟩
    exact ⟨r, List.mem_append_right _ hr, hnumber⟩

end Storyboard.Notation
