import Mathlib.Algebra.Ring.Int.Defs
import Storyboard.Proofs.Segments
import Storyboard.Proofs.SkippedLines

/-!
# Every line is accounted for

A line that is not blank is skipped and reported, or it is in use. A line in
use opens a screen, or adds one entry to the screen that is open: a section
break, a component, a transition, or an action, which is a component and a
transition with a trigger and still one line. Requirements alone may replace
one another, and they can be told by the marks that they begin with. So the
other lines in use can be counted in the screens that were read.

## Main definitions

* `Screen.entries` — the lines that a screen shows for, besides its header and
  its requirements.
* `Notation.isRemark` — whether a line begins as requirements do.

## Main results

* `Notation.Adds.entries` — a line adds one entry, or it is a requirement.
* `Notation.step_account` — one line.
* `Notation.readLines_account` — a run over lines.
* `Notation.readLines_skipped_sorted`, `Notation.mem_readLines_skipped` — the
  reports.
* `Notation.read_accounts` — the lines of a text.
-/

namespace Storyboard

/-- The lines that a screen shows for, besides its header and its requirements.
An action that leads to a screen is a component and a transition, and it alone
gives a transition a trigger. -/
def Screen.entries (s : Screen) : Int :=
  s.sections.length + s.transitions.length + s.components.length -
    s.transitions.countP (·.trigger ≠ "")

namespace Notation

/-- Whether a line begins with the marks of a requirement. -/
def isRemark (line : List Char) : Bool := ['/', '/'].isPrefixOf line

/-- The lines that some screens show for, besides their requirements. -/
def accounted (screens : List Screen) : Int :=
  screens.length + (screens.map Screen.entries).sum

private theorem accounted_append (as bs : List Screen) :
    accounted (as ++ bs) = accounted as + accounted bs := by
  simp only [accounted, List.length_append, List.map_append, List.sum_append]
  push_cast
  omega

/-! ## One line -/

theorem isRemark_of_opens {line : List Char} {name : String} (h : Opens line name) :
    isRemark line = false := by
  obtain ⟨inside, rfl, -⟩ := h
  rfl

/-- The entries that an item makes in a screen. -/
def Item.entries (item : Item) : Int :=
  (if item = .sectionBreak then 1 else 0) + item.transitions.length + item.components.length -
    item.transitions.countP (·.trigger ≠ "")

private theorem entries_add (s : Screen) (item : Item) :
    (s.add item).entries = s.entries + item.entries := by
  have hsections : ((s.add item).sections.length : Int) =
      s.sections.length + if item = .sectionBreak then 1 else 0 := by
    by_cases hbreak : item = .sectionBreak
    · rw [if_pos hbreak, hbreak, Screen.add, List.length_append]
      rfl
    · rw [if_neg hbreak, sections_add_of_ne s hbreak, Int.add_zero]
  unfold Screen.entries Item.entries
  rw [hsections, transitions_add, components_add, List.length_append, List.length_append,
    List.countP_append]
  omega

/-- What a line adds is one entry, unless it is a requirement, and the lines of
requirements can be told by how they begin. -/
theorem Adds.entries {line : List Char} {item : Item} (h : Adds line item) :
    item.entries = if isRemark line then 0 else 1 := by
  cases h with
  | sectionBreak => rfl
  | @action label target free label_ne target_ne =>
      -- The label is the trigger of the transition, which is why the line counts once.
      have hlabel : String.ofList (Text.trim label) ≠ "" := fun heq =>
        label_ne (String.ofList_injective heq)
      have hline : isRemark ('A' :: ' ' :: (label ++ (arrow ++ target))) = false := rfl
      simp [Item.entries, Item.transitions, Item.components, hlabel, hline]
  | conditional free condition_ne target_ne => rfl
  | jump target_ne => rfl
  | @component kind name name_ne free =>
      have hline : isRemark (kind.letter :: ' ' :: name) = false := by
        cases kind <;> rfl
      rw [hline]
      rfl
  | requirement colon known => rfl

/-- A line opens a screen or adds an entry, if it is in use and no requirement,
and changes no count otherwise. -/
theorem step_account (current : Option Screen) (line : List Char) :
    accounted (step current (Line.read line)).closed.toList +
        accounted (step current (Line.read line)).opened.toList =
      accounted current.toList +
        if (step current (Line.read line)).skipped = none ∧ isRemark line = false then 1
        else 0 := by
  rcases step_cases current line with ⟨name, hopens, hstep⟩ | ⟨s, item, rfl, hadds, hstep⟩ |
    ⟨-, -, reason, hstep⟩
  · rw [hstep]
    simp [isRemark_of_opens hopens, accounted, Screen.entries]
  · rw [hstep]
    cases hremark : isRemark line with
    | false =>
        have hitem : item.entries = 1 := by rw [hadds.entries, hremark]; rfl
        simp [accounted, entries_add, hitem, Int.add_assoc]
    | true =>
        have hitem : item.entries = 0 := by rw [hadds.entries, hremark]; rfl
        simp [accounted, entries_add, hitem]
  · rw [hstep]
    simp [accounted]

/-! ## Lines after lines -/

/-- Whether a numbered line is in use, by the reports of those that are not, and
is no requirement. -/
def counts (skipped : List Skipped) (e : List Char × Nat) : Bool :=
  Text.trim e.1 ≠ [] && !skipped.any (·.number == e.2) && !isRemark (Text.trim e.1)

variable {current : Option Screen} {raw : List Char}

private theorem counts_first (h : Text.trim raw ≠ []) (number : Nat) (rest : List (List Char)) :
    counts (readLines current number (raw :: rest)).2 (raw, number) =
      decide ((step current (Line.read (Text.trim raw))).skipped = none ∧
        isRemark (Text.trim raw) = false) := by
  have hreported : (readLines current number (raw :: rest)).2.any (·.number == number) =
      (step current (Line.read (Text.trim raw))).skipped.isSome := by
    rw [Bool.eq_iff_iff, any_number_iff, reported_first_iff h, Option.isSome_iff_exists]
  rw [counts, hreported]
  cases (step current (Line.read (Text.trim raw))).skipped <;> simp [h]

private theorem counts_later (h : Text.trim raw ≠ []) {number : Nat} {rest : List (List Char)}
    {e : List Char × Nat} (he : e ∈ rest.zipIdx (number + 1)) :
    counts (readLines current number (raw :: rest)).2 e = counts
      (readLines (step current (Line.read (Text.trim raw))).opened (number + 1) rest).2 e := by
  have hlater : number < e.2 := List.le_snd_of_mem_zipIdx he
  have hreported : (readLines current number (raw :: rest)).2.any (·.number == e.2) =
      (readLines (step current (Line.read (Text.trim raw))).opened (number + 1) rest).2.any
        (·.number == e.2) := by
    rw [Bool.eq_iff_iff, any_number_iff, any_number_iff, reported_later_iff h hlater]
  rw [counts, counts, hreported]

/-- The screens of a run show for what the open screen did and for the lines
that count. -/
theorem readLines_account (ls : List (List Char)) :
    ∀ (current : Option Screen) (number : Nat),
      accounted (readLines current number ls).1 = accounted current.toList +
        ((ls.zipIdx number).countP (counts (readLines current number ls).2) : Int) := by
  induction ls with
  | nil =>
      intro current number
      simp [readLines]
  | cons raw rest ih =>
      intro current number
      rw [List.zipIdx_cons]
      by_cases hblank : Text.trim raw = []
      · rw [readLines_blank hblank, ih, List.countP_cons_of_neg (by simp [counts, hblank])]
      · have hstep := step_account current (Text.trim raw)
        have hlater : (rest.zipIdx (number + 1)).countP
              (counts (readLines current number (raw :: rest)).2) =
            (rest.zipIdx (number + 1)).countP (counts (readLines
              (step current (Line.read (Text.trim raw))).opened (number + 1) rest).2) :=
          List.countP_congr fun e he => by rw [counts_later hblank he]
        rw [List.countP_cons, hlater, counts_first hblank, readLines_line hblank,
          accounted_append, ih]
        by_cases hcounts : (step current (Line.read (Text.trim raw))).skipped = none ∧
            isRemark (Text.trim raw) = false
        · rw [if_pos hcounts] at hstep
          rw [if_pos (decide_eq_true hcounts)]
          omega
        · rw [if_neg hcounts] at hstep
          rw [if_neg fun hdecide => hcounts (of_decide_eq_true hdecide)]
          omega

/-! ## Reports -/

/-- Reports come by increasing numbers. -/
theorem readLines_skipped_sorted (ls : List (List Char)) :
    ∀ (current : Option Screen) (number : Nat),
      (readLines current number ls).2.Pairwise fun a b => a.number < b.number := by
  induction ls with
  | nil =>
      intro current number
      exact List.Pairwise.nil
  | cons raw rest ih =>
      intro current number
      by_cases hblank : Text.trim raw = []
      · rw [readLines_blank hblank]
        exact ih current (number + 1)
      · rw [readLines_line hblank]
        cases (step current (Line.read (Text.trim raw))).skipped with
        | none => exact ih _ (number + 1)
        | some reason =>
            refine List.pairwise_cons.2 ⟨fun r hr => ?_, ih _ (number + 1)⟩
            exact le_number_of_mem_readLines rest _ (number + 1) r hr

/-- A report shows the line that it names, trimmed, and that line is not
blank. -/
theorem mem_readLines_skipped (ls : List (List Char)) :
    ∀ (current : Option Screen) (number : Nat), ∀ r ∈ (readLines current number ls).2,
      ∃ raw, (raw, r.number) ∈ ls.zipIdx number ∧ Text.trim raw ≠ [] ∧
        r.text = String.ofList (Text.trim raw) := by
  induction ls with
  | nil =>
      intro current number r hr
      cases hr
  | cons raw rest ih =>
      intro current number r hr
      rw [List.zipIdx_cons]
      have hlater : ∀ next, r ∈ (readLines next (number + 1) rest).2 →
          ∃ line, (line, r.number) ∈ (raw, number) :: rest.zipIdx (number + 1) ∧
            Text.trim line ≠ [] ∧ r.text = String.ofList (Text.trim line) := by
        intro next hnext
        obtain ⟨line, hline, hcontent⟩ := ih next (number + 1) r hnext
        exact ⟨line, List.mem_cons_of_mem _ hline, hcontent⟩
      by_cases hblank : Text.trim raw = []
      · rw [readLines_blank hblank] at hr
        exact hlater current hr
      · rw [readLines_line hblank] at hr
        rcases List.mem_append.1 hr with hfirst | hrest
        · rw [Option.mem_toList] at hfirst
          obtain ⟨reason, -, rfl⟩ := Option.map_eq_some_iff.1 hfirst
          exact ⟨raw, List.mem_cons_self, hblank, rfl⟩
        · exact hlater _ hrest

/-! ## The lines of a text -/

/-- Every line of a text is accounted for. The reports of skipped lines come by
increasing numbers, and each shows the line that it names, trimmed, which is
not blank. The lines that are neither blank nor reported and do not begin with
the marks of a requirement are as many as there are screens and, in the
screens, section breaks, transitions and components, an action with a target
counted once. -/
theorem read_accounts (text : String) :
    ((read text).skipped.Pairwise fun a b => a.number < b.number) ∧
    (∀ r ∈ (read text).skipped, 1 ≤ r.number ∧
      ∃ raw, (Text.lines text.toList)[r.number - 1]? = some raw ∧ Text.trim raw ≠ [] ∧
        r.text = String.ofList (Text.trim raw)) ∧
    ((((Text.lines text.toList).zipIdx 1).countP fun e => Text.trim e.1 ≠ [] &&
        !(read text).reports e.2 && !isRemark (Text.trim e.1) : Nat) : Int) =
      (read text).flow.size + ((read text).flow.screens.map fun s =>
        (s.sections.length + s.transitions.length + s.components.length -
          s.transitions.countP (·.trigger ≠ "") : Int)).sum := by
  refine ⟨readLines_skipped_sorted _ none 1, ?_, ?_⟩
  · intro r hr
    obtain ⟨raw, hline, hcontent⟩ := mem_readLines_skipped _ none 1 r hr
    obtain ⟨hnumber, hget⟩ := List.mk_mem_zipIdx_iff_le_and_getElem?_sub.1 hline
    exact ⟨hnumber, raw, hget, hcontent⟩
  · have hrun := readLines_account (Text.lines text.toList) none 1
    rw [show accounted (none : Option Screen).toList = 0 from rfl, Int.zero_add] at hrun
    exact hrun.symm

end Notation

end Storyboard
