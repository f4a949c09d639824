import Storyboard.Proofs.CommandRuns

/-!
# The command delivers all or nothing

Whatever file system the command runs on, and whatever workshop its pictures are
drawn in, a run that has got its text either delivers one diagram and says so by
its status, or it prints nothing and writes nothing. What a review finds is told
on the standard error in either case, a line for each finding and nothing else
but notes.

## Main results

* `errorText`, `Settings.exists_reported` — what stands on the standard error.
* `Ending.status_eq_zero_iff`, `Ending.nothing` — what the status of a run tells.
* `program_all_or_nothing` — the run of the command.
-/

namespace Storyboard.Command

/-! ## The standard error -/

/-- Lines on the standard error, with notes before and behind them. -/
def errorText (verbose : Bool) (first : List Note) (lines : List String) (last : List Note) :
    String :=
  Note.log verbose first ++ String.join (lines.map (· ++ "\n")) ++ Note.log verbose last

/-- The lines that a review reports, if there is a review. -/
def Settings.findings (s : Settings) (text : String) : List String :=
  if s.check then (Notation.read text).flow.review.messages (Notation.read text).flow else []

variable {σ : Type} {fs : FileSystem σ} {shop : Workshop} {s : Settings} {err text : String}
  {before : σ} {run : Outcome × σ}

/-- What is reported before the diagram is made are the findings, behind notes. -/
theorem Settings.exists_reported (s : Settings) (text : String) :
    ∃ first, ∀ last, s.reported text ++ Note.log s.verbose last =
      errorText s.verbose first (s.findings text) last := by
  unfold Settings.reported Settings.findings
  cases s.check with
  | true =>
      exact ⟨(Notation.read text).notes ++
        (Notation.read text).flow.review.notes (Notation.read text).flow, fun last => rfl⟩
  | false => exact ⟨[], fun last => rfl⟩

/-- However a run ends, what it had reported stands, and only notes are added. -/
theorem Ending.exists_err (h : Ending fs shop s err text before run) :
    ∃ last, run.1.err = err ++ Note.log s.verbose last := by
  cases h with
  | delivered notes => exact ⟨notes, rfl⟩
  | failed notes message => exact ⟨notes ++ [⟨.error, .command, message⟩], rfl⟩
  | broken notes => exact ⟨notes, rfl⟩

/-! ## The status -/

/-- The status is zero exactly if the diagram can be delivered. -/
theorem Ending.status_eq_zero_iff (h : Ending fs shop s err text before run) :
    run.1.status = .ok 0 ↔ ∃ out after, Delivers fs shop s text before out after := by
  cases h with
  | delivered notes hdelivers => exact ⟨fun _ => ⟨_, _, hdelivers⟩, fun _ => rfl⟩
  | failed notes message hnone =>
      constructor
      · intro hzero
        cases hzero
      · intro ⟨out, after, hdelivers⟩
        exact absurd hdelivers (hnone out after)
  | broken notes hnone hfault =>
      constructor
      · intro hzero
        cases hzero
      · intro ⟨out, after, hdelivers⟩
        exact absurd hdelivers (hnone out after)

/-- With status zero, the diagram has been delivered. -/
theorem Ending.delivers (h : Ending fs shop s err text before run)
    (hzero : run.1.status = .ok 0) : Delivers fs shop s text before run.1.out run.2 := by
  cases h with
  | delivered notes hdelivers => exact hdelivers
  | failed notes message => cases hzero
  | broken notes => cases hzero

/-- With any other status, nothing has been printed or written. -/
theorem Ending.nothing (h : Ending fs shop s err text before run)
    (hnonzero : run.1.status ≠ .ok 0) : run.1.out = "" ∧ run.2 = before := by
  cases h with
  | delivered notes => exact absurd rfl hnonzero
  | failed notes message => exact ⟨rfl, rfl⟩
  | broken notes => exact ⟨rfl, rfl⟩

/-! ## The command -/

/-- The command delivers all or nothing. On any file system and in any workshop,
for any arguments that are understood and any input that is a text:

* its status is zero exactly if the review, where one is asked for, finds
  nothing and the diagram can be made and put where it is to go;
* then one diagram has been delivered, in one place: printed, or written to a
  file whose path alone is printed;
* with any other end nothing has been printed and the file system is as before;
* if only the system refuses files, the command ends with zero or one, unless
  the output has an empty value that leaves the format open;
* besides notes, the standard error has the findings of the review, one line for
  each and in order. -/
theorem program_all_or_nothing (fs : FileSystem σ) (shop : Workshop) (stdin : String) (before : σ)
    {arguments : List String} {input text : String} {s : Settings}
    (hparse : parse arguments = .ok (input, s)) (hinput : fs.Supplies stdin before input text) :
    let run := (program arguments shop).runOn fs stdin before
    (run.1.status = .ok 0 ↔
      (s.check = true → (Notation.read text).flow.review.isClean = true) ∧
        ∃ out after, Delivers fs shop s text before out after) ∧
    (run.1.status = .ok 0 → Delivers fs shop s text before run.1.out run.2) ∧
    (run.1.status ≠ .ok 0 → run.1.out = "" ∧ run.2 = before) ∧
    ((∀ path content fault, fs.write before path content = .error fault → fault.isSystem = true) →
      (s.output = .emptied → s.format ≠ none) →
      run.1.status = .ok 0 ∨ run.1.status = .ok 1) ∧
    ∃ first last, run.1.err = errorText s.verbose first (s.findings text) last := by
  intro run
  have hrun : run = (process shop s text).runOn fs stdin before := program_supplied hparse hinput
  obtain ⟨first, hfirst⟩ := s.exists_reported text
  rcases process_cases fs shop s text before stdin with ⟨hcheck, hfound, hover⟩ | ⟨hclean, hending⟩
  · rw [hrun, hover]
    refine ⟨⟨fun h => ?_, fun h => ?_⟩, fun h => ?_, fun _ => ⟨rfl, rfl⟩,
      fun _ _ => Or.inr rfl, first, [], ?_⟩
    · cases h
    · rw [h.1 hcheck] at hfound
      cases hfound
    · cases h
    · rw [← hfirst []]
      exact (String.append_empty).symm
  · rw [← hrun] at hending
    refine ⟨hending.status_eq_zero_iff.trans ⟨fun h => ⟨hclean, h⟩, fun h => h.2⟩,
      hending.delivers, hending.nothing, fun hsystem hnamed => ?_, ?_⟩
    · rcases hending.status_cases with hzero | hone | ⟨fault, -, hfault⟩
      · exact Or.inl hzero
      · exact Or.inr hone
      · cases hfault with
        | emptied houtput hasked => exact absurd hasked (hnamed houtput)
        | refused hpath hwrite hother =>
            rw [hsystem _ _ _ hwrite] at hother
            cases hother
    · obtain ⟨last, hlast⟩ := hending.exists_err
      exact ⟨first, last, hlast.trans (hfirst last)⟩

/-- A folder with a flow in it that leads nowhere, and a text without screens. -/
def drafts : Folder where
  entries :=
    [(["flow.txt"], .file (.text "[Home]\r\n=> Away\r\n")), (["void.txt"], .file (.text "hm"))]

/-- The settings of a review with a picture to be made. -/
def reviewed : Settings := { check := true, output := .file (Path.ofString "out.png") }

/-- The settings of a text diagram to be saved. -/
def saved : Settings := { output := .file (Path.ofString "out.txt") }

/-- A review that finds something leaves the folder as it is and prints nothing;
and a text without screens has its empty diagram saved. -/
theorem drafts_all_or_nothing :
    parse ["flow.txt", "--check", "-o", "out.png"] = .ok ("flow.txt", reviewed) ∧
    folders.Supplies "" drafts "flow.txt" "[Home]\n=> Away\n" ∧
    ((program ["flow.txt", "--check", "-o", "out.png"]).runOn folders "" drafts).1.status ≠ .ok 0 ∧
    ((program ["flow.txt", "--check", "-o", "out.png"]).runOn folders "" drafts).1.out = "" ∧
    ((program ["flow.txt", "--check", "-o", "out.png"]).runOn folders "" drafts).2 = drafts ∧
    parse ["void.txt", "-oout.txt"] = .ok ("void.txt", saved) ∧
    folders.Supplies "" drafts "void.txt" "hm" ∧
    ((program ["void.txt", "-oout.txt"]).runOn folders "" drafts).1.status = .ok 0 := by
  have hreviewed : parse ["flow.txt", "--check", "-o", "out.png"] = .ok ("flow.txt", reviewed) :=
    rfl
  have hflow : folders.Supplies "" drafts "flow.txt"
      (String.ofList (Text.unifyBreaks "[Home]\r\n=> Away\r\n".toList)) := .file (by decide) rfl
  have hsaved : parse ["void.txt", "-oout.txt"] = .ok ("void.txt", saved) := rfl
  have hvoid : folders.Supplies "" drafts "void.txt"
      (String.ofList (Text.unifyBreaks "hm".toList)) := .file (by decide) rfl
  have hfound : (Notation.read "[Home]\n=> Away\n").flow.review.isClean ≠ true := by decide
  obtain ⟨hzero, -, hnothing, -⟩ := program_all_or_nothing folders .plain "" drafts hreviewed hflow
  obtain ⟨hdone, -⟩ := program_all_or_nothing folders .plain "" drafts hsaved hvoid
  have hnonzero := mt hzero.1 fun h => hfound (h.1 rfl)
  refine ⟨hreviewed, hflow, hnonzero, (hnothing hnonzero).1, (hnothing hnonzero).2, hsaved, hvoid,
    hdone.2 ⟨?_, ?_⟩⟩
  · intro hcheck
    cases hcheck
  · exact ⟨_, _, .textFile rfl rfl rfl rfl⟩

end Storyboard.Command
