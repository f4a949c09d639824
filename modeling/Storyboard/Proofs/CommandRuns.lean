import Storyboard.Command
import Storyboard.Proofs.FailedActs
import Storyboard.Proofs.Utf8Decoding

/-!
# What a run of the command can come to

The command is a program that asks for its input and for one file to be written.
Here it is run on any file system at all, as a state machine whose operations
may fail as they like. A folder is one of them.

A run that has got its text comes to one of three ends. It delivers the diagram,
as the settings ask for it; or something on the way fails and is noted; or it
meets a fault that the command does not handle. In the last two nothing can have
been delivered, nothing is printed and no file is written.

## Main definitions

* `FileSystem`, `Program.runOn` — a program run on any file system.
* `Delivers` — that one diagram is delivered, and where.
* `Ending` — the ends of a run that has got its text.

## Main results

* `Program.runIn_eq_runOn` — a run in a folder is one of them.
* `Settings.picture_unsaved` — a picture that is drawn and cannot be saved.
* `diagramProgram_ending` — every run comes to one of the ends.
* `program_supplied` — the run of the command once it has its text.
-/

namespace Storyboard

namespace Command

/-! ## File systems -/

/-- A file system with states in `σ`: what it has at a path, and what becomes of
it when a file is written. -/
structure FileSystem (σ : Type) where
  read : σ → String → Except Fault (List UInt8)
  write : σ → String → Content → Except Fault σ

/-- Folders as a file system. -/
def folders : FileSystem Folder where
  read d path := (d.read path).map Content.toBytes
  write d path content := d.write path content

variable {σ : Type}

/-- A program run on a file system, with a text as its standard input. -/
def Program.runOn (fs : FileSystem σ) (stdin : String) : Program → σ → Outcome × σ
  | .done outcome, st => (outcome, st)
  | .readInput next, st => (next stdin).runOn fs stdin st
  | .readFile path next, st => (next (fs.read st path)).runOn fs stdin st
  | .writeFile path content next, st =>
    match fs.write st path content with
    | .ok written => (next none).runOn fs stdin written
    | .error fault => (next (some fault)).runOn fs stdin st

theorem Program.runIn_eq_runOn (stdin : String) (p : Program) :
    ∀ d : Folder, p.runIn stdin d = p.runOn folders stdin d := by
  induction p with
  | done outcome =>
      intro d
      rfl
  | readInput next ih =>
      intro d
      exact ih stdin d
  | readFile path next ih =>
      intro d
      exact ih _ d
  | writeFile path content next ih =>
      intro d
      have hwrite : folders.write d path content = d.write path content := rfl
      rw [runIn, runOn, hwrite]
      cases d.write path content with
      | error fault => exact ih (some fault) d
      | ok written => exact ih none written

private theorem runOn_writeFile_ok {fs : FileSystem σ} {st written : σ} {path : String}
    {content : Content} (h : fs.write st path content = .ok written) (stdin : String)
    (next : Option Fault → Program) :
    (Program.writeFile path content next).runOn fs stdin st =
      (next none).runOn fs stdin written := by
  rw [Program.runOn, h]

private theorem runOn_writeFile_error {fs : FileSystem σ} {st : σ} {path : String}
    {content : Content} {fault : Fault} (h : fs.write st path content = .error fault)
    (stdin : String) (next : Option Fault → Program) :
    (Program.writeFile path content next).runOn fs stdin st =
      (next (some fault)).runOn fs stdin st := by
  rw [Program.runOn, h]

end Command

/-! ## Pictures that cannot be saved -/

/-- Saving is the last that a painter of pictures does. So where a rendering
succeeds with all its pictures saved, it fails by the fault that saving meets,
and by no other. -/
theorem ImageSheet.render_unsaved {w : Workshop} {o : Options} {room : Option Nat} {path : String}
    (hpath : o.outputPath = some path) {f : Flow} {sheet : ImageSheet} {summary : Summary Artifact}
    (h : ((painter (w.savingWith none) o room).render f sheet).outcome = .ok summary)
    (fault : Fault) :
    ((painter (w.savingWith (some fault)) o room).render f sheet).outcome =
      .error (.failed fault.message (some fault)) := by
  obtain ⟨handles, placed, hfirst, hsecond⟩ := Painter.exists_passes_of_render _ h
  obtain ⟨_, connected, hwires, hfinish⟩ := Act.exists_of_run_bind hsecond
  have hact : ∀ fault?, (painter (w.savingWith fault?) o room).finish.run connected =
      (finish (w.savingWith fault?) o) connected := fun _ => rfl
  have hdraw : ∀ fault?,
      drawPicture (w.savingWith fault?) o connected = drawPicture w o connected := fun _ => rfl
  have hunsaved : (painter (w.savingWith (some fault)) o room).finish.run connected =
      (.error (.plain fault), (drawPicture w o connected).2) := by
    rw [hact, finish, ExceptT.mk] at hfinish ⊢
    rw [hdraw] at hfinish ⊢
    cases hdrawn : drawPicture w o connected with
    | mk outcome drawn =>
        rw [hdrawn] at hfinish
        cases outcome with
        | error fault => cases hfinish
        | ok picture =>
            dsimp only
            rw [hpath]
            rfl
  have hpasses : ((painter (w.savingWith (some fault)) o room).firstPass f >>=
      (painter (w.savingWith (some fault)) o room).secondPass f).run sheet =
        (.error (.plain fault), (drawPicture w o connected).2) :=
    (Act.run_bind_ok hfirst).trans ((Act.run_bind_ok hwires).trans hunsaved)
  exact ((Painter.render_eq_error_iff _).2 ⟨_, hpasses, rfl⟩).1

namespace Command

theorem Settings.picture_unsaved {s : Settings} {shop : Workshop} {text : String} {drawn : Picture}
    (h : (s.picture shop text none).result = .ok drawn) (fault : Fault) :
    (s.picture shop text (some fault)).result = .error (.failed fault.message (some fault)) := by
  obtain ⟨summary, hdrawn, -⟩ := exists_of_map_eq_ok h
  exact congrArg (Except.map _) (ImageSheet.render_unsaved rfl hdrawn fault)

/-! ## Ends of a run -/

variable {fs : FileSystem σ} {shop : Workshop} {s : Settings} {err text : String} {before : σ}

/-- That the diagram of a text is delivered as the settings ask for it, in one
place: `out` is all that is printed, and the file system is left in `after`. -/
inductive Delivers (fs : FileSystem σ) (shop : Workshop) (s : Settings) (text : String)
    (before : σ) : String → σ → Prop where
  /-- The text diagram is printed. -/
  | printed {diagram : String} : s.diagramFormat = .ok .txt → s.output = .unnamed →
      (s.studio.diagram text).result = .ok diagram →
      Delivers fs shop s text before (diagram ++ "\n") before
  /-- The text diagram is in a file, and the path is told. -/
  | textFile {path : Path} {diagram : String} {after : σ} : s.diagramFormat = .ok .txt →
      s.textPath? = some path → (s.studio.diagram text).result = .ok diagram →
      fs.write before path.toString (.text diagram) = .ok after →
      Delivers fs shop s text before (savedLine path) after
  /-- The picture is in a file, and the path is told. -/
  | pictureFile {drawn : Picture} {after : σ} : s.diagramFormat = .ok .png →
      (s.picture shop text none).result = .ok drawn →
      fs.write before s.picturePath.toString (.picture drawn) = .ok after →
      Delivers fs shop s text before (savedLine s.picturePath) after

/-- The faults that the command does not handle once it has its text: an output
with an empty value has no suffix to tell the format by, and a text diagram may
be refused for a reason that is none of the system's. -/
inductive Unhandled (fs : FileSystem σ) (s : Settings) (before : σ) : Fault → Prop where
  | emptied : s.output = .emptied → s.format = none →
      Unhandled fs s before (.lacksMember "list" "suffix")
  | refused {path : Path} {diagram : String} {fault : Fault} : s.textPath? = some path →
      fs.write before path.toString (.text diagram) = .error fault → fault.isSystem = false →
      Unhandled fs s before fault

/-- The ends of a run that has got its text and has reported `err` before. -/
inductive Ending (fs : FileSystem σ) (shop : Workshop) (s : Settings) (err text : String)
    (before : σ) : Outcome × σ → Prop where
  | delivered (notes : List Note) {out : String} {after : σ} :
      Delivers fs shop s text before out after →
      Ending fs shop s err text before (success s err notes out, after)
  | failed (notes : List Note) (message : String) :
      (∀ out after, ¬Delivers fs shop s text before out after) →
      Ending fs shop s err text before (failure s err notes message, before)
  | broken (notes : List Note) {fault : Fault} :
      (∀ out after, ¬Delivers fs shop s text before out after) → Unhandled fs s before fault →
      Ending fs shop s err text before (breakdown s err notes fault, before)

/-- The run ends with a status, zero or one, or by a fault that is not handled. -/
theorem Ending.status_cases {run : Outcome × σ} (h : Ending fs shop s err text before run) :
    run.1.status = .ok 0 ∨ run.1.status = .ok 1 ∨
      ∃ fault, run.1.status = .error fault ∧ Unhandled fs s before fault := by
  cases h with
  | delivered notes => exact Or.inl rfl
  | failed notes message => exact Or.inr (Or.inl rfl)
  | broken notes hnone hfault => exact Or.inr (Or.inr ⟨_, rfl, hfault⟩)

/-- A format is missing exactly if the output has an empty value and no format is
asked for. -/
theorem Settings.diagramFormat_eq_error {fault : Fault} (h : s.diagramFormat = .error fault) :
    s.output = .emptied ∧ s.format = none ∧ fault = .lacksMember "list" "suffix" := by
  unfold Settings.diagramFormat at h
  split at h
  · cases h
  · cases h
  · cases h
  · rename_i hformat houtput
    cases h
    exact ⟨houtput, hformat, rfl⟩

private theorem Settings.textPath?_eq_none_iff : s.textPath? = none ↔ s.output = .unnamed := by
  unfold Settings.textPath?
  cases s.output <;> simp

/-- What is delivered has a format. -/
theorem Delivers.exists_format {out : String} {after : σ}
    (h : Delivers fs shop s text before out after) : ∃ format, s.diagramFormat = .ok format := by
  cases h with
  | printed hformat => exact ⟨.txt, hformat⟩
  | textFile hformat => exact ⟨.txt, hformat⟩
  | pictureFile hformat => exact ⟨.png, hformat⟩

/-- A text diagram that is delivered can be made, and if it goes to a file it can
be written there. -/
theorem Delivers.exists_diagram {out : String} {after : σ}
    (h : Delivers fs shop s text before out after) (hformat : s.diagramFormat = .ok .txt) :
    ∃ diagram, (s.studio.diagram text).result = .ok diagram ∧ ∀ path, s.textPath? = some path →
      fs.write before path.toString (.text diagram) = .ok after := by
  cases h with
  | @printed diagram _ houtput hresult =>
      refine ⟨diagram, hresult, fun path hpath => ?_⟩
      rw [Settings.textPath?_eq_none_iff.2 houtput] at hpath
      cases hpath
  | @textFile path diagram _ _ hpath hresult hwrite =>
      refine ⟨diagram, hresult, fun other hother => ?_⟩
      rw [hpath] at hother
      cases hother
      exact hwrite
  | pictureFile hpng =>
      rw [hformat] at hpng
      cases hpng

/-- A picture that is delivered can be drawn, and it can be written. -/
theorem Delivers.exists_picture {out : String} {after : σ}
    (h : Delivers fs shop s text before out after) (hformat : s.diagramFormat = .ok .png) :
    ∃ drawn, (s.picture shop text none).result = .ok drawn ∧
      fs.write before s.picturePath.toString (.picture drawn) = .ok after := by
  cases h with
  | printed htxt =>
      rw [hformat] at htxt
      cases htxt
  | textFile htxt =>
      rw [hformat] at htxt
      cases htxt
  | @pictureFile drawn _ _ hresult hwrite => exact ⟨drawn, hresult, hwrite⟩

private theorem textProgram_ending (hformat : s.diagramFormat = .ok .txt) (stdin : String) :
    Ending fs shop s err text before ((textProgram s err text).runOn fs stdin before) := by
  cases hresult : (s.studio.diagram text).result with
  | error fault =>
      rw [textProgram, hresult]
      refine .failed _ _ fun out after h => ?_
      obtain ⟨diagram, hdiagram, -⟩ := h.exists_diagram hformat
      rw [hresult] at hdiagram
      cases hdiagram
  | ok diagram =>
      cases hpath : s.textPath? with
      | none =>
          rw [textProgram, hresult, hpath]
          exact .delivered _ (.printed hformat (Settings.textPath?_eq_none_iff.1 hpath) hresult)
      | some path =>
          rw [textProgram, hresult, hpath]
          cases hwrite : fs.write before path.toString (.text diagram) with
          | ok after =>
              rw [runOn_writeFile_ok hwrite]
              exact .delivered _ (.textFile hformat hpath hresult hwrite)
          | error fault =>
              have hnone : ∀ out after, ¬Delivers fs shop s text before out after := by
                intro out after h
                obtain ⟨other, hother, hwritten⟩ := h.exists_diagram hformat
                rw [hresult] at hother
                cases hother
                rw [hwritten path hpath] at hwrite
                cases hwrite
              rw [runOn_writeFile_error hwrite]
              show Ending fs shop s err text before (stopped s err _ fault fault.message, before)
              rw [stopped]
              cases hsystem : fault.isSystem with
              | true => exact .failed _ _ hnone
              | false => exact .broken _ hnone (.refused hpath hwrite hsystem)

private theorem pictureProgram_ending (hformat : s.diagramFormat = .ok .png) (stdin : String) :
    Ending fs shop s err text before ((pictureProgram shop s err text).runOn fs stdin before) := by
  cases hresult : (s.picture shop text none).result with
  | error fault =>
      rw [pictureProgram, hresult, pictureOutcome, hresult]
      refine .failed _ _ fun out after h => ?_
      obtain ⟨drawn, hdrawn, -⟩ := h.exists_picture hformat
      rw [hresult] at hdrawn
      cases hdrawn
  | ok drawn =>
      rw [pictureProgram, hresult]
      cases hwrite : fs.write before s.picturePath.toString (.picture drawn) with
      | ok after =>
          rw [runOn_writeFile_ok hwrite, pictureOutcome, hresult]
          exact .delivered _ (.pictureFile hformat hresult hwrite)
      | error fault =>
          rw [runOn_writeFile_error hwrite, pictureOutcome, Settings.picture_unsaved hresult]
          refine .failed _ _ fun out after h => ?_
          obtain ⟨other, hother, hwritten⟩ := h.exists_picture hformat
          rw [hresult] at hother
          cases hother
          rw [hwritten] at hwrite
          cases hwrite

/-- Every run that has got its text comes to one of the ends. -/
theorem diagramProgram_ending (stdin : String) :
    Ending fs shop s err text before ((diagramProgram shop s err text).runOn fs stdin before) := by
  cases hformat : s.diagramFormat with
  | error fault =>
      obtain ⟨houtput, hasked, rfl⟩ := Settings.diagramFormat_eq_error hformat
      rw [diagramProgram, hformat]
      refine .broken _ (fun out after h => ?_) (.emptied houtput hasked)
      obtain ⟨format, hknown⟩ := h.exists_format
      rw [hformat] at hknown
      cases hknown
  | ok format =>
      cases format with
      | txt =>
          rw [diagramProgram, hformat]
          exact textProgram_ending hformat stdin
      | png =>
          rw [diagramProgram, hformat]
          exact pictureProgram_ending hformat stdin

/-! ## The review -/

/-- What has been reported before the diagram is made. -/
def Settings.reported (s : Settings) (text : String) : String :=
  if s.check then reviewReport s text else ""

/-- With a review that finds something the run is over; otherwise it comes to one
of the ends. -/
theorem process_cases (fs : FileSystem σ) (shop : Workshop) (s : Settings) (text : String)
    (before : σ) (stdin : String) :
    (s.check = true ∧ (Notation.read text).flow.review.isClean = false ∧
      (process shop s text).runOn fs stdin before =
        ({ status := .ok 1, err := s.reported text }, before)) ∨
    ((s.check = true → (Notation.read text).flow.review.isClean = true) ∧
      Ending fs shop s (s.reported text) text before
        ((process shop s text).runOn fs stdin before)) := by
  rw [process, Settings.reported]
  cases hcheck : s.check with
  | false => exact Or.inr ⟨fun h => Bool.noConfusion h, diagramProgram_ending stdin⟩
  | true =>
      cases hclean : (Notation.read text).flow.review.isClean with
      | false => exact Or.inl ⟨rfl, rfl, rfl⟩
      | true => exact Or.inr ⟨fun _ => rfl, diagramProgram_ending stdin⟩

/-! ## The input -/

/-- That an input is there and is a text: the standard input, or a file in UTF-8,
whose line breaks are made one kind. -/
inductive FileSystem.Supplies (fs : FileSystem σ) (stdin : String) (before : σ) :
    String → String → Prop where
  | standardInput : Supplies fs stdin before "-" stdin
  | file {input raw : String} : input ≠ "-" →
      fs.read before (Path.ofString input).toString = .ok raw.toUTF8.toList →
      Supplies fs stdin before input (String.ofList (Text.unifyBreaks raw.toList))

theorem program_of_parse {arguments : List String} {input : String}
    (hparse : parse arguments = .ok (input, s)) (shop : Workshop) :
    program arguments shop = execute shop input s := by
  rw [program, hparse]

/-- With an input that is a text, the command goes on with that text. -/
theorem program_supplied {arguments : List String} {stdin input : String}
    (hparse : parse arguments = .ok (input, s)) (hinput : fs.Supplies stdin before input text) :
    (program arguments shop).runOn fs stdin before =
      (process shop s text).runOn fs stdin before := by
  rw [program_of_parse hparse]
  cases hinput with
  | standardInput => rfl
  | @file _ raw hname hread =>
      have hdecode : Text.Utf8.decode raw.toUTF8.toList = .ok raw :=
        Text.Utf8.decode_eq_ok_iff.2 rfl
      rw [execute, if_neg hname, Program.runOn, hread]
      dsimp only
      rw [processBytes, hdecode]

end Command

end Storyboard
