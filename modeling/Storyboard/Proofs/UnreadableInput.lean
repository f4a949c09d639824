import Storyboard.Proofs.CommandRuns

/-!
# Inputs that cannot be read

A folder refuses a path for one of two reasons. The system has nothing to give
there, or the path has a null character and never reaches the system. The command
takes the first for a failure, which it notes; the second is a fault that it does
not handle, and so is an input whose bytes are no text.

## Main definitions

* `Folder.Refuses` — the reasons that a folder has for refusing a path.

## Main results

* `Folder.read_refuses`, `Folder.write_refuses` — a folder has no other.
* `program_on_input_file` — what becomes of a run, by what its input file is.
-/

namespace Storyboard

/-- A computation fails in its first part or in what follows. -/
theorem bind_eq_error {α β : Type} {x : Except Fault α} {f : α → Except Fault β} {fault : Fault}
    (h : x >>= f = .error fault) : x = .error fault ∨ ∃ a, x = .ok a ∧ f a = .error fault := by
  cases x with
  | error reason =>
      cases h
      exact Or.inl rfl
  | ok a => exact Or.inr ⟨a, rfl, h⟩

/-! ## Folders -/

namespace Folder

/-- The fault by which a path is refused: of a path with a null character the
null character, and of any other some fault of the system. -/
def Refuses (path : String) (fault : Fault) : Prop :=
  if '\x00' ∈ path.toList then fault = .nullInPath else fault.isSystem = true

variable {d : Folder} {path : String} {fault : Fault}

theorem refuses_of_isSystem (hnull : '\x00' ∉ path.toList) (h : fault.isSystem = true) :
    Refuses path fault := by
  rw [Refuses, if_neg hnull]
  exact h

private theorem checkPath_refuses (h : checkPath path = .error fault) : Refuses path fault := by
  unfold checkPath at h
  by_cases hnull : '\x00' ∈ path.toList
  · rw [if_pos hnull] at h
    cases h
    rw [Refuses, if_pos hnull]
  · rw [if_neg hnull] at h
    apply refuses_of_isSystem hnull
    split at h
    · cases h
      rfl
    · split at h
      · cases h
        rfl
      · cases h

private theorem null_not_mem_of_checkPath (h : checkPath path = .ok ()) : '\x00' ∉ path.toList := by
  intro hnull
  rw [checkPath, if_pos hnull] at h
  cases h

/-- On its way through the folder a path meets only faults of the system. -/
theorem follow_isSystem {parts : List String} :
    ∀ p : Place, d.follow path p parts = .error fault → fault.isSystem = true := by
  induction parts with
  | nil =>
      intro p h
      cases h
  | cons part rest ih =>
      intro p h
      unfold follow at h
      split at h
      · cases h
        rfl
      · cases h
        rfl
      · split at h
        · cases h
          rfl
        · exact ih _ h

/-- A path that is checked and then followed is refused by the check or on the
way. -/
theorem checked_refuses {p : Place} {parts : List String}
    (h : (do checkPath path; d.follow path p parts) = .error fault) : Refuses path fault := by
  rcases bind_eq_error h with hcheck | ⟨_, hcheck, hfollow⟩
  · exact checkPath_refuses hcheck
  · exact refuses_of_isSystem (null_not_mem_of_checkPath hcheck) (follow_isSystem _ hfollow)

/-- Only a path without a null character leads to a place. -/
theorem null_not_mem_of_checked {p place : Place} {parts : List String}
    (h : (do checkPath path; d.follow path p parts) = .ok place) : '\x00' ∉ path.toList := by
  cases hcheck : checkPath path with
  | error reason =>
      rw [hcheck] at h
      cases h
  | ok _ => exact null_not_mem_of_checkPath hcheck

theorem read_refuses (h : d.read path = .error fault) : Refuses path fault := by
  rcases bind_eq_error h with hplace | ⟨place, hplace, hentry⟩
  · exact checked_refuses hplace
  · apply refuses_of_isSystem (null_not_mem_of_checked hplace)
    split at hentry
    · cases hentry
      rfl
    · cases hentry
      rfl
    · split at hentry
      · cases hentry
        rfl
      · cases hentry

theorem write_refuses {content : Content} (h : d.write path content = .error fault) :
    Refuses path fault := by
  unfold write at h
  split at h
  · rcases bind_eq_error h with hplace | ⟨place, hplace, hfolder⟩
    · exact checked_refuses hplace
    · cases hfolder
      exact refuses_of_isSystem (null_not_mem_of_checked hplace) rfl
  · rcases bind_eq_error h with hplace | ⟨place, hplace, hentry⟩
    · exact checked_refuses hplace
    · apply refuses_of_isSystem (null_not_mem_of_checked hplace)
      split at hentry
      · cases hentry
        rfl
      · cases hentry

end Folder

/-! ## The command -/

namespace Command

variable {d : Folder} {shop : Workshop} {s : Settings} {stdin input : String}
  {arguments : List String}

/-- A run whose input file is not read is over. -/
theorem program_unread {fault : Fault} (hparse : parse arguments = .ok (input, s))
    (hinput : input ≠ "-") (hread : d.read (Path.ofString input).toString = .error fault) :
    (program arguments shop).runIn stdin d = (unreadable s input fault, d) := by
  rw [program_of_parse hparse, execute, if_neg hinput, Program.runIn, hread]
  rfl

/-- A run whose input file is no text is over. -/
theorem program_undecodable {content : Content} {place : Text.Utf8.Fault}
    (hparse : parse arguments = .ok (input, s)) (hinput : input ≠ "-")
    (hread : d.read (Path.ofString input).toString = .ok content)
    (hdecode : Text.Utf8.decode content.toBytes = .error place) :
    (program arguments shop).runIn stdin d = (breakdown s "" [] (.undecodable place), d) := by
  rw [program_of_parse hparse, execute, if_neg hinput, Program.runIn, hread]
  show (processBytes shop s content.toBytes).runIn stdin d = _
  rw [processBytes, hdecode]
  rfl

/-- An input whose bytes are no text has a place where it cannot be read. -/
theorem exists_decode_eq_error {bytes : List UInt8}
    (h : ¬∃ raw : String, bytes = raw.toUTF8.toList) :
    ∃ place, Text.Utf8.decode bytes = .error place := by
  cases hdecode : Text.Utf8.decode bytes with
  | error place => exact ⟨place, rfl⟩
  | ok raw => exact absurd ⟨raw, Text.Utf8.decode_eq_ok_iff.1 hdecode⟩ h

/-- What a folder refuses a text diagram for, if not for the system. -/
theorem Unhandled.cases_in_folder {fault : Fault} (h : Unhandled folders s d fault) :
    (fault = .lacksMember "list" "suffix" ∧ s.output = .emptied ∧ s.format = none) ∨
      (fault = .nullInPath ∧ ∃ path, s.textPath? = some path ∧ '\x00' ∈ path.toString.toList) := by
  cases h with
  | emptied houtput hasked => exact Or.inl ⟨rfl, houtput, hasked⟩
  | @refused path diagram _ hpath hwrite hother =>
      have hrefuses := Folder.write_refuses hwrite
      unfold Folder.Refuses at hrefuses
      split at hrefuses
      · rename_i hnull
        exact Or.inr ⟨hrefuses, path, hpath, hnull⟩
      · rw [hrefuses] at hother
        cases hother

/-- A run in a folder that has got its text ends with status zero or one, two kinds
of output apart. -/
theorem process_status_in_folder (shop : Workshop) (s : Settings) (stdin text : String)
    (d : Folder) {run : Outcome × Folder}
    (hrun : run = (process shop s text).runOn folders stdin d) :
    run.1.status = .ok 0 ∨ run.1.status = .ok 1 ∨
      (run.1.status = .error (.lacksMember "list" "suffix") ∧ s.output = .emptied ∧
        s.format = none) ∨
      (run.1.status = .error .nullInPath ∧
        ∃ out, s.textPath? = some out ∧ '\x00' ∈ out.toString.toList) := by
  rcases process_cases folders shop s text d stdin with ⟨-, -, hover⟩ | ⟨-, hending⟩
  · rw [hrun, hover]
    exact Or.inr (Or.inl rfl)
  · rw [← hrun] at hending
    rcases hending.status_cases with hzero | hone | ⟨fault, hfault, hunhandled⟩
    · exact Or.inl hzero
    · exact Or.inr (Or.inl hone)
    · rw [hfault]
      rcases hunhandled.cases_in_folder with ⟨rfl, hvalue⟩ | ⟨rfl, hnull⟩
      · exact Or.inr (Or.inr (Or.inl ⟨rfl, hvalue⟩))
      · exact Or.inr (Or.inr (Or.inr ⟨rfl, hnull⟩))

/-- What becomes of a run of the command, by what its input file is.

* A path that the system has nothing for is reported, and the status is one.
* A path with a null character, and a file whose bytes are no text, are faults
  that the command does not handle.
* With a text the status is zero or one, unless the output has an empty value
  that leaves the format open, or a text diagram is to go to a path with a null
  character.

Whenever there is no text, nothing is printed and the folder is as before. -/
theorem program_on_input_file (shop : Workshop) (stdin : String) (d : Folder)
    {arguments : List String} {input : String} {s : Settings}
    (hparse : parse arguments = .ok (input, s)) (hinput : input ≠ "-") :
    let path := (Path.ofString input).toString
    let run := (program arguments shop).runIn stdin d
    (∀ fault, d.read path = .error fault → '\x00' ∉ path.toList →
      run.1.status = .ok 1 ∧ run.1.out = "" ∧ run.2 = d ∧
      run.1.err = Note.log s.verbose
        [⟨.error, .command, "Could not read " ++ input ++ ": " ++ fault.message⟩]) ∧
    (∀ fault, d.read path = .error fault → '\x00' ∈ path.toList →
      run.1.status = .error .nullInPath ∧ run.1.out = "" ∧ run.2 = d) ∧
    (∀ content, d.read path = .ok content →
      (¬∃ raw : String, content.toBytes = raw.toUTF8.toList) →
      (∃ place, run.1.status = .error (.undecodable place)) ∧ run.1.out = "" ∧ run.2 = d) ∧
    (∀ content, d.read path = .ok content → ∀ raw : String, content.toBytes = raw.toUTF8.toList →
      run.1.status = .ok 0 ∨ run.1.status = .ok 1 ∨
      (run.1.status = .error (.lacksMember "list" "suffix") ∧ s.output = .emptied ∧
        s.format = none) ∨
      (run.1.status = .error .nullInPath ∧
        ∃ out, s.textPath? = some out ∧ '\x00' ∈ out.toString.toList)) := by
  intro path run
  refine ⟨fun fault hread hnull => ?_, fun fault hread hnull => ?_,
    fun content hread hbytes => ?_, fun content hread raw hraw => ?_⟩
  · have hrefuses := Folder.read_refuses hread
    rw [Folder.Refuses, if_neg hnull] at hrefuses
    have hrun : run = (unreadable s input fault, d) := program_unread hparse hinput hread
    rw [hrun, unreadable, stopped, if_pos hrefuses]
    exact ⟨rfl, rfl, rfl, rfl⟩
  · have hrefuses := Folder.read_refuses hread
    rw [Folder.Refuses, if_pos hnull] at hrefuses
    have hrun : run = (unreadable s input fault, d) := program_unread hparse hinput hread
    rw [hrun, hrefuses]
    exact ⟨rfl, rfl, rfl⟩
  · obtain ⟨place, hdecode⟩ := exists_decode_eq_error hbytes
    have hrun : run = (breakdown s "" [] (.undecodable place), d) :=
      program_undecodable hparse hinput hread hdecode
    rw [hrun]
    exact ⟨⟨place, rfl⟩, rfl, rfl⟩
  · have hsupplied : folders.read d path = .ok raw.toUTF8.toList := by
      show (d.read path).map Content.toBytes = _
      rw [hread, ← hraw]
      rfl
    exact process_status_in_folder shop s stdin _ d
      ((Program.runIn_eq_runOn _ _ _).trans (program_supplied hparse (.file hinput hsupplied)))

/-- A folder with a file in it whose last byte starts no character. -/
def smudged : Folder where
  entries := [(["flow.txt"], .file (.bytes [0x5b, 0x41, 0x5d, 0xff])), (["notes"], .folder)]

/-- Of a folder in place of the input file the command makes a report, and its
status is one. A file that starts no character at its end has a place where it
cannot be read, and nothing is written. -/
theorem smudged_on_input_file :
    parse ["notes", "-oout.txt"] = .ok ("notes", { output := .file (Path.ofString "out.txt") }) ∧
    ((program ["notes", "-oout.txt"]).runIn "" smudged).1.status = .ok 1 ∧
    ((program ["notes", "-oout.txt"]).runIn "" smudged).1.out = "" ∧
    ((program ["notes", "-oout.txt"]).runIn "" smudged).2 = smudged ∧
    parse ["flow.txt", "--format", "png"] = .ok ("flow.txt", { format := some .png }) ∧
    (∃ place, ((program ["flow.txt", "--format", "png"]).runIn "" smudged).1.status =
      .error (.undecodable place)) ∧
    ((program ["flow.txt", "--format", "png"]).runIn "" smudged).2 = smudged := by
  have hnotes : parse ["notes", "-oout.txt"] =
      .ok ("notes", { output := .file (Path.ofString "out.txt") }) := rfl
  have hflow : parse ["flow.txt", "--format", "png"] =
      .ok ("flow.txt", { format := some .png }) := rfl
  have hfolder : smudged.read (Path.ofString "notes").toString = .error (.isFolder "notes") := rfl
  have hfile : smudged.read (Path.ofString "flow.txt").toString =
      .ok (.bytes [0x5b, 0x41, 0x5d, 0xff]) := rfl
  have hbytes : ¬∃ raw : String, [0x5b, 0x41, 0x5d, 0xff] = raw.toUTF8.toList := by
    intro ⟨raw, hraw⟩
    cases Text.Utf8.decode_eq_ok_iff.2 hraw
  obtain ⟨hstatus, hout, hbefore, -⟩ :=
    (program_on_input_file .plain "" smudged hnotes (by decide)).1 _ hfolder (by decide)
  obtain ⟨hplace, -, hsame⟩ :=
    (program_on_input_file .plain "" smudged hflow (by decide)).2.2.1 _ hfile hbytes
  exact ⟨hnotes, hstatus, hout, hbefore, hflow, hplace, hsame⟩

/-- A file whose bytes are no text ends the command by a fault, neither with
status zero nor with status one. -/
theorem smudged_breaks_command :
    parse ["flow.txt"] = .ok ("flow.txt", {}) ∧
    ((program ["flow.txt"]).runIn "" smudged).1.status =
      .error (.undecodable ⟨3, 4, 0xff, .badStart⟩) ∧
    ((program ["flow.txt"]).runIn "" smudged).1.status ≠ .ok 0 ∧
    ((program ["flow.txt"]).runIn "" smudged).1.status ≠ .ok 1 := by
  have hstatus : ((program ["flow.txt"]).runIn "" smudged).1.status =
      .error (.undecodable ⟨3, 4, 0xff, .badStart⟩) := rfl
  rw [hstatus]
  exact ⟨rfl, rfl, nofun, nofun⟩

end Command

end Storyboard
