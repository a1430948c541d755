import CFrontEnd.Command.Program
import CFrontEnd.Proofs.Files.Effects

/-!
# Printing and Writing

The command prints a result or writes it. Both runs compute the same result from the same files, so
they differ only where a result goes: what is printed is what is written, a failure to compute it is
one report, and only the run that writes can fail on its output.

This is so for every shell: it depends neither on how a command line is read nor on how messages are
laid out.

## Main definitions

* `Agreement`: what a run that prints and a run that writes have in common.

## Main results

* `printing_agrees`: two runs on the same input agree.
-/

namespace CFrontEnd

variable {fs : FileSystem} {input : String} {output : Option String} {emit : Emit}

@[simp]
theorem Report.status_printed (text : String) : (printed text).status = 0 := rfl

@[simp]
theorem Report.stdout_printed (text : String) : (printed text).stdout = text := rfl

@[simp]
theorem Report.status_silent : silent.status = 0 := rfl

@[simp]
theorem Report.stdout_silent : silent.stdout = "" := rfl

@[simp]
theorem Shell.failure_error (shell : Shell) (file : String) (error : CompileError) :
    shell.failure file (.error error) = shell.failed file error := rfl

@[simp]
theorem Shell.status_failed (shell : Shell) (file : String) (error : CompileError) :
    (shell.failed file error).status = 1 := rfl

@[simp]
theorem Shell.stdout_failed (shell : Shell) (file : String) (error : CompileError) :
    (shell.failed file error).stdout = "" := rfl

open FileSystem in
/-- What a run that prints and a run that writes have in common. -/
structure Agreement (shell : Shell) (fs : FileSystem) (input : String) (output : Option String)
    (emit : Emit) (printing writing : Report × FileSystem) : Prop where
  /-- Printing changes no file. -/
  printing_unchanged : printing.2 = fs
  /-- Printing succeeds exactly if there is a result. -/
  printing_iff : printing.1.status = 0 ↔ ∃ text, fs.renderFile input emit = .ok text
  /-- A run that prints shows the result and nothing else. -/
  printed : ∀ text, fs.renderFile input emit = .ok text → printing.1 = .printed text
  /-- Writing succeeds exactly if printing does and the output can be opened. -/
  writing_iff : writing.1.status = 0 ↔
    printing.1.status = 0 ∧ ∃ location, fs.opened (outputOf input output) = .ok location
  /-- A run that writes shows nothing, and stores at the location of the output what is printed. -/
  stored : ∀ location, printing.1.status = 0 →
    fs.opened (outputOf input output) = .ok location →
    writing = (.silent, fs.store location printing.1.stdout.toUTF8)
  /-- What is printed is read at the output after it is written, unless a device has dropped it. -/
  written : ∀ location, printing.1.status = 0 →
    fs.opened (outputOf input output) = .ok location → fs.find? location ≠ some .nullDevice →
    fs.Written writing.2 (outputOf input output) printing.1.stdout location
  /-- Writing shows nothing on standard output. -/
  writing_stdout : writing.1.stdout = ""
  /-- If there is no result, both runs report the same and leave the files as they were. -/
  render_error : ∀ failure, fs.renderFile input emit = .error failure →
    ∃ error, failure = .error error ∧ printing = (shell.failed input error, fs) ∧
      writing = (shell.failed input error, fs)
  /-- If the output cannot be opened, only the run that writes fails; it changes no file. -/
  write_error : ∀ text cause, fs.renderFile input emit = .ok text →
    fs.opened (outputOf input output) = .error cause → printing = (.printed text, fs) ∧
      writing = (shell.failed input (.write (outputOf input output) cause), fs)

/-- A result that cannot be computed is reported as a failed compilation. -/
theorem exists_error_of_renderFile {failure : Failure CompileError}
    (h : fs.renderFile input emit = .error failure) : ∃ error, failure = .error error := by
  rcases FileSystem.renderFile_eq_error_iff.mp h with ⟨cause, -, rfl⟩ | ⟨-, -, error, -, -, rfl⟩
  · exact ⟨_, rfl⟩
  · exact ⟨_, rfl⟩

/-- Two command lines with the same input and the same kind of result, of which one asks to print
and the other to write, agree on any files, however they are read and reports are laid out. -/
theorem printing_agrees (shell : Shell) (fs : FileSystem) {printing writing : List String}
    {input : String} {output ignored : Option String} {emit : Emit}
    (hprinting : shell.read printing =
      .ok { file := input, output := ignored, emit, toStdout := true })
    (hwriting : shell.read writing = .ok { file := input, output, emit, toStdout := false }) :
    Agreement shell fs input output emit (shell.runOn fs printing) (shell.runOn fs writing) := by
  rw [Shell.runOn_printing fs hprinting, Shell.runOn_writing fs hwriting]
  -- both runs compute the result first, and the one that writes opens the output then
  cases hrender : fs.renderFile input emit with
  | error failure =>
    obtain ⟨error, rfl⟩ := exists_error_of_renderFile hrender
    rw [FileSystem.compileFile_of_render_error hrender output]
    constructor <;> simp [hrender]
  | ok text =>
    rw [FileSystem.compileFile_of_render hrender output]
    cases hopened : fs.opened (outputOf input output) with
    | error cause => constructor <;> simp [hrender, hopened]
    | ok location =>
      constructor
      case written =>
        rintro other - hother hdevice
        obtain rfl : location = other := Except.ok.inj (hopened.symm.trans hother)
        exact FileSystem.written_store hopened hdevice
      all_goals simp [hrender, hopened]

/-- A list of tokens that is printed, and written beside the input; and a tree of the same input,
which both runs report to be none. -/
theorem printing_agrees_tokens :
    let fs : FileSystem := { working := ["w"], entries := [(["w", "a.c"], .file "1".toUTF8)] }
    let shell : Shell :=
      { read := fun line => .ok
          { file := "a.c"
            output := none
            emit := if line.contains "tokens" then .tokens else .tree
            toStdout := line.contains "--stdout" }
        describe := "\n\nCaused by:\n    ".intercalate }
    let printed := (shell.runOn fs ["--stdout", "a.c", "--emit", "tokens"]).1.stdout
    printed = "Integer 1\n" ∧
      (shell.runOn fs ["a.c", "--emit", "tokens"]).2.readText "a.s" = .ok printed ∧
      (shell.runOn fs ["a.c"]).1.status = 1 ∧
      shell.runOn fs ["--stdout", "a.c"] = shell.runOn fs ["a.c"] := by
  intro fs shell printed
  have htokens : Agreement shell fs "a.c" none .tokens
      (shell.runOn fs ["--stdout", "a.c", "--emit", "tokens"])
      (shell.runOn fs ["a.c", "--emit", "tokens"]) :=
    printing_agrees shell fs rfl rfl
  have htree : Agreement shell fs "a.c" none .tree (shell.runOn fs ["--stdout", "a.c"])
      (shell.runOn fs ["a.c"]) :=
    printing_agrees shell fs rfl rfl
  have hread : fs.readText "a.c" = .ok "1" := FileSystem.decodeText_toUTF8 "1"
  have hlisting : (Source.named "a.c" "1").listing = "Integer 1\n" := by decide +kernel
  have hrender : fs.renderFile "a.c" .tokens = .ok "Integer 1\n" := by
    rw [FileSystem.renderFile_eq, hread]
    exact congrArg Except.ok hlisting
  have hopened : fs.opened (outputOf "a.c" none) = .ok ["w", "a.s"] := rfl
  have hwritten := htokens.written ["w", "a.s"] (htokens.printing_iff.mpr ⟨_, hrender⟩) hopened
    (by simp [show fs.find? ["w", "a.s"] = none from rfl])
  have hlex : lex (Source.named "a.c" "1").content = [⟨.integer, "1", ⟨0, 1⟩⟩] := by decide +kernel
  have hparse : parseSource (Source.named "a.c" "1").content =
      .error (.error (.unexpectedToken .typeName .integer "1" ⟨0, 1⟩)) := by
    rw [parseSource_eq, hlex]
    cbv
  have hrefused := FileSystem.renderFile_eq_error_iff.mpr (.inr ⟨rfl, _, _, hread, hparse, rfl⟩)
  obtain ⟨error, -, hprinting, hwriting⟩ := htree.render_error _ hrefused
  refine ⟨congrArg Report.stdout (htokens.printed _ hrender), hwritten.readText_eq, ?_,
    hprinting.trans hwriting.symm⟩
  rw [hwriting]
  rfl

end CFrontEnd
