import CFrontEnd.Files.Compile

/-!
# The Command

The command compiles the file that its command line asks for, and prints the result or writes it. It
gives an exit status: 0 for success, 1 for a failed compilation.

How a command line is read and how a chain of messages is laid out are no matters of the compiler,
so they are parameters of the command.

* `Shell.runOn_printing`, `Shell.runOn_writing`: what a run that prints and a run that writes show,
  and the file system after it.
-/

namespace CFrontEnd

/-- A request to compile a file. -/
structure Invocation where
  /-- The input file. -/
  file : String
  /-- The output file, if it is not the one beside the input. -/
  output : Option String
  /-- What the result shows. -/
  emit : Emit
  /-- Print the result and write no file. -/
  toStdout : Bool
deriving DecidableEq, Repr

/-- What a run of the command shows to its caller. -/
structure Report where
  /-- The exit status. -/
  status : Nat
  /-- The text on standard output. -/
  stdout : String
  /-- The text on standard error. -/
  stderr : String
deriving DecidableEq, Repr

/-- The messages of a failed compilation, from the outermost cause inwards. -/
def CompileError.causes (error : CompileError) : List String :=
  match error with
  | .read _ cause | .write _ cause => [error.message, cause.message]
  | .parse _ => [error.message]

namespace Report

/-- A run without output. -/
def silent : Report :=
  { status := 0, stdout := "", stderr := "" }

/-- A run that printed a text. -/
def printed (text : String) : Report :=
  { silent with stdout := text }

end Report

/-- What the command leaves to others. -/
structure Shell where
  /-- What a command line asks for. A line that asks for no compilation is answered by a report. -/
  read : List String → Except Report Invocation
  /-- The text that shows a chain of messages, the outermost one first. -/
  describe : List String → String

/-- A run that reports a failed compilation of a file. -/
def Shell.failed (shell : Shell) (file : String) (error : CompileError) : Report :=
  { Report.silent with
    status := 1
    stderr :=
      "Error: " ++ shell.describe (("Failed to compile " ++ file) :: error.causes) ++ "\n" }

/-- A run that failed to compile a file. A computation that stops without a report has the status
of an aborted program. -/
def Shell.failure (shell : Shell) (file : String) : Failure CompileError → Report
  | .error error => shell.failed file error
  | .abort => { Report.silent with status := 101 }

section

variable {m : Type → Type} [Monad m]

/-- Runs a compilation. -/
def Invocation.run (invocation : Invocation) (shell : Shell) (host : Host m) : m Report := do
  if invocation.toStdout then
    match ← host.renderFile invocation.file invocation.emit with
    | .ok text => return .printed text
    | .error failure => return shell.failure invocation.file failure
  else
    match ← host.compileFile invocation.file invocation.output invocation.emit with
    | .ok _ => return .silent
    | .error failure => return shell.failure invocation.file failure

/-- Runs a command line. -/
def Shell.run (shell : Shell) (host : Host m) (arguments : List String) : m Report := do
  match shell.read arguments with
  | .ok invocation => invocation.run shell host
  | .error report => return report

end

/-- What a command line shows on a file system, and the file system after it. -/
def Shell.runOn (shell : Shell) (fs : FileSystem) (arguments : List String) : Report × FileSystem :=
  (shell.run FileSystem.host arguments fs).value

namespace Shell

variable {shell : Shell} {arguments : List String} {input : String} {output : Option String}
  {emit : Emit}

/-- A run that prints shows the result or the failure to compute it, and changes no file. -/
theorem runOn_printing (fs : FileSystem)
    (h : shell.read arguments = .ok { file := input, output, emit, toStdout := true }) :
    shell.runOn fs arguments =
      match fs.renderFile input emit with
      | .ok text => (.printed text, fs)
      | .error failure => (shell.failure input failure, fs) := by
  simp only [runOn, run, h, Invocation.run, ↓reduceIte, FileSystem.bind_apply,
    FileSystem.renderFile_apply, Logged.value_bind]
  cases fs.renderFile input emit <;> rfl

/-- A run that writes shows nothing, or the failure to compile the file. -/
theorem runOn_writing (fs : FileSystem)
    (h : shell.read arguments = .ok { file := input, output, emit, toStdout := false }) :
    shell.runOn fs arguments =
      match fs.compileFile input output emit with
      | (.ok _, written) => (.silent, written)
      | (.error failure, unchanged) => (shell.failure input failure, unchanged) := by
  simp only [runOn, run, h, Invocation.run, Bool.false_eq_true, ↓reduceIte, FileSystem.bind_apply,
    FileSystem.compileFile, Logged.value_bind]
  obtain ⟨result, after⟩ := (FileSystem.host.compileFile input output emit fs).value
  cases result <;> rfl

end Shell

end CFrontEnd
