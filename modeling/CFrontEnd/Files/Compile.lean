import CFrontEnd.Files.FileSystem
import CFrontEnd.Files.OutputPath

/-!
# Compiling Files

An input file is read and its result is computed before anything is written. So a failure to read
or to parse leaves the files alone, and so does a failure to write.

A host gives access to files, in a model or on a machine, and takes the reports. The program is the
same on every host.

* `FileSystem.renderFile_eq`, `FileSystem.compileFile_eq`: what is computed and written on the
  model.
* `FileSystem.compileFile_error`: a failed compilation leaves the file system as it was.
-/

namespace CFrontEnd

/-- The path that the result for an input file is written to. -/
def outputOf (input : String) (output : Option String) : String :=
  output.getD (outputPath input)

/-- Access to files, and a place for reports. -/
structure Host (m : Type → Type) where
  /-- The bytes of the file at a path. -/
  read : String → m (Except FileError ByteArray)
  /-- Creates or overwrites the file at a path. -/
  write : String → ByteArray → m (Except FileError Unit)
  /-- Takes reports. -/
  report : List Event → m Unit

namespace Host

variable {m : Type → Type} [Monad m] (host : Host m)

/-- Runs a computation that needs no files. -/
def perform {α : Type} (logged : Logged α) : m α := do
  host.report logged.events
  return logged.value

/-- Computes the result for an input file. -/
def renderFile (input : String) (emit : Emit) : m (Compiled String) := do
  match (← host.read input).bind FileSystem.decodeText with
  | .error cause => return .error (.error (.read input cause))
  | .ok text => host.perform ((Source.named input text).renderLogged emit)

/-- Writes the result for an input file to a path, and gives that path. -/
def writeResult (input path text : String) : m (Compiled String) := do
  match ← host.write path text.toUTF8 with
  | .error cause => return .error (.error (.write path cause))
  | .ok () =>
    host.report [.wroteOutput input path]
    return .ok path

/-- Compiles an input file and writes the result to `output`, or beside the input. Gives the path
that was written. -/
def compileFile (input : String) (output : Option String) (emit : Emit) :
    m (Compiled String) := do
  match ← host.renderFile input emit with
  | .error failure => return .error failure
  | .ok text => host.writeResult input (outputOf input output) text

end Host

namespace FileSystem

/-- A computation that accesses the files of the model and makes reports. -/
abbrev Action := StateT FileSystem Logged

/-- Access to the files of the model. -/
def host : Host Action where
  read path fs := pure (fs.read path, fs)
  write path content fs :=
    match fs.write path content with
    | .error cause => pure (.error cause, fs)
    | .ok written => pure (.ok (), written)
  report events fs := { value := ((), fs), events }

theorem bind_apply {α β : Type} (action : Action α) (next : α → Action β) (fs : FileSystem) :
    (action >>= next) fs = action fs >>= fun result => next result.1 result.2 := rfl

/-- On the model, a result is computed from the text of the input, and no file changes. -/
theorem run_renderFile (fs : FileSystem) (input : String) (emit : Emit) :
    host.renderFile input emit fs =
      match fs.readText input with
      | .error cause => pure (.error (.error (.read input cause)), fs)
      | .ok text => (·, fs) <$> (Source.named input text).renderLogged emit := by
  have hread : fs.readText input = (fs.read input).bind decodeText := rfl
  rw [Host.renderFile, bind_apply, show host.read input fs = pure (fs.read input, fs) from rfl,
    pure_bind, hread]
  cases (fs.read input).bind decodeText <;> rfl

/-- The result for an input file. -/
def renderFile (fs : FileSystem) (input : String) (emit : Emit) : Compiled String :=
  (host.renderFile input emit fs).value.1

/-- The reports of `renderFile`. -/
def renderFileEvents (fs : FileSystem) (input : String) (emit : Emit) : List Event :=
  (host.renderFile input emit fs).events

/-- Compiles an input file. Gives the path that was written, and the file system afterwards. -/
def compileFile (fs : FileSystem) (input : String) (output : Option String) (emit : Emit) :
    Compiled String × FileSystem :=
  (host.compileFile input output emit fs).value

/-- The reports of `compileFile`. -/
def compileFileEvents (fs : FileSystem) (input : String) (output : Option String)
    (emit : Emit) : List Event :=
  (host.compileFile input output emit fs).events

/-- The result for an input file is that for the source in it. -/
theorem renderFile_eq (fs : FileSystem) (input : String) (emit : Emit) :
    fs.renderFile input emit =
      match fs.readText input with
      | .error cause => .error (.error (.read input cause))
      | .ok text => (Source.named input text).render emit := by
  rw [renderFile, run_renderFile]
  cases fs.readText input <;> rfl

/-- The reports on an input file are those on the source in it. -/
theorem renderFileEvents_eq (fs : FileSystem) (input : String) (emit : Emit) :
    fs.renderFileEvents input emit =
      match fs.readText input with
      | .error _ => []
      | .ok text => ((Source.named input text).renderLogged emit).events := by
  rw [renderFileEvents, run_renderFile]
  cases fs.readText input <;> simp

/-- To compute a result changes no file. -/
theorem renderFile_apply (fs : FileSystem) (input : String) (emit : Emit) :
    host.renderFile input emit fs =
      { value := (fs.renderFile input emit, fs), events := fs.renderFileEvents input emit } := by
  rw [renderFile, renderFileEvents, run_renderFile]
  cases fs.readText input <;> rfl

/-- A result is reported after it is written. -/
theorem writeResult_apply (fs : FileSystem) (input path text : String) :
    host.writeResult input path text fs =
      match fs.write path text.toUTF8 with
      | .error cause => pure (.error (.error (.write path cause)), fs)
      | .ok written => { value := (.ok path, written), events := [.wroteOutput input path] } := by
  have hwrite : host.write path text.toUTF8 fs =
      match fs.write path text.toUTF8 with
      | .error cause => pure (.error cause, fs)
      | .ok written => pure (.ok (), written) := rfl
  rw [Host.writeResult, bind_apply, hwrite]
  cases fs.write path text.toUTF8 <;> rfl

/-- A result is written after it is computed. -/
theorem compileFile_apply (fs : FileSystem) (input : String) (output : Option String)
    (emit : Emit) :
    host.compileFile input output emit fs =
      match fs.renderFile input emit with
      | .error failure =>
        { value := (.error failure, fs), events := fs.renderFileEvents input emit }
      | .ok text =>
        { value := (host.writeResult input (outputOf input output) text fs).value
          events := fs.renderFileEvents input emit ++
            (host.writeResult input (outputOf input output) text fs).events } := by
  rw [Host.compileFile, bind_apply, renderFile_apply]
  cases fs.renderFile input emit with
  | error failure => exact congrArg (Logged.mk _) (List.append_nil _)
  | ok text => rfl

/-- What a compilation gives, and the file system after it. -/
theorem compileFile_eq (fs : FileSystem) (input : String) (output : Option String) (emit : Emit) :
    fs.compileFile input output emit =
      match fs.renderFile input emit with
      | .error failure => (.error failure, fs)
      | .ok text =>
        match fs.write (outputOf input output) text.toUTF8 with
        | .error cause => (.error (.error (.write (outputOf input output) cause)), fs)
        | .ok written => (.ok (outputOf input output), written) := by
  rw [compileFile, compileFile_apply]
  cases fs.renderFile input emit with
  | error failure => rfl
  | ok text =>
    simp only [writeResult_apply]
    cases fs.write (outputOf input output) text.toUTF8 <;> rfl

/-- An output is reported behind all else, if it was written. -/
theorem compileFileEvents_eq (fs : FileSystem) (input : String) (output : Option String)
    (emit : Emit) :
    fs.compileFileEvents input output emit = fs.renderFileEvents input emit ++
      match (fs.compileFile input output emit).1 with
      | .ok path => [.wroteOutput input path]
      | .error _ => [] := by
  rw [compileFileEvents, compileFile, compileFile_apply]
  cases fs.renderFile input emit with
  | error failure => exact (List.append_nil _).symm
  | ok text =>
    simp only [writeResult_apply]
    cases fs.write (outputOf input output) text.toUTF8 <;> rfl

/-- A failed compilation leaves the file system as it was. -/
theorem compileFile_error {fs : FileSystem} {input : String} {output : Option String}
    {emit : Emit} {failure : Failure CompileError}
    (h : (fs.compileFile input output emit).1 = .error failure) :
    (fs.compileFile input output emit).2 = fs := by
  rw [compileFile_eq] at h ⊢
  cases hrender : fs.renderFile input emit with
  | error failure => rfl
  | ok text =>
    cases hwrite : fs.write (outputOf input output) text.toUTF8 with
    | error cause => simp only [hwrite]
    | ok written => simp only [hrender, hwrite, reduceCtorEq] at h

end FileSystem

end CFrontEnd
