import CFrontEnd.Command.Report

/-!
# The Program

The command with its usual shell, on the files of the machine.
-/

namespace CFrontEnd.Main

/-- The number of an error of the system, which some accesses give negated. -/
def systemNumber (code : UInt32) : Nat :=
  min code.toNat (-code).toNat

/-- The cause of a failed access, by the number that the system gives it. -/
def fileError (error : IO.Error) : FileError :=
  match error with
  | .noFileOrDirectory .. => .notFound
  | .inappropriateType _ code _ =>
    if systemNumber code = 21 then .isDirectory else .notDirectory
  | .invalidArgument _ code _ =>
    if systemNumber code = 36 then .nameTooLong else .other (toString error)
  | _ => .other (toString error)

/-- The result of an access to a file. -/
def attempt {α : Type} (action : IO α) : IO (Except FileError α) := do
  match ← action.toBaseIO with
  | .ok value => return .ok value
  | .error error => return .error (fileError error)

/-- The files of the machine. Reports are dropped, since only warnings are shown by default. -/
def host : Host IO where
  read path := attempt (IO.FS.readBinFile path)
  write path content := attempt (IO.FS.writeBinFile path content)
  report _ := return ()

end CFrontEnd.Main

/-- Runs the command, prints its output and gives its exit status. -/
def main (arguments : List String) : IO UInt32 := do
  let report ← CFrontEnd.Shell.usual.run CFrontEnd.Main.host arguments
  IO.print report.stdout
  IO.eprint report.stderr
  return report.status.toUInt32
