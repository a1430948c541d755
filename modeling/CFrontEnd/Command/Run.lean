import CFrontEnd.Command.Report
import CFrontEnd.Files.Setup

/-!
# Running the Command on a Model

The command with its usual shell, on a file system that can be prepared before and listed after.
-/

namespace CFrontEnd

/-- Runs the command on a file system. -/
def Command.run (arguments : List String) (fs : FileSystem) : Report × FileSystem :=
  Shell.usual.runOn fs arguments

end CFrontEnd
