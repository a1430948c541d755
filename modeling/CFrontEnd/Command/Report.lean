import CFrontEnd.Command.Arguments

/-!
# The Usual Shell

The texts around a compilation: help, the version, what is wrong with a command line, and the layout
of a failed compilation with its causes. More than one cause are numbered, and the lines of a cause
are indented alike.
-/

namespace CFrontEnd

namespace Report

/-- The name and the version of the command. -/
def versionText : String :=
  "minic 0.1.0\n"

/-- How the command is used. -/
def usageText : String :=
  "Usage: minic [OPTIONS] <FILE>\n"

/-- What the command does and which options it has. -/
def helpText : String :=
  "Lexes and parses a minimal C-like language\n\n" ++ usageText ++
    "\nArguments:\n  <FILE>  Source file to compile\n\nOptions:\n" ++
    "  -o, --output <OUTPUT>  Output path (defaults to the input path with a `.s` extension)\n" ++
    "      --emit <EMIT>      What to write to the output [default: ast]" ++
    " [possible values: tokens, ast]\n" ++
    "      --stdout           Print to stdout instead of writing a file\n" ++
    "  -h, --help             Print help\n" ++
    "  -V, --version          Print version\n"

/-- The text with every line after the first one indented. -/
def indentLines (indentation : String) (text : String) : String :=
  String.ofList <| text.toList.flatMap fun c =>
    if c = '\n' then '\n' :: indentation.toList else [c]

/-- Causes with their numbers, from the given one on. -/
def numbered (number : Nat) : List String → List String
  | [] => []
  | cause :: causes =>
    ("    " ++ toString number ++ ": " ++ indentLines "       " cause) ::
      numbered (number + 1) causes

/-- The lines of the causes. A single cause has no number. -/
def causeLines : List String → List String
  | [cause] => ["    " ++ indentLines "    " cause]
  | causes => numbered 0 causes

/-- A run with a wrong command line. -/
def ofUsageError (error : UsageError) : Report :=
  { silent with status := 2, stderr := "error: " ++ error.message ++ "\n\n" ++ usageText }

end Report

/-- A message with its causes below it. -/
def describeCauses : List String → String
  | [] => ""
  | [message] => message
  | message :: causes =>
    message ++ "\n\nCaused by:\n" ++ String.intercalate "\n" (Report.causeLines causes)

/-- The shell of the command. -/
def Shell.usual : Shell where
  read arguments :=
    match Command.ofArguments arguments with
    | .ok (.compile invocation) => .ok invocation
    | .ok .help => .error (.printed Report.helpText)
    | .ok .version => .error (.printed Report.versionText)
    | .error error => .error (.ofUsageError error)
  describe := describeCauses

end CFrontEnd
