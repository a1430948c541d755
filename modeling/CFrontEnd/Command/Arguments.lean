import CFrontEnd.Command.Program

/-!
# Command Line Arguments

The command takes one input file and the options `--output`, `--emit`, `--stdout`, `--help` and
`--version`, in any order. Arguments are read from the left; the first one that is wrong, or that
asks for help or the version, decides.

* A long option takes its value after `=` or from the next argument, a short one also from the
  rest of its own argument. A next argument that starts with a dash is no value, a single dash is.
* Short options can share an argument.
* After `--` every argument is a file.
* No option and no file can be given twice, and `--stdout` excludes `--output`.
-/

namespace CFrontEnd

/-- What a command line asks for. -/
inductive Command where
  | compile (invocation : Invocation)
  | help
  | version
deriving DecidableEq, Repr

/-- What is wrong with a command line. -/
inductive UsageError where
  /-- An option or a further file that is not known. -/
  | unexpectedArgument (argument : String)
  /-- An option without its value, or a file or a path that is empty. -/
  | missingValue (option : String)
  /-- A value that the option does not have. -/
  | invalidValue (option value : String)
  /-- A value for an option that takes none. -/
  | unneededValue (option value : String)
  /-- An option that was given before. -/
  | repeatedOption (option : String)
  /-- No input file. -/
  | missingFile
  /-- Both `--stdout` and `--output`. -/
  | conflictingOptions
deriving DecidableEq, Repr

/-- The message for a wrong command line. -/
def UsageError.message : UsageError → String
  | .unexpectedArgument argument => "unexpected argument '" ++ argument ++ "' found"
  | .missingValue option => "a value is required for '" ++ option ++ "' but none was supplied"
  | .invalidValue option value => "invalid value '" ++ value ++ "' for '" ++ option ++ "'"
  | .unneededValue option value =>
    "unexpected value '" ++ value ++ "' for '" ++ option ++ "' found; no more were expected"
  | .repeatedOption option => "the argument '" ++ option ++ "' cannot be used multiple times"
  | .missingFile => "the following required arguments were not provided: <FILE>"
  | .conflictingOptions => "the argument '--stdout' cannot be used with '--output <OUTPUT>'"

/-- The value of `--emit` with the given name. -/
def Emit.ofName? : String → Option Emit
  | "tokens" => some .tokens
  | "ast" => some .tree
  | _ => none

/-- The arguments read so far. -/
structure Arguments where
  /-- The input file. -/
  file : Option String
  /-- The value of `--output`. -/
  output : Option String
  /-- The value of `--emit`. -/
  emit : Option Emit
  /-- `--stdout` was given. -/
  toStdout : Bool
deriving DecidableEq, Repr

/-- The options that take a value. -/
inductive ValueOption where
  | output
  | emit
deriving DecidableEq, Repr

/-- How an option with a value is shown in messages. -/
def ValueOption.label : ValueOption → String
  | .output => "--output <OUTPUT>"
  | .emit => "--emit <EMIT>"

/-- An option. -/
inductive CommandOption where
  | valued (option : ValueOption)
  | stdout
  | help
  | version
deriving DecidableEq, Repr

/-- The option with the given long name. -/
def CommandOption.ofLong? : String → Option CommandOption
  | "output" => some (.valued .output)
  | "emit" => some (.valued .emit)
  | "stdout" => some .stdout
  | "help" => some .help
  | "version" => some .version
  | _ => none

/-- The option with the given short name. -/
def CommandOption.ofShort? : Char → Option CommandOption
  | 'o' => some (.valued .output)
  | 'h' => some .help
  | 'V' => some .version
  | _ => none

/-- The form of an argument. -/
inductive ArgumentForm where
  /-- `--`: only files follow. -/
  | filesFollow
  /-- A long option and the value after its `=`. -/
  | long (name : String) (value : Option String)
  /-- One or more short options. -/
  | short (cluster : List Char)
  /-- A file or a value. -/
  | plain

/-- The text before the first `=` and the text after it. -/
def splitEquals (text : List Char) : String × Option String :=
  (String.ofList (text.takeWhile (· != '=')),
    match text.dropWhile (· != '=') with
    | [] => none
    | _ :: value => some (String.ofList value))

/-- The form of an argument. -/
def ArgumentForm.of (argument : String) : ArgumentForm :=
  match argument.toList with
  | ['-', '-'] => .filesFollow
  | '-' :: '-' :: text =>
    let (name, value) := splitEquals text
    .long name value
  | ['-'] => .plain
  | '-' :: cluster => .short cluster
  | _ => .plain

namespace Arguments

/-- The state before the first argument. -/
def initial : Arguments :=
  { file := none, output := none, emit := none, toStdout := false }

/-- Adds a file. -/
def addFile (arguments : Arguments) (file : String) : Except UsageError Arguments :=
  if arguments.file.isSome then .error (.unexpectedArgument file)
  else if file = "" then .error (.missingValue "<FILE>")
  else .ok { arguments with file := some file }

/-- Adds the value of an option. -/
def addValue (arguments : Arguments) (option : ValueOption) (value : String) :
    Except UsageError Arguments :=
  match option with
  | .output =>
    if arguments.output.isSome then .error (.repeatedOption option.label)
    else if value = "" then .error (.missingValue option.label)
    else .ok { arguments with output := some value }
  | .emit =>
    if arguments.emit.isSome then .error (.repeatedOption option.label)
    else
      match Emit.ofName? value with
      | some emit => .ok { arguments with emit := some emit }
      | none => .error (.invalidValue option.label value)

/-- Adds `--stdout`. -/
def addStdout (arguments : Arguments) : Except UsageError Arguments :=
  if arguments.toStdout then .error (.repeatedOption "--stdout")
  else .ok { arguments with toStdout := true }

/-- The command when all arguments are read. -/
def toCommand (arguments : Arguments) : Except UsageError Command :=
  match arguments.file with
  | none => .error .missingFile
  | some file =>
    if arguments.toStdout ∧ arguments.output.isSome = true then .error .conflictingOptions
    else
      .ok (.compile
        { file
          output := arguments.output
          emit := arguments.emit.getD .tree
          toStdout := arguments.toStdout })

/-- Adds files only. -/
def addFiles (arguments : Arguments) : List String → Except UsageError Arguments
  | [] => .ok arguments
  | file :: rest => do
    let added ← arguments.addFile file
    added.addFiles rest

/-- What reading an argument leads to. -/
inductive Progress where
  /-- A command, whatever the other arguments are. -/
  | decided (command : Command)
  /-- The argument is complete. -/
  | read (arguments : Arguments)
  /-- The value of the option is the next argument. -/
  | needsValue (option : ValueOption) (arguments : Arguments)

/-- Reads a long option. -/
def readLong (arguments : Arguments) (name : String) (value : Option String) :
    Except UsageError Progress :=
  match CommandOption.ofLong? name, value with
  | none, _ => .error (.unexpectedArgument ("--" ++ name))
  | some (.valued option), some value => (arguments.addValue option value).map .read
  | some (.valued option), none => .ok (.needsValue option arguments)
  | some _, some value => .error (.unneededValue ("--" ++ name) value)
  | some .stdout, none => arguments.addStdout.map .read
  | some .help, none => .ok (.decided .help)
  | some .version, none => .ok (.decided .version)

/-- Reads short options that share an argument. One that takes a value takes the rest of the
argument, without a `=` at its front. -/
def readShort (arguments : Arguments) : List Char → Except UsageError Progress
  | [] => .ok (.read arguments)
  | c :: rest =>
    match CommandOption.ofShort? c, rest with
    | none, _ => .error (.unexpectedArgument ("-" ++ String.singleton c))
    | some (.valued option), [] => .ok (.needsValue option arguments)
    | some (.valued option), '=' :: value =>
      (arguments.addValue option (String.ofList value)).map .read
    | some (.valued option), value =>
      (arguments.addValue option (String.ofList value)).map .read
    | some .stdout, _ => do
      let added ← arguments.addStdout
      added.readShort rest
    | some .help, _ => .ok (.decided .help)
    | some .version, _ => .ok (.decided .version)

/-- Reads arguments from the left. `pending` is the option whose value comes next. -/
def read (arguments : Arguments) (pending : Option ValueOption) :
    List String → Except UsageError Command
  | [] =>
    match pending with
    | some option => .error (.missingValue option.label)
    | none => arguments.toCommand
  | argument :: rest =>
    match pending, ArgumentForm.of argument with
    | some option, .plain => do
      let added ← arguments.addValue option argument
      added.read none rest
    -- the value cannot be an option, nor the `--` before the files
    | some option, _ => .error (.missingValue option.label)
    | none, .filesFollow => do
      let added ← arguments.addFiles rest
      added.toCommand
    | none, .plain => do
      let added ← arguments.addFile argument
      added.read none rest
    | none, .long name value => do
      match ← arguments.readLong name value with
      | .decided command => return command
      | .read added => added.read none rest
      | .needsValue option added => added.read (some option) rest
    | none, .short cluster => do
      match ← arguments.readShort cluster with
      | .decided command => return command
      | .read added => added.read none rest
      | .needsValue option added => added.read (some option) rest

end Arguments

/-- The command that a command line asks for. -/
def Command.ofArguments (arguments : List String) : Except UsageError Command :=
  Arguments.initial.read none arguments

end CFrontEnd
