import CFrontEnd.Parser.Program
import CFrontEnd.Source
import CFrontEnd.Token.Piece
import CFrontEnd.Tree.Visitor

/-!
# Compilation

A source is cut into tokens, the tokens are parsed, and a generator turns the program into the
text of the result. The listing of a source shows its tokens instead.

* `Source.compile_eq_ok_iff`: a compilation succeeds with what the generator makes of the program.
-/

namespace CFrontEnd

/-- The causes of a failed access to a file. -/
inductive FileError where
  /-- There is nothing at the path. -/
  | notFound
  /-- There is a directory at the path. -/
  | isDirectory
  /-- A directory is needed where the path has a file. -/
  | notDirectory
  /-- There is a file where a directory is to be created. -/
  | alreadyExists
  /-- The path or a name in it has too many bytes. -/
  | nameTooLong
  /-- The path has a NUL character. -/
  | nulInPath
  /-- The bytes of the file are no UTF-8 text. -/
  | invalidText
  /-- Any other cause, with its message. -/
  | other (message : String)
deriving DecidableEq, Repr

/-- The message of a failed access. -/
def FileError.message : FileError → String
  | .notFound => "No such file or directory (os error 2)"
  | .isDirectory => "Is a directory (os error 21)"
  | .notDirectory => "Not a directory (os error 20)"
  | .alreadyExists => "File exists (os error 17)"
  | .nameTooLong => "File name too long (os error 36)"
  | .nulInPath => "file name contained an unexpected NUL byte"
  | .invalidText => "stream did not contain valid UTF-8"
  | .other message => message

/-- The causes of a failed compilation. -/
inductive CompileError where
  /-- The input file cannot be read. -/
  | read (path : String) (cause : FileError)
  /-- The output file cannot be written. -/
  | write (path : String) (cause : FileError)
  /-- The source is no program. -/
  | parse (diagnostic : Diagnostic)
deriving DecidableEq, Repr

/-- The message of a failed compilation. -/
def CompileError.message : CompileError → String
  | .read path _ => "failed to read `" ++ path ++ "`"
  | .write path _ => "failed to write `" ++ path ++ "`"
  | .parse diagnostic => diagnostic.display

/-- Turns a program into the text of the result. -/
abbrev Generator := Program → String

/-- A compile result: a value, or the failure of the compilation. -/
abbrev Compiled (α : Type) := Except (Failure CompileError) α

/-- Parses a text as a program. -/
def parseSourceLogged (text : String) : Logged (Except (Failure ParseError) Program) := do
  parseLogged (← lexLogged text)

/-- The program that a text forms. -/
def parseSource (text : String) : Except (Failure ParseError) Program :=
  (parseSourceLogged text).value

/-- The reports of the parse of a text. -/
def parseSourceEvents (text : String) : List Event :=
  (parseSourceLogged text).events

theorem parseSource_eq (text : String) : parseSource text = parse (lex text) := rfl

theorem parseSourceEvents_eq (text : String) :
    parseSourceEvents text = lexEvents text ++ parseEvents (lex text) := rfl

namespace Source

/-- The failure of a parse, with its place in the source. -/
def explain (source : Source) : Failure ParseError → Failure CompileError
  | .error error => .error (.parse (source.diagnose error))
  | .abort => .abort

/-- The program in a source. It is reported with the numbers of its nodes. -/
def programLogged (source : Source) : Logged (Compiled Program) := do
  match ← parseSourceLogged source.content with
  | .error failure => return .error (source.explain failure)
  | .ok program =>
    Logged.report [.parsedSource source.name (Node.counts (.program program))]
    return .ok program

/-- Compiles a source: the text of a generator for the program in it. -/
def compileLogged (source : Source) (generator : Generator) : Logged (Compiled String) := do
  return (← source.programLogged).map generator

/-- The text of a generator for the program in a source. -/
def compile (source : Source) (generator : Generator) : Compiled String :=
  (source.compileLogged generator).value

/-- The reports of a compilation. -/
def compileEvents (source : Source) : List Event :=
  source.programLogged.events

/-- A compilation is a parse with a generator behind it. -/
theorem compile_eq (source : Source) (generator : Generator) :
    source.compile generator =
      match parseSource source.content with
      | .ok program => .ok (generator program)
      | .error failure => .error (source.explain failure) := by
  rw [compile, compileLogged, programLogged, parseSource]
  simp only [Logged.value_bind]
  cases (parseSourceLogged source.content).value <;> rfl

/-- The nodes are counted behind the parse, if there is a program. -/
theorem compileEvents_eq (source : Source) :
    source.compileEvents = parseSourceEvents source.content ++
      match parseSource source.content with
      | .ok program => [.parsedSource source.name (Node.counts (.program program))]
      | .error _ => [] := by
  rw [compileEvents, programLogged, parseSourceEvents, parseSource]
  simp only [Logged.events_bind]
  cases (parseSourceLogged source.content).value <;> rfl

/-- A generator reports nothing. -/
@[simp]
theorem events_compileLogged (source : Source) (generator : Generator) :
    (source.compileLogged generator).events = source.compileEvents :=
  List.append_nil _

/-- A compilation succeeds with what the generator makes of the program in the source. -/
theorem compile_eq_ok_iff {source : Source} {generator : Generator} {text : String} :
    source.compile generator = .ok text ↔
      ∃ program, parseSource source.content = .ok program ∧ generator program = text := by
  rw [compile_eq]
  cases parseSource source.content <;> simp

/-- The tokens of a source, one line each. -/
def listingLogged (source : Source) : Logged String := do
  let tokens ← lexLogged source.content
  return String.join (tokens.map fun token => token.describe ++ "\n")

/-- The tokens of a source, one line each. -/
def listing (source : Source) : String :=
  source.listingLogged.value

theorem listing_eq (source : Source) :
    source.listing =
      String.join ((lex source.content).map fun token => token.describe ++ "\n") := rfl

end Source

/-- What the result of a compilation shows. -/
inductive Emit where
  /-- The tokens, one line each. -/
  | tokens
  /-- The syntax tree, one function on each line. -/
  | tree
deriving DecidableEq, Repr

/-- Computes the result for a source. -/
def Source.renderLogged (source : Source) : Emit → Logged (Compiled String)
  | .tokens => return .ok (← source.listingLogged)
  | .tree => source.compileLogged Program.dump

/-- The result for a source. -/
def Source.render (source : Source) (emit : Emit) : Compiled String :=
  (source.renderLogged emit).value

namespace Source

@[simp]
theorem render_tokens (source : Source) : source.render .tokens = .ok source.listing := rfl

@[simp]
theorem render_tree (source : Source) : source.render .tree = source.compile Program.dump := rfl

@[simp]
theorem events_renderLogged_tokens (source : Source) :
    (source.renderLogged .tokens).events = lexEvents source.content := by
  simp [renderLogged, listingLogged, lexEvents]

@[simp]
theorem events_renderLogged_tree (source : Source) :
    (source.renderLogged .tree).events = source.compileEvents :=
  source.events_compileLogged Program.dump

end Source

end CFrontEnd
