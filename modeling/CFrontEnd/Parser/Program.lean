import CFrontEnd.Event
import CFrontEnd.Parser.Statement

/-!
# Programs

A program is a sequence of functions up to the end of the tokens. The parser reports every
function once it is complete, and the program at the end.

`parse` takes tokens as a program; `parseFunction`, `parseStatement` and `parseExpression` take
them as exactly one function, statement or expression, with no token left.

* `Parser.events_runProgram`: the functions that are reported are those that were taken.
* `Parser.program_eq`, `parseEvents_eq`: the program and the reports of a parse, by where it
  stopped.
-/

namespace CFrontEnd

/-- The report on a complete function. -/
def FunctionDef.event (function : FunctionDef) : Event :=
  .parsedFunction function.name function.arguments.length function.body.length

/-- A parse of some tokens as a program: the functions that were complete, and where the parse
stopped if that is before the end. -/
structure ProgramRun (tokens : List Token) where
  /-- The complete functions, in order. -/
  functions : List FunctionDef
  /-- Where and why the parse stopped before the end. -/
  stopped : Option (Stopped tokens)

namespace ProgramRun

variable {tokens : List Token}

/-- Why the parse stopped before the end, if it did. -/
def halt (run : ProgramRun tokens) : Option Halt :=
  run.stopped.map Stopped.toHalt

/-- The parse of nothing, which stops for the given reason if there is one. -/
def empty (stopped : Option (Stopped tokens)) : ProgramRun tokens :=
  { functions := [], stopped }

/-- The parse with one more function in front. -/
def cons {whole : List Token} (function : FunctionDef) (run : ProgramRun tokens)
    (suffix : tokens <:+ whole) : ProgramRun whole :=
  { functions := function :: run.functions, stopped := run.stopped.map (·.within suffix) }

@[simp]
theorem functions_empty (stopped : Option (Stopped tokens)) :
    (empty stopped).functions = [] := rfl

@[simp]
theorem halt_empty (stopped : Option (Stopped tokens)) :
    (empty stopped).halt = stopped.map Stopped.toHalt := rfl

@[simp]
theorem functions_cons {whole : List Token} (function : FunctionDef) (run : ProgramRun tokens)
    (suffix : tokens <:+ whole) :
    (cons function run suffix).functions = function :: run.functions := rfl

@[simp]
theorem halt_cons {whole : List Token} (function : FunctionDef) (run : ProgramRun tokens)
    (suffix : tokens <:+ whole) : (cons function run suffix).halt = run.halt := by
  simp [halt, cons, Function.comp_def]

end ProgramRun

namespace Parser

/-- Takes a function, and reports it once it is complete. -/
def takeFunctionLogged (tokens : List Token) : Logged (Takes tokens FunctionDef) :=
  match takeFunction tokens with
  | .error stopped => return .error stopped
  | .ok taken => do
    Logged.report [taken.value.event]
    return .ok taken

/-- Takes functions from the front of the tokens to their end. -/
def runProgram (tokens : List Token) : Logged (ProgramRun tokens) :=
  match tokens with
  | [] => return .empty none
  | token :: rest => do
    match ← takeFunctionLogged (token :: rest) with
    | .error stopped => return .empty (some stopped)
    | .ok ⟨function, rest', suffix, _⟩ =>
      let run ← runProgram rest'
      return run.cons function suffix
termination_by tokens.length
decreasing_by assumption

/-- Takes a program, which has all the tokens, and reports it at their end. -/
def takeProgramLogged (tokens : List Token) : Logged (MayTake tokens Program) := do
  let run ← runProgram tokens
  match run.stopped with
  | some stopped => return .error stopped
  | none =>
    Logged.report [.parsedProgram run.functions.length]
    return .ok
      { value := { functions := run.functions }
        rest := []
        suffix := List.nil_suffix
        shorter := Nat.succ_pos _ }

/-- The program that makes up all the tokens. -/
def program (tokens : List Token) : Outcome Program :=
  .ofTaken (takeProgramLogged tokens).value

@[simp]
theorem value_takeFunctionLogged (tokens : List Token) :
    (takeFunctionLogged tokens).value = takeFunction tokens := by
  unfold takeFunctionLogged
  split <;> simp_all

/-- A program that does not start with a function. -/
theorem runProgram_of_error {token : Token} {rest : List Token} {stopped : Stopped (token :: rest)}
    (h : takeFunction (token :: rest) = .error stopped) :
    runProgram (token :: rest) = pure (.empty (some stopped)) := by
  rw [runProgram, takeFunctionLogged, h]
  rfl

/-- A function and the program behind it. -/
theorem runProgram_of_ok {token : Token} {rest : List Token}
    {taken : Taken (token :: rest) (token :: rest).length FunctionDef}
    (h : takeFunction (token :: rest) = .ok taken) :
    runProgram (token :: rest) =
      { value := (runProgram taken.rest).value.cons taken.value taken.suffix
        events := taken.value.event :: (runProgram taken.rest).events } := by
  rw [runProgram, takeFunctionLogged, h]
  simp only [bind, pure, Logged.report, List.append_nil, List.cons_append, List.nil_append]

/-- Induction along the parse of a program: the tokens end, or they go on with what is no function,
or with a function and the program behind it. -/
theorem runProgram_induction {motive : List Token → Prop} (nil : motive [])
    (halted : ∀ token rest stopped, takeFunction (token :: rest) = .error stopped →
      motive (token :: rest))
    (cons : ∀ token rest taken, takeFunction (token :: rest) = .ok taken → motive taken.rest →
      motive (token :: rest))
    (tokens : List Token) : motive tokens := by
  fun_induction runProgram tokens with
  | case1 => exact nil
  | case2 token rest ih =>
    cases h : takeFunction (token :: rest) with
    | error stopped => exact halted token rest stopped h
    | ok taken => exact cons token rest taken h (ih taken.rest taken.shorter)

/-- The functions that are reported are those that were taken. -/
theorem events_runProgram (tokens : List Token) :
    (runProgram tokens).events = (runProgram tokens).value.functions.map FunctionDef.event := by
  induction tokens using runProgram_induction with
  | nil => simp [runProgram]
  | halted token rest stopped h => simp [runProgram_of_error h]
  | cons token rest taken h ih => simp [runProgram_of_ok h, ih]

/-- The program is complete if the parse did not stop before the end. -/
theorem program_eq (tokens : List Token) :
    program tokens =
      match (runProgram tokens).value.halt with
      | none => .ok ({ functions := (runProgram tokens).value.functions }, [])
      | some halt => .error halt := by
  simp only [program, takeProgramLogged, ProgramRun.halt, Logged.value_bind]
  cases (runProgram tokens).value.stopped <;> rfl

/-- The value of a rule that must leave no token. -/
def complete {α : Type} (outcome : Outcome α) : Except (Failure ParseError) α :=
  match outcome with
  | .error halt => .error halt.failure
  | .ok (value, rest) =>
    match finish rest with
    | .ok () => .ok value
    | .error halt => .error halt.failure

end Parser

/-- Parses tokens as a program. -/
def parseLogged (tokens : List Token) : Logged (Except (Failure ParseError) Program) := do
  return Parser.complete (.ofTaken (← Parser.takeProgramLogged tokens))

/-- The program that the tokens form. -/
def parse (tokens : List Token) : Except (Failure ParseError) Program :=
  (parseLogged tokens).value

/-- The reports of a parse. -/
def parseEvents (tokens : List Token) : List Event :=
  (parseLogged tokens).events

theorem parse_eq (tokens : List Token) : parse tokens = Parser.complete (Parser.program tokens) :=
  rfl

/-- A parse reports the functions that were taken, and the program if it is complete. -/
theorem parseEvents_eq (tokens : List Token) :
    parseEvents tokens =
      (Parser.runProgram tokens).value.functions.map FunctionDef.event ++
        match (Parser.runProgram tokens).value.halt with
        | none => [.parsedProgram (Parser.runProgram tokens).value.functions.length]
        | some _ => [] := by
  simp only [parseEvents, parseLogged, Parser.takeProgramLogged, ProgramRun.halt,
    Logged.events_bind, Logged.events_pure, List.append_nil, Parser.events_runProgram]
  cases (Parser.runProgram tokens).value.stopped <;> rfl

/-- Parses tokens as a function. It is reported even if tokens follow it. -/
def parseFunctionLogged (tokens : List Token) :
    Logged (Except (Failure ParseError) FunctionDef) := do
  return Parser.complete (.ofTaken (← Parser.takeFunctionLogged tokens))

/-- The function that the tokens form. -/
def parseFunction (tokens : List Token) : Except (Failure ParseError) FunctionDef :=
  (parseFunctionLogged tokens).value

theorem parseFunction_eq (tokens : List Token) :
    parseFunction tokens = Parser.complete (Parser.function tokens) := by
  simp [parseFunction, parseFunctionLogged, Parser.function]

/-- The reports of the parse of a function. -/
def parseFunctionEvents (tokens : List Token) : List Event :=
  (parseFunctionLogged tokens).events

/-- The statement that the tokens form. -/
def parseStatement (tokens : List Token) : Except (Failure ParseError) Stmt :=
  Parser.complete (Parser.stmt tokens)

/-- The expression that the tokens form. -/
def parseExpression (tokens : List Token) : Except (Failure ParseError) Expr :=
  Parser.complete (Parser.expr tokens)

end CFrontEnd
