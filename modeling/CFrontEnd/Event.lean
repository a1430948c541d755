import CFrontEnd.Text.Quoted

/-!
# Events

What the stages of the front end report while they work. An event is a cause with its data; its
level, message and fields are computed from it.

A stage is a computation with reports. Its result and its reports are both read off one definition,
in which every report stands where it is made.

* `Logged.value_bind`, `Logged.events_bind`: a computation and then another one.
-/

namespace CFrontEnd

/-- How much an event matters. -/
inductive Level where
  | trace
  | debug
  | info
deriving DecidableEq, Repr

/-- The name of a level in a log. -/
def Level.name : Level → String
  | .trace => "TRACE"
  | .debug => "DEBUG"
  | .info => "INFO"

/-- The numbers of nodes in a syntax tree, nested ones included. -/
structure Counts where
  /-- The number of functions. -/
  functions : Nat
  /-- The number of statements. -/
  statements : Nat
  /-- The number of expressions. -/
  expressions : Nat
deriving DecidableEq, Repr

/-- A report of the front end. -/
inductive Event where
  /-- A character that is not blank belongs to no token. -/
  | skippedCharacter (offset : Nat) (character : Char)
  /-- A whole text was cut into tokens. -/
  | lexedSource (tokens bytes : Nat)
  /-- A function was recognised. -/
  | parsedFunction (name : String) (arguments statements : Nat)
  /-- A program was recognised. -/
  | parsedProgram (functions : Nat)
  /-- A named source was recognised. -/
  | parsedSource (name : String) (counts : Counts)
  /-- The result for an input file was written to an output file. -/
  | wroteOutput (input output : String)
deriving DecidableEq, Repr

namespace Event

/-- The level of an event. -/
def level : Event → Level
  | .skippedCharacter .. => .trace
  | .wroteOutput .. => .info
  | _ => .debug

/-- The message of an event. -/
def message : Event → String
  | .skippedCharacter .. => "skipping unrecognized character"
  | .lexedSource .. => "lexed source"
  | .parsedFunction .. => "parsed function"
  | .parsedProgram _ => "parsed program"
  | .parsedSource name _ => "parsed " ++ name
  | .wroteOutput .. => "wrote output"

/-- The data of an event as named texts. -/
def fields : Event → List (String × String)
  | .skippedCharacter offset character =>
    [("position", toString offset), ("character", Text.quotedChar character)]
  | .lexedSource tokens bytes => [("tokens", toString tokens), ("bytes", toString bytes)]
  | .parsedFunction name arguments statements =>
    [("function", name), ("arguments", toString arguments), ("statements", toString statements)]
  | .parsedProgram functions => [("functions", toString functions)]
  | .parsedSource _ counts =>
    [("functions", toString counts.functions), ("statements", toString counts.statements),
      ("expressions", toString counts.expressions)]
  | .wroteOutput input output => [("input", input), ("output", output)]

end Event

/-- The value of a computation, and what was reported on the way. -/
structure Logged (α : Type) where
  /-- What the computation gives. -/
  value : α
  /-- The reports, in order. -/
  events : List Event

namespace Logged

instance : Monad Logged where
  pure value := { value, events := [] }
  bind logged next :=
    { value := (next logged.value).value
      events := logged.events ++ (next logged.value).events }

instance : LawfulMonad Logged :=
  LawfulMonad.mk' Logged
    (fun logged => by cases logged; simp [Functor.map])
    (fun value next => by simp [bind, pure])
    (fun logged next last => by simp [bind])

/-- Reports events. -/
def report (events : List Event) : Logged Unit :=
  { value := (), events }

variable {α β : Type}

@[simp]
theorem value_pure (value : α) : (pure value : Logged α).value = value := rfl

@[simp]
theorem events_pure (value : α) : (pure value : Logged α).events = [] := rfl

/-- The value of a computation and then another one is that of the other one. -/
@[simp]
theorem value_bind (logged : Logged α) (next : α → Logged β) :
    (logged >>= next).value = (next logged.value).value := rfl

/-- A computation reports before the one that comes after it. -/
@[simp]
theorem events_bind (logged : Logged α) (next : α → Logged β) :
    (logged >>= next).events = logged.events ++ (next logged.value).events := rfl

@[simp]
theorem value_map (f : α → β) (logged : Logged α) : (f <$> logged).value = f logged.value := rfl

@[simp]
theorem events_map (f : α → β) (logged : Logged α) : (f <$> logged).events = logged.events :=
  List.append_nil _

@[simp]
theorem events_report (events : List Event) : (report events).events = events := rfl

end Logged

end CFrontEnd
