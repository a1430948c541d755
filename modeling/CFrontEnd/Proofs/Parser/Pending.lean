import CFrontEnd.Proofs.Parser.Rules

/-!
# What Is Still to Come

The parser never looks back, so all that its past leaves behind is what it still has to find. A
stack of pending parts says that: its first part has to come next, unless it may be left out and
the next token does not start it. Every token changes the top of the stack only, and tokens that
no part allows are faults. The stack knows no trees.

## Main definitions

* `Pending`: a part of a phrase that is still to come.
* `Pending.advance`: what is still to come after one more token.
* `Pending.verdict`: the first fault of some tokens, or none.

## Main results

* `Pending.level_eq_append`: the parts of a level, one level at a time.
* `Pending.verdict_cons_congr`: stacks that the next token changes alike have the same verdict.
-/

namespace CFrontEnd

/-- The tokens that are known by their kind alone. -/
inductive Mark where
  | name
  | openParen
  | closeParen
  | openBrace
  | semicolon

/-- The kind of a mark. -/
def Mark.kind : Mark → TokenKind
  | name => .identifier
  | openParen => .openParen
  | closeParen => .closeParen
  | openBrace => .openBrace
  | semicolon => .semicolon

/-- A part of a phrase that is still to come. -/
inductive Pending where
  | mark (mark : Mark)
  | typeName
  | assignOp
  /-- An operand with its prefix operators. -/
  | operand
  /-- Operations of one level, if there are any. -/
  | operations (n : Nat)
  | stmt
  /-- Statements and the closing brace. -/
  | stmts
  /-- What follows the name of a declaration. -/
  | initializer
  /-- An `else` with its body, if there is one. -/
  | alternative
  /-- A block or an `if` statement. -/
  | elseBody
  /-- Parameters and the closing parenthesis. -/
  | arguments

namespace Pending

/-- The parts of an expression of a level: an operand, and operations of every level from the
tightest on. -/
def level (n : Nat) : List Pending :=
  .operand :: (List.range' n (7 - n)).reverse.map .operations

/-- The parts of a block. -/
def block : List Pending :=
  [.mark .openBrace, .stmts]

/-- The parts of an `if` statement after the first word. -/
def branches : List Pending :=
  .mark .openParen :: (level 1 ++ .mark .closeParen :: (block ++ [.alternative]))

/-- The parts of a function after the first type name. -/
def signature : List Pending :=
  .mark .name :: .mark .openParen :: .arguments :: block

/-- The fault of a token that stands where something else was looked for. -/
def refuse (expected : Expected) (token : Token) : Except (Failure ParseError) (List Pending) :=
  .error (.error (.unexpectedToken expected token.kind token.lexeme token.span))

/-- What is still to come after a token that stands where an operand starts. -/
def afterOperand (stack : List Pending) (token : Token) :
    Except (Failure ParseError) (List Pending) :=
  if (UnaryOp.ofToken? token).isSome then .ok (.operand :: stack)
  else
    match token.kind with
    | .integer | .float | .string => token.literal.map fun _ => stack
    | .identifier => .ok stack
    | .openParen => .ok (level 1 ++ .mark .closeParen :: stack)
    | _ => refuse .expression token

/-- What is still to come after a token that stands where a statement starts. -/
def afterStmt (stack : List Pending) (token : Token) :
    Except (Failure ParseError) (List Pending) :=
  if token.isKeyword "return" then .ok (level 1 ++ .mark .semicolon :: stack)
  else if token.isKeyword "if" then .ok (branches ++ stack)
  else if token.isTypeName then .ok (.mark .name :: .initializer :: stack)
  else if token.kind = .identifier then
    .ok (.assignOp :: (level 1 ++ .mark .semicolon :: stack))
  else refuse .statement token

/-- What is still to come after one more token. After the last part the tokens must end, unless
functions may follow each other. -/
def advance (program : Bool) : List Pending → Token → Except (Failure ParseError) (List Pending)
  -- a further function starts, if there may be one
  | [], token =>
    if program then if token.isTypeName then .ok signature else refuse .typeName token
    else refuse .endOfInput token
  | .mark m :: stack, token =>
    if token.kind = m.kind then .ok stack else refuse (.kind m.kind) token
  | .typeName :: stack, token => if token.isTypeName then .ok stack else refuse .typeName token
  | .assignOp :: stack, token =>
    if (AssignOp.ofToken? token).isSome then .ok stack
    else refuse (.kind .assignmentOperator) token
  | .operand :: stack, token => afterOperand stack token
  -- the part stays, for more operations of its level
  | .operations n :: stack, token =>
    if (BinaryOp.among? (BinaryOp.ofLevel n) token).isSome then
      .ok (level (n + 1) ++ .operations n :: stack)
    else advance program stack token
  | .stmt :: stack, token => afterStmt stack token
  | .stmts :: stack, token =>
    if token.kind = .closeBrace then .ok stack else afterStmt (.stmts :: stack) token
  | .initializer :: stack, token =>
    if token.kind = .semicolon then .ok stack
    else if token.is .assignmentOperator "=" then .ok (level 1 ++ .mark .semicolon :: stack)
    else refuse (.lexeme .assignmentOperator "=") token
  -- nothing is wrong with a token that starts no `else`, so the parts below decide
  | .alternative :: stack, token =>
    if token.isKeyword "else" then .ok (.elseBody :: stack) else advance program stack token
  | .elseBody :: stack, token =>
    if token.isKeyword "if" then .ok (branches ++ stack)
    else if token.kind = .openBrace then .ok (.stmts :: stack)
    else refuse (.kind .openBrace) token
  | .arguments :: stack, token =>
    if token.kind = .closeParen then .ok stack
    else if token.isTypeName then .ok (.mark .name :: .arguments :: stack)
    else refuse .typeName token

/-- What is looked for when the tokens end before the stack is done. -/
def missing? : List Pending → Option Expected
  | [] => none
  | .mark m :: _ => some (.kind m.kind)
  | .typeName :: _ | .arguments :: _ => some .typeName
  | .assignOp :: _ => some (.kind .assignmentOperator)
  | .operand :: _ => some .expression
  | .stmt :: _ => some .statement
  | .stmts :: _ => some (.kind .closeBrace)
  | .initializer :: _ => some (.lexeme .assignmentOperator "=")
  | .elseBody :: _ => some (.kind .openBrace)
  | .operations _ :: stack | .alternative :: stack => missing? stack

/-- The first fault of the tokens, with the tokens from it on, if there is one. -/
def verdict (program : Bool) : List Pending → List Token → Except Halt Unit
  | stack, [] =>
    match missing? stack with
    | none => .ok ()
    | some expected => .error (Halt.unexpected expected [])
  | stack, token :: rest =>
    match advance program stack token with
    | .ok next => verdict program next rest
    | .error failure => .error { failure, rest := token :: rest }

/-- The parts of a level are those of the next level and the operations of the level. -/
theorem level_eq_append {n : Nat} (h : n ≤ 6) : level n = level (n + 1) ++ [.operations n] := by
  -- the loosest level comes last
  have hrange : List.range' n (7 - n) = n :: List.range' (n + 1) (7 - (n + 1)) := by
    rw [show 7 - n = 7 - (n + 1) + 1 by omega, List.range'_succ]
  simp [level, hrange]

theorem level_seven : level 7 = [.operand] := rfl

section Verdict

variable {program : Bool} {stack next : List Pending} {token : Token}

theorem verdict_cons_of_ok (h : advance program stack token = .ok next) (rest : List Token) :
    verdict program stack (token :: rest) = verdict program next rest := by
  rw [verdict, h]

theorem verdict_cons_of_error {failure : Failure ParseError}
    (h : advance program stack token = .error failure) (rest : List Token) :
    verdict program stack (token :: rest) = .error { failure, rest := token :: rest } := by
  rw [verdict, h]

/-- A part that the next token does not start, and that may be left out, is left out. -/
theorem verdict_cons_congr {other : List Pending}
    (h : advance program stack token = advance program other token) (rest : List Token) :
    verdict program stack (token :: rest) = verdict program other (token :: rest) := by
  rw [verdict, verdict, h]

theorem verdict_nil_congr {other : List Pending} (h : missing? stack = missing? other) :
    verdict program stack [] = verdict program other [] := by
  rw [verdict, verdict, h]

end Verdict

end Pending

end CFrontEnd
