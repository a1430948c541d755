import CFrontEnd.Parser.Cursor

/-!
# Expressions

Binary operators come in six levels, from the loosest to the tightest. An expression of a level is
a sequence of expressions of the next level with operators of the level between them, grouped to
the left. Tighter than all levels are the prefix operators, and below them stand literals, names
and expressions in parentheses.
-/

namespace CFrontEnd

/-- The operators of each level, from the loosest level to the tightest. -/
def BinaryOp.levels : List (List BinaryOp) :=
  [[.or], [.and], [.equal, .notEqual], [.less, .greater, .lessEqual, .greaterEqual],
    [.add, .sub], [.mul, .div, .rem]]

/-- The operator of a level that a token spells. -/
def BinaryOp.among? (operators : List BinaryOp) (token : Token) : Option BinaryOp :=
  (BinaryOp.ofToken? token).filter operators.contains

/-- The literal that a numeric or string token denotes. A number must have a value, and the text
of a string a first and a last byte. -/
def Token.literal (token : Token) : Except (Failure ParseError) Literal :=
  if token.kind = .string then
    match token.stringBody? with
    | some body => .ok (.string body)
    | none => .error .abort
  else
    match token.value with
    | some (.int value) => .ok (.int value)
    | some (.float value) => .ok (.float value)
    | none => .error (.error (.invalidLiteral token.lexeme token.span))

namespace Parser

mutual

/-- Takes an expression. -/
def takeExpr (tokens : List Token) : Takes tokens Expr :=
  takeLevels BinaryOp.levels tokens
termination_by (tokens.length, BinaryOp.levels.length + 3)

/-- Takes an expression with operators of the given levels, loosest level first. -/
def takeLevels (levels : List (List BinaryOp)) (tokens : List Token) :
    Takes tokens Expr :=
  match levels with
  | [] => takeUnary tokens
  | operators :: tighter =>
    (takeLevels tighter tokens).andThenAtMost fun left rest _ =>
    takeOperands operators tighter left rest
termination_by (tokens.length, levels.length + 2)

/-- Takes operators of one level, each with an operand of the tighter levels, and groups them to
the left of what was taken before. -/
def takeOperands (operators : List BinaryOp) (tighter : List (List BinaryOp)) (left : Expr)
    (tokens : List Token) : MayTake tokens Expr :=
  match tokens with
  | [] => .nothing left []
  | token :: rest =>
    match BinaryOp.among? operators token with
    | none => .nothing left (token :: rest)
    | some operator =>
      ((takeLevels tighter rest).andThenAtMost fun right rest' _ =>
        takeOperands operators tighter (.binary operator left right) rest').behind
          (Nat.le_add_right rest.length 2)
termination_by (tokens.length, 0)

/-- Takes prefix operators and their operand. -/
def takeUnary (tokens : List Token) : Takes tokens Expr :=
  match tokens with
  | [] => .unexpected .expression []
  | token :: rest =>
    match UnaryOp.ofToken? token with
    | none => takePrimary (token :: rest)
    | some operator =>
      ((takeUnary rest).mapValue (.unary operator)).behind (Nat.le_succ rest.length)
termination_by (tokens.length, 1)

/-- Takes a literal, a name, or an expression in parentheses. -/
def takePrimary (tokens : List Token) : Takes tokens Expr :=
  match tokens with
  | [] => .unexpected .expression []
  | token :: rest =>
    match token.kind with
    | .integer | .float | .string =>
      match token.literal with
      | .ok literal => .first (.constant literal) token rest
      | .error failure => .halted failure (token :: rest)
    | .identifier => .first (.variable token.lexeme) token rest
    | .openParen =>
      ((takeExpr rest).andThen fun expr rest' _ =>
        (takeKind .closeParen rest').mapValue fun _ => expr).behind (Nat.le_succ rest.length)
    | _ => .unexpected .expression (token :: rest)
termination_by (tokens.length, 0)

end

/-- The expression at the front of the tokens. -/
def expr (tokens : List Token) : Outcome Expr :=
  .ofTaken (takeExpr tokens)

end Parser

end CFrontEnd
