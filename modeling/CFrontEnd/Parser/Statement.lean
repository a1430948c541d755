import CFrontEnd.Parser.Expression

/-!
# Statements and Functions

The first token of a statement decides its form: `return`, `if`, a type name for a declaration or
a name for an assignment. Blocks are statements between braces. A function has a type name, a
name, parameters without commas between them, and a block.
-/

namespace CFrontEnd

namespace Parser

/-- Takes a `return` statement. -/
def takeReturn (tokens : List Token) : Takes tokens Stmt :=
  (takeLexeme .keyword "return" tokens).andThen fun _ rest _ =>
  (takeExpr rest).andThen fun value rest _ =>
  (takeKind .semicolon rest).mapValue fun _ => .ret value

/-- Takes an assignment. -/
def takeAssignment (tokens : List Token) : Takes tokens Stmt :=
  (takeName tokens).andThen fun target rest _ =>
  (takeAssignOp rest).andThen fun operator rest _ =>
  (takeExpr rest).andThen fun value rest _ =>
  (takeKind .semicolon rest).mapValue fun _ => .assignment operator target value

/-- Takes what follows the name of a declaration: a semicolon, or `=`, an expression and a
semicolon. -/
def takeInitializer (tokens : List Token) : Takes tokens (Option Expr) :=
  match takeKind .semicolon tokens with
  | .ok taken => .ok { taken with value := none }
  | .error _ =>
    (takeLexeme .assignmentOperator "=" tokens).andThen fun _ rest _ =>
    (takeExpr rest).andThen fun initializer rest _ =>
    (takeKind .semicolon rest).mapValue fun _ => some initializer

/-- Takes a declaration. -/
def takeDeclaration (tokens : List Token) : Takes tokens Stmt :=
  (takeTypeName tokens).andThen fun typeName rest _ =>
  (takeName rest).andThen fun name rest _ =>
  (takeInitializer rest).mapValue fun initializer => .declaration typeName name initializer

/-- The tokens start with the given reserved word. -/
def startsWith (word : String) (tokens : List Token) : Bool :=
  tokens.head?.any fun token => token.isKeyword word

/-- An `if` statement with or without an `else`. -/
def conditional (condition : Expr) (body : List Stmt) : Option (List Stmt) → Stmt
  | none => .ifThen condition body
  | some elseBody => .ifElse condition body elseBody

mutual

/-- Takes a statement. -/
def takeStmt (tokens : List Token) : Takes tokens Stmt :=
  match tokens.head? with
  | none => .unexpected .statement tokens
  | some first =>
    -- a type name is a reserved word too, but neither `return` nor `if` is a type name
    if first.isKeyword "return" then takeReturn tokens
    else if first.isKeyword "if" then takeIf tokens
    else if first.isTypeName then takeDeclaration tokens
    else if first.kind = .identifier then takeAssignment tokens
    else .unexpected .statement tokens
termination_by (tokens.length, 1)

/-- Takes an `if` statement. -/
def takeIf (tokens : List Token) : Takes tokens Stmt :=
  (takeLexeme .keyword "if" tokens).andThen fun _ rest _ =>
  (takeKind .openParen rest).andThen fun _ rest _ =>
  (takeExpr rest).andThen fun condition rest _ =>
  (takeKind .closeParen rest).andThen fun _ rest _ =>
  (takeBlock rest).andThenAtMost fun body rest _ =>
  (takeElse rest).mapValue (conditional condition body)
termination_by (tokens.length, 0)

/-- Takes the `else` of an `if` statement, if there is one. An `if` after it is the only statement
of the `else`. -/
def takeElse (tokens : List Token) : MayTake tokens (Option (List Stmt)) :=
  match takeLexeme .keyword "else" tokens with
  | .error _ => .nothing none tokens
  | .ok ⟨_, rest, suffix, shorter⟩ =>
    if startsWith "if" rest then
      ((takeIf rest).mapValue fun statement => some [statement]).within suffix
        (Nat.le_of_lt (Nat.lt_succ_of_lt shorter))
    else ((takeBlock rest).mapValue some).within suffix (Nat.le_of_lt (Nat.lt_succ_of_lt shorter))
termination_by (tokens.length, 0)

/-- Takes a block. -/
def takeBlock (tokens : List Token) : Takes tokens (List Stmt) :=
  (takeKind .openBrace tokens).andThen fun _ rest _ => takeStmts rest
termination_by (tokens.length, 0)

/-- Takes statements up to a closing brace, and the brace. -/
def takeStmts (tokens : List Token) : Takes tokens (List Stmt) :=
  match takeKind .closeBrace tokens with
  | .ok taken => .ok { taken with value := [] }
  | .error atEnd =>
    -- at the end of the tokens it is the brace that is missing, not a statement
    if tokens = [] then .error atEnd
    else
      (takeStmt tokens).andThen fun statement rest _ =>
      (takeStmts rest).mapValue fun statements => statement :: statements
termination_by (tokens.length, 2)

end

/-- Takes parameters up to a closing parenthesis, and the parenthesis. -/
def takeArguments (tokens : List Token) : Takes tokens (List Argument) :=
  match takeKind .closeParen tokens with
  | .ok taken => .ok { taken with value := [] }
  | .error _ =>
    (takeTypeName tokens).andThen fun typeName rest _ =>
    (takeName rest).andThen fun name rest _ =>
    (takeArguments rest).mapValue fun arguments => { typeName, name } :: arguments
termination_by tokens.length

/-- Takes a function. -/
def takeFunction (tokens : List Token) : Takes tokens FunctionDef :=
  (takeTypeName tokens).andThen fun returnType rest _ =>
  (takeName rest).andThen fun name rest _ =>
  (takeKind .openParen rest).andThen fun _ rest _ =>
  (takeArguments rest).andThen fun arguments rest _ =>
  (takeBlock rest).mapValue fun body => { returnType, name, arguments, body }

/-- The statement at the front of the tokens. -/
def stmt (tokens : List Token) : Outcome Stmt :=
  .ofTaken (takeStmt tokens)

/-- The block at the front of the tokens. -/
def block (tokens : List Token) : Outcome (List Stmt) :=
  .ofTaken (takeBlock tokens)

/-- The function at the front of the tokens. -/
def function (tokens : List Token) : Outcome FunctionDef :=
  .ofTaken (takeFunction tokens)

end Parser

end CFrontEnd
