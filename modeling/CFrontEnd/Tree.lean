import CFrontEnd.Token

/-!
# Syntax Trees

Literals, operators, expressions, statements, functions and programs. Parentheses leave no trace
in a tree, and an `else` that is followed by another `if` is an `else` with one statement.

Names and type names are kept as texts. Equality of trees (`Expr.same` and so on) compares floats
as values, so a tree with a literal that is not a number differs from itself.

* `UnaryOp.ofToken?_eq_some_iff`, `BinaryOp.ofToken?_eq_some_iff`,
  `AssignOp.ofToken?_eq_some_iff`: an operator is read from exactly the tokens of its kind and
  spelling.
-/

namespace CFrontEnd

/-- A literal value. -/
inductive Literal where
  | int (value : Int64)
  | float (value : Binary64)
  /-- The text between the quotes of a string. -/
  | string (body : String)
deriving DecidableEq

/-- The operators before an operand. -/
inductive UnaryOp where
  | not
  | plus
  | minus
deriving DecidableEq, Repr

/-- The operators between two operands. -/
inductive BinaryOp where
  | or
  | and
  | equal
  | notEqual
  | less
  | greater
  | lessEqual
  | greaterEqual
  | add
  | sub
  | mul
  | div
  | rem
deriving DecidableEq, Repr

/-- The operators of an assignment. -/
inductive AssignOp where
  | assign
  | add
  | sub
  | mul
  | div
  | rem
  | and
  | xor
  | or
  | shiftLeft
  | shiftRight
deriving DecidableEq, Repr

namespace UnaryOp

/-- The spelling of the operator. -/
def spelling : UnaryOp → String
  | .not => "!"
  | .plus => "+"
  | .minus => "-"

/-- The kind of the tokens that spell the operator. -/
def kind : UnaryOp → TokenKind
  | .not => .logicalOperator
  | .plus | .minus => .arithmeticOperator

/-- All unary operators. -/
def all : List UnaryOp :=
  [.not, .plus, .minus]

/-- The operator with the given spelling. -/
def ofSpelling? (spelling : String) : Option UnaryOp :=
  all.find? fun operator => operator.spelling == spelling

/-- The unary operator that a token spells. -/
def ofToken? (token : Token) : Option UnaryOp :=
  all.find? fun operator => token.is operator.kind operator.spelling

end UnaryOp

namespace BinaryOp

/-- The spelling of the operator. -/
def spelling : BinaryOp → String
  | .or => "||"
  | .and => "&&"
  | .equal => "=="
  | .notEqual => "!="
  | .less => "<"
  | .greater => ">"
  | .lessEqual => "<="
  | .greaterEqual => ">="
  | .add => "+"
  | .sub => "-"
  | .mul => "*"
  | .div => "/"
  | .rem => "%"

/-- The kind of the tokens that spell the operator. -/
def kind : BinaryOp → TokenKind
  | .or | .and => .logicalOperator
  | .equal | .notEqual | .less | .greater | .lessEqual | .greaterEqual => .relationalOperator
  | .add | .sub | .mul | .div | .rem => .arithmeticOperator

/-- All binary operators. -/
def all : List BinaryOp :=
  [.or, .and, .equal, .notEqual, .less, .greater, .lessEqual, .greaterEqual, .add, .sub, .mul,
    .div, .rem]

/-- The operator with the given spelling. -/
def ofSpelling? (spelling : String) : Option BinaryOp :=
  all.find? fun operator => operator.spelling == spelling

/-- The binary operator that a token spells. -/
def ofToken? (token : Token) : Option BinaryOp :=
  all.find? fun operator => token.is operator.kind operator.spelling

end BinaryOp

namespace AssignOp

/-- The spelling of the operator. -/
def spelling : AssignOp → String
  | .assign => "="
  | .add => "+="
  | .sub => "-="
  | .mul => "*="
  | .div => "/="
  | .rem => "%="
  | .and => "&="
  | .xor => "^="
  | .or => "|="
  | .shiftLeft => "<<="
  | .shiftRight => ">>="

/-- All assignment operators. -/
def all : List AssignOp :=
  [.assign, .add, .sub, .mul, .div, .rem, .and, .xor, .or, .shiftLeft, .shiftRight]

/-- The operator with the given spelling. -/
def ofSpelling? (spelling : String) : Option AssignOp :=
  all.find? fun operator => operator.spelling == spelling

/-- The assignment operator that a token spells. -/
def ofToken? (token : Token) : Option AssignOp :=
  all.find? fun operator => token.is .assignmentOperator operator.spelling

end AssignOp

/-- An expression. -/
inductive Expr where
  /-- A literal. -/
  | constant (literal : Literal)
  /-- The value of a variable. -/
  | variable (name : String)
  /-- An operator before an operand. -/
  | unary (operator : UnaryOp) (operand : Expr)
  /-- An operator between two operands. -/
  | binary (operator : BinaryOp) (left right : Expr)
deriving DecidableEq

/-- A statement. -/
inductive Stmt where
  /-- `target operator value;` -/
  | assignment (operator : AssignOp) (target : String) (value : Expr)
  /-- `typeName name;` or `typeName name = initializer;` -/
  | declaration (typeName name : String) (initializer : Option Expr)
  /-- `return value;` -/
  | ret (value : Expr)
  /-- `if (condition) body` without an `else`. -/
  | ifThen (condition : Expr) (body : List Stmt)
  /-- `if (condition) body else elseBody` -/
  | ifElse (condition : Expr) (body elseBody : List Stmt)

/-- A parameter of a function. -/
structure Argument where
  /-- The type of the parameter. -/
  typeName : String
  /-- The name of the parameter. -/
  name : String
deriving DecidableEq, Repr

/-- The definition of a function. -/
structure FunctionDef where
  /-- The type of the result. -/
  returnType : String
  /-- The name of the function. -/
  name : String
  /-- The parameters, in order. -/
  arguments : List Argument
  /-- The statements of the body. -/
  body : List Stmt

/-- A whole program. -/
structure Program where
  /-- The functions, in order. -/
  functions : List FunctionDef

/-! ### Equality of trees as values -/

/-- Equality of literals, floats compared as values. -/
def Literal.same : Literal → Literal → Bool
  | .int m, .int n => m == n
  | .float x, .float y => x.same y
  | .string s, .string t => s == t
  | _, _ => false

/-- Equality of expressions, floats compared as values. -/
def Expr.same : Expr → Expr → Bool
  | .constant l, .constant l' => l.same l'
  | .variable x, .variable x' => x == x'
  | .unary op e, .unary op' e' => op == op' && e.same e'
  | .binary op l r, .binary op' l' r' => op == op' && l.same l' && r.same r'
  | _, _ => false

mutual

/-- Equality of statements, floats compared as values. -/
def Stmt.same : Stmt → Stmt → Bool
  | .assignment op x e, .assignment op' x' e' => op == op' && x == x' && e.same e'
  | .declaration t x none, .declaration t' x' none => t == t' && x == x'
  | .declaration t x (some e), .declaration t' x' (some e') => t == t' && x == x' && e.same e'
  | .ret e, .ret e' => e.same e'
  | .ifThen c b, .ifThen c' b' => c.same c' && Stmt.sameAll b b'
  | .ifElse c b e, .ifElse c' b' e' => c.same c' && Stmt.sameAll b b' && Stmt.sameAll e e'
  | _, _ => false

/-- Equality of statement lists, statement by statement. -/
def Stmt.sameAll : List Stmt → List Stmt → Bool
  | [], [] => true
  | s :: ss, s' :: ss' => s.same s' && Stmt.sameAll ss ss'
  | _, _ => false

end

/-- Equality of functions, floats compared as values. -/
def FunctionDef.same (f g : FunctionDef) : Bool :=
  f.returnType == g.returnType && f.name == g.name && f.arguments == g.arguments &&
    Stmt.sameAll f.body g.body

/-- Equality of function lists, function by function. -/
def FunctionDef.sameAll : List FunctionDef → List FunctionDef → Bool
  | [], [] => true
  | f :: fs, g :: gs => f.same g && FunctionDef.sameAll fs gs
  | _, _ => false

/-- Equality of programs, floats compared as values. -/
def Program.same (p q : Program) : Bool :=
  FunctionDef.sameAll p.functions q.functions

/-! ### Operators and tokens -/

/-- A unary operator is read from exactly the tokens of its kind and spelling. -/
theorem UnaryOp.ofToken?_eq_some_iff {token : Token} {operator : UnaryOp} :
    ofToken? token = some operator ↔ token.is operator.kind operator.spelling = true := by
  constructor
  · intro h
    have hfound := List.find?_some (show all.find? _ = some operator from h)
    exact hfound
  · intro h
    obtain ⟨hkind, hlexeme⟩ : token.kind = operator.kind ∧ token.lexeme = operator.spelling := by
      simpa [Token.is] using h
    cases operator <;> simp [ofToken?, all, Token.is, hkind, hlexeme, kind, spelling]

/-- A binary operator is read from exactly the tokens of its kind and spelling. -/
theorem BinaryOp.ofToken?_eq_some_iff {token : Token} {operator : BinaryOp} :
    ofToken? token = some operator ↔ token.is operator.kind operator.spelling = true := by
  constructor
  · intro h
    have hfound := List.find?_some (show all.find? _ = some operator from h)
    exact hfound
  · intro h
    obtain ⟨hkind, hlexeme⟩ : token.kind = operator.kind ∧ token.lexeme = operator.spelling := by
      simpa [Token.is] using h
    cases operator <;> simp [ofToken?, all, Token.is, hkind, hlexeme, kind, spelling]

/-- An assignment operator is read from exactly the assignment tokens of its spelling. -/
theorem AssignOp.ofToken?_eq_some_iff {token : Token} {operator : AssignOp} :
    ofToken? token = some operator ↔
      token.is .assignmentOperator operator.spelling = true := by
  constructor
  · intro h
    have hfound := List.find?_some (show all.find? _ = some operator from h)
    exact hfound
  · intro h
    obtain ⟨hkind, hlexeme⟩ :
        token.kind = .assignmentOperator ∧ token.lexeme = operator.spelling := by
      simpa [Token.is] using h
    cases operator <;> simp [ofToken?, all, Token.is, hkind, hlexeme, spelling]

end CFrontEnd
