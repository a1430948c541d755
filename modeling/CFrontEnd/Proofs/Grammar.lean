import CFrontEnd.Tree

/-!
# The Grammar

The phrases of the language and their trees. A nonterminal derives a list of tokens together with
the tree that the tokens stand for; every rule takes the whole list apart, and none looks at what
follows it. Tokens may be made by hand, so a rule asks for the kind of a token, or for its kind and
its text, as far as the phrase depends on them.

## Main definitions

* `BinaryOp.level`: how tightly an operator binds.
* `Derives`: the phrases of each nonterminal, with their trees.

## Main results

* `Derives.of_primary`: a primary expression is an expression of every level.
-/

namespace CFrontEnd

/-- How tightly an operator binds: 1 is the loosest level, 6 the tightest. -/
def BinaryOp.level : BinaryOp → Nat
  | .or => 1
  | .and => 2
  | .equal | .notEqual => 3
  | .less | .greater | .lessEqual | .greaterEqual => 4
  | .add | .sub => 5
  | .mul | .div | .rem => 6

namespace Grammar

/-- The kinds of phrases. -/
inductive Nonterminal where
  /-- A whole program. -/
  | program
  /-- Functions, one after the other. -/
  | functions
  | function
  /-- Parameters, one after the other, without commas. -/
  | arguments
  /-- Statements between braces. -/
  | block
  /-- Statements, one after the other. -/
  | stmts
  | stmt
  /-- A statement that starts with `if`. -/
  | conditional
  /-- An expression whose outermost operators bind at a level or tighter. Past the last level
  stand the prefix operators. -/
  | level (n : Nat)
  /-- Operators of one level, each with its right operand. -/
  | operations (n : Nat)
  | unary
  | primary

namespace Nonterminal

/-- Any expression. -/
abbrev expr : Nonterminal :=
  .level 1

/-- What a phrase of the nonterminal stands for. -/
abbrev Tree : Nonterminal → Type
  | program => Program
  | functions => List FunctionDef
  | function => FunctionDef
  | arguments => List Argument
  | block | stmts => List Stmt
  | stmt | conditional => Stmt
  | operations _ => List (BinaryOp × Expr)
  | level _ | unary | primary => Expr

end Nonterminal

/-- An expression and the operations to its right, grouped to the left. -/
def chain (left : Expr) (operations : List (BinaryOp × Expr)) : Expr :=
  operations.foldl (fun left operation => .binary operation.1 left operation.2) left

/-- The tokens form a phrase of the nonterminal with the given tree. -/
inductive Derives : (symbol : Nonterminal) → List Token → symbol.Tree → Prop
  | program {tokens : List Token} {functions : List FunctionDef} :
      Derives .functions tokens functions → Derives .program tokens { functions }
  | noFunction : Derives .functions [] []
  | functions {first rest : List Token} {function : FunctionDef}
      {functions : List FunctionDef} :
      Derives .function first function → Derives .functions rest functions →
      Derives .functions (first ++ rest) (function :: functions)
  | function {typeName name opening closing : Token} {parameters body : List Token}
      {arguments : List Argument} {statements : List Stmt} :
      typeName.isTypeName = true → name.kind = .identifier → opening.kind = .openParen →
      Derives .arguments parameters arguments → closing.kind = .closeParen →
      Derives .block body statements →
      Derives .function (typeName :: name :: opening :: (parameters ++ closing :: body))
        { returnType := typeName.lexeme, name := name.lexeme, arguments, body := statements }
  | noArgument : Derives .arguments [] []
  | arguments {typeName name : Token} {rest : List Token} {arguments : List Argument} :
      typeName.isTypeName = true → name.kind = .identifier → Derives .arguments rest arguments →
      Derives .arguments (typeName :: name :: rest)
        ({ typeName := typeName.lexeme, name := name.lexeme } :: arguments)
  | block {opening closing : Token} {inner : List Token} {statements : List Stmt} :
      opening.kind = .openBrace → Derives .stmts inner statements → closing.kind = .closeBrace →
      Derives .block (opening :: (inner ++ [closing])) statements
  | noStmt : Derives .stmts [] []
  | stmts {first rest : List Token} {statement : Stmt} {statements : List Stmt} :
      Derives .stmt first statement → Derives .stmts rest statements →
      Derives .stmts (first ++ rest) (statement :: statements)
  | ret {word semicolon : Token} {inner : List Token} {value : Expr} :
      word.isKeyword "return" = true → Derives .expr inner value → semicolon.kind = .semicolon →
      Derives .stmt (word :: (inner ++ [semicolon])) (.ret value)
  | assignment {name sign semicolon : Token} {operator : AssignOp} {inner : List Token}
      {value : Expr} :
      name.kind = .identifier → sign.is .assignmentOperator operator.spelling = true →
      Derives .expr inner value → semicolon.kind = .semicolon →
      Derives .stmt (name :: sign :: (inner ++ [semicolon]))
        (.assignment operator name.lexeme value)
  | declaration {typeName name semicolon : Token} :
      typeName.isTypeName = true → name.kind = .identifier → semicolon.kind = .semicolon →
      Derives .stmt [typeName, name, semicolon]
        (.declaration typeName.lexeme name.lexeme none)
  | initialized {typeName name sign semicolon : Token} {inner : List Token} {value : Expr} :
      typeName.isTypeName = true → name.kind = .identifier →
      sign.is .assignmentOperator "=" = true → Derives .expr inner value →
      semicolon.kind = .semicolon →
      Derives .stmt (typeName :: name :: sign :: (inner ++ [semicolon]))
        (.declaration typeName.lexeme name.lexeme (some value))
  | conditional {tokens : List Token} {statement : Stmt} :
      Derives .conditional tokens statement → Derives .stmt tokens statement
  | ifThen {word opening closing : Token} {inner body : List Token} {condition : Expr}
      {statements : List Stmt} :
      word.isKeyword "if" = true → opening.kind = .openParen → Derives .expr inner condition →
      closing.kind = .closeParen → Derives .block body statements →
      Derives .conditional (word :: opening :: (inner ++ closing :: body))
        (.ifThen condition statements)
  | ifElse {word opening closing alternative : Token} {inner body rest : List Token}
      {condition : Expr} {statements elseStatements : List Stmt} :
      word.isKeyword "if" = true → opening.kind = .openParen → Derives .expr inner condition →
      closing.kind = .closeParen → Derives .block body statements →
      alternative.isKeyword "else" = true → Derives .block rest elseStatements →
      Derives .conditional (word :: opening :: (inner ++ closing :: (body ++ alternative :: rest)))
        (.ifElse condition statements elseStatements)
  | elseIf {word opening closing alternative : Token} {inner body rest : List Token}
      {condition : Expr} {statements : List Stmt} {statement : Stmt} :
      word.isKeyword "if" = true → opening.kind = .openParen → Derives .expr inner condition →
      closing.kind = .closeParen → Derives .block body statements →
      alternative.isKeyword "else" = true → Derives .conditional rest statement →
      Derives .conditional (word :: opening :: (inner ++ closing :: (body ++ alternative :: rest)))
        (.ifElse condition statements [statement])
  | level {n : Nat} {first rest : List Token} {left : Expr}
      {operations : List (BinaryOp × Expr)} :
      n ≤ 6 → Derives (.level (n + 1)) first left → Derives (.operations n) rest operations →
      Derives (.level n) (first ++ rest) (chain left operations)
  | tightest {tokens : List Token} {operand : Expr} :
      Derives .unary tokens operand → Derives (.level 7) tokens operand
  | noOperation {n : Nat} : Derives (.operations n) [] []
  | operations {n : Nat} {sign : Token} {operator : BinaryOp} {operand rest : List Token}
      {right : Expr} {operations : List (BinaryOp × Expr)} :
      sign.is operator.kind operator.spelling = true → operator.level = n →
      Derives (.level (n + 1)) operand right → Derives (.operations n) rest operations →
      Derives (.operations n) (sign :: (operand ++ rest)) ((operator, right) :: operations)
  | unary {sign : Token} {operator : UnaryOp} {rest : List Token} {operand : Expr} :
      sign.is operator.kind operator.spelling = true → Derives .unary rest operand →
      Derives .unary (sign :: rest) (.unary operator operand)
  | primary {tokens : List Token} {operand : Expr} :
      Derives .primary tokens operand → Derives .unary tokens operand
  | integer {token : Token} {value : Int64} :
      token.kind = .integer → token.value = some (.int value) →
      Derives .primary [token] (.constant (.int value))
  | float {token : Token} {value : Binary64} :
      token.kind = .float → token.value = some (.float value) →
      Derives .primary [token] (.constant (.float value))
  | string {token : Token} {body : String} :
      token.kind = .string → token.stringBody? = some body →
      Derives .primary [token] (.constant (.string body))
  | name {token : Token} :
      token.kind = .identifier → Derives .primary [token] (.variable token.lexeme)
  | parentheses {opening closing : Token} {inner : List Token} {value : Expr} :
      opening.kind = .openParen → Derives .expr inner value → closing.kind = .closeParen →
      Derives .primary (opening :: (inner ++ [closing])) value

/-! ### Levels -/

/-- An expression that binds tightly is one that binds at least as loosely. -/
theorem Derives.loosen {n k : Nat} {tokens : List Token} {value : Expr}
    (h : Derives (.level (n + k)) tokens value) (hle : n + k ≤ 7) :
    Derives (.level n) tokens value := by
  induction k with
  | zero => exact h
  | succ k ih =>
    refine ih ?_ (by omega)
    -- without operations, a phrase of the next level is one of this level
    have hlevel := Derives.level (n := n + k) (by omega) h .noOperation
    rwa [List.append_nil] at hlevel

/-- A prefix operator or something tighter can be taken as an expression of any level. -/
theorem Derives.of_unary {n : Nat} (hle : n ≤ 7) {tokens : List Token} {value : Expr}
    (h : Derives .unary tokens value) : Derives (.level n) tokens value := by
  obtain ⟨k, hk⟩ := Nat.exists_eq_add_of_le hle
  have htightest := Derives.tightest h
  rw [hk] at htightest
  exact htightest.loosen (Nat.le_of_eq hk.symm)

/-- A primary expression can be taken as an expression of any level. -/
theorem Derives.of_primary {n : Nat} (hle : n ≤ 7) {tokens : List Token} {value : Expr}
    (h : Derives .primary tokens value) : Derives (.level n) tokens value :=
  .of_unary hle (.primary h)

end Grammar

end CFrontEnd
