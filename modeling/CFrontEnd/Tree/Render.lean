import CFrontEnd.Decimal.Layout
import CFrontEnd.Tree

/-!
# Trees as Text

Every tree is written as an s-expression, such as `(BinaryOp + (Variable a) (Constant 2))`. Lists
stand in brackets with a comma and a space between their items. A missing initializer and a
missing `else` are left out.

`Program.dump` writes the functions on lines of their own.
-/

namespace CFrontEnd

/-- Items in brackets, a comma and a space between them. -/
def bracketed (items : List String) : String :=
  "[" ++ String.intercalate ", " items ++ "]"

/-- The text of a literal. The body of a string is written as it is. -/
def Literal.render : Literal → String
  | .int value => toString value.toInt
  | .float value => value.text
  | .string body => "\"" ++ body ++ "\""

/-- The text of an expression. -/
def Expr.render : Expr → String
  | .constant literal => "(Constant " ++ literal.render ++ ")"
  | .variable name => "(Variable " ++ name ++ ")"
  | .unary operator operand =>
    "(UnaryOp " ++ operator.spelling ++ " " ++ operand.render ++ ")"
  | .binary operator left right =>
    "(BinaryOp " ++ operator.spelling ++ " " ++ left.render ++ " " ++ right.render ++ ")"

mutual

/-- The text of a statement. -/
def Stmt.render : Stmt → String
  | .assignment operator target value =>
    "(AssignmentStatement " ++ operator.spelling ++ " " ++ target ++ " " ++ value.render ++ ")"
  | .declaration typeName name none => "(DeclarationStatement " ++ typeName ++ " " ++ name ++ ")"
  | .declaration typeName name (some initializer) =>
    "(DeclarationStatement " ++ typeName ++ " " ++ name ++ " " ++ initializer.render ++ ")"
  | .ret value => "(ReturnStatement " ++ value.render ++ ")"
  | .ifThen condition body =>
    "(IfStatement " ++ condition.render ++ " " ++ bracketed (Stmt.renderAll body) ++ ")"
  | .ifElse condition body elseBody =>
    "(IfStatement " ++ condition.render ++ " " ++ bracketed (Stmt.renderAll body) ++ " " ++
      bracketed (Stmt.renderAll elseBody) ++ ")"

/-- The texts of statements, in order. -/
def Stmt.renderAll : List Stmt → List String
  | [] => []
  | statement :: rest => statement.render :: Stmt.renderAll rest

end

/-- The text of a parameter. -/
def Argument.render (argument : Argument) : String :=
  "(Argument " ++ argument.typeName ++ " " ++ argument.name ++ ")"

/-- The text of a function. -/
def FunctionDef.render (function : FunctionDef) : String :=
  "(Function " ++ function.returnType ++ " " ++ function.name ++ " (" ++
    bracketed (function.arguments.map Argument.render) ++ ") " ++
    bracketed (Stmt.renderAll function.body) ++ ")"

/-- The text of a program. -/
def Program.render (program : Program) : String :=
  "(Program " ++ bracketed (program.functions.map FunctionDef.render) ++ ")"

/-- The program with every function on a line of its own. -/
def Program.dump (program : Program) : String :=
  "(Program\n" ++
    String.join (program.functions.map fun function => "  " ++ function.render ++ "\n") ++ ")\n"

/-! ### The text of each node -/

namespace Expr

@[simp]
theorem render_constant (literal : Literal) :
    (constant literal).render = "(Constant " ++ literal.render ++ ")" := rfl

@[simp]
theorem render_variable (name : String) :
    («variable» name).render = "(Variable " ++ name ++ ")" := rfl

@[simp]
theorem render_unary (operator : UnaryOp) (operand : Expr) :
    (unary operator operand).render =
      "(UnaryOp " ++ operator.spelling ++ " " ++ operand.render ++ ")" := rfl

@[simp]
theorem render_binary (operator : BinaryOp) (left right : Expr) :
    (binary operator left right).render =
      "(BinaryOp " ++ operator.spelling ++ " " ++ left.render ++ " " ++ right.render ++ ")" := rfl

end Expr

namespace Stmt

@[simp]
theorem render_assignment (operator : AssignOp) (target : String) (value : Expr) :
    (assignment operator target value).render =
      "(AssignmentStatement " ++ operator.spelling ++ " " ++ target ++ " " ++ value.render ++
        ")" := rfl

@[simp]
theorem render_declaration (typeName name : String) :
    (declaration typeName name none).render =
      "(DeclarationStatement " ++ typeName ++ " " ++ name ++ ")" := rfl

@[simp]
theorem render_initialized (typeName name : String) (initializer : Expr) :
    (declaration typeName name (some initializer)).render =
      "(DeclarationStatement " ++ typeName ++ " " ++ name ++ " " ++ initializer.render ++
        ")" := rfl

@[simp]
theorem render_ret (value : Expr) :
    (ret value).render = "(ReturnStatement " ++ value.render ++ ")" := rfl

@[simp]
theorem render_ifThen (condition : Expr) (body : List Stmt) :
    (ifThen condition body).render =
      "(IfStatement " ++ condition.render ++ " " ++ bracketed (renderAll body) ++ ")" := rfl

@[simp]
theorem render_ifElse (condition : Expr) (body elseBody : List Stmt) :
    (ifElse condition body elseBody).render =
      "(IfStatement " ++ condition.render ++ " " ++ bracketed (renderAll body) ++ " " ++
        bracketed (renderAll elseBody) ++ ")" := rfl

end Stmt

theorem Argument.render_eq (argument : Argument) :
    argument.render = "(Argument " ++ argument.typeName ++ " " ++ argument.name ++ ")" := rfl

theorem FunctionDef.render_eq (function : FunctionDef) :
    function.render = "(Function " ++ function.returnType ++ " " ++ function.name ++ " (" ++
      bracketed (function.arguments.map Argument.render) ++ ") " ++
      bracketed (Stmt.renderAll function.body) ++ ")" := rfl

/-- The texts of statements, one by one. -/
theorem Stmt.renderAll_eq_map (statements : List Stmt) :
    Stmt.renderAll statements = statements.map Stmt.render := by
  induction statements with
  | nil => rfl
  | cons statement rest ih => simp [Stmt.renderAll, ih]

end CFrontEnd
