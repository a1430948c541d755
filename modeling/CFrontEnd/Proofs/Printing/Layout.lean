import CFrontEnd.Proofs.Grammar
import CFrontEnd.Proofs.Lexer.Words

/-!
# Layouts of a Program

A layout is a way to write a program down: a list of words, and a text in which these words stand
apart. A tree has many layouts. They differ in the blanks, in parentheses that are not needed, in
zeros in front of an integer, in the digits of a float, and in how an `else` that holds a single
`if` is written.

An operand stands in a slot of some level. It is put in parentheses if its outermost operator binds
looser than that; the slot to the left of an operator has the level of the operator, the slot to its
right the next level, and the slot of a prefix operator takes no binary operator at all.

## Main definitions

* `Program.WellFormed`: the programs that can be written down.
* `Layout`: the words of a tree, for every choice.
* `Program.Printed`: the texts of a program.

## Main results

* `Program.exists_printed`: every well-formed program can be written down.
-/

namespace CFrontEnd

open Grammar

/-! ### Well-formed programs -/

/-- The text is a name that is not reserved: ASCII letters, digits and underscores, with no digit in
front. -/
def IsName (name : String) : Prop :=
  name ∉ keywords ∧ ∃ first rest, name.toList = first :: rest ∧
    Matcher.isNameStart first = true ∧ ∀ c ∈ rest, Matcher.isNamePart c = true

/-- The text spells the double with digits on both sides of a point. -/
def SpellsFloat (spelling : String) (value : Binary64) : Prop :=
  Numeral.binary64? spelling.toList = some value ∧ ∃ whole fraction,
    spelling.toList = whole ++ '.' :: fraction ∧ whole ≠ [] ∧ fraction ≠ [] ∧
      (∀ c ∈ whole, c.isDigit = true) ∧ ∀ c ∈ fraction, c.isDigit = true

/-- The literal can be written down: an integer without a sign, a float that has a spelling, or a
text of letters, digits and underscores, at least one. -/
def Literal.WellFormed : Literal → Prop
  | .int value => 0 ≤ value.toInt
  | .float value => ∃ spelling, SpellsFloat spelling value
  | .string body => body.toList ≠ [] ∧ ∀ c ∈ body.toList, Matcher.isStringPart c = true

/-- All names and literals of the expression can be written down. -/
def Expr.WellFormed : Expr → Prop
  | .constant literal => literal.WellFormed
  | .variable name => IsName name
  | .unary _ operand => operand.WellFormed
  | .binary _ left right => left.WellFormed ∧ right.WellFormed

mutual

/-- All types, names and literals of the statement can be written down. -/
def Stmt.WellFormed : Stmt → Prop
  | .assignment _ target value => IsName target ∧ value.WellFormed
  | .declaration typeName name none => typeName ∈ typeNames ∧ IsName name
  | .declaration typeName name (some initializer) =>
    typeName ∈ typeNames ∧ IsName name ∧ initializer.WellFormed
  | .ret value => value.WellFormed
  | .ifThen condition body => condition.WellFormed ∧ Stmt.AllWellFormed body
  | .ifElse condition body elseBody =>
    condition.WellFormed ∧ Stmt.AllWellFormed body ∧ Stmt.AllWellFormed elseBody

/-- All statements are well formed. -/
def Stmt.AllWellFormed : List Stmt → Prop
  | [] => True
  | statement :: statements => statement.WellFormed ∧ Stmt.AllWellFormed statements

end

/-- The type and the name of the parameter can be written down. -/
def Argument.WellFormed (argument : Argument) : Prop :=
  argument.typeName ∈ typeNames ∧ IsName argument.name

/-- All types, names and literals of the function can be written down. -/
def FunctionDef.WellFormed (function : FunctionDef) : Prop :=
  function.returnType ∈ typeNames ∧ IsName function.name ∧
    (∀ argument ∈ function.arguments, argument.WellFormed) ∧ Stmt.AllWellFormed function.body

/-- All types, names and literals of the program can be written down. -/
def Program.WellFormed (program : Program) : Prop :=
  ∀ function ∈ program.functions, function.WellFormed

/-- The tree of the nonterminal is well formed. -/
def Grammar.Nonterminal.WellFormed : (symbol : Nonterminal) → symbol.Tree → Prop
  | program => Program.WellFormed
  | functions => fun functions => ∀ function ∈ functions, function.WellFormed
  | function => FunctionDef.WellFormed
  | arguments => fun arguments => ∀ argument ∈ arguments, argument.WellFormed
  | block | stmts => Stmt.AllWellFormed
  | stmt | conditional => Stmt.WellFormed
  | operations _ => fun operations => ∀ operation ∈ operations, operation.2.WellFormed
  | level _ | unary | primary => Expr.WellFormed

/-! ### The words of a tree -/

namespace Word

/-- A reserved word. -/
def reserved (spelling : String) : Word :=
  { kind := .keyword, lexeme := spelling }

/-- A name. -/
def name (name : String) : Word :=
  { kind := .identifier, lexeme := name }

def openBrace : Word :=
  { kind := .openBrace, lexeme := "\x7b" }

def closeBrace : Word :=
  { kind := .closeBrace, lexeme := "\x7d" }

def openParen : Word :=
  { kind := .openParen, lexeme := "(" }

def closeParen : Word :=
  { kind := .closeParen, lexeme := ")" }

def semicolon : Word :=
  { kind := .semicolon, lexeme := ";" }

/-- A prefix operator. -/
def unary (operator : UnaryOp) : Word :=
  { kind := operator.kind, lexeme := operator.spelling }

/-- An operator between two operands. -/
def binary (operator : BinaryOp) : Word :=
  { kind := operator.kind, lexeme := operator.spelling }

/-- The operator of an assignment. -/
def assign (operator : AssignOp) : Word :=
  { kind := .assignmentOperator, lexeme := operator.spelling }

/-- The digits of an integer with some zeros in front. -/
def integer (zeros : Nat) (value : Int64) : Word :=
  { kind := .integer
    lexeme := String.ofList (List.replicate zeros '0' ++ Nat.toDigits 10 value.toInt.toNat) }

/-- A float in some spelling. -/
def float (spelling : String) : Word :=
  { kind := .float, lexeme := spelling }

/-- A text between quotes. -/
def string (body : String) : Word :=
  { kind := .string, lexeme := String.ofList ('"' :: (body.toList ++ ['"'])) }

end Word

/-- The words are a way to write the tree down. An expression of `level n` stands in a slot for
operators of that level or tighter. -/
inductive Layout : (symbol : Nonterminal) → symbol.Tree → List Word → Prop
  | program {program : Program} {words : List Word} :
      Layout .functions program.functions words → Layout .program program words
  | noFunction : Layout .functions [] []
  | functions {function : FunctionDef} {functions : List FunctionDef} {first rest : List Word} :
      Layout .function function first → Layout .functions functions rest →
      Layout .functions (function :: functions) (first ++ rest)
  | function {function : FunctionDef} {parameters body : List Word} :
      Layout .arguments function.arguments parameters → Layout .block function.body body →
      Layout .function function
        (.reserved function.returnType :: .name function.name :: .openParen ::
          (parameters ++ .closeParen :: body))
  | noArgument : Layout .arguments [] []
  | arguments {argument : Argument} {arguments : List Argument} {rest : List Word} :
      Layout .arguments arguments rest →
      Layout .arguments (argument :: arguments)
        (.reserved argument.typeName :: .name argument.name :: rest)
  | block {statements : List Stmt} {inner : List Word} :
      Layout .stmts statements inner →
      Layout .block statements (.openBrace :: (inner ++ [.closeBrace]))
  | noStmt : Layout .stmts [] []
  | stmts {statement : Stmt} {statements : List Stmt} {first rest : List Word} :
      Layout .stmt statement first → Layout .stmts statements rest →
      Layout .stmts (statement :: statements) (first ++ rest)
  | ret {value : Expr} {inner : List Word} :
      Layout .expr value inner →
      Layout .stmt (.ret value) (.reserved "return" :: (inner ++ [.semicolon]))
  | assignment {operator : AssignOp} {target : String} {value : Expr} {inner : List Word} :
      Layout .expr value inner →
      Layout .stmt (.assignment operator target value)
        (.name target :: .assign operator :: (inner ++ [.semicolon]))
  | declaration {typeName name : String} :
      Layout .stmt (.declaration typeName name none)
        [.reserved typeName, .name name, .semicolon]
  | initialized {typeName name : String} {value : Expr} {inner : List Word} :
      Layout .expr value inner →
      Layout .stmt (.declaration typeName name (some value))
        (.reserved typeName :: .name name :: .assign .assign :: (inner ++ [.semicolon]))
  | conditional {statement : Stmt} {words : List Word} :
      Layout .conditional statement words → Layout .stmt statement words
  | ifThen {condition : Expr} {statements : List Stmt} {inner body : List Word} :
      Layout .expr condition inner → Layout .block statements body →
      Layout .conditional (.ifThen condition statements)
        (.reserved "if" :: .openParen :: (inner ++ .closeParen :: body))
  | ifElse {condition : Expr} {statements elseStatements : List Stmt}
      {inner body rest : List Word} :
      Layout .expr condition inner → Layout .block statements body →
      Layout .block elseStatements rest →
      Layout .conditional (.ifElse condition statements elseStatements)
        (.reserved "if" :: .openParen ::
          (inner ++ .closeParen :: (body ++ .reserved "else" :: rest)))
  -- only a body that is one statement has this form, and `ifElse` is left for it as well
  | elseIf {condition : Expr} {statements : List Stmt} {statement : Stmt}
      {inner body rest : List Word} :
      Layout .expr condition inner → Layout .block statements body →
      Layout .conditional statement rest →
      Layout .conditional (.ifElse condition statements [statement])
        (.reserved "if" :: .openParen ::
          (inner ++ .closeParen :: (body ++ .reserved "else" :: rest)))
  | integer {n : Nat} (zeros : Nat) {value : Int64} :
      Layout (.level n) (.constant (.int value)) [.integer zeros value]
  | float {n : Nat} {spelling : String} {value : Binary64} :
      SpellsFloat spelling value →
      Layout (.level n) (.constant (.float value)) [.float spelling]
  | string {n : Nat} {body : String} :
      Layout (.level n) (.constant (.string body)) [.string body]
  | name {n : Nat} {name : String} : Layout (.level n) (.variable name) [.name name]
  -- no binary operator binds at level 7, so it has to stand in parentheses there
  | unary {n : Nat} {operator : UnaryOp} {operand : Expr} {inner : List Word} :
      Layout (.level 7) operand inner →
      Layout (.level n) (.unary operator operand) (.unary operator :: inner)
  | binary {n : Nat} {operator : BinaryOp} {left right : Expr} {first rest : List Word} :
      n ≤ operator.level → Layout (.level operator.level) left first →
      Layout (.level (operator.level + 1)) right rest →
      Layout (.level n) (.binary operator left right) (first ++ .binary operator :: rest)
  -- needed or not, and as often as wanted
  | parentheses {n : Nat} {value : Expr} {inner : List Word} :
      Layout .expr value inner →
      Layout (.level n) value (.openParen :: (inner ++ [.closeParen]))

/-- The text is a way to write the program down. -/
def Program.Printed (program : Program) (text : String) : Prop :=
  ∃ words, Layout .program program words ∧ Spaced words text.toList

/-! ### Every well-formed tree has a layout -/

theorem BinaryOp.one_le_level (operator : BinaryOp) : 1 ≤ operator.level := by
  cases operator <;> decide

/-- An expression can be written in every slot. -/
theorem exists_layout_expr :
    (value : Expr) → value.WellFormed → (n : Nat) → ∃ words, Layout (.level n) value words
  | .constant (.int value), _, _ => ⟨_, .integer 0⟩
  | .constant (.float value), h, _ => by
    obtain ⟨spelling, hspells⟩ := h
    exact ⟨_, .float hspells⟩
  | .constant (.string body), _, _ => ⟨_, .string⟩
  | .variable name, _, _ => ⟨_, .name⟩
  | .unary operator operand, h, _ => by
    obtain ⟨inner, hinner⟩ := exists_layout_expr operand h 7
    exact ⟨_, .unary hinner⟩
  | .binary operator left right, h, _ => by
    obtain ⟨first, hfirst⟩ := exists_layout_expr left h.1 operator.level
    obtain ⟨rest, hrest⟩ := exists_layout_expr right h.2 (operator.level + 1)
    -- parentheses make room for the operator in a slot of any level
    exact ⟨_, .parentheses (.binary operator.one_le_level hfirst hrest)⟩

mutual

/-- A statement can be written down. -/
theorem exists_layout_stmt :
    (statement : Stmt) → statement.WellFormed → ∃ words, Layout .stmt statement words
  | .assignment operator target value, h => by
    obtain ⟨inner, hinner⟩ := exists_layout_expr value h.2 1
    exact ⟨_, .assignment hinner⟩
  | .declaration typeName name none, _ => ⟨_, .declaration⟩
  | .declaration typeName name (some initializer), h => by
    obtain ⟨inner, hinner⟩ := exists_layout_expr initializer h.2.2 1
    exact ⟨_, .initialized hinner⟩
  | .ret value, h => by
    obtain ⟨inner, hinner⟩ := exists_layout_expr value h 1
    exact ⟨_, .ret hinner⟩
  | .ifThen condition body, h => by
    obtain ⟨inner, hinner⟩ := exists_layout_expr condition h.1 1
    obtain ⟨words, hwords⟩ := exists_layout_stmts body h.2
    exact ⟨_, .conditional (.ifThen hinner (.block hwords))⟩
  | .ifElse condition body elseBody, h => by
    obtain ⟨inner, hinner⟩ := exists_layout_expr condition h.1 1
    obtain ⟨words, hwords⟩ := exists_layout_stmts body h.2.1
    obtain ⟨elseWords, helse⟩ := exists_layout_stmts elseBody h.2.2
    exact ⟨_, .conditional (.ifElse hinner (.block hwords) (.block helse))⟩

/-- Statements can be written down one after the other. -/
theorem exists_layout_stmts :
    (statements : List Stmt) → Stmt.AllWellFormed statements →
      ∃ words, Layout .stmts statements words
  | [], _ => ⟨_, .noStmt⟩
  | statement :: statements, h => by
    obtain ⟨first, hfirst⟩ := exists_layout_stmt statement h.1
    obtain ⟨rest, hrest⟩ := exists_layout_stmts statements h.2
    exact ⟨_, .stmts hfirst hrest⟩

end

theorem exists_layout_arguments (arguments : List Argument) :
    ∃ words, Layout .arguments arguments words := by
  induction arguments with
  | nil => exact ⟨_, .noArgument⟩
  | cons argument arguments ih =>
    obtain ⟨rest, hrest⟩ := ih
    exact ⟨_, .arguments hrest⟩

theorem exists_layout_functions {functions : List FunctionDef}
    (h : ∀ function ∈ functions, function.WellFormed) :
    ∃ words, Layout .functions functions words := by
  induction functions with
  | nil => exact ⟨_, .noFunction⟩
  | cons function functions ih =>
    obtain ⟨rest, hrest⟩ := ih fun other hmem => h other (List.mem_cons_of_mem _ hmem)
    obtain ⟨-, -, -, hstatements⟩ := h function List.mem_cons_self
    obtain ⟨parameters, hparameters⟩ := exists_layout_arguments function.arguments
    obtain ⟨inner, hinner⟩ := exists_layout_stmts function.body hstatements
    exact ⟨_, .functions (.function hparameters (.block hinner)) hrest⟩

/-- Every well-formed program can be written down. -/
theorem Program.exists_printed {program : Program} (h : program.WellFormed) :
    ∃ text, program.Printed text := by
  obtain ⟨words, hwords⟩ := exists_layout_functions h
  obtain ⟨text, -, hspaced⟩ := exists_spaced words
  exact ⟨String.ofList text, words, .program hwords, by rwa [String.toList_ofList]⟩

end CFrontEnd
