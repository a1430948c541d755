import CFrontEnd.Event
import CFrontEnd.Tree.Render

/-!
# Visiting Trees

A visitor carries a state through a tree. At every node it first acts on entering, then visits
what the node contains, unless it stops at nodes of that class, and last acts on leaving. Functions
and statements come in order; an `if` has its condition, then its body, then its `else`; a binary
operator has its left operand before its right one. Parameters are not visited.

* `Node.trace`: the entries and exits of a visit that stops at given classes of nodes.
* `Node.variables`: the names of the variables in expressions.
* `Node.counts`: the numbers of nodes.
-/

namespace CFrontEnd

/-- The classes of nodes. -/
inductive NodeClass where
  | program
  | function
  | stmt
  | expr
deriving DecidableEq, Repr

/-- The name of a class of nodes. -/
def NodeClass.name : NodeClass → String
  | .program => "program"
  | .function => "function"
  | .stmt => "stmt"
  | .expr => "expr"

/-- The class with the given name. -/
def NodeClass.ofName? (name : String) : Option NodeClass :=
  [NodeClass.program, .function, .stmt, .expr].find? fun nodeClass => nodeClass.name == name

/-- A node of a syntax tree. -/
inductive Node where
  | program (program : Program)
  | function (function : FunctionDef)
  | stmt (statement : Stmt)
  | expr (expression : Expr)

/-- The class of a node. -/
def Node.nodeClass : Node → NodeClass
  | .program _ => .program
  | .function _ => .function
  | .stmt _ => .stmt
  | .expr _ => .expr

/-- How a state changes during a visit. -/
structure Visitor (σ : Type) where
  /-- The change on entering a node. -/
  enter : Node → σ → σ
  /-- The change on leaving a node of a class. -/
  leave : NodeClass → σ → σ
  /-- What nodes of this class contain is visited. -/
  descends : NodeClass → Bool

namespace Visitor

variable {σ : Type}

/-- The visit of a node whose contents are visited by `contents`. -/
def around (visitor : Visitor σ) (node : Node) (contents : σ → σ) (state : σ) : σ :=
  -- a class that is not descended into is still entered and left
  let entered := visitor.enter node state
  visitor.leave node.nodeClass
    (if visitor.descends node.nodeClass then contents entered else entered)

end Visitor

section

variable {σ : Type}

/-- The visit of an expression. -/
def Expr.visit (visitor : Visitor σ) : Expr → σ → σ
  | .constant literal => visitor.around (.expr (.constant literal)) id
  | .variable name => visitor.around (.expr (.variable name)) id
  | .unary operator operand =>
    visitor.around (.expr (.unary operator operand)) (operand.visit visitor)
  | .binary operator left right =>
    visitor.around (.expr (.binary operator left right)) fun state =>
      right.visit visitor (left.visit visitor state)

mutual

/-- The visit of a statement. -/
def Stmt.visit (visitor : Visitor σ) : Stmt → σ → σ
  | .assignment operator target value =>
    visitor.around (.stmt (.assignment operator target value)) (value.visit visitor)
  | .declaration typeName name none =>
    visitor.around (.stmt (.declaration typeName name none)) id
  | .declaration typeName name (some initializer) =>
    visitor.around (.stmt (.declaration typeName name (some initializer)))
      (initializer.visit visitor)
  | .ret value => visitor.around (.stmt (.ret value)) (value.visit visitor)
  | .ifThen condition body =>
    visitor.around (.stmt (.ifThen condition body)) fun state =>
      Stmt.visitAll visitor body (condition.visit visitor state)
  | .ifElse condition body elseBody =>
    visitor.around (.stmt (.ifElse condition body elseBody)) fun state =>
      Stmt.visitAll visitor elseBody
        (Stmt.visitAll visitor body (condition.visit visitor state))

/-- The visit of statements, in order. -/
def Stmt.visitAll (visitor : Visitor σ) : List Stmt → σ → σ
  | [], state => state
  | statement :: rest, state => Stmt.visitAll visitor rest (statement.visit visitor state)

end

/-- The visit of a function. -/
def FunctionDef.visit (visitor : Visitor σ) (function : FunctionDef) : σ → σ :=
  visitor.around (.function function) (Stmt.visitAll visitor function.body)

/-- The visit of a program. -/
def Program.visit (visitor : Visitor σ) (program : Program) : σ → σ :=
  visitor.around (.program program) fun state =>
    program.functions.foldl (fun state function => function.visit visitor state) state

/-- The visit of a tree from any of its nodes. -/
def Node.visit (visitor : Visitor σ) : Node → σ → σ
  | .program p => p.visit visitor
  | .function f => f.visit visitor
  | .stmt s => s.visit visitor
  | .expr e => e.visit visitor

end

/-! ### Visitors -/

/-- A step of a visit. -/
inductive Step where
  | enter (node : Node)
  | leave (nodeClass : NodeClass)

/-- What a statement shows of itself on entering. -/
def Stmt.heading : Stmt → String
  | .assignment operator target _ => "assignment " ++ operator.spelling ++ " " ++ target
  | .declaration typeName name _ => "declaration " ++ typeName ++ " " ++ name
  | .ret _ => "return"
  | .ifThen .. | .ifElse .. => "if"

/-- What an expression shows of itself on entering. -/
def Expr.heading : Expr → String
  | .constant literal => "constant " ++ literal.render
  | .variable name => "variable " ++ name
  | .unary operator _ => "unary " ++ operator.spelling
  | .binary operator _ _ => "binary " ++ operator.spelling

/-- What a node shows of itself on entering. -/
def Node.heading : Node → String
  | .program p => "program " ++ toString p.functions.length
  | .function f => "function " ++ f.name
  | .stmt s => s.heading
  | .expr e => e.heading

/-- The text of a step. -/
def Step.describe : Step → String
  | .enter node => node.heading
  | .leave nodeClass => "end " ++ nodeClass.name

/-- Records every step; the state is the record, latest step first. -/
def tracer (stops : NodeClass → Bool) : Visitor (List Step) where
  enter node steps := .enter node :: steps
  leave nodeClass steps := .leave nodeClass :: steps
  descends nodeClass := !stops nodeClass

/-- Collects the names of variables, latest first. -/
def variableCollector : Visitor (List String) where
  enter node names :=
    match node with
    | .expr (.variable name) => name :: names
    | _ => names
  leave _ names := names
  descends _ := true

/-- Counts the functions, statements and expressions. -/
def counter : Visitor Counts where
  enter node counts :=
    match node with
    | .program _ => counts
    | .function _ => { counts with functions := counts.functions + 1 }
    | .stmt _ => { counts with statements := counts.statements + 1 }
    | .expr _ => { counts with expressions := counts.expressions + 1 }
  leave _ counts := counts
  descends _ := true

/-- The steps of a visit that does not look into nodes of the classes in `stops`. -/
def Node.trace (stops : NodeClass → Bool) (node : Node) : List Step :=
  (node.visit (tracer stops) []).reverse

/-- The names of the variables in the expressions below a node, in the order of the visit. -/
def Node.variables (node : Node) : List String :=
  (node.visit variableCollector []).reverse

/-- The numbers of nodes from a node downwards. -/
def Node.counts (node : Node) : Counts :=
  node.visit counter { functions := 0, statements := 0, expressions := 0 }

end CFrontEnd
