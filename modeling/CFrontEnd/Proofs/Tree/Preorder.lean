import CFrontEnd.Tree.Visitor
import Mathlib.Algebra.BigOperators.Group.List.Basic

/-!
# Nodes in the Order of a Visit

A visitor that looks into every node and does nothing on leaving one acts on the nodes of a tree
one after the other: a node comes before what it contains, and what it contains comes in order. So
such a visit is a fold over a list, and what it counts or collects is counted or collected in that
list.

## Main definitions

* `Node.preorder`: the nodes of a tree from one of them downwards, each before its contents.
* `Visitor.Thorough`: the visitor looks into every node and does nothing on leaving one.
* `Census`: the numbers of nodes and the names of variables.

## Main results

* `Node.visit_eq_enterAll`: a thorough visit is a fold over the nodes in order.
* `Node.counts_eq_census`, `Node.variables_eq_census`: what the counter and the collector find.
-/

namespace CFrontEnd

/-! ### Nodes in order -/

/-- The nodes of an expression. -/
def Expr.preorder : Expr → List Node
  | .constant literal => [.expr (.constant literal)]
  | .variable name => [.expr (.variable name)]
  | .unary operator operand => .expr (.unary operator operand) :: operand.preorder
  | .binary operator left right =>
    .expr (.binary operator left right) :: (left.preorder ++ right.preorder)

mutual

/-- The nodes of a statement. -/
def Stmt.preorder : Stmt → List Node
  | .assignment operator target value =>
    .stmt (.assignment operator target value) :: value.preorder
  | .declaration typeName name none => [.stmt (.declaration typeName name none)]
  | .declaration typeName name (some initializer) =>
    .stmt (.declaration typeName name (some initializer)) :: initializer.preorder
  | .ret value => .stmt (.ret value) :: value.preorder
  | .ifThen condition body =>
    .stmt (.ifThen condition body) :: (condition.preorder ++ Stmt.preorderAll body)
  | .ifElse condition body elseBody =>
    .stmt (.ifElse condition body elseBody) ::
      (condition.preorder ++ (Stmt.preorderAll body ++ Stmt.preorderAll elseBody))

/-- The nodes of statements, in order. -/
def Stmt.preorderAll : List Stmt → List Node
  | [] => []
  | statement :: rest => statement.preorder ++ Stmt.preorderAll rest

end

/-- The nodes of a function. -/
def FunctionDef.preorder (function : FunctionDef) : List Node :=
  .function function :: Stmt.preorderAll function.body

/-- The nodes of a program. -/
def Program.preorder (program : Program) : List Node :=
  .program program :: program.functions.flatMap FunctionDef.preorder

/-- The nodes of a tree from one of them downwards, each before its contents. -/
def Node.preorder : Node → List Node
  | .program p => p.preorder
  | .function f => f.preorder
  | .stmt s => s.preorder
  | .expr e => e.preorder

/-! ### Thorough visits -/

/-- The visitor looks into every node and does nothing on leaving one. -/
structure Visitor.Thorough {σ : Type} (visitor : Visitor σ) : Prop where
  leave : ∀ nodeClass state, visitor.leave nodeClass state = state
  descends : ∀ nodeClass, visitor.descends nodeClass = true

section Thorough

variable {σ : Type} {visitor : Visitor σ}

/-- What a visitor does on entering nodes, one after the other. -/
def Visitor.enterAll (visitor : Visitor σ) (nodes : List Node) (state : σ) : σ :=
  nodes.foldl (fun state node => visitor.enter node state) state

@[simp]
theorem Visitor.enterAll_nil (state : σ) : visitor.enterAll [] state = state := rfl

@[simp]
theorem Visitor.enterAll_cons (node : Node) (nodes : List Node) (state : σ) :
    visitor.enterAll (node :: nodes) state =
      visitor.enterAll nodes (visitor.enter node state) := rfl

@[simp]
theorem Visitor.enterAll_append (first second : List Node) (state : σ) :
    visitor.enterAll (first ++ second) state =
      visitor.enterAll second (visitor.enterAll first state) :=
  List.foldl_append ..

/-- A thorough visit enters a node and goes on to its contents. -/
theorem Visitor.Thorough.around_eq (h : visitor.Thorough) (node : Node) (contents : σ → σ)
    (state : σ) : visitor.around node contents state = contents (visitor.enter node state) := by
  rw [Visitor.around, h.leave, if_pos (h.descends _)]

theorem Expr.visit_eq_enterAll (h : visitor.Thorough) : (expression : Expr) → (state : σ) →
    expression.visit visitor state = visitor.enterAll expression.preorder state
  | .constant literal, state => h.around_eq ..
  | .variable name, state => h.around_eq ..
  | .unary operator operand, state => by
    rw [Expr.visit, h.around_eq, operand.visit_eq_enterAll h, Expr.preorder,
      Visitor.enterAll_cons]
  | .binary operator left right, state => by
    rw [Expr.visit, h.around_eq, left.visit_eq_enterAll h, right.visit_eq_enterAll h,
      Expr.preorder, Visitor.enterAll_cons, Visitor.enterAll_append]

mutual

theorem Stmt.visit_eq_enterAll (h : visitor.Thorough) : (statement : Stmt) → (state : σ) →
    statement.visit visitor state = visitor.enterAll statement.preorder state
  | .assignment operator target value, state => by
    rw [Stmt.visit, h.around_eq, value.visit_eq_enterAll h, Stmt.preorder, Visitor.enterAll_cons]
  | .declaration typeName name none, state => by
    rw [Stmt.visit, h.around_eq, Stmt.preorder, Visitor.enterAll_cons]
    rfl
  | .declaration typeName name (some initializer), state => by
    rw [Stmt.visit, h.around_eq, initializer.visit_eq_enterAll h, Stmt.preorder,
      Visitor.enterAll_cons]
  | .ret value, state => by
    rw [Stmt.visit, h.around_eq, value.visit_eq_enterAll h, Stmt.preorder, Visitor.enterAll_cons]
  | .ifThen condition body, state => by
    rw [Stmt.visit, h.around_eq, condition.visit_eq_enterAll h, Stmt.visitAll_eq_enterAll h body,
      Stmt.preorder, Visitor.enterAll_cons, Visitor.enterAll_append]
  | .ifElse condition body elseBody, state => by
    rw [Stmt.visit, h.around_eq, condition.visit_eq_enterAll h, Stmt.visitAll_eq_enterAll h body,
      Stmt.visitAll_eq_enterAll h elseBody, Stmt.preorder, Visitor.enterAll_cons,
      Visitor.enterAll_append, Visitor.enterAll_append]

theorem Stmt.visitAll_eq_enterAll (h : visitor.Thorough) : (statements : List Stmt) →
    (state : σ) →
    Stmt.visitAll visitor statements state = visitor.enterAll (Stmt.preorderAll statements) state
  | [], state => by rw [Stmt.visitAll, Stmt.preorderAll, Visitor.enterAll_nil]
  | statement :: rest, state => by
    rw [Stmt.visitAll, Stmt.visit_eq_enterAll h statement, Stmt.visitAll_eq_enterAll h rest,
      Stmt.preorderAll, Visitor.enterAll_append]

end

theorem FunctionDef.visit_eq_enterAll (h : visitor.Thorough) (function : FunctionDef)
    (state : σ) : function.visit visitor state = visitor.enterAll function.preorder state := by
  rw [visit, h.around_eq, Stmt.visitAll_eq_enterAll h, preorder, Visitor.enterAll_cons]

theorem Program.visit_eq_enterAll (h : visitor.Thorough) (program : Program) (state : σ) :
    program.visit visitor state = visitor.enterAll program.preorder state := by
  have hall : ∀ (functions : List FunctionDef) (state : σ),
      functions.foldl (fun state function => function.visit visitor state) state =
        visitor.enterAll (functions.flatMap FunctionDef.preorder) state := by
    intro functions
    induction functions with
    | nil => exact fun _ => rfl
    | cons function functions ih =>
      intro state
      rw [List.foldl_cons, ih, function.visit_eq_enterAll h, List.flatMap_cons,
        Visitor.enterAll_append]
  rw [visit, h.around_eq, hall, preorder, Visitor.enterAll_cons]

/-- A thorough visit is a fold over the nodes in order. -/
theorem Node.visit_eq_enterAll (h : visitor.Thorough) (node : Node) (state : σ) :
    node.visit visitor state = visitor.enterAll node.preorder state := by
  cases node with
  | program p => exact p.visit_eq_enterAll h state
  | function f => exact f.visit_eq_enterAll h state
  | stmt s => exact s.visit_eq_enterAll h state
  | expr e => exact e.visit_eq_enterAll h state

end Thorough

/-! ### Counting and collecting -/

/-- The numbers of nodes and the names of the variables in expressions, in order. -/
@[ext]
structure Census extends Counts where
  /-- The names of the variables. -/
  names : List String

namespace Census

instance : Zero Census :=
  ⟨{ functions := 0, statements := 0, expressions := 0, names := [] }⟩

instance : Add Census :=
  ⟨fun first second =>
    { functions := first.functions + second.functions
      statements := first.statements + second.statements
      expressions := first.expressions + second.expressions
      names := first.names ++ second.names }⟩

@[simp]
theorem functions_zero : (0 : Census).functions = 0 := rfl

@[simp]
theorem statements_zero : (0 : Census).statements = 0 := rfl

@[simp]
theorem expressions_zero : (0 : Census).expressions = 0 := rfl

@[simp]
theorem names_zero : (0 : Census).names = [] := rfl

variable (first second : Census)

@[simp]
theorem functions_add : (first + second).functions = first.functions + second.functions := rfl

@[simp]
theorem statements_add : (first + second).statements = first.statements + second.statements := rfl

@[simp]
theorem expressions_add :
    (first + second).expressions = first.expressions + second.expressions := rfl

@[simp]
theorem names_add : (first + second).names = first.names ++ second.names := rfl

instance : AddMonoid Census where
  add_assoc first second third := by
    ext1 <;> simp [Nat.add_assoc]
  zero_add census := by
    ext1 <;> simp
  add_zero census := by
    ext1 <;> simp
  nsmul := nsmulRec

/-- One function. -/
def function : Census :=
  { functions := 1, statements := 0, expressions := 0, names := [] }

/-- One statement. -/
def stmt : Census :=
  { functions := 0, statements := 1, expressions := 0, names := [] }

/-- One expression that is no variable. -/
def expr : Census :=
  { functions := 0, statements := 0, expressions := 1, names := [] }

/-- One variable. -/
def name (text : String) : Census :=
  { functions := 0, statements := 0, expressions := 1, names := [text] }

/-- Where an expression without a name is counted does not matter. -/
theorem expr_add : expr + first = first + expr := by
  ext1 <;> simp [expr, Nat.add_comm]

end Census

/-- What the node itself counts for. -/
def Node.own : Node → Census
  | .program _ => 0
  | .function _ => .function
  | .stmt _ => .stmt
  | .expr (.variable name) => .name name
  | .expr _ => .expr

/-- What the nodes count for. -/
def Census.of (nodes : List Node) : Census :=
  (nodes.map Node.own).sum

@[simp]
theorem Census.of_nil : of [] = 0 := rfl

@[simp]
theorem Census.of_cons (node : Node) (nodes : List Node) :
    of (node :: nodes) = node.own + of nodes := by
  rw [of, List.map_cons, List.sum_cons, of]

@[simp]
theorem Census.of_append (first second : List Node) :
    of (first ++ second) = of first + of second := by
  rw [of, List.map_append, List.sum_append, of, of]

theorem thorough_counter : counter.Thorough where
  leave _ _ := rfl
  descends _ := rfl

theorem thorough_variableCollector : variableCollector.Thorough where
  leave _ _ := rfl
  descends _ := rfl

/-- The counter adds what it finds. -/
theorem counter_enterAll (nodes : List Node) (counts : Counts) :
    counter.enterAll nodes counts =
      { functions := counts.functions + (Census.of nodes).functions
        statements := counts.statements + (Census.of nodes).statements
        expressions := counts.expressions + (Census.of nodes).expressions } := by
  induction nodes generalizing counts with
  | nil => rfl
  | cons node nodes ih =>
    rw [Visitor.enterAll_cons, ih, Census.of_cons]
    simp only [Census.functions_add, Census.statements_add, Census.expressions_add,
      ← Nat.add_assoc]
    rcases node with p | f | s | (_ | _ | _ | _) <;> rfl

/-- The collector puts the names that it finds in front, latest first. -/
theorem variableCollector_enterAll (nodes : List Node) (names : List String) :
    variableCollector.enterAll nodes names = (Census.of nodes).names.reverse ++ names := by
  induction nodes generalizing names with
  | nil => rfl
  | cons node nodes ih =>
    rw [Visitor.enterAll_cons, ih, Census.of_cons, Census.names_add, List.reverse_append,
      List.append_assoc]
    rcases node with p | f | s | (_ | _ | _ | _) <;> rfl

/-- The counts of a tree are those of its nodes. -/
theorem Node.counts_eq_census (node : Node) : node.counts = (Census.of node.preorder).toCounts := by
  rw [counts, visit_eq_enterAll thorough_counter, counter_enterAll]
  simp

/-- The variables of a tree are those of its nodes, in order. -/
theorem Node.variables_eq_census (node : Node) :
    node.variables = (Census.of node.preorder).names := by
  rw [Node.variables, visit_eq_enterAll thorough_variableCollector, variableCollector_enterAll]
  simp

end CFrontEnd
