import CFrontEnd.Proofs.Tree.Preorder

/-!
# Traces of a Visit

A visit enters the nodes of a tree in the order of their addresses. The address of a node is the
list of the indices that lead to it from the root, and addresses are compared like words. So a node
is entered before what it contains, what it contains is entered in order, and every place of the
tree is entered once. Between the entry and the exit of a node stand the steps of what it contains,
and a visit that does not look into some classes of nodes leaves out just these steps.

All of this is read off one equation: the visit of a node enters it, visits its children one after
the other, and leaves it.

## Main definitions

* `Node.children`: the nodes directly below a node, in order.
* `Node.at?`: the node at an address.
* `Node.Enumerates`: some nodes are those at all addresses, in the order of the addresses.
* `Step.Balanced`: every entry in a log has its exit.
* `Step.prune`: a log without what stands inside the nodes of some classes.

## Main results

* `Node.visit_eq`, `Node.trace_eq`: a visit goes from a node to its children.
* `Node.enumerates_preorder`: the nodes of a tree in the order of a visit are all of them.
* `Node.prune_log`: a visit that looks into fewer nodes is a full one with steps left out.
* `trace_exact`: all of this in one statement.
-/

namespace CFrontEnd

/-! ### Children -/

/-- The nodes directly below a node, in order. Parameters are no nodes. -/
def Node.children : Node → List Node
  | .program p => p.functions.map .function
  | .function f => f.body.map .stmt
  | .stmt (.assignment _ _ value) => [.expr value]
  | .stmt (.declaration _ _ initializer) => initializer.toList.map .expr
  | .stmt (.ret value) => [.expr value]
  | .stmt (.ifThen condition body) => .expr condition :: body.map .stmt
  | .stmt (.ifElse condition body elseBody) =>
    .expr condition :: (body.map .stmt ++ elseBody.map .stmt)
  | .expr (.constant _) | .expr (.variable _) => []
  | .expr (.unary _ operand) => [.expr operand]
  | .expr (.binary _ left right) => [.expr left, .expr right]

/-- What holds of all children of a node holds of the node. -/
def Node.Ascends (motive : Node → Prop) : Prop :=
  ∀ node : Node, (∀ child ∈ node.children, motive child) → motive node

section Induction

variable {motive : Node → Prop}

theorem Expr.of_ascends (h : Node.Ascends motive) (expression : Expr) :
    motive (.expr expression) := by
  induction expression with
  | unary _ operand ih => exact h _ (List.forall_mem_singleton.mpr ih)
  | binary _ left right ihleft ihright =>
    exact h _ (List.forall_mem_cons.mpr ⟨ihleft, List.forall_mem_singleton.mpr ihright⟩)
  | _ => exact h _ (List.forall_mem_nil _)

mutual

theorem Stmt.of_ascends (h : Node.Ascends motive) : (statement : Stmt) → motive (.stmt statement)
  | .assignment _ _ value | .ret value | .declaration _ _ (some value) =>
    h _ (List.forall_mem_singleton.mpr (value.of_ascends h))
  | .declaration _ _ none => h _ (List.forall_mem_nil _)
  | .ifThen condition body =>
    h _ (List.forall_mem_cons.mpr ⟨condition.of_ascends h, Stmt.all_of_ascends h body⟩)
  | .ifElse condition body elseBody =>
    h _ (List.forall_mem_cons.mpr ⟨condition.of_ascends h,
      List.forall_mem_append.mpr ⟨Stmt.all_of_ascends h body, Stmt.all_of_ascends h elseBody⟩⟩)

theorem Stmt.all_of_ascends (h : Node.Ascends motive) : (statements : List Stmt) →
    ∀ child ∈ statements.map Node.stmt, motive child
  | [] => List.forall_mem_nil _
  | statement :: rest =>
    List.forall_mem_cons.mpr ⟨Stmt.of_ascends h statement, Stmt.all_of_ascends h rest⟩

end

/-- What holds of a node if it holds of its children holds of every node. -/
@[elab_as_elim]
theorem Node.children_induct
    (step : ∀ node : Node, (∀ child ∈ node.children, motive child) → motive node) (node : Node) :
    motive node := by
  have hfunction (function : FunctionDef) : motive (.function function) :=
    step _ (Stmt.all_of_ascends step function.body)
  cases node with
  | program program =>
    exact step _ (List.forall_mem_map.mpr fun function _ => hfunction function)
  | function function => exact hfunction function
  | stmt statement => exact statement.of_ascends step
  | expr expression => exact expression.of_ascends step

end Induction

section Visits

variable {σ : Type} (visitor : Visitor σ)

theorem Stmt.visitAll_eq_foldl (statements : List Stmt) :
    Stmt.visitAll visitor statements = fun state =>
      statements.foldl (fun state statement => statement.visit visitor state) state := by
  induction statements with
  | nil =>
    funext state
    rw [Stmt.visitAll, List.foldl_nil]
  | cons statement rest ih =>
    funext state
    rw [Stmt.visitAll, ih, List.foldl_cons]

/-- The visit of a node visits its children one after the other. -/
theorem Node.visit_eq (node : Node) (state : σ) :
    node.visit visitor state = visitor.around node (fun state =>
      node.children.foldl (fun state child => child.visit visitor state) state) state := by
  match node with
  | .program p => simp only [visit, children, Program.visit, List.foldl_map]
  | .function f =>
    simp only [visit, children, FunctionDef.visit, List.foldl_map, Stmt.visitAll_eq_foldl]
  | .stmt (.ifThen ..) | .stmt (.ifElse ..) =>
    simp only [visit, children, Stmt.visit, List.foldl_cons, List.foldl_append, List.foldl_map,
      Stmt.visitAll_eq_foldl]
  | .stmt (.assignment ..) | .stmt (.ret _) | .stmt (.declaration _ _ none)
  | .stmt (.declaration _ _ (some _)) =>
    simp only [visit, Stmt.visit]
    rfl
  | .expr (.constant _) | .expr (.variable _) | .expr (.unary ..) | .expr (.binary ..) =>
    simp only [visit, Expr.visit]
    rfl

end Visits

theorem Stmt.preorderAll_eq_flatMap (statements : List Stmt) :
    Stmt.preorderAll statements = (statements.map Node.stmt).flatMap Node.preorder := by
  induction statements with
  | nil => rw [Stmt.preorderAll, List.map_nil, List.flatMap_nil]
  | cons statement rest ih =>
    rw [Stmt.preorderAll, ih, List.map_cons, List.flatMap_cons, Node.preorder]

/-- A node comes before what its children contain, child by child. -/
theorem Node.preorder_eq (node : Node) :
    node.preorder = node :: node.children.flatMap Node.preorder := by
  match node with
  | .program p => simp [preorder, children, Program.preorder, List.flatMap_map]
  | .function f =>
    simp [preorder, children, FunctionDef.preorder, Stmt.preorderAll_eq_flatMap]
  | .stmt (.ifThen ..) | .stmt (.ifElse ..) =>
    simp [preorder, children, Stmt.preorder, Stmt.preorderAll_eq_flatMap]
  | .stmt (.assignment ..) | .stmt (.ret _) | .stmt (.declaration _ _ none)
  | .stmt (.declaration _ _ (some _)) => simp [preorder, children, Stmt.preorder]
  | .expr (.constant _) | .expr (.variable _) | .expr (.unary ..) | .expr (.binary ..) =>
    simp [preorder, children, Expr.preorder]

/-! ### Addresses -/

namespace Node

/-- The node at an address: the indices of the children on the way from the root. -/
def at? (node : Node) : List Nat → Option Node
  | [] => some node
  | i :: address => node.children[i]?.bind fun child => child.at? address

/-- The node at an address that starts with the index of one of some nodes. -/
def below? (nodes : List Node) : List Nat → Option Node
  | [] => none
  | i :: address => nodes[i]?.bind fun node => node.at? address

/-- The nodes are those at all addresses, in the order of the addresses. An address comes before
the longer ones that start with it; otherwise the first index that differs decides. -/
def Enumerates (lookup : List Nat → Option Node) (nodes : List Node) : Prop :=
  ∃ addresses : List (List Nat), addresses.Pairwise (· < ·) ∧
    (∀ address, address ∈ addresses ↔ (lookup address).isSome = true) ∧
    nodes.map some = addresses.map lookup

/-- The address with the index of the next node. -/
def skipOne : List Nat → List Nat
  | [] => []
  | i :: address => (i + 1) :: address

theorem skipOne_lt {first second : List Nat} (h : first < second) :
    skipOne first < skipOne second := by
  match first, second with
  | _, [] => exact absurd h (List.not_lt_nil _)
  | [], _ :: _ => exact List.nil_lt_cons ..
  | i :: first, j :: second =>
    rw [List.cons_lt_cons_iff] at h
    rw [skipOne, skipOne, List.cons_lt_cons_iff]
    exact h.imp Nat.succ_lt_succ (.imp_left (congrArg _))

theorem skipOne_eq_iff {other : List Nat} {i : Nat} {address : List Nat} :
    skipOne other = (i + 1) :: address ↔ other = i :: address := by
  cases other <;> simp [skipOne]

theorem skipOne_ne_zero_cons (other address : List Nat) : skipOne other ≠ 0 :: address := by
  cases other <;> simp [skipOne]

theorem skipOne_eq_nil_iff {other : List Nat} : skipOne other = [] ↔ other = [] := by
  cases other <;> simp [skipOne]

theorem below?_zero (node : Node) (others : List Node) (address : List Nat) :
    below? (node :: others) (0 :: address) = node.at? address := rfl

theorem below?_skipOne (node : Node) (others : List Node) (address : List Nat) :
    below? (node :: others) (skipOne address) = below? others address := by
  cases address <;> rfl

theorem enumerates_below_nil : Enumerates (below? []) [] := by
  refine ⟨[], .nil, fun address => ?_, rfl⟩
  cases address <;> simp [below?]

/-- The nodes below some nodes are those below the first one and those below the others. -/
theorem Enumerates.below_cons {node : Node} {others found more : List Node}
    (hfirst : Enumerates node.at? found) (hothers : Enumerates (below? others) more) :
    Enumerates (below? (node :: others)) (found ++ more) := by
  obtain ⟨addresses, hsorted, hall, hfound⟩ := hfirst
  obtain ⟨behind, hsortedBehind, hallBehind, hmore⟩ := hothers
  have hroot : [] ∉ behind := by simp [hallBehind, below?]
  refine ⟨addresses.map (0 :: ·) ++ behind.map skipOne, ?sorted, ?all, ?nodes⟩
  case sorted =>
    refine List.pairwise_append.mpr ⟨?_, ?_, ?_⟩
    · exact hsorted.map _ fun first second h => List.cons_lt_cons_iff.mpr (.inr ⟨rfl, h⟩)
    · exact hsortedBehind.map _ fun first second => skipOne_lt
    · intro first hfirst second hsecond
      obtain ⟨first, -, rfl⟩ := List.mem_map.mp hfirst
      obtain ⟨second, hmem, rfl⟩ := List.mem_map.mp hsecond
      -- no address behind the first node is empty
      cases second with
      | nil => exact absurd hmem hroot
      | cons i second => exact List.cons_lt_cons_iff.mpr (.inl (Nat.succ_pos i))
  case all =>
    intro address
    match address with
    | [] => simp [skipOne_eq_nil_iff, hroot, below?]
    | 0 :: address => simp [skipOne_ne_zero_cons, hall, below?_zero]
    | (i + 1) :: address =>
      have hskip := below?_skipOne node others (i :: address)
      rw [skipOne] at hskip
      simp [skipOne_eq_iff, hallBehind, hskip]
  case nodes =>
    have hzero : below? (node :: others) ∘ (0 :: ·) = node.at? := rfl
    have hskip : below? (node :: others) ∘ skipOne = below? others :=
      funext (below?_skipOne node others)
    rw [List.map_append, hfound, hmore, List.map_append, List.map_map, List.map_map, hzero, hskip]

/-- The nodes of a tree are its root and those below the children of the root. -/
theorem Enumerates.root {node : Node} {found : List Node}
    (h : Enumerates (below? node.children) found) : Enumerates node.at? (node :: found) := by
  obtain ⟨addresses, hsorted, hall, hfound⟩ := h
  have hroot : [] ∉ addresses := by simp [hall, below?]
  have hsame : ∀ address ∈ addresses, below? node.children address = node.at? address := by
    intro address hmem
    cases address with
    | nil => exact absurd hmem hroot
    | cons i address => rfl
  refine ⟨[] :: addresses, List.pairwise_cons.mpr ⟨?_, hsorted⟩, fun address => ?_, ?_⟩
  · intro address hmem
    cases address with
    | nil => exact absurd hmem hroot
    | cons i address => exact List.nil_lt_cons ..
  · cases address with
    | nil => simp [at?]
    | cons i address => simp [hall, below?, at?]
  · rw [List.map_cons, hfound, List.map_congr_left hsame, List.map_cons, at?]

theorem enumerates_below {nodes : List Node}
    (h : ∀ node ∈ nodes, Enumerates node.at? node.preorder) :
    Enumerates (below? nodes) (nodes.flatMap preorder) := by
  induction nodes with
  | nil => exact enumerates_below_nil
  | cons node others ih =>
    obtain ⟨hfirst, hothers⟩ := List.forall_mem_cons.mp h
    rw [List.flatMap_cons]
    exact hfirst.below_cons (ih hothers)

/-- The nodes of a tree in the order of a visit are those at all addresses, in order. -/
theorem enumerates_preorder (node : Node) : Enumerates node.at? node.preorder := by
  induction node using children_induct with
  | step node ih =>
    rw [preorder_eq]
    exact (enumerates_below ih).root

end Node

/-! ### Traces -/

namespace Node

variable (stops : NodeClass → Bool)

/-- Visits add to the record of a tracer, one after the other. -/
theorem foldl_visit_tracer {nodes : List Node} (h : ∀ node ∈ nodes, ∀ steps,
    node.visit (tracer stops) steps = (node.trace stops).reverse ++ steps) (steps : List Step) :
    nodes.foldl (fun steps node => node.visit (tracer stops) steps) steps =
      (nodes.flatMap (trace stops)).reverse ++ steps := by
  induction nodes generalizing steps with
  | nil => rfl
  | cons node others ih =>
    obtain ⟨hfirst, hothers⟩ := List.forall_mem_cons.mp h
    rw [List.foldl_cons, hfirst, ih hothers, List.flatMap_cons, List.reverse_append,
      List.append_assoc]

/-- A visit adds to the record of a tracer what it records on its own. -/
theorem visit_tracer (node : Node) (steps : List Step) :
    node.visit (tracer stops) steps = (node.trace stops).reverse ++ steps := by
  induction node using children_induct generalizing steps with
  | step node ih =>
    rw [trace, List.reverse_reverse, visit_eq, visit_eq]
    simp only [Visitor.around, foldl_visit_tracer stops ih]
    cases hstops : stops node.nodeClass <;> simp [tracer, hstops]

/-- Between the entry and the exit of a node stand the steps of its children, unless the visit does
not look into it. -/
theorem trace_eq (node : Node) :
    node.trace stops = .enter node ::
      ((if stops node.nodeClass then [] else node.children.flatMap (trace stops)) ++
        [.leave node.nodeClass]) := by
  have hchildren := foldl_visit_tracer stops fun child (_ : child ∈ node.children) =>
    child.visit_tracer stops
  rw [trace, visit_eq]
  simp only [Visitor.around, hchildren]
  cases hstops : stops node.nodeClass <;> simp [tracer, hstops]

end Node

namespace Step

/-- Every entry has its exit: of the same class, and behind the exits of all that is entered in
between. -/
inductive Balanced : List Step → Prop
  | nil : Balanced []
  | enclosed (node : Node) {inner rest : List Step} : Balanced inner → Balanced rest →
      Balanced (.enter node :: (inner ++ .leave node.nodeClass :: rest))

/-- The node that is entered by a step. -/
def entered? : Step → Option Node
  | .enter node => some node
  | .leave _ => none

/-- The step enters a node of the class. -/
def enters (nodeClass : NodeClass) : Step → Bool
  | .enter node => node.nodeClass = nodeClass
  | .leave _ => false

/-- A log without what stands strictly between the entry of a node of the given classes and its
exit. The depth is the number of nodes that were entered and not left since such an entry; outside
of all these nodes it is 0. -/
def prune (stops : NodeClass → Bool) : Nat → List Step → List Step
  | _, [] => []
  | 0, .enter node :: steps =>
    .enter node :: prune stops (if stops node.nodeClass then 1 else 0) steps
  | 0, .leave nodeClass :: steps => .leave nodeClass :: prune stops 0 steps
  | depth + 1, .enter _ :: steps => prune stops (depth + 2) steps
  | 1, .leave nodeClass :: steps => .leave nodeClass :: prune stops 0 steps
  | depth + 2, .leave _ :: steps => prune stops (depth + 1) steps

theorem Balanced.append {first second : List Step} (hfirst : Balanced first)
    (hsecond : Balanced second) : Balanced (first ++ second) := by
  induction hfirst with
  | nil => exact hsecond
  | enclosed node hinner _ _ ih =>
    rw [List.cons_append, List.append_assoc, List.cons_append]
    exact .enclosed node hinner ih

/-- Inside a node that is not looked into, all of a balanced log is removed. -/
theorem prune_inside (stops : NodeClass → Bool) {inner : List Step} (h : Balanced inner)
    (depth : Nat) (rest : List Step) :
    prune stops (depth + 1) (inner ++ rest) = prune stops (depth + 1) rest := by
  induction h generalizing depth rest with
  | nil => rfl
  | enclosed node _ _ ihinner ihrest =>
    rw [List.cons_append, prune, List.append_assoc, ihinner, List.cons_append, prune, ihrest]

/-- The log of a node that is not looked into. -/
theorem prune_stopped {stops : NodeClass → Bool} {node : Node}
    (hstops : stops node.nodeClass = true) {inner : List Step} (h : Balanced inner)
    (rest : List Step) :
    prune stops 0 (.enter node :: (inner ++ .leave node.nodeClass :: rest)) =
      .enter node :: .leave node.nodeClass :: prune stops 0 rest := by
  rw [prune, if_pos hstops, prune_inside stops h 0, prune]

/-- The log of a node that is looked into. -/
theorem prune_kept {stops : NodeClass → Bool} {node : Node}
    (hstops : stops node.nodeClass = false) (steps : List Step) :
    prune stops 0 (.enter node :: steps) = .enter node :: prune stops 0 steps := by
  rw [prune, if_neg (by simp [hstops])]

end Step

namespace Node

/-- The steps of a visit that looks into every node. -/
def log (node : Node) : List Step :=
  node.trace fun _ => false

theorem log_eq (node : Node) :
    node.log = .enter node :: (node.children.flatMap log ++ [.leave node.nodeClass]) :=
  node.trace_eq fun _ => false

theorem balanced_flatMap_log {nodes : List Node} (h : ∀ node ∈ nodes, Step.Balanced node.log) :
    Step.Balanced (nodes.flatMap log) := by
  induction nodes with
  | nil => exact .nil
  | cons node others ih =>
    obtain ⟨hfirst, hothers⟩ := List.forall_mem_cons.mp h
    exact hfirst.append (ih hothers)

theorem balanced_log (node : Node) : Step.Balanced node.log := by
  induction node using children_induct with
  | step node ih =>
    rw [log_eq]
    exact .enclosed node (balanced_flatMap_log ih) .nil

/-- The nodes that a visit enters are those of the tree, in order. -/
theorem filterMap_entered?_log (node : Node) :
    node.log.filterMap Step.entered? = node.preorder := by
  induction node using children_induct with
  | step node ih =>
    rw [log_eq, preorder_eq]
    simp [Step.entered?, List.filterMap_flatMap, List.flatMap_congr ih]

theorem prune_flatMap_log {stops : NodeClass → Bool} {nodes : List Node}
    (h : ∀ node ∈ nodes, ∀ rest, Step.prune stops 0 (node.log ++ rest) =
      node.trace stops ++ Step.prune stops 0 rest) (rest : List Step) :
    Step.prune stops 0 (nodes.flatMap log ++ rest) =
      nodes.flatMap (trace stops) ++ Step.prune stops 0 rest := by
  induction nodes with
  | nil => rfl
  | cons node others ih =>
    obtain ⟨hfirst, hothers⟩ := List.forall_mem_cons.mp h
    rw [List.flatMap_cons, List.append_assoc, hfirst, ih hothers, List.flatMap_cons,
      List.append_assoc]

/-- A visit that does not look into some nodes leaves out what stands between their entries and
their exits. -/
theorem prune_log (stops : NodeClass → Bool) (node : Node) (rest : List Step) :
    Step.prune stops 0 (node.log ++ rest) = node.trace stops ++ Step.prune stops 0 rest := by
  induction node using children_induct generalizing rest with
  | step node ih =>
    rw [log_eq, trace_eq, List.cons_append, List.append_assoc, List.singleton_append]
    cases hstops : stops node.nodeClass with
    | true =>
      rw [Step.prune_stopped hstops (balanced_flatMap_log fun child _ => child.balanced_log)]
      rfl
    | false =>
      rw [Step.prune_kept hstops, prune_flatMap_log ih, Step.prune]
      simp

/-! ### Counts -/

/-- A node counts for its class. -/
theorem toCounts_own (node : Node) :
    node.own.toCounts =
      { functions := if node.nodeClass = .function then 1 else 0
        statements := if node.nodeClass = .stmt then 1 else 0
        expressions := if node.nodeClass = .expr then 1 else 0 } := by
  rcases node with p | f | s | (_ | _ | _ | _) <;> rfl

/-- Nodes count for their classes. -/
theorem toCounts_census (nodes : List Node) :
    (Census.of nodes).toCounts =
      { functions := nodes.countP (·.nodeClass = .function)
        statements := nodes.countP (·.nodeClass = .stmt)
        expressions := nodes.countP (·.nodeClass = .expr) } := by
  induction nodes with
  | nil => rfl
  | cons node nodes ih =>
    calc (Census.of (node :: nodes)).toCounts
        = { functions := node.own.functions + (Census.of nodes).functions
            statements := node.own.statements + (Census.of nodes).statements
            expressions := node.own.expressions + (Census.of nodes).expressions } := by
          rw [Census.of_cons]
          rfl
      _ = _ := by
          rw [toCounts_own, ih]
          simp [List.countP_cons, Nat.add_comm]

/-- The counter counts the nodes of the tree by their classes. -/
theorem counts_eq_countP (node : Node) :
    node.counts =
      { functions := node.preorder.countP (·.nodeClass = .function)
        statements := node.preorder.countP (·.nodeClass = .stmt)
        expressions := node.preorder.countP (·.nodeClass = .expr) } := by
  rw [counts_eq_census, toCounts_census]

/-- The entries of a log are counted like the nodes of the tree. -/
theorem countP_enters_log (node : Node) (nodeClass : NodeClass) :
    node.log.countP (Step.enters nodeClass) = node.preorder.countP (·.nodeClass = nodeClass) := by
  rw [← filterMap_entered?_log, List.countP_filterMap]
  refine List.countP_congr fun step _ => ?_
  cases step <;> rfl

end Node

/-- A visit that looks into every node enters and leaves each node of the tree once: the entries and
the exits are balanced, and the entries come in the order of the addresses. They are as many as the
counter counts. A visit that does not look into some classes of nodes has the same steps, but for
those between the entry and the exit of a node of such a class. -/
theorem trace_exact (node : Node) :
    Step.Balanced node.log ∧ Node.Enumerates node.at? (node.log.filterMap Step.entered?) ∧
      node.counts =
        { functions := node.log.countP (Step.enters .function)
          statements := node.log.countP (Step.enters .stmt)
          expressions := node.log.countP (Step.enters .expr) } ∧
      ∀ stops, node.trace stops = Step.prune stops 0 node.log := by
  refine ⟨node.balanced_log, ?entries, ?counts, fun stops => ?pruned⟩
  case entries =>
    rw [node.filterMap_entered?_log]
    exact node.enumerates_preorder
  case counts => simp only [node.countP_enters_log, node.counts_eq_countP]
  case pruned =>
    have hpruned := node.prune_log stops []
    rwa [List.append_nil, Step.prune, List.append_nil, eq_comm] at hpruned

end CFrontEnd
