import CFrontEnd.Parser.Program
import CFrontEnd.Proofs.Grammar
import Mathlib.Tactic.IntervalCases

/-!
# Rules as Outcomes

What each rule of the parser makes of the tokens in front of it, without the bounds that make the
rules terminate. Rules follow each other by `Outcome.andThen`, and the next token decides which
alternative of a rule is taken.

## Main results

* `level_eq`, `operands_cons_of_some`, `unary_cons_of_some`, `primary_cons`: the rules for
  expressions.
* `stmt_cons`, `ifStmt_cons`, `alternative_cons`, `stmts_cons`: the rules for statements.
* `expr_induct`, `stmt_induct`: induction along the rules for expressions and for statements.
-/

namespace CFrontEnd

/-- The operators of a level. -/
def BinaryOp.ofLevel (n : Nat) : List BinaryOp :=
  BinaryOp.all.filter fun operator => operator.level = n

theorem BinaryOp.levels_drop {n : Nat} (hpos : 1 ≤ n) (hle : n ≤ 6) :
    BinaryOp.levels.drop (n - 1) = BinaryOp.ofLevel n :: BinaryOp.levels.drop n := by
  -- one row of the table for each of the six levels
  interval_cases n <;> rfl

theorem BinaryOp.mem_all (operator : BinaryOp) : operator ∈ BinaryOp.all := by
  cases operator <;> decide

/-- A token spells an operator of a level when it spells an operator and that one is of the
level. -/
theorem BinaryOp.among?_ofLevel_eq_some_iff {n : Nat} {token : Token} {operator : BinaryOp} :
    BinaryOp.among? (BinaryOp.ofLevel n) token = some operator ↔
      token.is operator.kind operator.spelling = true ∧ operator.level = n := by
  simp [among?, ofLevel, Option.filter_eq_some_iff, ofToken?_eq_some_iff, mem_all]

theorem Token.kind_of_is {token : Token} {kind : TokenKind} {text : String}
    (h : token.is kind text = true) : token.kind = kind := by
  simp only [Token.is, Bool.and_eq_true, beq_iff_eq] at h
  exact h.1

/-- Tokens of the kind can spell the operators of expressions. -/
def TokenKind.isOperator : TokenKind → Bool
  | .logicalOperator | .relationalOperator | .arithmeticOperator => true
  | _ => false

theorem BinaryOp.isOperator_of_is {token : Token} {operator : BinaryOp}
    (h : token.is operator.kind operator.spelling = true) : token.kind.isOperator = true := by
  rw [Token.kind_of_is h]
  cases operator <;> rfl

theorem UnaryOp.isOperator_of_is {token : Token} {operator : UnaryOp}
    (h : token.is operator.kind operator.spelling = true) : token.kind.isOperator = true := by
  rw [Token.kind_of_is h]
  cases operator <;> rfl

theorem BinaryOp.among?_eq_none {token : Token} (h : token.kind.isOperator = false) (n : Nat) :
    BinaryOp.among? (BinaryOp.ofLevel n) token = none := by
  cases hsign : BinaryOp.among? (BinaryOp.ofLevel n) token with
  | none => rfl
  | some operator =>
    rw [isOperator_of_is (among?_ofLevel_eq_some_iff.mp hsign).1] at h
    exact absurd h (by decide)

theorem UnaryOp.ofToken?_eq_none {token : Token} (h : token.kind.isOperator = false) :
    UnaryOp.ofToken? token = none := by
  cases hsign : UnaryOp.ofToken? token with
  | none => rfl
  | some operator =>
    rw [isOperator_of_is (ofToken?_eq_some_iff.mp hsign)] at h
    exact absurd h (by decide)

/-- A token spells at most one operator. -/
theorem BinaryOp.eq_of_is {token : Token} {first second : BinaryOp}
    (hfirst : token.is first.kind first.spelling = true)
    (hsecond : token.is second.kind second.spelling = true) : first = second :=
  Option.some.inj ((BinaryOp.ofToken?_eq_some_iff.mpr hfirst).symm.trans
    (BinaryOp.ofToken?_eq_some_iff.mpr hsecond))

namespace Outcome

variable {α β : Type}

/-- A rule and then another one on the tokens that the first one leaves. -/
def andThen (outcome : Outcome α) (next : α → List Token → Outcome β) : Outcome β :=
  outcome.bind fun taken => next taken.1 taken.2

@[simp]
theorem andThen_ok (value : α) (rest : List Token) (next : α → List Token → Outcome β) :
    andThen (.ok (value, rest)) next = next value rest := rfl

@[simp]
theorem andThen_error (halt : Halt) (next : α → List Token → Outcome β) :
    andThen (.error halt) next = .error halt := rfl

/-- A sequence succeeds when both of its rules do. -/
theorem andThen_eq_ok_iff {outcome : Outcome α} {next : α → List Token → Outcome β} {value : β}
    {rest : List Token} :
    outcome.andThen next = .ok (value, rest) ↔
      ∃ first middle, outcome = .ok (first, middle) ∧ next first middle = .ok (value, rest) := by
  cases outcome with
  | error halt => simp
  | ok taken =>
    obtain ⟨first, middle⟩ := taken
    simp

end Outcome

namespace Parser

open Outcome

/-- The next token if a test gives it a value. -/
def demand {α : Type} (expected : Expected) (test : Token → Option α) : List Token → Outcome α
  | [] => .error (Halt.unexpected expected [])
  | token :: rest =>
    match test token with
    | some value => .ok (value, rest)
    | none => .error (Halt.unexpected expected (token :: rest))

/-- A token of a kind. -/
def mark (kind : TokenKind) : List Token → Outcome Token :=
  demand (.kind kind) (Option.guard fun token => token.kind = kind)

/-- The `=` of an initializer. -/
def equals : List Token → Outcome Token :=
  demand (.lexeme .assignmentOperator "=") (Option.guard (Token.is · .assignmentOperator "="))

/-- The text of a type name. -/
def typeName : List Token → Outcome String :=
  demand .typeName fun token => if token.isTypeName then some token.lexeme else none

/-- The text of a name. -/
def name : List Token → Outcome String :=
  demand (.kind .identifier) fun token =>
    if token.kind = .identifier then some token.lexeme else none

/-- An assignment operator. -/
def assignOp : List Token → Outcome AssignOp :=
  demand (.kind .assignmentOperator) AssignOp.ofToken?

/-- The expression of a level. -/
def level (n : Nat) (tokens : List Token) : Outcome Expr :=
  .ofTaken (takeLevels (BinaryOp.levels.drop (n - 1)) tokens)

/-- The operations of a level that follow an operand, grouped to the left. -/
def operands (n : Nat) (left : Expr) (tokens : List Token) : Outcome Expr :=
  .ofTaken (takeOperands (BinaryOp.ofLevel n) (BinaryOp.levels.drop n) left tokens)

/-- Prefix operators and their operand. -/
def unary (tokens : List Token) : Outcome Expr :=
  .ofTaken (takeUnary tokens)

/-- A literal, a name, or an expression in parentheses. -/
def primary (tokens : List Token) : Outcome Expr :=
  .ofTaken (takePrimary tokens)

/-- What follows the name of a declaration. -/
def initializer (tokens : List Token) : Outcome (Option Expr) :=
  .ofTaken (takeInitializer tokens)

/-- An `if` statement. -/
def ifStmt (tokens : List Token) : Outcome Stmt :=
  .ofTaken (takeIf tokens)

/-- The `else` of an `if` statement, if there is one. -/
def alternative (tokens : List Token) : Outcome (Option (List Stmt)) :=
  .ofTaken (takeElse tokens)

/-- Statements and the closing brace after them. -/
def stmts (tokens : List Token) : Outcome (List Stmt) :=
  .ofTaken (takeStmts tokens)

/-- Parameters and the closing parenthesis after them. -/
def arguments (tokens : List Token) : Outcome (List Argument) :=
  .ofTaken (takeArguments tokens)

/-! ### The next token -/

section Demand

variable {α : Type} {expected : Expected} {test : Token → Option α}

@[simp]
theorem demand_nil : demand expected test [] = .error (Halt.unexpected expected []) := rfl

theorem demand_eq_ok_iff {tokens rest : List Token} {value : α} :
    demand expected test tokens = .ok (value, rest) ↔
      ∃ token, tokens = token :: rest ∧ test token = some value := by
  cases tokens with
  | nil => simp
  | cons token tokens =>
    cases htest : test token with
    | none => simp [demand, htest]
    | some found => simp [demand, htest, and_comm]

theorem length_lt_of_demand {tokens rest : List Token} {value : α}
    (h : demand expected test tokens = .ok (value, rest)) : rest.length < tokens.length := by
  obtain ⟨token, rfl, -⟩ := demand_eq_ok_iff.mp h
  exact Nat.lt_succ_self _

theorem demand_cons_of_some {token : Token} {rest : List Token} {value : α}
    (h : test token = some value) : demand expected test (token :: rest) = .ok (value, rest) := by
  simp [demand, h]

theorem demand_cons_of_none {token : Token} {rest : List Token} (h : test token = none) :
    demand expected test (token :: rest) =
      .error (Halt.unexpected expected (token :: rest)) := by
  simp [demand, h]

end Demand

theorem mark_cons_of_ne {kind : TokenKind} {token : Token} (h : token.kind ≠ kind)
    (rest : List Token) :
    mark kind (token :: rest) = .error (Halt.unexpected (.kind kind) (token :: rest)) :=
  demand_cons_of_none (by simp [Option.guard, h])

theorem ofTaken_takeKind (kind : TokenKind) (tokens : List Token) :
    ofTaken (takeKind kind tokens) = mark kind tokens := by
  cases tokens with
  | nil => rfl
  | cons token rest =>
    by_cases h : token.kind = kind <;> simp [takeKind, mark, demand, Option.guard, h]

theorem ofTaken_takeLexeme_equals (tokens : List Token) :
    ofTaken (takeLexeme .assignmentOperator "=" tokens) = equals tokens := by
  cases tokens with
  | nil => rfl
  | cons token rest =>
    by_cases h : token.is .assignmentOperator "=" <;>
      simp [takeLexeme, equals, demand, Option.guard, h]

theorem ofTaken_takeTypeName (tokens : List Token) :
    ofTaken (takeTypeName tokens) = typeName tokens := by
  cases tokens with
  | nil => rfl
  | cons token rest =>
    by_cases h : token.isTypeName <;> simp [takeTypeName, typeName, demand, h]

theorem ofTaken_takeName (tokens : List Token) : ofTaken (takeName tokens) = name tokens := by
  cases tokens with
  | nil => rfl
  | cons token rest =>
    by_cases h : token.kind = .identifier <;>
      simp [takeName, takeKind, name, demand, h, Except.map]

theorem ofTaken_takeAssignOp (tokens : List Token) :
    ofTaken (takeAssignOp tokens) = assignOp tokens := by
  cases tokens with
  | nil => rfl
  | cons token rest =>
    cases h : AssignOp.ofToken? token <;> simp [takeAssignOp, assignOp, demand, h]

/-- A reserved word that is the next token is taken. -/
theorem ofTaken_takeLexeme_cons {token : Token} {kind : TokenKind} {text : String}
    (h : token.is kind text = true) (rest : List Token) :
    ofTaken (takeLexeme kind text (token :: rest)) = .ok (token, rest) := by
  simp [takeLexeme, h]

/-! ### Sequences -/

section Sequence

variable {tokens : List Token} {bound : Nat} {α β : Type} {result : TakeResult tokens bound α}
  {outcome : Outcome α}

theorem ofTaken_mapValue_eq {f : α → β} (h : ofTaken result = outcome) :
    ofTaken (result.mapValue f) = outcome.andThen fun value rest => .ok (f value, rest) := by
  subst h
  cases result <;> rfl

theorem ofTaken_andThen_eq
    {next : α → (rest : List Token) → rest.length < bound → Takes rest β}
    {after : α → List Token → Outcome β} (h : ofTaken result = outcome)
    (hnext : ∀ value rest shorter, ofTaken (next value rest shorter) = after value rest) :
    ofTaken (result.andThen next) = outcome.andThen after := by
  rw [ofTaken_andThen hnext, h, andThen]

theorem ofTaken_andThenAtMost_eq
    {next : α → (rest : List Token) → rest.length < bound → MayTake rest β}
    {after : α → List Token → Outcome β} (h : ofTaken result = outcome)
    (hnext : ∀ value rest shorter, ofTaken (next value rest shorter) = after value rest) :
    ofTaken (result.andThenAtMost next) = outcome.andThen after := by
  rw [ofTaken_andThenAtMost hnext, h, andThen]

end Sequence

/-! ### Expressions -/

theorem expr_eq (tokens : List Token) : expr tokens = level 1 tokens := by
  rw [expr, takeExpr, level, Nat.sub_self, List.drop_zero]

/-- Past the last level stand the prefix operators. -/
theorem level_seven (tokens : List Token) : level 7 tokens = unary tokens := by
  rw [level, unary, show BinaryOp.levels.drop (7 - 1) = [] from rfl, takeLevels]

theorem level_eq {n : Nat} (hpos : 1 ≤ n) (hle : n ≤ 6) (tokens : List Token) :
    level n tokens = (level (n + 1) tokens).andThen (operands n) := by
  -- the first row that is left is the level itself, and the others are the tighter ones
  rw [level, BinaryOp.levels_drop hpos hle, takeLevels]
  exact ofTaken_andThenAtMost_eq rfl fun _ _ _ => rfl

theorem operands_nil (n : Nat) (left : Expr) : operands n left [] = .ok (left, []) := by
  rw [operands, takeOperands, ofTaken_nothing]

/-- A token that spells no operator of the level ends the operations. -/
theorem operands_cons_of_none {n : Nat} {token : Token}
    (h : BinaryOp.among? (BinaryOp.ofLevel n) token = none) (left : Expr) (rest : List Token) :
    operands n left (token :: rest) = .ok (left, token :: rest) := by
  rw [operands, takeOperands, h, ofTaken_nothing]

theorem operands_cons_of_some {n : Nat} {token : Token} {operator : BinaryOp}
    (h : BinaryOp.among? (BinaryOp.ofLevel n) token = some operator) (left : Expr)
    (rest : List Token) :
    operands n left (token :: rest) =
      (level (n + 1) rest).andThen fun right => operands n (.binary operator left right) := by
  simp only [operands, takeOperands, h, ofTaken_behind]
  exact ofTaken_andThenAtMost_eq rfl fun _ _ _ => rfl

@[simp]
theorem unary_nil : unary [] = .error (Halt.unexpected .expression []) := by
  rw [unary, takeUnary, ofTaken_unexpected]

theorem unary_cons_of_none {token : Token} (h : UnaryOp.ofToken? token = none)
    (rest : List Token) : unary (token :: rest) = primary (token :: rest) := by
  rw [unary, takeUnary, h, primary]

theorem unary_cons_of_some {token : Token} {operator : UnaryOp}
    (h : UnaryOp.ofToken? token = some operator) (rest : List Token) :
    unary (token :: rest) =
      (unary rest).andThen fun operand rest => .ok (.unary operator operand, rest) := by
  simp only [unary, takeUnary, h, ofTaken_behind]
  exact ofTaken_mapValue_eq rfl

/-- An expression in parentheses, after the opening one. -/
def enclosed (tokens : List Token) : Outcome Expr :=
  (expr tokens).andThen fun value rest =>
  (mark .closeParen rest).andThen fun _ rest => .ok (value, rest)

@[simp]
theorem primary_nil : primary [] = .error (Halt.unexpected .expression []) := by
  rw [primary, takePrimary, ofTaken_unexpected]

/-- The kind of a token decides what primary expression it starts. -/
theorem primary_cons (token : Token) (rest : List Token) :
    primary (token :: rest) =
      match token.kind with
      | .integer | .float | .string =>
        match token.literal with
        | .ok literal => .ok (.constant literal, rest)
        | .error failure => .error { failure, rest := token :: rest }
      | .identifier => .ok (.variable token.lexeme, rest)
      | .openParen => enclosed rest
      | _ => .error (Halt.unexpected .expression (token :: rest)) := by
  have henclosed : ofTaken ((takeExpr rest).andThen fun expr rest' _ =>
      (takeKind .closeParen rest').mapValue fun _ => expr) = enclosed rest :=
    ofTaken_andThen_eq rfl fun _ _ _ => ofTaken_mapValue_eq (ofTaken_takeKind _ _)
  rw [primary, takePrimary]
  -- parentheses go on with another rule, a literal may have no value, all else is one token
  cases token.kind
  case openParen => simpa only [ofTaken_behind] using henclosed
  case integer => cases token.literal <;> rfl
  case float => cases token.literal <;> rfl
  case string => cases token.literal <;> rfl
  all_goals rfl

/-! ### Statements -/

theorem initializer_eq (tokens : List Token) :
    initializer tokens =
      match mark .semicolon tokens with
      | .ok (_, rest) => .ok (none, rest)
      | .error _ =>
        (equals tokens).andThen fun _ rest =>
        (expr rest).andThen fun value rest =>
        (mark .semicolon rest).andThen fun _ rest => .ok (some value, rest) := by
  rw [initializer, takeInitializer, ← ofTaken_takeKind]
  cases takeKind .semicolon tokens with
  | ok taken => rfl
  | error halt =>
    -- the fault of the semicolon is dropped for the one of the `=`
    refine ofTaken_andThen_eq (ofTaken_takeLexeme_equals _) fun _ _ _ => ?_
    refine ofTaken_andThen_eq rfl fun _ _ _ => ?_
    exact ofTaken_mapValue_eq (ofTaken_takeKind _ _)

/-- A declaration. -/
def declaration (tokens : List Token) : Outcome Stmt :=
  (typeName tokens).andThen fun typeName rest =>
  (name rest).andThen fun name rest =>
  (initializer rest).andThen fun initializer rest =>
    .ok (.declaration typeName name initializer, rest)

/-- An assignment. -/
def assignment (tokens : List Token) : Outcome Stmt :=
  (name tokens).andThen fun target rest =>
  (assignOp rest).andThen fun operator rest =>
  (expr rest).andThen fun value rest =>
  (mark .semicolon rest).andThen fun _ rest => .ok (.assignment operator target value, rest)

/-- A `return` statement, after the first word. -/
def returned (tokens : List Token) : Outcome Stmt :=
  (expr tokens).andThen fun value rest =>
  (mark .semicolon rest).andThen fun _ rest => .ok (.ret value, rest)

/-- An `if` statement, after the first word. -/
def branches (tokens : List Token) : Outcome Stmt :=
  (mark .openParen tokens).andThen fun _ rest =>
  (expr rest).andThen fun condition rest =>
  (mark .closeParen rest).andThen fun _ rest =>
  (block rest).andThen fun body rest =>
  (alternative rest).andThen fun elseBody rest =>
    .ok (conditional condition body elseBody, rest)

theorem ofTaken_takeDeclaration (tokens : List Token) :
    ofTaken (takeDeclaration tokens) = declaration tokens := by
  refine ofTaken_andThen_eq (ofTaken_takeTypeName _) fun _ _ _ => ?_
  refine ofTaken_andThen_eq (ofTaken_takeName _) fun _ _ _ => ?_
  exact ofTaken_mapValue_eq rfl

theorem ofTaken_takeAssignment (tokens : List Token) :
    ofTaken (takeAssignment tokens) = assignment tokens := by
  refine ofTaken_andThen_eq (ofTaken_takeName _) fun _ _ _ => ?_
  refine ofTaken_andThen_eq (ofTaken_takeAssignOp _) fun _ _ _ => ?_
  refine ofTaken_andThen_eq rfl fun _ _ _ => ?_
  exact ofTaken_mapValue_eq (ofTaken_takeKind _ _)

theorem ofTaken_takeReturn {token : Token} (h : token.isKeyword "return" = true)
    (rest : List Token) : ofTaken (takeReturn (token :: rest)) = returned rest := by
  -- the word has been looked at, so taking it cannot fail
  rw [takeReturn, ofTaken_andThen_eq (ofTaken_takeLexeme_cons h rest) fun _ _ _ => rfl, andThen_ok]
  refine ofTaken_andThen_eq rfl fun _ _ _ => ?_
  exact ofTaken_mapValue_eq (ofTaken_takeKind _ _)

theorem ifStmt_cons {token : Token} (h : token.isKeyword "if" = true) (rest : List Token) :
    ifStmt (token :: rest) = branches rest := by
  rw [ifStmt, takeIf, ofTaken_andThen_eq (ofTaken_takeLexeme_cons h rest) fun _ _ _ => rfl,
    andThen_ok]
  refine ofTaken_andThen_eq (ofTaken_takeKind _ _) fun _ _ _ => ?_
  refine ofTaken_andThen_eq rfl fun _ _ _ => ?_
  refine ofTaken_andThen_eq (ofTaken_takeKind _ _) fun _ _ _ => ?_
  refine ofTaken_andThenAtMost_eq rfl fun _ _ _ => ?_
  exact ofTaken_mapValue_eq rfl

/-- The first token decides the form of a statement. -/
theorem stmt_cons (token : Token) (rest : List Token) :
    stmt (token :: rest) =
      if token.isKeyword "return" then returned rest
      else if token.isKeyword "if" then branches rest
      else if token.isTypeName then declaration (token :: rest)
      else if token.kind = .identifier then assignment (token :: rest)
      else .error (Halt.unexpected .statement (token :: rest)) := by
  rw [stmt, takeStmt]
  simp only [List.head?_cons]
  -- one branch for each test, in the order of the tests
  split
  · exact ofTaken_takeReturn ‹_› rest
  · split
    · exact ifStmt_cons ‹_› rest
    · split
      · exact ofTaken_takeDeclaration _
      · split
        · exact ofTaken_takeAssignment _
        · rfl

@[simp]
theorem stmt_nil : stmt [] = .error (Halt.unexpected .statement []) := by
  rw [stmt, takeStmt]
  rfl

theorem block_eq (tokens : List Token) :
    block tokens = (mark .openBrace tokens).andThen fun _ => stmts := by
  rw [block, takeBlock]
  exact ofTaken_andThen_eq (ofTaken_takeKind _ _) fun _ _ _ => rfl

@[simp]
theorem alternative_nil : alternative [] = .ok (none, []) := by
  rw [alternative, takeElse]
  rfl

theorem alternative_cons (token : Token) (rest : List Token) :
    alternative (token :: rest) =
      if token.isKeyword "else" then
        if startsWith "if" rest then
          (ifStmt rest).andThen fun statement rest => .ok (some [statement], rest)
        else (block rest).andThen fun body rest => .ok (some body, rest)
      else .ok (none, token :: rest) := by
  rw [alternative, takeElse]
  by_cases h : token.isKeyword "else"
  · rw [takeLexeme, if_pos (show token.is .keyword "else" = true from h), if_pos h]
    -- an `if` after the `else` is a statement; anything else has to be a block
    cases hif : startsWith "if" rest with
    | true =>
      simp only [TakeResult.first, hif, ↓reduceIte, ofTaken_within]
      exact ofTaken_mapValue_eq rfl
    | false =>
      simp only [TakeResult.first, hif, Bool.false_eq_true, ↓reduceIte, ofTaken_within]
      exact ofTaken_mapValue_eq rfl
  · rw [takeLexeme, if_neg (show ¬token.is .keyword "else" = true from h), if_neg h]
    rfl

@[simp]
theorem stmts_nil : stmts [] = .error (Halt.unexpected (.kind .closeBrace) []) := by
  rw [stmts, takeStmts]
  rfl

theorem stmts_cons (token : Token) (rest : List Token) :
    stmts (token :: rest) =
      if token.kind = .closeBrace then .ok ([], rest)
      else
        (stmt (token :: rest)).andThen fun statement rest =>
        (stmts rest).andThen fun statements rest => .ok (statement :: statements, rest) := by
  rw [stmts, takeStmts]
  by_cases h : token.kind = .closeBrace
  · rw [takeKind, if_pos h, if_pos h]
    rfl
  · rw [takeKind, if_neg h, if_neg h]
    refine ofTaken_andThen_eq rfl fun _ _ _ => ?_
    exact ofTaken_mapValue_eq rfl

/-! ### Functions and programs -/

/-- A parameter and the ones after it. -/
def moreArguments (tokens : List Token) : Outcome (List Argument) :=
  (typeName tokens).andThen fun typeName rest =>
  (name rest).andThen fun name rest =>
  (arguments rest).andThen fun arguments rest => .ok ({ typeName, name } :: arguments, rest)

theorem arguments_eq (tokens : List Token) :
    arguments tokens =
      match mark .closeParen tokens with
      | .ok (_, rest) => .ok ([], rest)
      | .error _ => moreArguments tokens := by
  rw [arguments, takeArguments, ← ofTaken_takeKind]
  cases takeKind .closeParen tokens with
  | ok taken => rfl
  | error halt =>
    refine ofTaken_andThen_eq (ofTaken_takeTypeName _) fun _ _ _ => ?_
    refine ofTaken_andThen_eq (ofTaken_takeName _) fun _ _ _ => ?_
    exact ofTaken_mapValue_eq rfl

theorem function_eq (tokens : List Token) :
    function tokens =
      (typeName tokens).andThen fun returnType rest =>
      (name rest).andThen fun name rest =>
      (mark .openParen rest).andThen fun _ rest =>
      (arguments rest).andThen fun arguments rest =>
      (block rest).andThen fun body rest => .ok ({ returnType, name, arguments, body }, rest) := by
  rw [function, takeFunction]
  refine ofTaken_andThen_eq (ofTaken_takeTypeName _) fun _ _ _ => ?_
  refine ofTaken_andThen_eq (ofTaken_takeName _) fun _ _ _ => ?_
  refine ofTaken_andThen_eq (ofTaken_takeKind _ _) fun _ _ _ => ?_
  refine ofTaken_andThen_eq rfl fun _ _ _ => ?_
  exact ofTaken_mapValue_eq rfl

/-! ### Induction along the rules

The rules call each other on the same tokens only in one direction; all other calls are on fewer
tokens. -/

/-- Induction along the rules for expressions. -/
theorem expr_induct (onLevel : Nat → List Token → Prop)
    (onOperands : Nat → Expr → List Token → Prop) (onUnary onPrimary : List Token → Prop)
    (primary : ∀ tokens, (∀ rest, rest.length < tokens.length → onLevel 1 rest) →
      onPrimary tokens)
    (unary : ∀ tokens, onPrimary tokens → (∀ rest, rest.length < tokens.length → onUnary rest) →
      onUnary tokens)
    (tightest : ∀ tokens, onUnary tokens → onLevel 7 tokens)
    (level : ∀ n tokens, 1 ≤ n → n ≤ 6 → onLevel (n + 1) tokens →
      (∀ left rest, rest.length < tokens.length → onOperands n left rest) → onLevel n tokens)
    (operands : ∀ n left tokens, 1 ≤ n → n ≤ 6 →
      (∀ rest, rest.length < tokens.length → onLevel (n + 1) rest) →
      (∀ left rest, rest.length < tokens.length → onOperands n left rest) →
      onOperands n left tokens) :
    (∀ n tokens, 1 ≤ n → n ≤ 7 → onLevel n tokens) ∧
      (∀ n left tokens, 1 ≤ n → n ≤ 6 → onOperands n left tokens) ∧
      (∀ tokens, onUnary tokens) ∧ ∀ tokens, onPrimary tokens := by
  have hall : ∀ tokens : List Token, (∀ n, 1 ≤ n → n ≤ 7 → onLevel n tokens) ∧
      (∀ n left, 1 ≤ n → n ≤ 6 → onOperands n left tokens) ∧ onUnary tokens ∧
      onPrimary tokens := by
    intro tokens
    -- on the length; for one list, the rules are taken in the order in which they call each other
    induction hlength : tokens.length using Nat.strong_induction_on generalizing tokens with
    | _ length ih =>
      subst hlength
      have hprimary := primary tokens fun rest h =>
        (ih _ h rest rfl).1 1 (by omega) (by omega)
      have hunary := unary tokens hprimary fun rest h => (ih _ h rest rfl).2.2.1
      have hoperands : ∀ n left, 1 ≤ n → n ≤ 6 → onOperands n left tokens := fun n left hpos hle =>
        operands n left tokens hpos hle
          (fun rest h => (ih _ h rest rfl).1 (n + 1) (by omega) (by omega))
          fun left rest h => (ih _ h rest rfl).2.1 n left hpos hle
      refine ⟨fun n hpos hle => ?_, hoperands, hunary, hprimary⟩
      -- the levels of one list go down from the last
      refine Nat.decreasingInduction' (P := fun n => 1 ≤ n → onLevel n tokens) ?_ hle ?_ hpos
      · intro m hlt _ hnext hpos
        exact level m tokens hpos (by omega) (hnext (by omega)) fun left rest h =>
          (ih _ h rest rfl).2.1 m left hpos (by omega)
      · exact fun _ => tightest tokens hunary
  exact ⟨fun n tokens => (hall tokens).1 n, fun n left tokens => (hall tokens).2.1 n left,
    fun tokens => (hall tokens).2.2.1, fun tokens => (hall tokens).2.2.2⟩

/-- Induction along the rules for statements. -/
theorem stmt_induct (onStmt onIf onElse onBlock onStmts : List Token → Prop)
    (ifStmt : ∀ tokens, (∀ rest, rest.length < tokens.length → onBlock rest ∧ onElse rest) →
      onIf tokens)
    (stmt : ∀ tokens, onIf tokens → onStmt tokens)
    (block : ∀ tokens, (∀ rest, rest.length < tokens.length → onStmts rest) → onBlock tokens)
    (alternative : ∀ tokens, (∀ rest, rest.length < tokens.length → onIf rest ∧ onBlock rest) →
      onElse tokens)
    (stmts : ∀ tokens, onStmt tokens → (∀ rest, rest.length < tokens.length → onStmts rest) →
      onStmts tokens)
    (tokens : List Token) :
    onStmt tokens ∧ onIf tokens ∧ onElse tokens ∧ onBlock tokens ∧ onStmts tokens := by
  induction hlength : tokens.length using Nat.strong_induction_on generalizing tokens with
  | _ length ih =>
    subst hlength
    -- for one list, an `if` statement comes before statements, and these before lists of them
    have hif := ifStmt tokens fun rest h =>
      ⟨(ih _ h rest rfl).2.2.2.1, (ih _ h rest rfl).2.2.1⟩
    have hstmt := stmt tokens hif
    have hblock := block tokens fun rest h => (ih _ h rest rfl).2.2.2.2
    have helse := alternative tokens fun rest h =>
      ⟨(ih _ h rest rfl).2.1, (ih _ h rest rfl).2.2.2.1⟩
    exact ⟨hstmt, hif, helse, hblock, stmts tokens hstmt fun rest h => (ih _ h rest rfl).2.2.2.2⟩

end Parser

end CFrontEnd
