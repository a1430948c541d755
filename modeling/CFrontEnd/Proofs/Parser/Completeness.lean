import CFrontEnd.Proofs.Parser.Soundness

/-!
# What the Rules Refuse

Every phrase is taken by its rule, with its tree, whatever tokens follow it as long as they do not
continue the phrase: operators continue an expression, and an `else` continues an `if` statement.
So no rule refuses a phrase, and no decision that a rule makes on the next token is wrong.

## Main definitions

* `Ends`: the tokens do not go on with an operator of a level or tighter.
* `Complete`: what the rule of a nonterminal makes of a phrase and the tokens after it.

## Main results

* `complete_of_derives`: every phrase is taken by its rule.
-/

namespace CFrontEnd.Parser

open Outcome Grammar

/-- The tokens do not start with an operator that binds at level `n` or tighter. -/
def Ends (n : Nat) (tokens : List Token) : Prop :=
  ∀ token ∈ tokens.head?, ∀ operator : BinaryOp,
    token.is operator.kind operator.spelling = true → operator.level < n

/-- The tokens do not start with `else`. -/
def NoElse (tokens : List Token) : Prop :=
  ∀ token ∈ tokens.head?, token.isKeyword "else" = false

/-- The rule of a nonterminal takes a phrase and leaves what follows. -/
def Complete : (symbol : Nonterminal) → List Token → symbol.Tree → Prop
  -- nothing can follow a program
  | .program, used, tree => program used = .ok (tree, [])
  | .functions, used, functions =>
    (runProgram used).value.functions = functions ∧ (runProgram used).value.halt = none
  | .function, used, tree => ∀ rest, function (used ++ rest) = .ok (tree, rest)
  -- the rules for lists take the closing token as well
  | .arguments, used, tree => ∀ closing rest, closing.kind = .closeParen →
      arguments (used ++ closing :: rest) = .ok (tree, rest)
  -- the first token of a statement or a block decides which rule is asked for it
  | .block, used, tree =>
    (∃ first more, used = first :: more ∧ first.kind = .openBrace) ∧
      ∀ rest, block (used ++ rest) = .ok (tree, rest)
  | .stmts, used, tree => NoElse used ∧ ∀ closing rest, closing.kind = .closeBrace →
      stmts (used ++ closing :: rest) = .ok (tree, rest)
  | .stmt, used, tree =>
    (∃ first more, used = first :: more ∧ first.kind ≠ .closeBrace ∧
      first.isKeyword "else" = false) ∧
      ∀ rest, NoElse rest → stmt (used ++ rest) = .ok (tree, rest)
  | .conditional, used, tree =>
    (∃ first more, used = first :: more ∧ first.isKeyword "if" = true) ∧
      ∀ rest, NoElse rest → ifStmt (used ++ rest) = .ok (tree, rest)
  -- operators of the level or tighter would go on with the expression
  | .level n, used, tree => 1 ≤ n → ∀ rest, Ends n rest →
      level n (used ++ rest) = .ok (tree, rest)
  | .operations n, used, operations => 1 ≤ n → ∀ rest, Ends n rest → Ends (n + 1) (used ++ rest) ∧
      ∀ left, operands n left (used ++ rest) = .ok (chain left operations, rest)
  | .unary, used, tree | .primary, used, tree => ∀ rest, unary (used ++ rest) = .ok (tree, rest)

/-! ### The next token -/

theorem mark_cons {token : Token} {kind : TokenKind} (h : token.kind = kind)
    (rest : List Token) : mark kind (token :: rest) = .ok (token, rest) :=
  mark_eq_ok_iff.mpr ⟨rfl, h⟩

theorem equals_cons {token : Token} (h : token.is .assignmentOperator "=" = true)
    (rest : List Token) : equals (token :: rest) = .ok (token, rest) :=
  equals_eq_ok_iff.mpr ⟨rfl, h⟩

theorem typeName_cons {token : Token} (h : token.isTypeName = true) (rest : List Token) :
    typeName (token :: rest) = .ok (token.lexeme, rest) :=
  typeName_eq_ok_iff.mpr ⟨token, rfl, h, rfl⟩

theorem name_cons {token : Token} (h : token.kind = .identifier) (rest : List Token) :
    name (token :: rest) = .ok (token.lexeme, rest) :=
  name_eq_ok_iff.mpr ⟨token, rfl, h, rfl⟩

theorem assignOp_cons {token : Token} {operator : AssignOp}
    (h : token.is .assignmentOperator operator.spelling = true) (rest : List Token) :
    assignOp (token :: rest) = .ok (operator, rest) :=
  assignOp_eq_ok_iff.mpr ⟨token, rfl, h⟩

/-! ### Expressions -/

theorem Ends.succ {n : Nat} {tokens : List Token} (h : Ends n tokens) : Ends (n + 1) tokens :=
  fun token hhead operator hspells => Nat.lt_succ_of_lt (h token hhead operator hspells)

theorem ends_cons_of_is {token : Token} {operator : BinaryOp}
    (h : token.is operator.kind operator.spelling = true) (rest : List Token) :
    Ends (operator.level + 1) (token :: rest) := by
  intro first hhead other hother
  obtain rfl := Option.some.inj hhead
  -- the token spells one operator only
  rw [BinaryOp.eq_of_is hother h]
  exact Nat.lt_succ_self _

/-- A token that can spell no operator ends an expression. -/
theorem ends_cons_of_kind {token : Token} (h : token.kind.isOperator = false) (n : Nat)
    (rest : List Token) : Ends n (token :: rest) := by
  intro first hhead operator hspells
  obtain rfl := Option.some.inj hhead
  rw [BinaryOp.isOperator_of_is hspells] at h
  exact absurd h (by decide)

theorem operands_of_ends {n : Nat} {tokens : List Token} (h : Ends n tokens) (left : Expr) :
    operands n left tokens = .ok (left, tokens) := by
  cases tokens with
  | nil => exact operands_nil n left
  | cons token rest =>
    refine operands_cons_of_none ?_ left rest
    cases hsign : BinaryOp.among? (BinaryOp.ofLevel n) token with
    | none => rfl
    | some operator =>
      obtain ⟨hspells, hlevel⟩ := BinaryOp.among?_ofLevel_eq_some_iff.mp hsign
      exact absurd hlevel (Nat.ne_of_lt (h token rfl operator hspells))

theorem unary_cons_of_kind {token : Token} (h : token.kind.isOperator = false)
    (rest : List Token) : unary (token :: rest) = primary (token :: rest) :=
  unary_cons_of_none (UnaryOp.ofToken?_eq_none h) rest

theorem unary_integer {token : Token} {value : Int64} (hkind : token.kind = .integer)
    (hvalue : token.value = some (.int value)) (rest : List Token) :
    unary (token :: rest) = .ok (.constant (.int value), rest) := by
  rw [unary_cons_of_kind (by rw [hkind]; rfl), primary_cons]
  simp [hkind, Token.literal, hvalue]

theorem unary_float {token : Token} {value : Binary64} (hkind : token.kind = .float)
    (hvalue : token.value = some (.float value)) (rest : List Token) :
    unary (token :: rest) = .ok (.constant (.float value), rest) := by
  rw [unary_cons_of_kind (by rw [hkind]; rfl), primary_cons]
  simp [hkind, Token.literal, hvalue]

theorem unary_string {token : Token} {body : String} (hkind : token.kind = .string)
    (hbody : token.stringBody? = some body) (rest : List Token) :
    unary (token :: rest) = .ok (.constant (.string body), rest) := by
  rw [unary_cons_of_kind (by rw [hkind]; rfl), primary_cons]
  simp [hkind, Token.literal, hbody]

theorem unary_variable {token : Token} (hkind : token.kind = .identifier) (rest : List Token) :
    unary (token :: rest) = .ok (.variable token.lexeme, rest) := by
  rw [unary_cons_of_kind (by rw [hkind]; rfl), primary_cons]
  simp [hkind]

/-- The closing parenthesis of an expression. -/
theorem enclosed_complete {inner rest : List Token} {closing : Token} {value : Expr}
    (hinner : Complete .expr inner value) (hclosing : closing.kind = .closeParen) :
    enclosed (inner ++ closing :: rest) = .ok (value, rest) := by
  have hends : Ends 1 (closing :: rest) :=
    ends_cons_of_kind (by rw [hclosing]; rfl) _ _
  rw [enclosed, expr_eq, hinner (Nat.le_refl 1) _ hends, andThen_ok, mark_cons hclosing, andThen_ok]

theorem unary_parentheses {opening closing : Token} {inner : List Token} {value : Expr}
    (hopening : opening.kind = .openParen) (hinner : Complete .expr inner value)
    (hclosing : closing.kind = .closeParen) (rest : List Token) :
    unary (opening :: (inner ++ [closing]) ++ rest) = .ok (value, rest) := by
  rw [List.cons_append, List.append_assoc, List.singleton_append,
    unary_cons_of_kind (by rw [hopening]; rfl), primary_cons]
  simp only [hopening]
  exact enclosed_complete hinner hclosing

theorem operations_complete {n : Nat} {sign : Token} {operator : BinaryOp}
    {operand used : List Token} {right : Expr} {operations : List (BinaryOp × Expr)}
    (hspells : sign.is operator.kind operator.spelling = true) (hlevel : operator.level = n)
    (hoperand : Complete (.level (n + 1)) operand right)
    (hused : Complete (.operations n) used operations) :
    Complete (.operations n) (sign :: (operand ++ used)) ((operator, right) :: operations) := by
  intro hpos rest hends
  obtain ⟨hmore, htake⟩ := hused hpos rest hends
  -- an operator of level `n` ends the tighter operand in front of it
  refine ⟨hlevel ▸ ends_cons_of_is hspells _, fun left => ?_⟩
  have hsign := BinaryOp.among?_ofLevel_eq_some_iff.mpr ⟨hspells, hlevel⟩
  rw [List.cons_append, List.append_assoc, operands_cons_of_some hsign,
    hoperand (by omega) _ hmore, andThen_ok, htake]
  rfl

theorem level_complete {n : Nat} {first used : List Token} {left : Expr}
    {operations : List (BinaryOp × Expr)} (hle : n ≤ 6)
    (hfirst : Complete (.level (n + 1)) first left)
    (hused : Complete (.operations n) used operations) :
    Complete (.level n) (first ++ used) (chain left operations) := by
  intro hpos rest hends
  obtain ⟨hmore, htake⟩ := hused hpos rest hends
  rw [List.append_assoc, level_eq hpos hle, hfirst (by omega) _ hmore, andThen_ok, htake]

/-! ### Statements -/

/-- An expression and the semicolon after it. -/
theorem expr_semicolon {inner : List Token} {semicolon : Token} {value : Expr}
    (hinner : Complete .expr inner value) (hsemicolon : semicolon.kind = .semicolon)
    (rest : List Token) :
    expr (inner ++ semicolon :: rest) = .ok (value, semicolon :: rest) := by
  rw [expr_eq]
  exact hinner (Nat.le_refl 1) _
    (ends_cons_of_kind (by rw [hsemicolon]; rfl) _ _)

theorem ret_complete {word semicolon : Token} {inner : List Token} {value : Expr}
    (hword : word.isKeyword "return" = true) (hinner : Complete .expr inner value)
    (hsemicolon : semicolon.kind = .semicolon) :
    Complete .stmt (word :: (inner ++ [semicolon])) (.ret value) := by
  have hkind : word.kind = .keyword ∧ word.lexeme = "return" := by
    simpa [Token.isKeyword, Token.is] using hword
  refine ⟨⟨word, _, rfl, by simp [hkind], by simp [Token.isKeyword, Token.is, hkind]⟩,
    fun rest _ => ?_⟩
  rw [List.cons_append, List.append_assoc, List.singleton_append, stmt_cons, if_pos hword,
    returned, expr_semicolon hinner hsemicolon, andThen_ok, mark_cons hsemicolon, andThen_ok]

/-- A type name is no other reserved word. -/
theorem isKeyword_eq_false_of_isTypeName {token : Token} (h : token.isTypeName = true)
    (word : String) (hword : typeNames.contains word = false) : token.isKeyword word = false := by
  rw [Bool.eq_false_iff]
  intro hkeyword
  simp only [Token.isKeyword, Token.is, Token.isTypeName, Bool.and_eq_true, beq_iff_eq]
    at h hkeyword
  rw [hkeyword.2, hword] at h
  exact absurd h.2 (by decide)

/-- Only reserved words are of their kind. -/
theorem isKeyword_eq_false_of_kind {token : Token} (h : token.kind ≠ .keyword) (word : String) :
    token.isKeyword word = false := by
  simp [Token.isKeyword, Token.is, h]

theorem kind_of_isTypeName {token : Token} (h : token.isTypeName = true) :
    token.kind = .keyword := by
  simp only [Token.isTypeName, Bool.and_eq_true, beq_iff_eq] at h
  exact h.1

theorem kind_of_isKeyword {token : Token} {word : String} (h : token.isKeyword word = true) :
    token.kind = .keyword :=
  Token.kind_of_is h

/-- A token is at most one reserved word. -/
theorem isKeyword_eq_false_of_ne {token : Token} {word other : String}
    (h : token.isKeyword word = true) (hne : word ≠ other) : token.isKeyword other = false := by
  simp only [Token.isKeyword, Token.is, Bool.and_eq_true, beq_iff_eq] at h
  simp [Token.isKeyword, Token.is, h, hne]

/-- A type name at the front starts a declaration. -/
theorem stmt_cons_of_isTypeName {token : Token} (h : token.isTypeName = true)
    (rest : List Token) : stmt (token :: rest) = declaration (token :: rest) := by
  simp [stmt_cons, h, isKeyword_eq_false_of_isTypeName h "return" (by decide),
    isKeyword_eq_false_of_isTypeName h "if" (by decide)]

/-- A name at the front starts an assignment. -/
theorem stmt_cons_of_identifier {token : Token} (h : token.kind = .identifier)
    (rest : List Token) : stmt (token :: rest) = assignment (token :: rest) := by
  have hword : ∀ word, token.isKeyword word = false :=
    isKeyword_eq_false_of_kind (by simp [h])
  have htype : token.isTypeName = false := by simp [Token.isTypeName, h]
  simp [stmt_cons, hword, htype, h]

theorem assignment_complete {name sign semicolon : Token} {operator : AssignOp}
    {inner : List Token} {value : Expr} (hname : name.kind = .identifier)
    (hsign : sign.is .assignmentOperator operator.spelling = true)
    (hinner : Complete .expr inner value) (hsemicolon : semicolon.kind = .semicolon) :
    Complete .stmt (name :: sign :: (inner ++ [semicolon]))
      (.assignment operator name.lexeme value) := by
  refine ⟨⟨name, _, rfl, by simp [hname], isKeyword_eq_false_of_kind (by simp [hname]) _⟩,
    fun rest _ => ?_⟩
  simp only [List.cons_append, List.append_assoc, List.nil_append]
  rw [stmt_cons_of_identifier hname, assignment, name_cons hname, andThen_ok, assignOp_cons hsign,
    andThen_ok, expr_semicolon hinner hsemicolon, andThen_ok, mark_cons hsemicolon, andThen_ok]

theorem declaration_complete {typeName name semicolon : Token}
    (htype : typeName.isTypeName = true) (hname : name.kind = .identifier)
    (hsemicolon : semicolon.kind = .semicolon) :
    Complete .stmt [typeName, name, semicolon]
      (.declaration typeName.lexeme name.lexeme none) := by
  refine ⟨⟨typeName, _, rfl, by simp [kind_of_isTypeName htype],
    isKeyword_eq_false_of_isTypeName htype _ (by decide)⟩, fun rest _ => ?_⟩
  simp only [List.cons_append, List.nil_append]
  rw [stmt_cons_of_isTypeName htype, declaration, typeName_cons htype, andThen_ok,
    name_cons hname, andThen_ok, initializer_eq, mark_cons hsemicolon]
  rfl

theorem initialized_complete {typeName name sign semicolon : Token} {inner : List Token}
    {value : Expr} (htype : typeName.isTypeName = true) (hname : name.kind = .identifier)
    (hsign : sign.is .assignmentOperator "=" = true) (hinner : Complete .expr inner value)
    (hsemicolon : semicolon.kind = .semicolon) :
    Complete .stmt (typeName :: name :: sign :: (inner ++ [semicolon]))
      (.declaration typeName.lexeme name.lexeme (some value)) := by
  refine ⟨⟨typeName, _, rfl, by simp [kind_of_isTypeName htype],
    isKeyword_eq_false_of_isTypeName htype _ (by decide)⟩, fun rest _ => ?_⟩
  have hkind : sign.kind = .assignmentOperator := Token.kind_of_is hsign
  simp only [List.cons_append, List.append_assoc, List.nil_append]
  -- the `=` is no semicolon, so the rule goes on to the value
  rw [stmt_cons_of_isTypeName htype, declaration, typeName_cons htype, andThen_ok,
    name_cons hname, andThen_ok, initializer_eq, mark_cons_of_ne (by simp [hkind])]
  simp only
  rw [equals_cons hsign, andThen_ok, expr_semicolon hinner hsemicolon, andThen_ok,
    mark_cons hsemicolon, andThen_ok, andThen_ok]

/-- An `if` statement up to its `else`. -/
theorem branches_complete {opening closing : Token} {inner body rest rest' : List Token}
    {condition : Expr} {statements : List Stmt} {elseBody : Option (List Stmt)}
    (hopening : opening.kind = .openParen) (hinner : Complete .expr inner condition)
    (hclosing : closing.kind = .closeParen) (hbody : Complete .block body statements)
    (helse : alternative rest = .ok (elseBody, rest')) :
    branches (opening :: (inner ++ closing :: (body ++ rest))) =
      .ok (conditional condition statements elseBody, rest') := by
  have hends : Ends 1 (closing :: (body ++ rest)) :=
    ends_cons_of_kind (by rw [hclosing]; rfl) _ _
  rw [branches, mark_cons hopening, andThen_ok, expr_eq, hinner (Nat.le_refl 1) _ hends,
    andThen_ok, mark_cons hclosing, andThen_ok, hbody.2, andThen_ok, helse, andThen_ok]

theorem alternative_of_noElse {tokens : List Token} (h : NoElse tokens) :
    alternative tokens = .ok (none, tokens) := by
  cases tokens with
  | nil => exact alternative_nil
  | cons token rest => simp [alternative_cons, h token rfl]

theorem ifThen_complete {word opening closing : Token} {inner body : List Token}
    {condition : Expr} {statements : List Stmt} (hword : word.isKeyword "if" = true)
    (hopening : opening.kind = .openParen) (hinner : Complete .expr inner condition)
    (hclosing : closing.kind = .closeParen) (hbody : Complete .block body statements) :
    Complete .conditional (word :: opening :: (inner ++ closing :: body))
      (.ifThen condition statements) := by
  refine ⟨⟨word, _, rfl, hword⟩, fun rest hrest => ?_⟩
  simp only [List.cons_append, List.append_assoc]
  rw [ifStmt_cons hword]
  exact branches_complete hopening hinner hclosing hbody (alternative_of_noElse hrest)

theorem ifElse_complete {word opening closing other : Token} {inner body used : List Token}
    {condition : Expr} {statements elseStatements : List Stmt}
    (hword : word.isKeyword "if" = true) (hopening : opening.kind = .openParen)
    (hinner : Complete .expr inner condition) (hclosing : closing.kind = .closeParen)
    (hbody : Complete .block body statements) (hother : other.isKeyword "else" = true)
    (hused : Complete .block used elseStatements) :
    Complete .conditional (word :: opening :: (inner ++ closing :: (body ++ other :: used)))
      (.ifElse condition statements elseStatements) := by
  obtain ⟨⟨first, more, rfl, hfirst⟩, hblock⟩ := hused
  refine ⟨⟨word, _, rfl, hword⟩, fun rest _ => ?_⟩
  have helse : alternative (other :: (first :: more ++ rest)) =
      .ok (some elseStatements, rest) := by
    -- a block starts with a brace, so no `if` is looked for
    have hif : startsWith "if" (first :: more ++ rest) = false :=
      isKeyword_eq_false_of_kind (by simp [hfirst]) _
    rw [alternative_cons, if_pos hother, hif, if_neg (by decide), hblock, andThen_ok]
  simp only [List.cons_append, List.append_assoc]
  rw [ifStmt_cons hword]
  exact branches_complete hopening hinner hclosing hbody helse

theorem elseIf_complete {word opening closing other : Token} {inner body used : List Token}
    {condition : Expr} {statements : List Stmt} {statement : Stmt}
    (hword : word.isKeyword "if" = true) (hopening : opening.kind = .openParen)
    (hinner : Complete .expr inner condition) (hclosing : closing.kind = .closeParen)
    (hbody : Complete .block body statements) (hother : other.isKeyword "else" = true)
    (hused : Complete .conditional used statement) :
    Complete .conditional (word :: opening :: (inner ++ closing :: (body ++ other :: used)))
      (.ifElse condition statements [statement]) := by
  obtain ⟨⟨first, more, rfl, hfirst⟩, hif⟩ := hused
  refine ⟨⟨word, _, rfl, hword⟩, fun rest hrest => ?_⟩
  have helse : alternative (other :: (first :: more ++ rest)) =
      .ok (some [statement], rest) := by
    have hstarts : startsWith "if" (first :: more ++ rest) = true := hfirst
    rw [alternative_cons, if_pos hother, hstarts, if_pos rfl, hif rest hrest, andThen_ok]
  simp only [List.cons_append, List.append_assoc]
  rw [ifStmt_cons hword]
  exact branches_complete hopening hinner hclosing hbody helse

theorem conditional_complete {used : List Token} {statement : Stmt}
    (h : Complete .conditional used statement) : Complete .stmt used statement := by
  obtain ⟨⟨first, more, rfl, hfirst⟩, hif⟩ := h
  refine ⟨⟨first, more, rfl, by simp [kind_of_isKeyword hfirst],
    isKeyword_eq_false_of_ne hfirst (by decide)⟩, fun rest hrest => ?_⟩
  have hreturn : first.isKeyword "return" = false := isKeyword_eq_false_of_ne hfirst (by decide)
  rw [List.cons_append, stmt_cons, hreturn, if_neg (by decide), if_pos hfirst,
    ← ifStmt_cons hfirst]
  exact hif rest hrest

theorem block_complete {opening closing : Token} {inner : List Token} {statements : List Stmt}
    (hopening : opening.kind = .openBrace) (hinner : Complete .stmts inner statements)
    (hclosing : closing.kind = .closeBrace) :
    Complete .block (opening :: (inner ++ [closing])) statements := by
  refine ⟨⟨opening, _, rfl, hopening⟩, fun rest => ?_⟩
  rw [List.cons_append, List.append_assoc, List.singleton_append, block_eq, mark_cons hopening,
    andThen_ok]
  exact hinner.2 closing rest hclosing

theorem stmts_complete {first used : List Token} {statement : Stmt} {statements : List Stmt}
    (hfirst : Complete .stmt first statement) (hused : Complete .stmts used statements) :
    Complete .stmts (first ++ used) (statement :: statements) := by
  obtain ⟨⟨token, more, rfl, hkind, helse⟩, hstmt⟩ := hfirst
  obtain ⟨hnoElse, hstmts⟩ := hused
  refine ⟨fun _ hhead => Option.some.inj hhead ▸ helse, fun closing rest hclosing => ?_⟩
  -- neither a further statement nor the closing brace takes up an `if` with an `else`
  have hafter : NoElse (used ++ closing :: rest) := by
    cases used with
    | nil =>
      intro _ hhead
      obtain rfl := Option.some.inj hhead
      exact isKeyword_eq_false_of_kind (by simp [hclosing]) _
    | cons => exact hnoElse
  rw [List.append_assoc, List.cons_append, stmts_cons, if_neg hkind, ← List.cons_append,
    hstmt _ hafter, andThen_ok, hstmts closing rest hclosing, andThen_ok]

/-! ### Functions and programs -/

theorem arguments_complete {typeName name : Token} {used : List Token}
    {parameters : List Argument} (htype : typeName.isTypeName = true)
    (hname : name.kind = .identifier) (hused : Complete .arguments used parameters) :
    Complete .arguments (typeName :: name :: used)
      ({ typeName := typeName.lexeme, name := name.lexeme } :: parameters) := by
  intro closing rest hclosing
  rw [List.cons_append, List.cons_append, arguments_eq,
    mark_cons_of_ne (by simp [kind_of_isTypeName htype])]
  simp only [moreArguments]
  rw [typeName_cons htype, andThen_ok, name_cons hname, andThen_ok, hused closing rest hclosing,
    andThen_ok]

theorem function_complete {typeName name opening closing : Token} {parameters body : List Token}
    {arguments : List Argument} {statements : List Stmt} (htype : typeName.isTypeName = true)
    (hname : name.kind = .identifier) (hopening : opening.kind = .openParen)
    (hparameters : Complete .arguments parameters arguments)
    (hclosing : closing.kind = .closeParen) (hbody : Complete .block body statements) :
    Complete .function (typeName :: name :: opening :: (parameters ++ closing :: body))
      { returnType := typeName.lexeme, name := name.lexeme, arguments, body := statements } := by
  intro rest
  simp only [List.cons_append, List.append_assoc]
  rw [function_eq, typeName_cons htype, andThen_ok, name_cons hname, andThen_ok,
    mark_cons hopening, andThen_ok, hparameters closing _ hclosing, andThen_ok, hbody.2, andThen_ok]

/-- A function at the front of the tokens starts the program. -/
theorem runProgram_append {first rest : List Token} {tree : FunctionDef}
    (h : function (first ++ rest) = .ok (tree, rest)) :
    (runProgram (first ++ rest)).value.functions = tree :: (runProgram rest).value.functions ∧
      (runProgram (first ++ rest)).value.halt = (runProgram rest).value.halt := by
  cases hcons : first ++ rest with
  -- a function has at least one token
  | nil => simp [hcons, function_eq, typeName] at h
  | cons token more =>
    rw [hcons] at h
    cases htake : takeFunction (token :: more) with
    | error stopped => simp [function, htake] at h
    | ok taken =>
      simp only [function, htake, ofTaken_ok, Except.ok.injEq, Prod.mk.injEq] at h
      obtain ⟨rfl, rfl⟩ := h
      simp [runProgram_of_ok htake]

/-- Every phrase is taken by its rule, with its tree. -/
theorem complete_of_derives {symbol : Nonterminal} {used : List Token} {tree : symbol.Tree}
    (h : Derives symbol used tree) : Complete symbol used tree := by
  -- along the derivation, one lemma for each rule of the grammar
  induction h with
  | program _ ih => rw [Complete, program_eq, ih.1, ih.2]
  | noFunction => simp [Complete, runProgram]
  | functions _ _ hfirst hrest =>
    obtain ⟨hfunctions, hhalt⟩ := runProgram_append (hfirst _)
    exact ⟨by rw [hfunctions, hrest.1], hhalt.trans hrest.2⟩
  | function htype hname hopening _ hclosing _ hparameters hbody =>
    exact function_complete htype hname hopening hparameters hclosing hbody
  | noArgument =>
    intro closing rest hclosing
    rw [List.nil_append, arguments_eq, mark_cons hclosing]
  | arguments htype hname _ ih => exact arguments_complete htype hname ih
  | block hopening _ hclosing ih => exact block_complete hopening ih hclosing
  | noStmt =>
    refine ⟨fun _ hhead => by simp at hhead, fun closing rest hclosing => ?_⟩
    rw [List.nil_append, stmts_cons, if_pos hclosing]
  | stmts _ _ hfirst hrest => exact stmts_complete hfirst hrest
  | ret hword _ hsemicolon ih => exact ret_complete hword ih hsemicolon
  | assignment hname hsign _ hsemicolon ih => exact assignment_complete hname hsign ih hsemicolon
  | declaration htype hname hsemicolon => exact declaration_complete htype hname hsemicolon
  | initialized htype hname hsign _ hsemicolon ih =>
    exact initialized_complete htype hname hsign ih hsemicolon
  | conditional _ ih => exact conditional_complete ih
  | ifThen hword hopening _ hclosing _ hinner hbody =>
    exact ifThen_complete hword hopening hinner hclosing hbody
  | ifElse hword hopening _ hclosing _ hother _ hinner hbody hused =>
    exact ifElse_complete hword hopening hinner hclosing hbody hother hused
  | elseIf hword hopening _ hclosing _ hother _ hinner hbody hused =>
    exact elseIf_complete hword hopening hinner hclosing hbody hother hused
  | level hle _ _ hfirst hrest => exact level_complete hle hfirst hrest
  | tightest _ ih =>
    intro _ rest _
    rw [level_seven]
    exact ih rest
  | noOperation => exact fun _ rest hends => ⟨hends.succ, operands_of_ends hends⟩
  | operations hspells hlevel _ _ hoperand hrest =>
    exact operations_complete hspells hlevel hoperand hrest
  | unary hspells _ ih =>
    intro rest
    rw [List.cons_append, unary_cons_of_some (UnaryOp.ofToken?_eq_some_iff.mpr hspells), ih rest,
      andThen_ok]
  | primary _ ih => exact ih
  | integer hkind hvalue => exact unary_integer hkind hvalue
  | float hkind hvalue => exact unary_float hkind hvalue
  | string hkind hbody => exact unary_string hkind hbody
  | name hkind => exact unary_variable hkind
  | parentheses hopening _ hclosing ih => exact unary_parentheses hopening ih hclosing

end CFrontEnd.Parser
