import CFrontEnd.Proofs.Parser.Rules

/-!
# What the Rules Accept

Every success of a rule comes with a derivation: the tokens that the rule took form a phrase of its
nonterminal, and the value is the tree of that phrase. The rules for parameters and statements also
take the token that closes the list.

## Main results

* `level_sound`, `stmt_sound`, `block_sound`, `function_sound`, `program_sound`: a success of the
  rule is a derivation.
-/

namespace CFrontEnd.Parser

open Outcome Grammar

/-- A success leaves the tokens after a phrase of the nonterminal, with the tree of the phrase. -/
def Sound (symbol : Nonterminal) (tokens : List Token) (outcome : Outcome symbol.Tree) : Prop :=
  ∀ value rest, outcome = .ok (value, rest) →
    ∃ used, tokens = used ++ rest ∧ Derives symbol used value

/-- A success leaves the tokens after a phrase of the nonterminal and a closing token. -/
def SoundUpTo (kind : TokenKind) (symbol : Nonterminal) (tokens : List Token)
    (outcome : Outcome symbol.Tree) : Prop :=
  ∀ value rest, outcome = .ok (value, rest) →
    ∃ used closing, tokens = used ++ closing :: rest ∧ closing.kind = kind ∧
      Derives symbol used value

theorem mark_eq_ok_iff {kind : TokenKind} {tokens rest : List Token} {token : Token} :
    mark kind tokens = .ok (token, rest) ↔ tokens = token :: rest ∧ token.kind = kind := by
  simp [mark, demand_eq_ok_iff, Option.guard_eq_some_iff]

theorem equals_eq_ok_iff {tokens rest : List Token} {token : Token} :
    equals tokens = .ok (token, rest) ↔
      tokens = token :: rest ∧ token.is .assignmentOperator "=" = true := by
  simp [equals, demand_eq_ok_iff, Option.guard_eq_some_iff]

theorem typeName_eq_ok_iff {tokens rest : List Token} {text : String} :
    typeName tokens = .ok (text, rest) ↔
      ∃ token, tokens = token :: rest ∧ token.isTypeName = true ∧ token.lexeme = text := by
  simp [typeName, demand_eq_ok_iff]

theorem name_eq_ok_iff {tokens rest : List Token} {text : String} :
    name tokens = .ok (text, rest) ↔
      ∃ token, tokens = token :: rest ∧ token.kind = .identifier ∧ token.lexeme = text := by
  simp [name, demand_eq_ok_iff]

theorem assignOp_eq_ok_iff {tokens rest : List Token} {operator : AssignOp} :
    assignOp tokens = .ok (operator, rest) ↔
      ∃ token, tokens = token :: rest ∧
        token.is .assignmentOperator operator.spelling = true := by
  simp [assignOp, demand_eq_ok_iff, AssignOp.ofToken?_eq_some_iff]

/-! ### Expressions -/

/-- The operations after an operand form a phrase, and the value groups them to the left. -/
def OperandsSound (n : Nat) (left : Expr) (tokens : List Token) : Prop :=
  ∀ value rest, operands n left tokens = .ok (value, rest) →
    ∃ used operations, tokens = used ++ rest ∧ Derives (.operations n) used operations ∧
      value = chain left operations

/-- The literal of a token is the value of a number or the body of a string. -/
theorem derives_literal {token : Token} {literal : Literal}
    (hkind : token.kind = .integer ∨ token.kind = .float ∨ token.kind = .string)
    (h : token.literal = .ok literal) : Derives .primary [token] (.constant literal) := by
  unfold Token.literal at h
  split at h
  · next hstring =>
    split at h
    · next body hbody =>
      obtain rfl := Except.ok.inj h
      exact .string hstring hbody
    · simp at h
  · next hstring =>
    split at h
    · next value hvalue =>
      obtain rfl := Except.ok.inj h
      -- a float never has an integer for its value
      have hint : token.kind = .integer := by
        rcases hkind with hint | hfloat | hstr
        · exact hint
        · simp [Token.value, hfloat] at hvalue
        · exact absurd hstr hstring
      exact .integer hint hvalue
    · next value hvalue =>
      obtain rfl := Except.ok.inj h
      have hfloat : token.kind = .float := by
        rcases hkind with hint | hfloat | hstr
        · simp [Token.value, hint] at hvalue
        · exact hfloat
        · exact absurd hstr hstring
      exact .float hfloat hvalue
    · simp at h

theorem primary_sound_step {tokens : List Token}
    (hexpr : ∀ rest, rest.length < tokens.length → Sound .expr rest (level 1 rest)) :
    Sound .primary tokens (primary tokens) := by
  intro value rest h
  cases tokens with
  | nil => simp at h
  | cons token tokens =>
    rw [primary_cons] at h
    split at h
    -- a name
    case h_4 hkind =>
      obtain ⟨rfl, rfl⟩ := Prod.mk.inj (Except.ok.inj h)
      exact ⟨[token], rfl, .name hkind⟩
    -- an expression in parentheses
    case h_5 hkind =>
      simp only [enclosed, expr_eq, andThen_eq_ok_iff, mark_eq_ok_iff, Except.ok.injEq,
        Prod.mk.injEq] at h
      obtain ⟨inner, _, hinner, closing, _, ⟨rfl, hclosing⟩, rfl, rfl⟩ := h
      obtain ⟨used, rfl, hderives⟩ := hexpr _ (by simp) inner _ hinner
      exact ⟨token :: (used ++ [closing]), by simp, .parentheses hkind hderives hclosing⟩
    case h_6 => simp at h
    -- the three kinds of literals
    all_goals
      next hkind =>
      split at h
      · next literal hliteral =>
        obtain ⟨rfl, rfl⟩ := Prod.mk.inj (Except.ok.inj h)
        exact ⟨[token], rfl, derives_literal (by simp [hkind]) hliteral⟩
      · simp at h

theorem unary_sound_step {tokens : List Token}
    (hprimary : Sound .primary tokens (primary tokens))
    (hunary : ∀ rest, rest.length < tokens.length → Sound .unary rest (unary rest)) :
    Sound .unary tokens (unary tokens) := by
  intro value rest h
  cases tokens with
  | nil => simp at h
  | cons token tokens =>
    cases hsign : UnaryOp.ofToken? token with
    | none =>
      rw [unary_cons_of_none hsign] at h
      obtain ⟨used, hused, hderives⟩ := hprimary value rest h
      exact ⟨used, hused, .primary hderives⟩
    | some operator =>
      rw [unary_cons_of_some hsign, andThen_eq_ok_iff] at h
      obtain ⟨operand, middle, hoperand, hvalue⟩ := h
      obtain ⟨rfl, rfl⟩ := Prod.mk.inj (Except.ok.inj hvalue)
      obtain ⟨used, rfl, hderives⟩ := hunary _ (by simp) operand middle hoperand
      exact ⟨token :: used, rfl, .unary (UnaryOp.ofToken?_eq_some_iff.mp hsign) hderives⟩

theorem operands_sound_step {n : Nat} {left : Expr} {tokens : List Token}
    (hlevel : ∀ rest, rest.length < tokens.length →
      Sound (.level (n + 1)) rest (level (n + 1) rest))
    (hoperands : ∀ left rest, rest.length < tokens.length → OperandsSound n left rest) :
    OperandsSound n left tokens := by
  intro value rest h
  cases tokens with
  | nil =>
    rw [operands_nil] at h
    obtain ⟨rfl, rfl⟩ := Prod.mk.inj (Except.ok.inj h)
    exact ⟨[], [], rfl, .noOperation, rfl⟩
  | cons token tokens =>
    cases hsign : BinaryOp.among? (BinaryOp.ofLevel n) token with
    | none =>
      rw [operands_cons_of_none hsign] at h
      obtain ⟨rfl, rfl⟩ := Prod.mk.inj (Except.ok.inj h)
      exact ⟨[], [], rfl, .noOperation, rfl⟩
    | some operator =>
      rw [operands_cons_of_some hsign, andThen_eq_ok_iff] at h
      obtain ⟨right, middle, hright, hmore⟩ := h
      -- the later operations are grouped around this one, with `left` at the far left
      obtain ⟨used, rfl, hderives⟩ := hlevel _ (by simp) right middle hright
      obtain ⟨later, operations, rfl, hlater, rfl⟩ :=
        hoperands _ _ (by grind) value rest hmore
      obtain ⟨hspells, hlevel⟩ := BinaryOp.among?_ofLevel_eq_some_iff.mp hsign
      exact ⟨token :: (used ++ later), (operator, right) :: operations, by simp,
        .operations hspells hlevel hderives hlater, rfl⟩

theorem level_sound_step {n : Nat} {tokens : List Token} (hpos : 1 ≤ n) (hle : n ≤ 6)
    (hnext : Sound (.level (n + 1)) tokens (level (n + 1) tokens))
    (hoperands : ∀ left rest, rest.length < tokens.length → OperandsSound n left rest) :
    Sound (.level n) tokens (level n tokens) := by
  intro value rest h
  rw [level_eq hpos hle, andThen_eq_ok_iff] at h
  obtain ⟨left, middle, hleft, hmore⟩ := h
  -- the operand is not empty, so the operations start on a shorter list
  obtain ⟨later, operations, hmiddle, hlater, rfl⟩ :=
    hoperands left middle (length_lt_of_ofTaken hleft) value rest hmore
  obtain ⟨used, rfl, hderives⟩ := hnext left middle hleft
  exact ⟨used ++ later, by simp [hmiddle], .level hle hderives hlater⟩

/-- An expression of a level that the parser takes is a phrase of that level. -/
theorem level_sound {n : Nat} (hpos : 1 ≤ n) (hle : n ≤ 7) (tokens : List Token) :
    Sound (.level n) tokens (level n tokens) := by
  refine (expr_induct (fun n tokens => Sound (.level n) tokens (level n tokens)) OperandsSound
    (fun tokens => Sound .unary tokens (unary tokens))
    (fun tokens => Sound .primary tokens (primary tokens)) ?_ ?_ ?_ ?_ ?_).1 n tokens hpos hle
  · exact fun _ => primary_sound_step
  · exact fun _ => unary_sound_step
  · intro tokens h value rest hvalue
    rw [level_seven] at hvalue
    obtain ⟨used, hused, hderives⟩ := h value rest hvalue
    exact ⟨used, hused, .tightest hderives⟩
  · exact fun _ _ => level_sound_step
  · exact fun _ _ _ _ _ => operands_sound_step

theorem expr_sound (tokens : List Token) : Sound .expr tokens (expr tokens) := by
  rw [expr_eq]
  exact level_sound (by decide) (by decide) tokens

/-! ### Statements -/

/-- What the parser takes after the body of an `if`: nothing, or an `else` with a block or with
another `if`. -/
def AlternativeSound (tokens : List Token) : Prop :=
  ∀ value rest, alternative tokens = .ok (value, rest) →
    match value with
    | none => tokens = rest
    | some body =>
      ∃ word used, tokens = word :: (used ++ rest) ∧ word.isKeyword "else" = true ∧
        (Derives .block used body ∨
          ∃ statement, body = [statement] ∧ Derives .conditional used statement)

theorem returned_sound {word : Token} (hword : word.isKeyword "return" = true)
    (tokens : List Token) : Sound .stmt (word :: tokens) (returned tokens) := by
  intro value rest h
  simp only [returned, andThen_eq_ok_iff, mark_eq_ok_iff, Except.ok.injEq, Prod.mk.injEq] at h
  obtain ⟨inner, _, hinner, semicolon, _, ⟨rfl, hsemicolon⟩, rfl, rfl⟩ := h
  obtain ⟨used, rfl, hderives⟩ := expr_sound tokens inner _ hinner
  exact ⟨word :: (used ++ [semicolon]), by simp, .ret hword hderives hsemicolon⟩

theorem assignment_sound (tokens : List Token) : Sound .stmt tokens (assignment tokens) := by
  intro value rest h
  simp only [assignment, andThen_eq_ok_iff, name_eq_ok_iff, assignOp_eq_ok_iff, mark_eq_ok_iff,
    Except.ok.injEq, Prod.mk.injEq] at h
  obtain ⟨_, _, ⟨name, rfl, hname, rfl⟩, operator, _, ⟨sign, rfl, hspells⟩, inner, _, hinner,
    semicolon, _, ⟨rfl, hsemicolon⟩, rfl, rfl⟩ := h
  obtain ⟨used, rfl, hderives⟩ := expr_sound _ inner _ hinner
  exact ⟨name :: sign :: (used ++ [semicolon]), by simp,
    .assignment hname hspells hderives hsemicolon⟩

theorem declaration_sound (tokens : List Token) : Sound .stmt tokens (declaration tokens) := by
  intro value rest h
  simp only [declaration, andThen_eq_ok_iff, typeName_eq_ok_iff, name_eq_ok_iff,
    Except.ok.injEq, Prod.mk.injEq] at h
  obtain ⟨_, _, ⟨type, rfl, htype, rfl⟩, _, _, ⟨name, rfl, hname, rfl⟩, initial, _, hinitial,
    rfl, rfl⟩ := h
  rw [initializer_eq] at hinitial
  -- a semicolon right after the name, or a value first
  split at hinitial
  · next semicolon after hmark =>
    obtain ⟨rfl, hsemicolon⟩ := mark_eq_ok_iff.mp hmark
    obtain ⟨rfl, rfl⟩ := Prod.mk.inj (Except.ok.inj hinitial)
    exact ⟨[type, name, semicolon], rfl, .declaration htype hname hsemicolon⟩
  · simp only [andThen_eq_ok_iff, equals_eq_ok_iff, mark_eq_ok_iff, Except.ok.injEq,
      Prod.mk.injEq] at hinitial
    obtain ⟨sign, _, ⟨rfl, hspells⟩, inner, _, hinner, semicolon, _, ⟨rfl, hsemicolon⟩, rfl,
      rfl⟩ := hinitial
    obtain ⟨used, rfl, hderives⟩ := expr_sound _ inner _ hinner
    exact ⟨type :: name :: sign :: (used ++ [semicolon]), by simp,
      .initialized htype hname hspells hderives hsemicolon⟩

theorem branches_sound_step {word : Token} {tokens : List Token}
    (hword : word.isKeyword "if" = true)
    (hparts : ∀ rest, rest.length < tokens.length + 1 →
      Sound .block rest (block rest) ∧ AlternativeSound rest) :
    Sound .conditional (word :: tokens) (branches tokens) := by
  intro value rest h
  simp only [branches, andThen_eq_ok_iff, mark_eq_ok_iff, Except.ok.injEq, Prod.mk.injEq] at h
  obtain ⟨opening, _, ⟨rfl, hopening⟩, condition, _, hcondition, closing, _, ⟨rfl, hclosing⟩,
    body, _, hbody, elseBody, _, helse, rfl, rfl⟩ := h
  obtain ⟨inner, rfl, hinner⟩ := expr_sound _ condition _ hcondition
  obtain ⟨used, rfl, hused⟩ := (hparts _ (by grind)).1 body _ hbody
  have halternative := (hparts _ (by grind)).2 elseBody _ helse
  -- the grammar has one rule for each of the three things after the body
  cases elseBody with
  | none =>
    obtain rfl := halternative
    exact ⟨word :: opening :: (inner ++ closing :: used), by simp,
      .ifThen hword hopening hinner hclosing hused⟩
  | some elseBody =>
    obtain ⟨alternative, later, rfl, halternative, hlater⟩ := halternative
    refine ⟨word :: opening :: (inner ++ closing :: (used ++ alternative :: later)), by simp, ?_⟩
    rcases hlater with hblock | ⟨statement, rfl, hconditional⟩
    · exact .ifElse hword hopening hinner hclosing hused halternative hblock
    · exact .elseIf hword hopening hinner hclosing hused halternative hconditional

theorem ifStmt_sound_step {tokens : List Token}
    (hparts : ∀ rest, rest.length < tokens.length →
      Sound .block rest (block rest) ∧ AlternativeSound rest)
    (hword : startsWith "if" tokens = true) : Sound .conditional tokens (ifStmt tokens) := by
  cases tokens with
  | nil => simp [startsWith] at hword
  | cons word tokens =>
    have hword : word.isKeyword "if" = true := by simpa [startsWith] using hword
    rw [ifStmt_cons hword]
    exact branches_sound_step hword hparts

theorem stmt_sound_step {tokens : List Token}
    (hif : startsWith "if" tokens = true → Sound .conditional tokens (ifStmt tokens)) :
    Sound .stmt tokens (stmt tokens) := by
  cases tokens with
  | nil =>
    intro value rest h
    simp at h
  | cons token tokens =>
    -- each test on the first token picks the rule of one kind of statement
    rw [stmt_cons]
    split
    · exact returned_sound ‹_› tokens
    split
    · next hword =>
      rw [← ifStmt_cons hword]
      intro value rest h
      obtain ⟨used, hused, hderives⟩ := hif (by simpa [startsWith] using hword) value rest h
      exact ⟨used, hused, .conditional hderives⟩
    split
    · exact declaration_sound _
    split
    · exact assignment_sound _
    · intro value rest h
      simp at h

theorem block_sound_step {tokens : List Token}
    (hstmts : ∀ rest, rest.length < tokens.length →
      SoundUpTo .closeBrace .stmts rest (stmts rest)) :
    Sound .block tokens (block tokens) := by
  intro value rest h
  simp only [block_eq, andThen_eq_ok_iff, mark_eq_ok_iff] at h
  obtain ⟨opening, _, ⟨rfl, hopening⟩, hinner⟩ := h
  obtain ⟨used, closing, rfl, hclosing, hderives⟩ := hstmts _ (by simp) value rest hinner
  exact ⟨opening :: (used ++ [closing]), by simp, .block hopening hderives hclosing⟩

theorem alternative_sound_step {tokens : List Token}
    (hparts : ∀ rest, rest.length < tokens.length →
      (startsWith "if" rest = true → Sound .conditional rest (ifStmt rest)) ∧
        Sound .block rest (block rest)) :
    AlternativeSound tokens := by
  intro value rest h
  cases tokens with
  | nil =>
    obtain ⟨rfl, rfl⟩ := Prod.mk.inj (Except.ok.inj (alternative_nil.symm.trans h))
    rfl
  | cons word tokens =>
    obtain ⟨hif, hblock⟩ := hparts tokens (by simp)
    rw [alternative_cons] at h
    split at h
    · next hword =>
      split at h
      -- an `if` or a block, on the tokens after the `else`
      all_goals
        simp only [andThen_eq_ok_iff, Except.ok.injEq, Prod.mk.injEq] at h
        obtain ⟨inner, _, hinner, rfl, rfl⟩ := h
      · obtain ⟨used, rfl, hderives⟩ := hif ‹_› inner _ hinner
        exact ⟨word, used, rfl, hword, .inr ⟨inner, rfl, hderives⟩⟩
      · obtain ⟨used, rfl, hderives⟩ := hblock inner _ hinner
        exact ⟨word, used, rfl, hword, .inl hderives⟩
    · obtain ⟨rfl, rfl⟩ := Prod.mk.inj (Except.ok.inj h)
      rfl

theorem stmts_sound_step {tokens : List Token} (hstmt : Sound .stmt tokens (stmt tokens))
    (hstmts : ∀ rest, rest.length < tokens.length →
      SoundUpTo .closeBrace .stmts rest (stmts rest)) :
    SoundUpTo .closeBrace .stmts tokens (stmts tokens) := by
  intro value rest h
  cases tokens with
  | nil => simp at h
  | cons token tokens =>
    rw [stmts_cons] at h
    split at h
    · next hclosing =>
      obtain ⟨rfl, rfl⟩ := Prod.mk.inj (Except.ok.inj h)
      exact ⟨[], token, rfl, hclosing, .noStmt⟩
    · simp only [andThen_eq_ok_iff, Except.ok.injEq, Prod.mk.injEq] at h
      obtain ⟨statement, middle, hstatement, statements, _, hmore, rfl, rfl⟩ := h
      obtain ⟨later, closing, rfl, hclosing, hlater⟩ :=
        hstmts middle (length_lt_of_ofTaken hstatement) statements _ hmore
      obtain ⟨used, hused, hderives⟩ := hstmt statement _ hstatement
      exact ⟨used ++ later, closing, by simp [hused], hclosing, .stmts hderives hlater⟩

/-- Statements and their parts that the parser takes are phrases. -/
theorem statements_sound (tokens : List Token) :
    Sound .stmt tokens (stmt tokens) ∧
      (startsWith "if" tokens = true → Sound .conditional tokens (ifStmt tokens)) ∧
      AlternativeSound tokens ∧ Sound .block tokens (block tokens) ∧
      SoundUpTo .closeBrace .stmts tokens (stmts tokens) := by
  refine stmt_induct (fun tokens => Sound .stmt tokens (stmt tokens))
    (fun tokens => startsWith "if" tokens = true → Sound .conditional tokens (ifStmt tokens))
    AlternativeSound (fun tokens => Sound .block tokens (block tokens))
    (fun tokens => SoundUpTo .closeBrace .stmts tokens (stmts tokens)) ?_ ?_ ?_ ?_ ?_ tokens
  · exact fun _ => ifStmt_sound_step
  · exact fun _ => stmt_sound_step
  · exact fun _ => block_sound_step
  · exact fun _ => alternative_sound_step
  · exact fun _ => stmts_sound_step

theorem stmt_sound (tokens : List Token) : Sound .stmt tokens (stmt tokens) :=
  (statements_sound tokens).1

theorem block_sound (tokens : List Token) : Sound .block tokens (block tokens) :=
  (statements_sound tokens).2.2.2.1

/-! ### Functions and programs -/

theorem arguments_sound (tokens : List Token) :
    SoundUpTo .closeParen .arguments tokens (arguments tokens) := by
  induction hlength : tokens.length using Nat.strong_induction_on generalizing tokens with
  | _ length ih =>
    subst hlength
    intro value rest h
    rw [arguments_eq] at h
    split at h
    · next closing after hmark =>
      obtain ⟨rfl, hclosing⟩ := mark_eq_ok_iff.mp hmark
      obtain ⟨rfl, rfl⟩ := Prod.mk.inj (Except.ok.inj h)
      exact ⟨[], closing, rfl, hclosing, .noArgument⟩
    -- no parenthesis, so a parameter and then the same again
    · simp only [moreArguments, andThen_eq_ok_iff, typeName_eq_ok_iff, name_eq_ok_iff,
        Except.ok.injEq, Prod.mk.injEq] at h
      obtain ⟨_, _, ⟨type, rfl, htype, rfl⟩, _, _, ⟨name, rfl, hname, rfl⟩, more, _, hmore, rfl,
        rfl⟩ := h
      obtain ⟨used, closing, rfl, hclosing, hderives⟩ :=
        ih _ (by grind) _ rfl more _ hmore
      exact ⟨type :: name :: used, closing, rfl, hclosing, .arguments htype hname hderives⟩

theorem function_sound (tokens : List Token) : Sound .function tokens (function tokens) := by
  intro value rest h
  simp only [function_eq, andThen_eq_ok_iff, typeName_eq_ok_iff, name_eq_ok_iff, mark_eq_ok_iff,
    Except.ok.injEq, Prod.mk.injEq] at h
  obtain ⟨_, _, ⟨type, rfl, htype, rfl⟩, _, _, ⟨name, rfl, hname, rfl⟩, opening, _,
    ⟨rfl, hopening⟩, parameters, _, hparameters, body, _, hbody, rfl, rfl⟩ := h
  obtain ⟨used, closing, rfl, hclosing, hused⟩ := arguments_sound _ parameters _ hparameters
  obtain ⟨later, rfl, hlater⟩ := block_sound _ body _ hbody
  exact ⟨type :: name :: opening :: (used ++ closing :: later), by simp,
    .function htype hname hopening hused hclosing hlater⟩

/-- A parse that does not halt takes all tokens as functions. -/
theorem runProgram_sound {tokens : List Token} (h : (runProgram tokens).value.halt = none) :
    Derives .functions tokens (runProgram tokens).value.functions := by
  induction tokens using runProgram_induction with
  | nil =>
    rw [runProgram]
    exact .noFunction
  | halted token rest stopped hfunction => simp [runProgram_of_error hfunction] at h
  | cons token rest taken hvalue ih =>
    have hfunction : function (token :: rest) = .ok (taken.value, taken.rest) := by
      rw [function, hvalue, ofTaken_ok]
    obtain ⟨used, hused, hderives⟩ := function_sound _ _ _ hfunction
    rw [runProgram_of_ok hvalue, ProgramRun.halt_cons] at h
    have hfunctions := Derives.functions hderives (ih h)
    rw [← hused] at hfunctions
    rwa [runProgram_of_ok hvalue]

theorem program_sound (tokens : List Token) : Sound .program tokens (program tokens) := by
  intro value rest h
  rw [program_eq] at h
  split at h
  · next hhalt =>
    obtain ⟨rfl, rfl⟩ := Prod.mk.inj (Except.ok.inj h)
    exact ⟨tokens, by simp, .program (runProgram_sound hhalt)⟩
  · simp at h

end CFrontEnd.Parser
