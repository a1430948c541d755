import CFrontEnd.Proofs.Lexer.Lexemes
import CFrontEnd.Proofs.Parser.Viability
import Mathlib.Data.List.Basic

/-!
# What an Error Expected

An error that says what was looked for tells the truth. Each token that is what was looked for could
have come at the place of the error, and after it the tokens can be completed; the token that was
found is not one of these. Where the end was looked for, the tokens could have ended.

## Main definitions

* `Expected.Satisfied`: the tokens that are what was looked for.
* `Pending.LooksFor`: what a stack of pending parts can look for.
* `EntryPoint.stop`: the index at which a parse stops.
* `EntryPoint.Truthful`: what an error says about the place where it was found.

## Main results

* `Pending.exists_advance_of_looksFor`: a stack allows everything that it looks for.
* `EntryPoint.left_of_verdict`: a parse stops at the token at fault.
* `error_truthful`: the expectation in an error is truthful, and a token of a text is never reported
  where its own kind was looked for.
-/

namespace CFrontEnd

/-- The token is what was looked for. A kind is any token of the kind, but assignment operators are
only those that the language has. -/
def Expected.Satisfied (expected : Expected) (token : Token) : Prop :=
  match expected with
  | .kind .assignmentOperator =>
    token.kind = .assignmentOperator ∧ ∃ operator : AssignOp, token.lexeme = operator.spelling
  | .kind other => token.kind = other
  | .lexeme other text => token.kind = other ∧ token.lexeme = text
  | .typeName => token.kind = .keyword ∧ token.lexeme ∈ typeNames
  -- a name, a number with a value, a string that can be cut, `(` or a prefix operator
  | .expression =>
    token.kind = .identifier ∨ (token.IsNumber ∧ token.value.isSome = true) ∨
      (token.kind = .string ∧ token.stringBody?.isSome = true) ∨ token.kind = .openParen ∨
      ∃ operator : UnaryOp, token.kind = operator.kind ∧ token.lexeme = operator.spelling
  | .statement =>
    (token.kind = .keyword ∧
      (token.lexeme = "return" ∨ token.lexeme = "if" ∨ token.lexeme ∈ typeNames)) ∨
      token.kind = .identifier
  -- no token is the end of the tokens
  | .endOfInput => False

namespace Pending

/-! ### What a stack looks for -/

/-- What a stack can look for: what its first part is, or something further down if that part may be
left out. Past the last part stands another function or the end. -/
def LooksFor (program : Bool) : List Pending → Expected → Prop
  | [], expected => expected = if program then .typeName else .endOfInput
  | .mark m :: _, expected => expected = .kind m.kind
  | .typeName :: _, expected | .arguments :: _, expected => expected = .typeName
  | .assignOp :: _, expected => expected = .kind .assignmentOperator
  | .operand :: _, expected => expected = .expression
  | .stmt :: _, expected => expected = .statement
  -- a token that starts no statement is a fault; at the end it is the brace that is missing
  | .stmts :: _, expected => expected = .statement ∨ expected = .kind .closeBrace
  | .initializer :: _, expected => expected = .lexeme .assignmentOperator "="
  | .elseBody :: _, expected => expected = .kind .openBrace
  | .operations _ :: stack, expected | .alternative :: stack, expected =>
    LooksFor program stack expected

section LooksFor

variable {program : Bool} {stack : List Pending} {token : Token} {expected : Expected}
  {error : ParseError}

theorem eq_of_refuse {asked : Expected} (h : refuse asked token = .error (.error error))
    (hexpected : error.expected? = some expected) : expected = asked := by
  obtain rfl := Failure.error.inj (Except.error.inj h)
  exact (Option.some.inj hexpected).symm

/-- The fault of a literal is its value, so nothing else was looked for. -/
theorem expected?_of_literal (h : token.literal = .error (.error error)) :
    error.expected? = none := by
  unfold Token.literal at h
  repeat' split at h
  all_goals
    first
    | obtain rfl := Failure.error.inj (Except.error.inj h)
      rfl
    | simp at h

theorem eq_of_afterStmt (h : afterStmt stack token = .error (.error error))
    (hexpected : error.expected? = some expected) : expected = .statement := by
  unfold afterStmt at h
  repeat' split at h
  all_goals first | exact eq_of_refuse h hexpected | simp at h

theorem eq_of_afterOperand (h : afterOperand stack token = .error (.error error))
    (hexpected : error.expected? = some expected) : expected = .expression := by
  unfold afterOperand at h
  split at h
  · simp at h
  split at h
  -- names and parentheses are taken
  case h_4 | h_5 => simp at h
  case h_6 => exact eq_of_refuse h hexpected
  all_goals
    cases hliteral : token.literal with
    | ok literal => simp [hliteral, Except.map] at h
    | error failure =>
      rw [hliteral] at h
      obtain rfl : failure = .error error := Except.error.inj h
      rw [expected?_of_literal hliteral] at hexpected
      simp at hexpected

/-- A stack that refuses a token reports what it looks for. -/
theorem looksFor_of_advance (h : advance program stack token = .error (.error error))
    (hexpected : error.expected? = some expected) : LooksFor program stack expected := by
  induction stack with
  | nil =>
    cases program <;> rw [advance] at h
    · exact eq_of_refuse h hexpected
    · simp only [↓reduceIte] at h
      split at h
      · simp at h
      · exact eq_of_refuse h hexpected
  | cons part stack ih =>
    cases part with
    | operand => exact eq_of_afterOperand h hexpected
    | stmt => exact eq_of_afterStmt h hexpected
    | stmts =>
      rw [advance] at h
      split at h
      · simp at h
      · exact .inl (eq_of_afterStmt h hexpected)
    -- parts that may be left out hand the token down
    | operations n | alternative =>
      rw [advance] at h
      split at h
      · simp at h
      · exact ih h
    | _ =>
      rw [advance] at h
      repeat' split at h
      all_goals first | exact eq_of_refuse h hexpected | simp at h

/-- A stack that misses tokens at the end reports what it looks for. -/
theorem looksFor_of_missing? (h : missing? stack = some expected) :
    LooksFor program stack expected := by
  induction stack with
  | nil => simp [missing?] at h
  | cons part stack ih =>
    cases part with
    | operations n | alternative => exact ih h
    | stmts => exact .inr (Option.some.inj h).symm
    | _ => exact (Option.some.inj h).symm

/-- A stack that looks for the end misses nothing. -/
theorem missing?_of_looksFor_endOfInput (h : LooksFor program stack .endOfInput) :
    missing? stack = none := by
  induction stack with
  | nil => rfl
  | cons part stack ih =>
    cases part with
    | operations n | alternative => exact ih h
    | _ => simp [LooksFor] at h

/-! ### What a stack looks for is allowed -/

theorem satisfied_mark_iff {m : Mark} :
    (Expected.kind m.kind).Satisfied token ↔ token.kind = m.kind := by
  cases m <;> rfl

theorem isTypeName_of_satisfied (h : Expected.typeName.Satisfied token) :
    token.isTypeName = true := by
  obtain ⟨hkind, hlexeme⟩ := h
  simp [Token.isTypeName, hkind, hlexeme]

/-- A token that starts an expression is allowed where an operand is to come. -/
theorem exists_afterOperand (h : Expected.expression.Satisfied token) (stack : List Pending) :
    ∃ next, afterOperand stack token = .ok next := by
  unfold afterOperand
  split
  · exact ⟨_, rfl⟩
  next hsign =>
  rcases h with hname | ⟨hnumber, hvalue⟩ | ⟨hstring, hbody⟩ | hopen | ⟨operator, hkind, hlexeme⟩
  · exact ⟨stack, by rw [hname]⟩
  · rcases literal_number hnumber with ⟨literal, hliteral, -⟩ | ⟨-, hnone⟩
    · rcases hnumber with hkind | hkind <;> exact ⟨stack, by rw [hkind, hliteral]; rfl⟩
    · simp [hnone] at hvalue
  · obtain ⟨body, hbody⟩ := Option.isSome_iff_exists.mp hbody
    exact ⟨stack, by simp [hstring, Token.literal, hbody, Except.map]⟩
  · exact ⟨_, by rw [hopen]⟩
  -- prefix operators have been looked at before
  · refine absurd (Option.isSome_iff_exists.mpr ⟨operator, ?_⟩) hsign
    simp [UnaryOp.ofToken?_eq_some_iff, Token.is, hkind, hlexeme]

/-- A token that starts a statement is allowed where a statement is to come. -/
theorem exists_afterStmt (h : Expected.statement.Satisfied token) (stack : List Pending) :
    ∃ next, afterStmt stack token = .ok next := by
  unfold afterStmt
  repeat' split
  all_goals try exact ⟨_, rfl⟩
  next hreturn hif htype hname =>
  rcases h with ⟨hkind, hword | hword | hword⟩ | hkind
  · simp [Token.isKeyword, Token.is, hkind, hword] at hreturn
  · simp [Token.isKeyword, Token.is, hkind, hword] at hif
  · simp [Token.isTypeName, hkind, hword] at htype
  · exact absurd hkind hname

theorem exists_ite {c : Prop} [Decidable c] {first : List Pending}
    {second : Except (Failure ParseError) (List Pending)} (h : ¬c → ∃ next, second = .ok next) :
    ∃ next, (if c then .ok first else second) = .ok next := by
  by_cases hc : c
  · exact ⟨first, by rw [if_pos hc]⟩
  · obtain ⟨next, hnext⟩ := h hc
    exact ⟨next, by rw [if_neg hc, hnext]⟩

/-- A stack allows every token that is what it looks for. -/
theorem exists_advance_of_looksFor (h : LooksFor program stack expected)
    (hsatisfied : expected.Satisfied token) : ∃ next, advance program stack token = .ok next := by
  induction stack with
  | nil =>
    cases program with
    | false =>
      obtain rfl : expected = .endOfInput := h
      exact hsatisfied.elim
    | true =>
      obtain rfl : expected = .typeName := h
      exact ⟨_, by rw [advance, if_pos rfl, if_pos (isTypeName_of_satisfied hsatisfied)]⟩
  | cons part stack ih =>
    cases part with
    | mark m =>
      obtain rfl : expected = .kind m.kind := h
      exact ⟨_, by rw [advance, if_pos (satisfied_mark_iff.mp hsatisfied)]⟩
    | typeName =>
      obtain rfl : expected = .typeName := h
      exact ⟨_, by rw [advance, if_pos (isTypeName_of_satisfied hsatisfied)]⟩
    | assignOp =>
      obtain rfl : expected = .kind .assignmentOperator := h
      obtain ⟨hkind, operator, hlexeme⟩ := hsatisfied
      have hspells : AssignOp.ofToken? token = some operator :=
        AssignOp.ofToken?_eq_some_iff.mpr (by simp [Token.is, hkind, hlexeme])
      exact ⟨_, by rw [advance, if_pos (by rw [hspells]; rfl)]⟩
    | operand =>
      obtain rfl : expected = .expression := h
      exact exists_afterOperand hsatisfied stack
    -- a part that may be left out takes the token, or the parts below do
    | operations n | alternative =>
      rw [advance]
      exact exists_ite fun _ => ih h
    | stmt =>
      obtain rfl : expected = .statement := h
      exact exists_afterStmt hsatisfied stack
    | stmts =>
      rw [advance]
      refine exists_ite fun hbrace => ?_
      rcases h with rfl | rfl
      · exact exists_afterStmt hsatisfied _
      · exact absurd hsatisfied hbrace
    | initializer =>
      obtain rfl : expected = .lexeme .assignmentOperator "=" := h
      obtain ⟨hkind, hlexeme⟩ := hsatisfied
      rw [advance]
      refine exists_ite fun _ => exists_ite fun hequals => ?_
      exact absurd (by simp [Token.is, hkind, hlexeme]) hequals
    | elseBody =>
      obtain rfl : expected = .kind .openBrace := h
      rw [advance]
      exact exists_ite fun _ => exists_ite fun hbrace => absurd hsatisfied hbrace
    | arguments =>
      obtain rfl : expected = .typeName := h
      rw [advance]
      refine exists_ite fun _ => exists_ite fun htype => ?_
      exact absurd (isTypeName_of_satisfied hsatisfied) htype

end LooksFor

end Pending

/-! ### Where a parse stops -/

/-- The tokens that a rule leaves, whether it succeeds or not. -/
def Outcome.left {α : Type} : Outcome α → List Token
  | .ok taken => taken.2
  | .error halt => halt.rest

namespace EntryPoint

/-- The index at which a parse stops: the number of tokens that were taken. -/
def stop (entry : EntryPoint) (tokens : List Token) : Nat :=
  tokens.length - (entry.rule tokens).left.length

theorem left_of_resume {α : Type} {outcome : Outcome α} {halt : Halt}
    (h : outcome.resume false [] = .error halt) : outcome.left = halt.rest := by
  cases outcome with
  | error found =>
    obtain rfl := Except.error.inj h
    rfl
  | ok taken =>
    obtain ⟨value, rest⟩ := taken
    -- tokens that are left are refused by the end of the parse
    cases rest with
    | nil => simp [Outcome.resume, Except.bind, Pending.verdict, Pending.missing?] at h
    | cons token rest =>
      obtain rfl := Except.error.inj h
      rfl

/-- A parse stops at the token at fault. -/
theorem left_of_verdict {entry : EntryPoint} {tokens : List Token} {halt : Halt}
    (h : entry.verdict tokens = .error halt) : (entry.rule tokens).left = halt.rest := by
  have hrule : ∀ {α : Type} {parts : List Pending} {outcome : Outcome α},
      Parser.Follows parts outcome tokens → Pending.verdict false parts tokens = .error halt →
        outcome.left = halt.rest := by
    intro α parts outcome hfollows hverdict
    refine left_of_resume ?_
    rw [← hfollows false [], List.append_nil, hverdict]
  match entry with
  | program =>
    have hverdict := Parser.program_verdict tokens
    rw [show Pending.verdict true [] tokens = .error halt from h] at hverdict
    cases hhalt : (Parser.runProgram tokens).value.halt with
    | none => simp [hhalt] at hverdict
    | some found =>
      rw [hhalt] at hverdict
      obtain rfl := Except.error.inj hverdict
      simp [rule, Parser.program_eq, hhalt, Outcome.left]
  | function => exact hrule (Parser.function_follows tokens) h
  | stmt => exact hrule (Parser.stmt_follows tokens) h
  | expr => exact hrule (Parser.expr_follows tokens) h

/-- What an error that looked for something says about the index at which the parse stopped. -/
structure Truthful (entry : EntryPoint) (tokens : List Token) (error : ParseError)
    (expected : Expected) (i : Nat) : Prop where
  /-- The error is about the token at the index, or about the end if that is where the index is. -/
  place : (error = .unexpectedEnd expected ∧ i = tokens.length) ∨
    ∃ found, tokens[i]? = some found ∧
      error = .unexpectedToken expected found.kind found.lexeme found.span
  /-- Every token that is what was looked for could have come there. -/
  allowed : ∀ token, expected.Satisfied token → entry.Viable (tokens.take i ++ [token])
  /-- If the end was looked for, it could have come there. -/
  ended : expected = .endOfInput → entry.Accepts (tokens.take i)
  /-- The token that was found is not what was looked for. -/
  found : ∀ token, tokens[i]? = some token → ¬expected.Satisfied token

/-- An error that says what was looked for is truthful about the index at which the parse stops. -/
theorem truthful_of_parse {entry : EntryPoint} {tokens : List Token} {error : ParseError}
    {expected : Expected} (h : entry.parse tokens = .error (.error error))
    (hexpected : error.expected? = some expected) :
    entry.Truthful tokens error expected (entry.stop tokens) := by
  rcases entry.parse_cases tokens with ⟨tree, htree, -⟩ | ⟨halt, hparse, hverdict⟩
  · simp [htree] at h
  have hfailure : halt.failure = .error error := Except.error.inj (hparse.symm.trans h)
  rw [stop, left_of_verdict hverdict]
  rcases Pending.verdict_eq_error hverdict with ⟨next, asked, hrun, hmissing, rfl⟩ |
    ⟨before, token, after, next, rfl, hrun, hadvance, hrest⟩
  -- the tokens end too early
  · obtain rfl := Failure.error.inj hfailure
    obtain rfl : asked = expected := Option.some.inj hexpected
    have hlooks : Pending.LooksFor entry.repeats next asked :=
      Pending.looksFor_of_missing? hmissing
    have hall : tokens.take (tokens.length - (Halt.unexpected asked []).rest.length) = tokens :=
      List.take_length
    exact
      { place := .inl ⟨rfl, rfl⟩
        allowed := fun token hsatisfied => by
          rw [hall, viable_snoc_iff hrun]
          exact Pending.exists_advance_of_looksFor hlooks hsatisfied
        ended := fun hend => by
          rw [Pending.missing?_of_looksFor_endOfInput (hend ▸ hlooks)] at hmissing
          simp at hmissing
        found := fun token htoken => by simp [Halt.unexpected] at htoken }
  -- a token is refused
  · rw [hfailure] at hadvance
    have hlooks : Pending.LooksFor entry.repeats next expected :=
      Pending.looksFor_of_advance hadvance hexpected
    have hstop : (before ++ token :: after).length - halt.rest.length = before.length := by
      rw [hrest]
      simp
    rw [hstop]
    have hreports := Pending.atFault_of_advance hadvance
    exact
      { place := by
          refine .inr ⟨token, by simp, ?_⟩
          rcases hreports with ⟨asked, hasked⟩ | ⟨-, hliteral⟩
          · obtain rfl := Failure.error.inj hasked
            obtain rfl : asked = expected := Option.some.inj hexpected
            rfl
          · rw [Pending.expected?_of_literal hliteral] at hexpected
            simp at hexpected
        allowed := fun other hsatisfied => by
          rw [List.take_left, viable_snoc_iff hrun]
          exact Pending.exists_advance_of_looksFor hlooks hsatisfied
        ended := fun hend => by
          rw [List.take_left, accepts_iff_verdict, verdict]
          have hverdict := Pending.verdict_append_of_run hrun []
          rw [List.append_nil] at hverdict
          rw [hverdict, Pending.verdict,
            Pending.missing?_of_looksFor_endOfInput (hend ▸ hlooks)]
        found := fun other hother hsatisfied => by
          -- the token would have been allowed
          obtain rfl : token = other := by simpa using hother
          obtain ⟨last, hlast⟩ := Pending.exists_advance_of_looksFor hlooks hsatisfied
          simp [hlast] at hadvance }

end EntryPoint

/-- The assignment operators that are cut from a text are those of the language. -/
theorem satisfied_kind_of_mem_lex {text : String} {token : Token} (h : token ∈ lex text) :
    (Expected.kind token.kind).Satisfied token := by
  cases hkind : token.kind with
  | assignmentOperator =>
    have hspells : TokenKind.assignmentOperator.Spells token.lexeme.toList :=
      hkind ▸ spells_of_mem_lex h
    -- the spellings of the kind are those of the operators
    have hspellings : TokenKind.assignmentOperator.spellings =
        AssignOp.all.map AssignOp.spelling := rfl
    rw [TokenKind.spells_iff_mem_spellings (by decide), String.ofList_toList,
      hspellings] at hspells
    obtain ⟨operator, -, hoperator⟩ := List.mem_map.mp hspells
    exact ⟨hkind, operator, hoperator.symm⟩
  | _ => exact hkind

/-- The expectation in an error is truthful: every token that is what was looked for could have come
at the place of the error, the token that was found is not what was looked for, and where the end
was looked for the tokens before it are accepted. So no token that is cut from a text is reported
where its own kind was looked for. -/
theorem error_truthful :
    (∀ (entry : EntryPoint) (tokens : List Token) (error : ParseError) (expected : Expected),
      entry.parse tokens = .error (.error error) → error.expected? = some expected →
        entry.Truthful tokens error expected (entry.stop tokens)) ∧
    ∀ (entry : EntryPoint) (text : String) (kind : TokenKind) (lexeme : String) (span : Span),
      entry.parse (lex text) ≠
        .error (.error (.unexpectedToken (.kind kind) kind lexeme span)) := by
  refine ⟨fun _ _ _ _ => EntryPoint.truthful_of_parse, fun entry text kind lexeme span h => ?_⟩
  have htruthful := EntryPoint.truthful_of_parse h rfl
  obtain ⟨hend, -⟩ | ⟨found, hfound, herror⟩ := htruthful.place
  · simp at hend
  · obtain ⟨-, rfl, -⟩ := ParseError.unexpectedToken.inj herror
    exact htruthful.found found hfound (satisfied_kind_of_mem_lex (List.mem_of_getElem? hfound))

/-- A condition that a semicolon ends: a closing parenthesis was looked for, and it could have come
there. -/
theorem error_truthful_condition :
    let tokens := [Pending.sample .keyword "if", Pending.sample .openParen "(",
      Pending.sample .identifier "a", Pending.sample .semicolon ";"]
    EntryPoint.stmt.parse tokens =
        .error (.error (.unexpectedToken (.kind .closeParen) .semicolon ";" ⟨0, 0⟩)) ∧
      EntryPoint.stmt.stop tokens = 3 ∧
      EntryPoint.stmt.Viable (tokens.take 3 ++ [Pending.sample .closeParen ")"]) := by
  intro tokens
  have hparse : EntryPoint.stmt.parse tokens =
      .error (.error (.unexpectedToken (.kind .closeParen) .semicolon ";" ⟨0, 0⟩)) := by
    cbv
  have hstop : EntryPoint.stmt.stop tokens = 3 := by cbv
  have htruthful := error_truthful.1 .stmt tokens _ (.kind .closeParen) hparse rfl
  exact ⟨hparse, hstop, hstop ▸ htruthful.allowed (Pending.sample .closeParen ")") rfl⟩

end CFrontEnd
