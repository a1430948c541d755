import CFrontEnd.Proofs.Lexer.Concatenation
import CFrontEnd.Proofs.Parser.Viability

/-!
# Spans Decide Nothing

The parser looks at the kinds and the texts of tokens, never at their places. So tokens at other
places have the same tree, or the same error at the place where its token is then.

## Main definitions

* `ParseError.respan`: the error at other bytes.

## Main results

* `Grammar.Derives.respan`: the phrases at other places are the same ones.
* `Pending.verdict_respan`: so are the faults, but for their spans.
* `EntryPoint.parse_respan`: so are the results of all parses.
-/

namespace CFrontEnd

open Grammar CFrontEnd.Parser

/-! ### Errors at other places -/

/-- The error with its span changed, if it has one. -/
def ParseError.respan (change : Span → Span) : ParseError → ParseError
  | .unexpectedToken expected found lexeme span =>
    .unexpectedToken expected found lexeme (change span)
  | .unexpectedEnd expected => .unexpectedEnd expected
  | .invalidLiteral lexeme span => .invalidLiteral lexeme (change span)

/-- The failure with the span of its error changed. -/
def Failure.respan (change : Span → Span) : Failure ParseError → Failure ParseError
  | .error reported => .error (reported.respan change)
  | .abort => .abort

/-- The halt at tokens with their spans changed. -/
def Halt.respan (change : Span → Span) (halt : Halt) : Halt :=
  { failure := halt.failure.respan change, rest := halt.rest.map (Token.respan change) }

section Respan

variable (change : Span → Span)

theorem ParseError.message_respan (error : ParseError) :
    (error.respan change).message = error.message := by
  cases error <;> rfl

theorem ParseError.span?_respan (error : ParseError) :
    (error.respan change).span? = error.span?.map change := by
  cases error <;> rfl

/-- A literal does not depend on its place. -/
theorem Token.literal_respan (token : Token) :
    (token.respan change).literal = token.literal.mapError (Failure.respan change) := by
  have hkind : (token.respan change).kind = token.kind := rfl
  have hbody : (token.respan change).stringBody? = token.stringBody? := rfl
  rw [Token.literal, Token.literal, hkind, hbody, Token.value_respan]
  split
  · cases token.stringBody? <;> rfl
  · rcases token.value with _ | value
    · rfl
    · cases value <;> rfl

/-! ### Phrases -/

/-- Phrases at other places are the same phrases. -/
theorem Grammar.Derives.respan {symbol : Nonterminal} {tokens : List Token}
    {tree : symbol.Tree} (h : Derives symbol tokens tree) :
    Derives symbol (tokens.map (Token.respan change)) tree := by
  -- what a rule asks of a token is what it asks of the token at its other place
  induction h with
  | program _ ih => exact .program ih
  | noFunction => exact .noFunction
  | functions _ _ ihfirst ihrest =>
    rw [List.map_append]
    exact .functions ihfirst ihrest
  | @function typeName name opening closing _ _ _ _ htype hname hopening _ hclosing _ ih ihbody =>
    simp only [List.map_cons, List.map_append]
    exact @Derives.function (typeName.respan change) (name.respan change) _ _ _ _ _ _ htype hname
      hopening ih hclosing ihbody
  | noArgument => exact .noArgument
  | @arguments typeName name _ _ htype hname _ ih =>
    exact @Derives.arguments (typeName.respan change) (name.respan change) _ _ htype hname ih
  | block hopening _ hclosing ih =>
    simp only [List.map_cons, List.map_append, List.map_nil]
    exact .block hopening ih hclosing
  | noStmt => exact .noStmt
  | stmts _ _ ihfirst ihrest =>
    rw [List.map_append]
    exact .stmts ihfirst ihrest
  | ret hword _ hsemicolon ih =>
    simp only [List.map_cons, List.map_append, List.map_nil]
    exact .ret hword ih hsemicolon
  | @assignment name _ _ _ _ _ hname hsign _ hsemicolon ih =>
    simp only [List.map_cons, List.map_append, List.map_nil]
    exact @Derives.assignment (name.respan change) _ _ _ _ _ hname hsign ih hsemicolon
  | @declaration typeName name _ htype hname hsemicolon =>
    exact @Derives.declaration (typeName.respan change) (name.respan change) _ htype hname
      hsemicolon
  | @initialized typeName name _ _ _ _ htype hname hsign _ hsemicolon ih =>
    simp only [List.map_cons, List.map_append, List.map_nil]
    exact @Derives.initialized (typeName.respan change) (name.respan change) _ _ _ _ htype hname
      hsign ih hsemicolon
  | conditional _ ih => exact .conditional ih
  | ifThen hword hopening _ hclosing _ ih ihbody =>
    simp only [List.map_cons, List.map_append]
    exact .ifThen hword hopening ih hclosing ihbody
  | ifElse hword hopening _ hclosing _ helse _ ih ihbody ihelse =>
    simp only [List.map_cons, List.map_append]
    exact .ifElse hword hopening ih hclosing ihbody helse ihelse
  | elseIf hword hopening _ hclosing _ helse _ ih ihbody ihelse =>
    simp only [List.map_cons, List.map_append]
    exact .elseIf hword hopening ih hclosing ihbody helse ihelse
  | level hle _ _ ihfirst ihrest =>
    rw [List.map_append]
    exact .level hle ihfirst ihrest
  | tightest _ ih => exact .tightest ih
  | noOperation => exact .noOperation
  | operations hsign hlevel _ _ ihfirst ihrest =>
    rw [List.map_cons, List.map_append]
    exact .operations hsign hlevel ihfirst ihrest
  | unary hsign _ ih => exact .unary hsign ih
  | primary _ ih => exact .primary ih
  | integer hkind hvalue => exact .integer hkind hvalue
  | float hkind hvalue => exact .float hkind hvalue
  | string hkind hbody => exact .string hkind hbody
  | @name token hkind => exact @Derives.name (token.respan change) hkind
  | parentheses hopening _ hclosing ih =>
    simp only [List.map_cons, List.map_append, List.map_nil]
    exact .parentheses hopening ih hclosing

/-! ### Faults -/

namespace Pending

variable (token : Token) (stack : List Pending)

theorem afterOperand_respan :
    afterOperand stack (token.respan change) =
      (afterOperand stack token).mapError (Failure.respan change) := by
  have hsign : UnaryOp.ofToken? (token.respan change) = UnaryOp.ofToken? token := rfl
  have hkind : (token.respan change).kind = token.kind := rfl
  rw [afterOperand, afterOperand, hsign, hkind, Token.literal_respan]
  split
  · rfl
  · -- only a literal has a fault of its own
    cases token.literal <;> cases token.kind <;> rfl

theorem afterStmt_respan :
    afterStmt stack (token.respan change) =
      (afterStmt stack token).mapError (Failure.respan change) := by
  simp only [afterStmt, apply_ite (Except.mapError (Failure.respan change))]
  rfl

/-- A token that stands elsewhere is taken alike, or refused alike. -/
theorem advance_respan (program : Bool) :
    advance program stack (token.respan change) =
      (advance program stack token).mapError (Failure.respan change) := by
  induction stack with
  | nil =>
    simp only [advance, apply_ite (Except.mapError (Failure.respan change))]
    rfl
  | cons part stack ih =>
    cases part with
    | operand => exact afterOperand_respan change token stack
    | stmt => exact afterStmt_respan change token stack
    | stmts =>
      simp only [advance, apply_ite (Except.mapError (Failure.respan change)),
        afterStmt_respan]
      rfl
    -- parts that may be left out hand the token down
    | operations n | alternative =>
      simp only [advance, apply_ite (Except.mapError (Failure.respan change)), ih]
      rfl
    | _ =>
      simp only [advance, apply_ite (Except.mapError (Failure.respan change))]
      rfl

/-- Tokens that stand elsewhere have the same fault, which stands elsewhere too. -/
theorem verdict_respan (program : Bool) (tokens : List Token) :
    verdict program stack (tokens.map (Token.respan change)) =
      (verdict program stack tokens).mapError (Halt.respan change) := by
  induction tokens generalizing stack with
  | nil =>
    rw [List.map_nil, verdict]
    cases missing? stack <;> rfl
  | cons token rest ih =>
    have hadvance := advance_respan change token stack program
    rw [List.map_cons]
    cases htoken : advance program stack token with
    | ok next =>
      rw [htoken] at hadvance
      rw [verdict_cons_of_ok hadvance, verdict_cons_of_ok htoken, ih]
    | error failure =>
      rw [htoken] at hadvance
      rw [verdict_cons_of_error hadvance, verdict_cons_of_error htoken]
      rfl

end Pending

/-- Tokens that stand elsewhere have the same tree, or the same error but for its span. -/
theorem EntryPoint.parse_respan (entry : EntryPoint) (tokens : List Token) :
    entry.parse (tokens.map (Token.respan change)) =
      (entry.parse tokens).mapError (Failure.respan change) := by
  -- a tree comes with its phrase, and a fault is that of the stack
  rcases entry.parse_cases tokens with ⟨tree, hparse, -⟩ | ⟨halt, hparse, hverdict⟩
  · rw [hparse]
    exact parse_of_derives ((derives_of_parse hparse).respan change)
  · have hmoved : entry.verdict (tokens.map (Token.respan change)) =
        .error (halt.respan change) := by
      rw [EntryPoint.verdict, Pending.verdict_respan]
      exact congrArg (Except.mapError (Halt.respan change)) hverdict
    rcases entry.parse_cases (tokens.map (Token.respan change)) with
      ⟨tree, -, htree⟩ | ⟨found, hfound, hhalt⟩
    · simp [htree] at hmoved
    · obtain rfl := Except.error.inj (hhalt.symm.trans hmoved)
      rw [hparse]
      exact hfound

end Respan

end CFrontEnd
