import CFrontEnd.Proofs.Parser.Follows

/-!
# The Earliest Fault

Tokens are viable when more tokens can make them acceptable. Whatever the parser has taken is
viable, because every stack of pending parts can be completed; and a token at which it stops makes
all that starts this way unacceptable, because the stack does not depend on what follows. So a
fault is reported at the first token that cannot be right, or at the end if only more tokens are
missing.

## Main definitions

* `EntryPoint.Viable`: more tokens can make the tokens acceptable.
* `Pending.run`: what is still to come after some tokens.

## Main results

* `Pending.verdict_closing`: every stack can be completed.
* `EntryPoint.viable_iff_run`: tokens are viable exactly when the stack allows each of them.
* `EntryPoint.exists_atFault`: a parse that fails is out of tokens, or at the first fault.
* `earliest_fault`: which failure is reported, and at which token.
-/

namespace CFrontEnd

namespace Pending

variable {program : Bool} {stack next : List Pending}

/-- What is still to come after some tokens, or the first fault. -/
def run (program : Bool) :
    List Pending → List Token → Except (Failure ParseError) (List Pending)
  | stack, [] => .ok stack
  | stack, token :: rest =>
    match advance program stack token with
    | .ok next => run program next rest
    | .error failure => .error failure

theorem run_cons_of_ok {token : Token} (h : advance program stack token = .ok next)
    (rest : List Token) : run program stack (token :: rest) = run program next rest := by
  rw [run, h]

/-- What holds after some tokens that the stack allows, and then also with one more of them in
front, holds before all of them. -/
theorem run_induct {motive : List Pending → List Token → Prop} {used rest : List Token}
    (h : run program stack used = .ok next) (base : motive next rest)
    (step : ∀ stack token after tokens, advance program stack token = .ok after →
      motive after tokens → motive stack (token :: tokens)) : motive stack (used ++ rest) := by
  induction used generalizing stack with
  | nil =>
    obtain rfl := Except.ok.inj h
    exact base
  | cons token used ih =>
    rw [run] at h
    split at h
    · next after hadvance => exact step stack token after _ hadvance (ih h)
    · simp at h

theorem verdict_append_of_run {used : List Token} (h : run program stack used = .ok next)
    (rest : List Token) : verdict program stack (used ++ rest) = verdict program next rest :=
  run_induct
    (motive := fun stack tokens => verdict program stack tokens = verdict program next rest)
    h rfl fun _ _ _ _ hadvance htail => (verdict_cons_of_ok hadvance _).trans htail

theorem run_append_of_run {used : List Token} (h : run program stack used = .ok next)
    (rest : List Token) : run program stack (used ++ rest) = run program next rest :=
  run_induct (motive := fun stack tokens => run program stack tokens = run program next rest)
    h rfl fun _ _ _ _ hadvance htail => (run_cons_of_ok hadvance _).trans htail

/-- Nothing after a fault makes up for it. -/
theorem verdict_append_of_run_error {used : List Token} {failure : Failure ParseError}
    (h : run program stack used = .error failure) (rest : List Token) :
    ∃ left, verdict program stack (used ++ rest) = .error { failure, rest := left } := by
  induction used generalizing stack with
  | nil => simp [run] at h
  | cons token used ih =>
    rw [run] at h
    split at h
    · next after hadvance =>
      rw [List.cons_append, verdict_cons_of_ok hadvance]
      exact ih h
    · next found hadvance =>
      obtain rfl := Except.error.inj h
      exact ⟨_, verdict_cons_of_error hadvance _⟩

/-- A fault is at the end, where a part is missing, or at the first token that the stack refuses. -/
theorem verdict_eq_error {tokens : List Token} {halt : Halt}
    (h : verdict program stack tokens = .error halt) :
    (∃ next expected, run program stack tokens = .ok next ∧ missing? next = some expected ∧
        halt = Halt.unexpected expected []) ∨
      ∃ before token after next, tokens = before ++ token :: after ∧
        run program stack before = .ok next ∧
        advance program next token = .error halt.failure ∧ halt.rest = token :: after := by
  induction tokens generalizing stack with
  | nil =>
    rw [verdict] at h
    split at h
    · simp at h
    · next expected hmissing =>
      obtain rfl := Except.error.inj h
      exact .inl ⟨stack, expected, rfl, hmissing, rfl⟩
  | cons token rest ih =>
    cases hadvance : advance program stack token with
    | error failure =>
      rw [verdict_cons_of_error hadvance] at h
      obtain rfl := Except.error.inj h
      exact .inr ⟨[], token, rest, stack, rfl, rfl, hadvance, rfl⟩
    | ok next =>
      rw [verdict_cons_of_ok hadvance] at h
      rcases ih h with ⟨last, expected, hrun, hmissing, hhalt⟩ |
        ⟨before, fault, after, last, rfl, hrun, hfault, hrest⟩
      · exact .inl ⟨last, expected, (run_cons_of_ok hadvance rest).trans hrun, hmissing, hhalt⟩
      · exact .inr ⟨token :: before, fault, after, last, rfl,
          (run_cons_of_ok hadvance before).trans hrun, hfault, hrest⟩

/-! ### Every stack can be completed -/

/-- A token of a kind with a text. -/
def sample (kind : TokenKind) (lexeme : String) : Token :=
  { kind, lexeme, span := { start := 0, stop := 0 } }

/-- Tokens that complete a part. -/
def closing : Pending → List Token
  | .mark m => [sample m.kind ""]
  | .typeName => [sample .keyword "int"]
  | .assignOp => [sample .assignmentOperator "="]
  | .operand => [sample .identifier ""]
  -- parts that may be left out
  | .operations _ | .alternative => []
  | .stmt => [sample .keyword "int", sample .identifier "", sample .semicolon ""]
  | .stmts => [sample .closeBrace ""]
  | .initializer => [sample .semicolon ""]
  | .elseBody => [sample .openBrace "", sample .closeBrace ""]
  | .arguments => [sample .closeParen ""]

/-- The token does not start a part that may be left out. -/
def Neutral (token : Token) : Prop :=
  token.kind.isOperator = false ∧ token.isKeyword "else" = false

theorem neutral_of_mem_closing {part : Pending} {token : Token} (h : token ∈ part.closing) :
    Neutral token := by
  cases part with
  | mark m =>
    obtain rfl := List.mem_singleton.mp h
    cases m <;> exact ⟨rfl, rfl⟩
  | operations | alternative => simp [closing] at h
  | stmt =>
    simp only [closing, List.mem_cons, List.not_mem_nil, or_false] at h
    rcases h with rfl | rfl | rfl <;> exact ⟨rfl, rfl⟩
  | elseBody =>
    simp only [closing, List.mem_cons, List.not_mem_nil, or_false] at h
    rcases h with rfl | rfl <;> exact ⟨rfl, rfl⟩
  | _ =>
    obtain rfl := List.mem_singleton.mp h
    exact ⟨rfl, rfl⟩

/-- A part that may be left out is left out before a token that starts none. -/
theorem verdict_skip {part : Pending} {tokens : List Token}
    (hpart : part = .alternative ∨ ∃ n, part = .operations n)
    (h : ∀ token ∈ tokens.head?, Neutral token) :
    verdict program (part :: stack) tokens = verdict program stack tokens := by
  cases tokens with
  | nil => rcases hpart with rfl | ⟨n, rfl⟩ <;> exact verdict_nil_congr rfl
  | cons token rest =>
    obtain ⟨hoperator, helse⟩ := h token rfl
    rcases hpart with rfl | ⟨n, rfl⟩
    · exact verdict_cons_congr (by simp [advance, helse]) rest
    · exact verdict_cons_congr (by simp [advance, BinaryOp.among?_eq_none hoperator]) rest

/-- The tokens that complete a part are taken for it. -/
theorem verdict_closing_append {part : Pending} {tokens : List Token}
    (h : ∀ token ∈ tokens.head?, Neutral token) :
    verdict program (part :: stack) (part.closing ++ tokens) = verdict program stack tokens := by
  cases part with
  | mark m => exact verdict_cons_of_ok (by simp [advance, sample]) tokens
  | operations n => exact verdict_skip (.inr ⟨n, rfl⟩) h
  | alternative => exact verdict_skip (.inl rfl) h
  | _ => rfl

/-- Every stack can be completed. -/
theorem verdict_closing (program : Bool) (stack : List Pending) :
    verdict program stack (stack.flatMap closing) = .ok () := by
  induction stack with
  | nil => rfl
  | cons part stack ih =>
    rw [List.flatMap_cons, verdict_closing_append, ih]
    -- what comes next completes some part below, so it starts nothing that may be left out
    intro token hhead
    obtain ⟨other, -, hother⟩ := List.mem_flatMap.mp (List.mem_of_mem_head? hhead)
    exact neutral_of_mem_closing hother

/-! ### The tokens that a stack refuses -/

end Pending

/-- The token is a numeric literal, with or without a value. -/
def Token.IsNumber (token : Token) : Prop :=
  token.kind = .integer ∨ token.kind = .float

/-- The token is a literal, with or without a value. -/
def Token.IsLiteral (token : Token) : Prop :=
  token.IsNumber ∨ token.kind = .string

/-- The error is about the token: it gives its text, its span and, for an unexpected token, its
kind. -/
def ParseError.Reports (error : ParseError) (token : Token) : Prop :=
  (∃ expected, error = .unexpectedToken expected token.kind token.lexeme token.span) ∨
    error = .invalidLiteral token.lexeme token.span

namespace Pending

/-- What is still to come after an operand, if an operand may come next. -/
def operand? : List Pending → Option (List Pending)
  | .operand :: stack => some stack
  | .operations _ :: stack | .alternative :: stack => operand? stack
  | _ => none

/-- The literal of a number is its value, or the fault is reported at the number. -/
theorem literal_number {token : Token} (h : token.IsNumber) :
    (∃ literal, token.literal = .ok literal ∧ token.value.isSome = true) ∨
      (token.literal = .error (.error (.invalidLiteral token.lexeme token.span)) ∧
        token.value = none) := by
  have hstring : token.kind ≠ .string := by rcases h with h | h <;> simp [h]
  cases hvalue : token.value with
  | none => exact .inr ⟨by simp [Token.literal, hstring, hvalue], rfl⟩
  | some number =>
    cases number with
    | int value => exact .inl ⟨.int value, by simp [Token.literal, hstring, hvalue], rfl⟩
    | float value => exact .inl ⟨.float value, by simp [Token.literal, hstring, hvalue], rfl⟩

theorem afterStmt_literal {stack : List Pending} {token : Token} (h : token.IsLiteral) :
    afterStmt stack token = refuse .statement token := by
  rcases h with (h | h) | h <;> simp [afterStmt, Token.isKeyword, Token.is, Token.isTypeName, h]

/-- A literal is refused where no operand may come next; where one may, only its value counts. -/
theorem advance_literal (program : Bool) {token : Token} (h : token.IsLiteral)
    (stack : List Pending) :
    match operand? stack with
    | some next => advance program stack token = token.literal.map fun _ => next
    | none => ∃ expected, advance program stack token = refuse expected token := by
  have hoperator : token.kind.isOperator = false := by rcases h with (h | h) | h <;> rw [h] <;> rfl
  have hword : ∀ word, token.isKeyword word = false :=
    Parser.isKeyword_eq_false_of_kind (by rcases h with (h | h) | h <;> simp [h])
  have htype : token.isTypeName = false := by
    rcases h with (h | h) | h <;> simp [Token.isTypeName, h]
  have hassign : AssignOp.ofToken? token = none := by
    cases hsign : AssignOp.ofToken? token with
    | none => rfl
    | some operator =>
      have hspells := AssignOp.ofToken?_eq_some_iff.mp hsign
      rcases h with (h | h) | h <;> simp [Token.is, h] at hspells
  fun_induction operand? stack with
  -- an operand is on top
  | case1 stack =>
    rcases h with (h | h) | h <;>
      simp [advance, afterOperand, UnaryOp.ofToken?_eq_none hoperator, h]
  -- a literal starts no part that may be left out
  | case2 n stack ih => simpa [advance, BinaryOp.among?_eq_none hoperator] using ih
  | case3 stack ih => simpa [advance, hword] using ih
  -- every other part looks for a token of another kind
  | case4 stack hoperand hoperations halternative =>
    cases stack with
    | nil =>
      cases program with
      | true => exact ⟨.typeName, by simp [advance, htype]⟩
      | false => exact ⟨.endOfInput, by simp [advance]⟩
    | cons part stack =>
      cases part with
      | mark m =>
        have hkind : token.kind ≠ m.kind := by
          rcases h with (h | h) | h <;> rw [h] <;> cases m <;> decide
        exact ⟨_, by rw [advance, if_neg hkind]⟩
      | typeName => exact ⟨_, by rw [advance, if_neg (by simp [htype])]⟩
      | assignOp => exact ⟨_, by rw [advance, if_neg (by simp [hassign])]⟩
      | operand => exact absurd rfl (hoperand stack)
      | operations n => exact absurd rfl (hoperations n stack)
      | stmt => exact ⟨_, by rw [advance, afterStmt_literal h]⟩
      | stmts =>
        have hkind : token.kind ≠ .closeBrace := by rcases h with (h | h) | h <;> simp [h]
        exact ⟨_, by rw [advance, if_neg hkind, afterStmt_literal h]⟩
      | initializer =>
        refine ⟨.lexeme .assignmentOperator "=", ?_⟩
        rcases h with (h | h) | h <;> simp [advance, Token.is, h]
      | alternative => exact absurd rfl (halternative stack)
      | elseBody =>
        refine ⟨.kind .openBrace, ?_⟩
        rcases h with (h | h) | h <;> simp [advance, hword, h]
      | arguments =>
        refine ⟨.typeName, ?_⟩
        rcases h with (h | h) | h <;> simp [advance, htype, h]

section Refusal

variable {program : Bool} {stack next : List Pending} {token : Token}
  {failure : Failure ParseError}

/-- The token is at fault: it is refused where something else was looked for, or it is a literal
without a value. -/
def AtFault (token : Token) (failure : Failure ParseError) : Prop :=
  (∃ expected,
      failure = .error (.unexpectedToken expected token.kind token.lexeme token.span)) ∨
    ((token.IsNumber ∨ token.kind = .string) ∧ token.literal = .error failure)

theorem atFault_of_refuse {expected : Expected} (h : refuse expected token = .error failure) :
    AtFault token failure :=
  .inl ⟨expected, (Except.error.inj h).symm⟩

theorem atFault_of_afterOperand (h : afterOperand stack token = .error failure) :
    AtFault token failure := by
  unfold afterOperand at h
  split at h
  · simp at h
  split at h
  -- names and parentheses are taken
  case h_4 | h_5 => simp at h
  case h_6 => exact atFault_of_refuse h
  -- a literal is refused only for its value
  all_goals
    next hkind =>
    refine .inr ⟨by simp [Token.IsNumber, hkind], ?_⟩
    cases hliteral : token.literal with
    | ok literal => simp [hliteral, Except.map] at h
    | error found => simpa [hliteral, Except.map] using h

theorem atFault_of_afterStmt (h : afterStmt stack token = .error failure) :
    AtFault token failure := by
  unfold afterStmt at h
  repeat' split at h
  all_goals first | exact atFault_of_refuse h | simp at h

/-- A refused token is at fault. -/
theorem atFault_of_advance (h : advance program stack token = .error failure) :
    AtFault token failure := by
  induction stack with
  | nil =>
    rw [advance] at h
    repeat' split at h
    all_goals first | exact atFault_of_refuse h | simp at h
  | cons part stack ih =>
    -- parts that may be left out hand the token down; no other part looks below itself
    cases part with
    | operand => exact atFault_of_afterOperand h
    | stmt => exact atFault_of_afterStmt h
    | stmts =>
      rw [advance] at h
      split at h
      · simp at h
      · exact atFault_of_afterStmt h
    | operations n =>
      rw [advance] at h
      split at h
      · simp at h
      · exact ih h
    | alternative =>
      rw [advance] at h
      split at h
      · simp at h
      · exact ih h
    | _ =>
      rw [advance] at h
      repeat' split at h
      all_goals first | exact atFault_of_refuse h | simp at h

end Refusal

end Pending

/-! ### Viable tokens -/

namespace EntryPoint

open Pending

/-- More tokens can make the tokens acceptable. -/
def Viable (entry : EntryPoint) (tokens : List Token) : Prop :=
  ∃ more, entry.Accepts (tokens ++ more)

theorem accepts_iff_verdict (entry : EntryPoint) (tokens : List Token) :
    entry.Accepts tokens ↔ entry.verdict tokens = .ok () := by
  rcases entry.parse_cases tokens with ⟨tree, hparse, hverdict⟩ | ⟨halt, hparse, hverdict⟩
  · simp [Accepts, hparse, hverdict]
  · simp [Accepts, hparse, hverdict]

/-- Tokens are viable exactly when the stack allows each of them. -/
theorem viable_iff_run {entry : EntryPoint} {tokens : List Token} :
    entry.Viable tokens ↔ ∃ next, run entry.repeats entry.parts tokens = .ok next := by
  constructor
  · rintro ⟨more, haccepts⟩
    cases hrun : run entry.repeats entry.parts tokens with
    | ok next => exact ⟨next, rfl⟩
    | error failure =>
      -- no more tokens make up for the fault
      obtain ⟨left, hleft⟩ := verdict_append_of_run_error hrun more
      rw [accepts_iff_verdict, verdict, hleft] at haccepts
      simp at haccepts
  · rintro ⟨next, hrun⟩
    refine ⟨next.flatMap closing, ?_⟩
    rw [accepts_iff_verdict, verdict, verdict_append_of_run hrun]
    exact verdict_closing entry.repeats next

theorem Viable.of_append {entry : EntryPoint} {first rest : List Token}
    (h : entry.Viable (first ++ rest)) : entry.Viable first := by
  obtain ⟨more, haccepts⟩ := h
  exact ⟨rest ++ more, by rwa [← List.append_assoc]⟩

theorem Accepts.viable {entry : EntryPoint} {tokens : List Token} (h : entry.Accepts tokens) :
    entry.Viable tokens :=
  ⟨[], by rwa [List.append_nil]⟩

/-- After tokens that the stack allows, one more is viable exactly when it is allowed too. -/
theorem viable_snoc_iff {entry : EntryPoint} {before : List Token} {next : List Pending}
    (h : run entry.repeats entry.parts before = .ok next) (token : Token) :
    entry.Viable (before ++ [token]) ↔
      ∃ after, advance entry.repeats next token = .ok after := by
  rw [viable_iff_run, run_append_of_run h]
  cases hadvance : advance entry.repeats next token <;> simp [run, hadvance]

/-- A parse succeeds, stops at the end of viable tokens, or stops at the first token after which
the tokens are not viable. -/
theorem parse_trichotomy (entry : EntryPoint) (tokens : List Token) :
    entry.Accepts tokens ∨
      (∃ expected, entry.Viable tokens ∧ ¬entry.Accepts tokens ∧
        entry.parse tokens = .error (.error (.unexpectedEnd expected))) ∨
      ∃ before token after next failure, tokens = before ++ token :: after ∧
        run entry.repeats entry.parts before = .ok next ∧
        advance entry.repeats next token = .error failure ∧
        entry.parse tokens = .error failure := by
  rcases entry.parse_cases tokens with ⟨tree, hparse, -⟩ | ⟨halt, hparse, hverdict⟩
  · exact .inl ⟨tree, hparse⟩
  · rcases verdict_eq_error hverdict with ⟨next, expected, hrun, -, rfl⟩ |
      ⟨before, token, after, next, htokens, hrun, hadvance, -⟩
    · have hnot : ¬entry.Accepts tokens := by
        rintro ⟨tree, htree⟩
        simp [htree] at hparse
      exact .inr (.inl ⟨expected, viable_iff_run.mpr ⟨next, hrun⟩, hnot, hparse⟩)
    · exact .inr (.inr ⟨before, token, after, next, halt.failure, htokens, hrun, hadvance, hparse⟩)

/-- The index of the first token that cannot stand where it is. -/
theorem isLeast_of_not_viable {entry : EntryPoint} {before after : List Token} {token : Token}
    (hbefore : entry.Viable before) (htoken : ¬entry.Viable (before ++ [token])) :
    IsLeast {i | i < (before ++ token :: after).length ∧
      ¬entry.Viable ((before ++ token :: after).take (i + 1))} before.length := by
  have htake : (before ++ token :: after).take (before.length + 1) = before ++ [token] := by
    simp [List.take_append, List.take_of_length_le]
  refine ⟨⟨by simp, by rwa [htake]⟩, fun i ⟨_, hi⟩ => ?_⟩
  -- up to an earlier token, the tokens are a part of the viable ones
  by_contra hlt
  have htake : (before ++ token :: after).take (i + 1) = before.take (i + 1) :=
    List.take_append_of_le_length (by omega)
  rw [← List.take_append_drop (i + 1) before] at hbefore
  exact hi (htake ▸ hbefore.of_append)

end EntryPoint

/-- A literal without a value is reported exactly where a literal with a value could stand. -/
theorem Pending.invalidLiteral_iff {program : Bool} {stack : List Pending} {token literal : Token}
    {failure : Failure ParseError} (hadvance : advance program stack token = .error failure)
    (hnumber : literal.IsNumber) (hvalue : literal.value.isSome = true) :
    (∃ lexeme span, failure = .error (.invalidLiteral lexeme span)) ↔
      token.IsNumber ∧ token.value = none ∧
        ∃ next, advance program stack literal = .ok next := by
  have hliteral := advance_literal program (.inl hnumber) stack
  constructor
  · rintro ⟨lexeme, span, rfl⟩
    rcases atFault_of_advance hadvance with ⟨expected, hexpected⟩ | ⟨hkind, hfault⟩
    · simp at hexpected
    -- a string that cannot be cut is another failure
    have htoken : token.IsNumber := by
      refine hkind.resolve_right fun hstring => ?_
      unfold Token.literal at hfault
      rw [if_pos hstring] at hfault
      split at hfault <;> simp at hfault
    have hnone : token.value = none := by
      rcases literal_number htoken with ⟨found, hfound, -⟩ | ⟨-, hnone⟩
      · simp [hfound] at hfault
      · exact hnone
    have hrefused := advance_literal program (.inl htoken) stack
    refine ⟨htoken, hnone, ?_⟩
    -- the token was looked at for its value, so an operand may come next
    cases hoperand : operand? stack with
    | none =>
      rw [hoperand] at hrefused
      obtain ⟨expected, hexpected⟩ := hrefused
      simp [hexpected, refuse] at hadvance
    | some next =>
      rw [hoperand] at hliteral
      rcases literal_number hnumber with ⟨found, hfound, -⟩ | ⟨-, hnone⟩
      · exact ⟨next, by rw [hliteral, hfound]; rfl⟩
      · simp [hnone] at hvalue
  · rintro ⟨htoken, hnone, next, hnext⟩
    have hrefused := advance_literal program (.inl htoken) stack
    cases hoperand : operand? stack with
    | none =>
      rw [hoperand] at hliteral
      obtain ⟨expected, hexpected⟩ := hliteral
      simp [hexpected, refuse] at hnext
    | some after =>
      rw [hoperand] at hrefused
      rcases literal_number htoken with ⟨-, -, hsome⟩ | ⟨hfault, -⟩
      · simp [hnone] at hsome
      · rw [hfault, hadvance] at hrefused
        exact ⟨_, _, Except.error.inj hrefused⟩

/-- Every string token has a first and a last byte to cut. -/
def Sliceable (tokens : List Token) : Prop :=
  ∀ token ∈ tokens, token.kind = .string → token.stringBody?.isSome = true

/-- The failure of a refused token is an error about that token. -/
theorem reports_of_atFault {token : Token} {failure : Failure ParseError}
    (h : Pending.AtFault token failure)
    (hslice : token.kind = .string → token.stringBody?.isSome = true) :
    ∃ error, failure = .error error ∧ error.Reports token := by
  rcases h with ⟨expected, rfl⟩ | ⟨hnumber | hstring, hliteral⟩
  · exact ⟨_, rfl, .inl ⟨expected, rfl⟩⟩
  · rcases Pending.literal_number hnumber with ⟨found, hfound, -⟩ | ⟨hfault, -⟩
    · simp [hfound] at hliteral
    · rw [hfault] at hliteral
      exact ⟨_, (Except.error.inj hliteral).symm, .inr rfl⟩
  · obtain ⟨body, hbody⟩ := Option.isSome_iff_exists.mp (hslice hstring)
    simp [Token.literal, hstring, hbody] at hliteral

/-- A parse that fails is out of tokens, or stops at the first token after which the tokens are not
viable; this token is at fault. -/
theorem EntryPoint.exists_atFault {entry : EntryPoint} {tokens : List Token}
    {failure : Failure ParseError} (h : entry.parse tokens = .error failure) :
    (∃ expected, failure = .error (.unexpectedEnd expected) ∧ entry.Viable tokens) ∨
      ∃ i token, IsLeast {j | j < tokens.length ∧ ¬entry.Viable (tokens.take (j + 1))} i ∧
        tokens[i]? = some token ∧ Pending.AtFault token failure := by
  rcases entry.parse_trichotomy tokens with ⟨tree, htree⟩ | ⟨expected, hviable, -, hparse⟩ |
    ⟨before, token, after, next, found, rfl, hrun, hadvance, hparse⟩
  · simp [htree] at h
  · exact .inl ⟨expected, Except.error.inj (h.symm.trans hparse), hviable⟩
  · obtain rfl := Except.error.inj (h.symm.trans hparse)
    have hbefore : entry.Viable before := viable_iff_run.mpr ⟨next, hrun⟩
    have htoken : ¬entry.Viable (before ++ [token]) := by
      simp [viable_snoc_iff hrun, hadvance]
    exact .inr ⟨before.length, token, isLeast_of_not_viable hbefore htoken, by simp,
      Pending.atFault_of_advance hadvance⟩

/-- Errors are found at the earliest possible token. If all string tokens can be cut, a parse
reports the end of the tokens exactly when they are viable and not accepted. It reports a token
exactly when they are not viable, and the token is the first one that makes them so. The report is
about a literal without a value exactly when that token is one and a literal could stand there. -/
theorem earliest_fault (entry : EntryPoint) (tokens : List Token) (hslice : Sliceable tokens) :
    ((∃ expected, entry.parse tokens = .error (.error (.unexpectedEnd expected))) ↔
        entry.Viable tokens ∧ ¬entry.Accepts tokens) ∧
      ((∃ error, entry.parse tokens = .error (.error error) ∧
          ((∃ expected found lexeme span, error = .unexpectedToken expected found lexeme span) ∨
            ∃ lexeme span, error = .invalidLiteral lexeme span)) ↔
        ¬entry.Viable tokens) ∧
      (¬entry.Viable tokens → ∃ i token error,
        IsLeast {j | j < tokens.length ∧ ¬entry.Viable (tokens.take (j + 1))} i ∧
        tokens[i]? = some token ∧ entry.parse tokens = .error (.error error) ∧
        error.Reports token ∧
        ∀ literal : Token, literal.IsNumber → literal.value.isSome = true →
          ((∃ lexeme span, error = .invalidLiteral lexeme span) ↔
            token.IsNumber ∧ token.value = none ∧
              entry.Viable (tokens.take i ++ [literal]))) := by
  -- the parse returns a tree, misses tokens at the end, or stops at a token
  rcases entry.parse_trichotomy tokens with haccepts | ⟨expected, hviable, hnot, hparse⟩ |
    ⟨before, token, after, next, failure, rfl, hrun, hadvance, hparse⟩
  · have hviable := haccepts.viable
    obtain ⟨tree, htree⟩ := haccepts
    simp [htree, hviable, EntryPoint.Accepts]
  · simp [hparse, hviable, hnot]
  · have hbefore : entry.Viable before := EntryPoint.viable_iff_run.mpr ⟨next, hrun⟩
    have htoken : ¬entry.Viable (before ++ [token]) := by
      simp [EntryPoint.viable_snoc_iff hrun, hadvance]
    have hnot : ¬entry.Viable (before ++ token :: after) := by
      rw [List.append_cons]
      exact fun hviable => htoken hviable.of_append
    obtain ⟨error, rfl, hreports⟩ :=
      reports_of_atFault (Pending.atFault_of_advance hadvance) (hslice token (by simp))
    refine ⟨?_, ?_, fun _ => ⟨before.length, token, error,
      EntryPoint.isLeast_of_not_viable hbefore htoken, by simp, hparse, hreports, ?_⟩⟩
    · rcases hreports with ⟨expected, rfl⟩ | rfl <;> simp [hparse, hnot]
    · rcases hreports with ⟨expected, rfl⟩ | rfl <;> simp [hparse, hnot]
    · intro literal hnumber hvalue
      rw [List.take_left, EntryPoint.viable_snoc_iff hrun,
        ← Pending.invalidLiteral_iff hadvance hnumber hvalue]
      simp

/-- A string, an operator and a literal that is too large: the last one is at fault. -/
theorem earliest_fault_tooLarge :
    let tokens := [Pending.sample .string "\"a\"", Pending.sample .arithmeticOperator "+",
      Pending.sample .integer "9223372036854775808"]
    Sliceable tokens ∧ ∃ i token error,
      IsLeast {j | j < tokens.length ∧ ¬EntryPoint.expr.Viable (tokens.take (j + 1))} i ∧
        tokens[i]? = some token ∧ EntryPoint.expr.parse tokens = .error (.error error) ∧
        error.Reports token := by
  intro tokens
  have hslice : Sliceable tokens := by
    intro token hmem hstring
    simp only [tokens, List.mem_cons, List.not_mem_nil, or_false] at hmem
    rcases hmem with rfl | rfl | rfl
    · decide
    · simp [Pending.sample] at hstring
    · simp [Pending.sample] at hstring
  have hrun : Pending.run EntryPoint.expr.repeats EntryPoint.expr.parts tokens =
      .error (.error (.invalidLiteral "9223372036854775808" ⟨0, 0⟩)) := by
    rfl
  have hnot : ¬EntryPoint.expr.Viable tokens := by
    simp [EntryPoint.viable_iff_run, hrun]
  obtain ⟨i, token, error, hleast, htoken, hparse, hreports, -⟩ :=
    (earliest_fault .expr tokens hslice).2.2 hnot
  exact ⟨hslice, i, token, error, hleast, htoken, hparse, hreports⟩

end CFrontEnd
