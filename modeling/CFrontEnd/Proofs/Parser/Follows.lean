import CFrontEnd.Proofs.Parser.Acceptance
import CFrontEnd.Proofs.Parser.Pending

/-!
# Rules Follow Pending Parts

Every rule of the parser finds the parts of its phrase, one after the other: whatever is to come
after it, the stack with those parts on top gives the fault of the rule, or goes on where the rule
ends. So the parser and the stack stop at the same tokens with the same faults.

## Main definitions

* `Follows`: a rule finds some parts at the front of the tokens.
* `EntryPoint.verdict`: the first fault of some tokens for an entry point, or none.

## Main results

* `Follows.andThen`: rules in sequence find their parts in sequence.
* `level_follows`, `statements_follow`, `function_follows`, `program_verdict`: the parts that each
  rule finds.
* `EntryPoint.parse_cases`: a parse and its stack accept the same tokens and report the same
  faults.
-/

namespace CFrontEnd

/-- The verdict on the tokens that a rule leaves, or the fault of the rule. -/
def Outcome.resume {α : Type} (outcome : Outcome α) (program : Bool) (stack : List Pending) :
    Except Halt Unit :=
  outcome.bind fun taken => Pending.verdict program stack taken.2

namespace Parser

open Outcome Pending

/-- A rule finds the pending parts at the front of the tokens: before any stack, they have the
verdict that the rule gives and, after its success, the stack. -/
def Follows {α : Type} (parts : List Pending) (outcome : Outcome α) (tokens : List Token) : Prop :=
  ∀ program stack, verdict program (parts ++ stack) tokens = outcome.resume program stack

section Follows

variable {α β : Type} {parts more : List Pending} {outcome : Outcome α} {tokens : List Token}

theorem follows_nothing (value : α) (tokens : List Token) :
    Follows [] (.ok (value, tokens)) tokens :=
  fun _ _ => rfl

/-- Rules in sequence find their parts in sequence. -/
theorem Follows.andThen {next : α → List Token → Outcome β} (h : Follows parts outcome tokens)
    (hnext : ∀ value rest, outcome = .ok (value, rest) → Follows more (next value rest) rest) :
    Follows (parts ++ more) (outcome.andThen next) tokens := by
  intro program stack
  rw [List.append_assoc, h program (more ++ stack)]
  cases outcome with
  | error halt => rfl
  | ok taken => exact hnext taken.1 taken.2 rfl program stack

/-- The value of a rule does not matter. -/
theorem Follows.map {f : α → β} (h : Follows parts outcome tokens) :
    Follows parts (outcome.andThen fun value rest => .ok (f value, rest)) tokens := by
  -- in sequence with a rule that finds no part
  have hthen := h.andThen fun value rest _ => follows_nothing (f value) rest
  rwa [List.append_nil] at hthen

/-- A part that takes one token follows the test of that token. -/
theorem demand_follows {part : Pending} {expected : Expected} {test : Token → Option α}
    (hmissing : ∀ stack, missing? (part :: stack) = some expected)
    (hadvance : ∀ program stack token, advance program (part :: stack) token =
      if (test token).isSome then .ok stack else refuse expected token) (tokens : List Token) :
    Follows [part] (demand expected test tokens) tokens := by
  intro program stack
  cases tokens with
  | nil =>
    rw [List.singleton_append, verdict, hmissing]
    rfl
  | cons token rest =>
    have hstep := hadvance program stack token
    rw [List.singleton_append]
    cases htest : test token with
    | none =>
      rw [htest] at hstep
      rw [verdict_cons_of_error hstep, demand_cons_of_none htest]
      rfl
    | some value =>
      rw [htest] at hstep
      rw [verdict_cons_of_ok hstep, demand_cons_of_some htest]
      rfl

theorem mark_follows (m : Mark) (tokens : List Token) :
    Follows [.mark m] (mark m.kind tokens) tokens := by
  refine demand_follows (fun _ => rfl) (fun program stack token => ?_) tokens
  simp [advance, Option.guard, apply_ite Option.isSome]

theorem name_follows (tokens : List Token) : Follows [.mark .name] (name tokens) tokens := by
  refine demand_follows (fun _ => rfl) (fun program stack token => ?_) tokens
  by_cases h : token.kind = .identifier <;> simp [advance, Mark.kind, h]

theorem typeName_follows (tokens : List Token) : Follows [.typeName] (typeName tokens) tokens := by
  refine demand_follows (fun _ => rfl) (fun program stack token => ?_) tokens
  simp [advance, apply_ite Option.isSome]

theorem assignOp_follows (tokens : List Token) : Follows [.assignOp] (assignOp tokens) tokens :=
  demand_follows (fun _ => rfl) (fun _ _ _ => rfl) tokens

/-- The first token turns a part into others, and the rule goes on with those. -/
theorem follows_cons {part : Pending} {token : Token} {rest : List Token}
    (hadvance : ∀ program stack, advance program (part :: stack) token = .ok (parts ++ stack))
    (h : Follows parts outcome rest) : Follows [part] outcome (token :: rest) := by
  intro program stack
  rw [List.singleton_append, verdict_cons_of_ok (hadvance program stack)]
  exact h program stack

/-- Parts that the first token changes alike follow the same rules. -/
theorem follows_congr {other : List Pending} {token : Token} {rest : List Token}
    (hadvance : ∀ program stack,
      advance program (parts ++ stack) token = advance program (other ++ stack) token)
    (h : Follows other outcome (token :: rest)) : Follows parts outcome (token :: rest) :=
  fun program stack => (verdict_cons_congr (hadvance program stack) rest).trans (h program stack)

/-- A part that the next token does not start is left out. -/
theorem follows_skip {part : Pending} {value : α}
    (hmissing : ∀ stack, missing? (part :: stack) = missing? stack)
    (hadvance : ∀ token ∈ tokens.head?, ∀ program stack,
      advance program (part :: stack) token = advance program stack token) :
    Follows [part] (.ok (value, tokens)) tokens := by
  intro program stack
  cases tokens with
  | nil => exact verdict_nil_congr (hmissing stack)
  | cons token rest => exact verdict_cons_congr (hadvance token rfl program stack) rest

/-- A first token that a part does not allow is the fault of the rule. -/
theorem follows_refuse {part : Pending} {token : Token} {rest : List Token}
    {failure : Failure ParseError}
    (hadvance : ∀ program stack, advance program (part :: stack) token = .error failure) :
    Follows [part] (.error { failure, rest := token :: rest } : Outcome α) (token :: rest) := by
  intro program stack
  exact verdict_cons_of_error (hadvance program stack) rest

/-- Where tokens are missing, the part says what is looked for. -/
theorem follows_missing {part : Pending} {expected : Expected}
    (hmissing : ∀ stack, missing? (part :: stack) = some expected) :
    Follows [part] (.error (Halt.unexpected expected []) : Outcome α) [] := by
  intro program stack
  rw [List.singleton_append, verdict, hmissing]
  rfl

end Follows

/-! ### Expressions -/

theorem primary_follows_step {tokens : List Token}
    (hunary : ∀ token ∈ tokens.head?, UnaryOp.ofToken? token = none)
    (hexpr : ∀ rest, rest.length < tokens.length →
      Follows (Pending.level 1) (level 1 rest) rest) :
    Follows [.operand] (primary tokens) tokens := by
  cases tokens with
  | nil =>
    rw [primary_nil]
    exact follows_missing fun _ => rfl
  | cons token rest =>
    -- prefix operators were looked for before
    have hsign : (UnaryOp.ofToken? token).isSome = false := by simp [hunary token rfl]
    rw [primary_cons]
    split
    -- a name
    case h_4 hkind =>
      refine follows_cons (fun program stack => ?_) (follows_nothing _ rest)
      simp [advance, afterOperand, hsign, hkind]
    -- an expression in parentheses
    case h_5 hkind =>
      have hinner := (hexpr rest (by simp)).andThen fun value after _ =>
        (mark_follows .closeParen after).map (f := fun _ => value)
      rw [enclosed, expr_eq]
      refine follows_cons (fun program stack => ?_) hinner
      simp [advance, afterOperand, hsign, hkind]
    case h_6 =>
      refine follows_refuse fun program stack => ?_
      simp only [advance, afterOperand, hsign]
      rfl
    -- a literal, whose token is the fault if it has no value
    all_goals
      next hkind =>
      cases hliteral : token.literal with
      | ok literal =>
        refine follows_cons (fun program stack => ?_) (follows_nothing _ rest)
        simp [advance, afterOperand, hsign, hkind, hliteral, Except.map]
      | error failure =>
        refine follows_refuse fun program stack => ?_
        simp [advance, afterOperand, hsign, hkind, hliteral, Except.map]

theorem unary_follows_step {tokens : List Token}
    (hprimary : (∀ token ∈ tokens.head?, UnaryOp.ofToken? token = none) →
      Follows [.operand] (primary tokens) tokens)
    (hunary : ∀ rest, rest.length < tokens.length → Follows [.operand] (unary rest) rest) :
    Follows [.operand] (unary tokens) tokens := by
  cases tokens with
  | nil =>
    rw [unary_nil]
    exact follows_missing fun _ => rfl
  | cons token rest =>
    cases hsign : UnaryOp.ofToken? token with
    | none =>
      rw [unary_cons_of_none hsign]
      exact hprimary fun _ hhead => Option.some.inj hhead ▸ hsign
    | some operator =>
      rw [unary_cons_of_some hsign]
      refine follows_cons (fun program stack => ?_) (hunary rest (by simp)).map
      simp [advance, afterOperand, hsign]

theorem operands_follow_step {n : Nat} {left : Expr} {tokens : List Token}
    (hlevel : ∀ rest, rest.length < tokens.length →
      Follows (Pending.level (n + 1)) (level (n + 1) rest) rest)
    (hoperands : ∀ left rest, rest.length < tokens.length →
      Follows [.operations n] (operands n left rest) rest) :
    Follows [.operations n] (operands n left tokens) tokens := by
  cases tokens with
  | nil =>
    rw [operands_nil]
    exact follows_skip (fun _ => rfl) (by simp)
  | cons token rest =>
    cases hsign : BinaryOp.among? (BinaryOp.ofLevel n) token with
    | none =>
      rw [operands_cons_of_none hsign]
      refine follows_skip (fun _ => rfl) fun first hhead program stack => ?_
      obtain rfl := Option.some.inj hhead
      simp [advance, hsign]
    | some operator =>
      rw [operands_cons_of_some hsign]
      -- the operands to the left do not matter for what is still to come
      have hmore : ∀ right after, level (n + 1) rest = .ok (right, after) →
          Follows [.operations n] (operands n (.binary operator left right) after) after :=
        fun right after h => hoperands _ after (Nat.lt_succ_of_lt (length_lt_of_ofTaken h))
      refine follows_cons (fun program stack => ?_) ((hlevel rest (by simp)).andThen hmore)
      simp [advance, hsign]

/-- The parts of a level follow the rule of the level. -/
theorem level_follows {n : Nat} (hpos : 1 ≤ n) (hle : n ≤ 7) (tokens : List Token) :
    Follows (Pending.level n) (level n tokens) tokens := by
  refine (expr_induct (fun n tokens => Follows (Pending.level n) (level n tokens) tokens)
    (fun n left tokens => Follows [.operations n] (operands n left tokens) tokens)
    (fun tokens => Follows [.operand] (unary tokens) tokens)
    -- the part `operand` allows prefix operators, which the rule for operands does not
    (fun tokens => (∀ token ∈ tokens.head?, UnaryOp.ofToken? token = none) →
      Follows [.operand] (primary tokens) tokens) ?_ ?_ ?_ ?_ ?_).1 n tokens hpos hle
  · exact fun _ hexpr hsign => primary_follows_step hsign hexpr
  · exact fun _ => unary_follows_step
  · intro tokens h
    rwa [Parser.level_seven, Pending.level_seven]
  · intro n tokens hpos hle hnext hoperands
    rw [level_eq hpos hle, level_eq_append hle]
    exact hnext.andThen fun left rest h => hoperands left rest (length_lt_of_ofTaken h)
  · exact fun _ _ _ _ _ => operands_follow_step

theorem expr_follows (tokens : List Token) : Follows (Pending.level 1) (expr tokens) tokens := by
  rw [expr_eq]
  exact level_follows (by decide) (by decide) tokens

/-! ### Statements -/

/-- An expression and a semicolon. -/
theorem expr_semicolon_follows {α : Type} (f : Expr → α) (tokens : List Token) :
    Follows (Pending.level 1 ++ [.mark .semicolon])
      ((expr tokens).andThen fun value rest =>
        (mark .semicolon rest).andThen fun _ rest => .ok (f value, rest)) tokens :=
  (expr_follows tokens).andThen fun value rest _ =>
    (mark_follows .semicolon rest).map (f := fun _ => f value)

theorem initializer_follows (tokens : List Token) :
    Follows [.initializer] (initializer tokens) tokens := by
  rw [initializer_eq]
  cases tokens with
  | nil => exact follows_missing fun _ => rfl
  | cons token rest =>
    by_cases hsemicolon : token.kind = .semicolon
    · rw [mark_cons hsemicolon]
      refine follows_cons (fun program stack => ?_) (follows_nothing _ rest)
      simp [advance, hsemicolon]
    · rw [mark_cons_of_ne hsemicolon]
      by_cases hequals : token.is .assignmentOperator "=" = true
      · rw [equals_cons hequals]
        refine follows_cons (fun program stack => ?_) (expr_semicolon_follows some rest)
        simp [advance, hsemicolon, hequals]
      · have hrefuse : equals (token :: rest) =
            .error (Halt.unexpected (.lexeme .assignmentOperator "=") (token :: rest)) :=
          demand_cons_of_none (by simp [Option.guard, hequals])
        rw [hrefuse]
        refine follows_refuse fun program stack => ?_
        simp only [advance, hsemicolon, hequals]
        rfl

theorem declaration_follows (tokens : List Token) :
    Follows [.typeName, .mark .name, .initializer] (declaration tokens) tokens :=
  (typeName_follows tokens).andThen fun _ rest _ =>
  (name_follows rest).andThen fun _ rest _ => (initializer_follows rest).map

theorem assignment_follows (tokens : List Token) :
    Follows (.mark .name :: .assignOp :: (Pending.level 1 ++ [.mark .semicolon]))
      (assignment tokens) tokens :=
  (name_follows tokens).andThen fun target rest _ =>
  (assignOp_follows rest).andThen fun operator rest _ =>
  expr_semicolon_follows (fun value => Stmt.assignment operator target value) rest

theorem branches_follow_step {tokens : List Token}
    (hparts : ∀ rest, rest.length < tokens.length →
      Follows Pending.block (block rest) rest ∧
        Follows [.alternative] (alternative rest) rest) :
    Follows Pending.branches (branches tokens) tokens := by
  refine (mark_follows .openParen tokens).andThen fun _ rest h => ?_
  have hopening := length_lt_of_demand h
  refine (expr_follows rest).andThen fun condition rest h => ?_
  have hcondition := length_lt_of_ofTaken h
  refine (mark_follows .closeParen rest).andThen fun _ rest h => ?_
  have hclosing := length_lt_of_demand h
  refine (hparts rest (by omega)).1.andThen fun body rest h => ?_
  have hbody := length_lt_of_ofTaken h
  exact (hparts rest (by omega)).2.map

theorem stmt_follows_step {tokens : List Token}
    (hif : ∀ word rest, tokens = word :: rest → Follows Pending.branches (branches rest) rest) :
    Follows [.stmt] (stmt tokens) tokens := by
  cases tokens with
  | nil =>
    rw [stmt_nil]
    exact follows_missing fun _ => rfl
  | cons token rest =>
    rw [stmt_cons]
    split
    · next hreturn =>
      refine follows_cons (fun program stack => ?_) (expr_semicolon_follows Stmt.ret rest)
      simp [advance, afterStmt, hreturn]
    split
    · next hreturn hword =>
      refine follows_cons (fun program stack => ?_) (hif token rest rfl)
      simp [advance, afterStmt, hreturn, hword]
    -- the first token does not make the statement, so it is taken again by the rule for it
    split
    · next hreturn hword htype =>
      refine follows_congr (fun program stack => ?_) (declaration_follows (token :: rest))
      simp [advance, afterStmt, hreturn, hword, htype]
    split
    · next hreturn hword htype hname =>
      refine follows_congr (fun program stack => ?_) (assignment_follows (token :: rest))
      simp [advance, afterStmt, hreturn, hword, htype, hname, Mark.kind]
    · next hreturn hword htype hname =>
      refine follows_refuse fun program stack => ?_
      simp only [advance, afterStmt, hreturn, hword, htype, hname]
      rfl

theorem alternative_follows_step {tokens : List Token}
    (hparts : ∀ rest, rest.length < tokens.length →
      (∀ word after, rest = word :: after → Follows Pending.branches (branches after) after) ∧
        Follows Pending.block (block rest) rest) :
    Follows [.alternative] (alternative tokens) tokens := by
  cases tokens with
  | nil =>
    rw [alternative_nil]
    exact follows_skip (fun _ => rfl) (by simp)
  | cons token rest =>
    obtain ⟨hif, hblock⟩ := hparts rest (Nat.lt_succ_self _)
    rw [alternative_cons]
    split
    · next helse =>
      have hbody : Follows [.elseBody]
          (if startsWith "if" rest then
            (ifStmt rest).andThen fun statement rest => .ok (some [statement], rest)
          else (block rest).andThen fun body rest => .ok (some body, rest)) rest := by
        cases rest with
        -- an `else` at the end misses a brace, as a block does
        | nil =>
          refine Follows.map (f := some) fun program stack => ?_
          exact (verdict_nil_congr rfl).trans (hblock program stack)
        | cons word after =>
          by_cases hword : word.isKeyword "if" = true
          · rw [if_pos (show startsWith "if" (word :: after) = true from hword),
              ifStmt_cons hword]
            refine follows_cons (fun program stack => ?_) (hif word after rfl).map
            simp [advance, hword]
          · rw [if_neg (show ¬startsWith "if" (word :: after) = true from hword)]
            refine follows_congr (fun program stack => ?_) hblock.map
            by_cases hbrace : word.kind = .openBrace <;>
              simp [advance, hword, hbrace, Pending.block, Mark.kind]
      refine follows_cons (fun program stack => ?_) hbody
      simp [advance, helse]
    · next helse =>
      refine follows_skip (fun _ => rfl) fun first hhead program stack => ?_
      obtain rfl := Option.some.inj hhead
      simp [advance, helse]

theorem stmts_follow_step {tokens : List Token} (hstmt : Follows [.stmt] (stmt tokens) tokens)
    (hstmts : ∀ rest, rest.length < tokens.length → Follows [.stmts] (stmts rest) rest) :
    Follows [.stmts] (stmts tokens) tokens := by
  cases tokens with
  | nil =>
    rw [stmts_nil]
    exact follows_missing fun _ => rfl
  | cons token rest =>
    rw [stmts_cons]
    split
    · next hclosing =>
      refine follows_cons (fun program stack => ?_) (follows_nothing _ rest)
      simp [advance, hclosing]
    · next hclosing =>
      -- a statement, and then the same part again
      refine follows_congr (fun program stack => ?_) <| hstmt.andThen fun statement after h =>
        (hstmts after (length_lt_of_ofTaken h)).map
      simp [advance, hclosing]

/-- The pending parts of statements follow the rules for statements. -/
theorem statements_follow (tokens : List Token) :
    Follows [.stmt] (stmt tokens) tokens ∧
      (∀ word rest, tokens = word :: rest → Follows Pending.branches (branches rest) rest) ∧
      Follows [.alternative] (alternative tokens) tokens ∧
      Follows Pending.block (block tokens) tokens ∧ Follows [.stmts] (stmts tokens) tokens := by
  refine stmt_induct (fun tokens => Follows [.stmt] (stmt tokens) tokens)
    (fun tokens => ∀ word rest, tokens = word :: rest →
      Follows Pending.branches (branches rest) rest)
    (fun tokens => Follows [.alternative] (alternative tokens) tokens)
    (fun tokens => Follows Pending.block (block tokens) tokens)
    (fun tokens => Follows [.stmts] (stmts tokens) tokens) ?_ ?_ ?_ ?_ ?_ tokens
  · intro tokens hparts word rest htokens
    subst htokens
    exact branches_follow_step fun after h => hparts after (Nat.lt_succ_of_lt h)
  · exact fun _ => stmt_follows_step
  · intro tokens hstmts
    rw [block_eq]
    exact (mark_follows .openBrace tokens).andThen fun _ rest h =>
      hstmts rest (length_lt_of_demand h)
  · exact fun _ => alternative_follows_step
  · exact fun _ => stmts_follow_step

theorem stmt_follows (tokens : List Token) : Follows [.stmt] (stmt tokens) tokens :=
  (statements_follow tokens).1

theorem block_follows (tokens : List Token) : Follows Pending.block (block tokens) tokens :=
  (statements_follow tokens).2.2.2.1

/-! ### Functions and programs -/

theorem moreArguments_follow_step {tokens : List Token}
    (harguments : ∀ rest, rest.length < tokens.length →
      Follows [.arguments] (arguments rest) rest) :
    Follows [.typeName, .mark .name, .arguments] (moreArguments tokens) tokens := by
  refine (typeName_follows tokens).andThen fun _ rest h => ?_
  have htype := length_lt_of_demand h
  refine (name_follows rest).andThen fun _ rest h => ?_
  have hname := length_lt_of_demand h
  exact (harguments rest (by omega)).map

theorem arguments_follow (tokens : List Token) :
    Follows [.arguments] (arguments tokens) tokens := by
  induction hlength : tokens.length using Nat.strong_induction_on generalizing tokens with
  | _ length ih =>
    subst hlength
    have hmore := moreArguments_follow_step fun rest h => ih _ h rest rfl
    rw [arguments_eq]
    cases tokens with
    | nil => exact follows_missing fun _ => rfl
    | cons token rest =>
      by_cases hclosing : token.kind = .closeParen
      · rw [mark_cons hclosing]
        refine follows_cons (fun program stack => ?_) (follows_nothing _ rest)
        simp [advance, hclosing]
      · rw [mark_cons_of_ne hclosing]
        refine follows_congr (fun program stack => ?_) hmore
        simp [advance, hclosing]

theorem function_follows (tokens : List Token) :
    Follows (.typeName :: Pending.signature) (function tokens) tokens := by
  rw [function_eq]
  exact (typeName_follows tokens).andThen fun _ rest _ =>
    (name_follows rest).andThen fun _ rest _ =>
    (mark_follows .openParen rest).andThen fun _ rest _ =>
    (arguments_follow rest).andThen fun _ rest _ => (block_follows rest).map

/-- Functions follow each other until one halts. -/
theorem program_verdict (tokens : List Token) :
    verdict true [] tokens =
      match (runProgram tokens).value.halt with
      | none => .ok ()
      | some halt => .error halt := by
  -- after a whole program, a token is looked at as the first one of a function
  have hfunction : ∀ token rest, verdict true [] (token :: rest) =
      (function (token :: rest)).resume true [] := fun token rest =>
    (verdict_cons_congr (by simp [advance]) rest).trans (function_follows _ true [])
  induction tokens using runProgram_induction with
  | nil =>
    rw [runProgram]
    rfl
  | halted token rest stopped h =>
    rw [hfunction, function, h, runProgram_of_error h]
    rfl
  | cons token rest taken h ih =>
    rw [hfunction, function, h, runProgram_of_ok h, ProgramRun.halt_cons]
    exact ih

end Parser

/-! ### Whole parses -/

namespace EntryPoint

open CFrontEnd.Parser Pending

/-- The parts that are to come before the first token. -/
def parts : EntryPoint → List Pending
  | program => []
  | function => .typeName :: Pending.signature
  | stmt => [.stmt]
  | expr => Pending.level 1

/-- Functions may follow each other only in a program. -/
def repeats : EntryPoint → Bool
  | program => true
  | function | stmt | expr => false

/-- The first fault of the tokens, with the tokens from it on, if there is one. -/
def verdict (entry : EntryPoint) (tokens : List Token) : Except Halt Unit :=
  Pending.verdict entry.repeats entry.parts tokens

/-- A rule that must leave no token ends with the verdict on its tokens. -/
theorem complete_of_resume {α : Type} {outcome : Outcome α} {result : Except Halt Unit}
    (h : outcome.resume false [] = result) :
    (∃ value, complete outcome = .ok value ∧ result = .ok ()) ∨
      ∃ halt, complete outcome = .error halt.failure ∧ result = .error halt := by
  subst h
  cases outcome with
  | error halt => exact .inr ⟨halt, rfl, rfl⟩
  | ok taken =>
    obtain ⟨value, rest⟩ := taken
    -- a token that is left is refused by the empty stack and by the end of the parse alike
    cases rest with
    | nil => exact .inl ⟨value, rfl, rfl⟩
    | cons token rest => exact .inr ⟨_, rfl, rfl⟩

/-- The parse and the stack of pending parts agree: the tokens are accepted, or both stop with the
same failure. -/
theorem parse_cases (entry : EntryPoint) (tokens : List Token) :
    (∃ tree, entry.parse tokens = .ok tree ∧ entry.verdict tokens = .ok ()) ∨
      ∃ halt, entry.parse tokens = .error halt.failure ∧ entry.verdict tokens = .error halt := by
  have hrule : ∀ {α : Type} {parts : List Pending} {outcome : Outcome α},
      Follows parts outcome tokens →
        outcome.resume false [] = Pending.verdict false parts tokens := by
    intro α parts outcome h
    rw [← h false [], List.append_nil]
  match entry with
  | program =>
    have hverdict := program_verdict tokens
    cases hhalt : (runProgram tokens).value.halt with
    | none =>
      rw [hhalt] at hverdict
      refine .inl ⟨{ functions := (runProgram tokens).value.functions }, ?_, hverdict⟩
      simp [EntryPoint.parse, parse_eq, program_eq, hhalt, complete, finish]
    | some halt =>
      rw [hhalt] at hverdict
      refine .inr ⟨halt, ?_, hverdict⟩
      simp [EntryPoint.parse, parse_eq, program_eq, hhalt, complete]
  | function =>
    have hcases := complete_of_resume (hrule (function_follows tokens))
    rwa [← parseFunction_eq] at hcases
  | stmt => exact complete_of_resume (hrule (stmt_follows tokens))
  | expr => exact complete_of_resume (hrule (expr_follows tokens))

end EntryPoint

end CFrontEnd
