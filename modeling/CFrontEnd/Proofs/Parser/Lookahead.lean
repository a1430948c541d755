import CFrontEnd.Parser.Session
import CFrontEnd.Proofs.Parser.Completeness

/-!
# One Token of Lookahead

The parser never looks back, and it looks at one token before it takes it. So a rule takes some
tokens and ends, with a tree or with a fault, in a way that depends on these tokens and on the next
one only; the tokens behind that one are not looked at. A rule that ends on a token that it takes,
as functions and blocks do, does not even depend on the next one.

## Main definitions

* `Parser.Decides`: a rule depends on the tokens that it takes and on the next one.

## Main results

* `Decides.andThen`: rules in sequence look ahead as far as each of them.
* `expr_decides`, `stmt_decides`, `block_decides`, `function_decides`, `program_decides`: every rule
  decides with one token of lookahead.
* `block_append`, `function_append`: blocks and functions do not look at what follows them.
-/

namespace CFrontEnd

/-- A result with the tokens that are left. -/
def Outcome.leaving {α : Type} (result : Except (Failure ParseError) α) (rest : List Token) :
    Outcome α :=
  match result with
  | .ok value => .ok (value, rest)
  | .error failure => .error { failure, rest }

namespace Parser

open Outcome Grammar

/-- The rule takes some of the tokens and decides with one token of lookahead: before any tokens
that start with the same one, it ends with the same result. -/
def Decides {α : Type} (rule : List Token → Outcome α) (tokens : List Token) : Prop :=
  ∃ used left result, tokens = used ++ left ∧
    ∀ after, after.head? = left.head? → rule (used ++ after) = .leaving result after

section Decides

variable {α β : Type} {rule other : List Token → Outcome α} {tokens rest : List Token}
  {token : Token}

/-- Only what a rule does with tokens that start alike matters. -/
theorem Decides.congr (h : Decides rule tokens)
    (heq : ∀ others, others.head? = tokens.head? → other others = rule others) :
    Decides other tokens := by
  obtain ⟨used, left, result, rfl, hleft⟩ := h
  refine ⟨used, left, result, rfl, fun after hafter => ?_⟩
  rw [heq _ (by simp [List.head?_append, hafter]), hleft after hafter]

theorem Decides.congr_nil (h : Decides rule []) (heq : other [] = rule []) : Decides other [] :=
  h.congr fun others hhead => by rwa [List.head?_eq_none_iff.mp hhead]

theorem Decides.congr_cons (h : Decides rule (token :: rest))
    (heq : ∀ rest, other (token :: rest) = rule (token :: rest)) :
    Decides other (token :: rest) :=
  h.congr fun others hhead => by
    obtain ⟨more, rfl⟩ := List.head?_eq_some_iff.mp hhead
    exact heq more

/-- The first token is taken, and a rule goes on behind it. -/
theorem decides_cons (h : Decides rule rest) (heq : ∀ rest, other (token :: rest) = rule rest) :
    Decides other (token :: rest) := by
  obtain ⟨used, left, result, rfl, hleft⟩ := h
  refine ⟨token :: used, left, result, rfl, fun after hafter => ?_⟩
  rw [List.cons_append, heq, hleft after hafter]

theorem decides_nothing (value : α) (tokens : List Token) :
    Decides (fun tokens => .ok (value, tokens)) tokens :=
  ⟨[], tokens, .ok value, rfl, fun _ _ => rfl⟩

theorem decides_halt (failure : Failure ParseError) (tokens : List Token) :
    Decides (α := α) (fun tokens => .error { failure, rest := tokens }) tokens :=
  ⟨[], tokens, .error failure, rfl, fun _ _ => rfl⟩

/-- A fault gives the next token and nothing behind it. -/
theorem decides_unexpected (expected : Expected) (tokens : List Token) :
    Decides (α := α) (fun tokens => .error (Halt.unexpected expected tokens)) tokens := by
  cases tokens with
  | nil => exact (decides_halt _ _).congr_nil rfl
  | cons token rest =>
    exact (decides_halt (.error (.unexpected expected (token :: rest))) _).congr_cons fun _ => rfl

/-- Rules in sequence look ahead as far as each of them. -/
theorem Decides.andThen {next : α → List Token → Outcome β} (h : Decides rule tokens)
    (hnext : ∀ value rest, rule tokens = .ok (value, rest) → Decides (next value) rest) :
    Decides (fun tokens => (rule tokens).andThen next) tokens := by
  obtain ⟨used, left, result, rfl, hleft⟩ := h
  cases result with
  | error failure =>
    refine ⟨used, left, .error failure, rfl, fun after hafter => ?_⟩
    simp only [hleft after hafter, leaving, andThen_error]
  | ok value =>
    obtain ⟨more, left, result, rfl, hmore⟩ := hnext value left (hleft left rfl)
    refine ⟨used ++ more, left, result, by simp, fun after hafter => ?_⟩
    -- behind the first rule stand tokens that start as before
    have hhead : (more ++ after).head? = (more ++ left).head? := by
      simp [List.head?_append, hafter]
    simp only [List.append_assoc, hleft _ hhead, leaving, andThen_ok]
    exact hmore after hafter

/-- The value of a rule does not matter. -/
theorem Decides.map {f : α → β} (h : Decides rule tokens) :
    Decides (fun tokens => (rule tokens).andThen fun value rest => .ok (f value, rest)) tokens :=
  h.andThen fun value rest _ => decides_nothing (f value) rest

theorem demand_decides (expected : Expected) (test : Token → Option α) (tokens : List Token) :
    Decides (demand expected test) tokens := by
  cases tokens with
  | nil => exact (decides_unexpected expected []).congr_nil rfl
  | cons token rest =>
    cases htest : test token with
    | none => exact (decides_unexpected expected _).congr_cons fun _ => demand_cons_of_none htest
    | some value =>
      exact decides_cons (decides_nothing value rest) fun _ => demand_cons_of_some htest

theorem mark_decides (kind : TokenKind) (tokens : List Token) : Decides (mark kind) tokens :=
  demand_decides _ _ tokens

end Decides

/-! ### Expressions -/

/-- A literal is looked at for its value, and the tokens behind it are not. -/
theorem literal_decides {token : Token}
    (hkind : token.kind = .integer ∨ token.kind = .float ∨ token.kind = .string)
    (rest : List Token) : Decides primary (token :: rest) := by
  cases hvalue : token.literal with
  | ok literal =>
    refine decides_cons (decides_nothing (.constant literal) rest) fun rest => ?_
    rcases hkind with hkind | hkind | hkind <;> simp only [primary_cons, hkind, hvalue]
  | error failure =>
    refine (decides_halt failure (token :: rest)).congr_cons fun rest => ?_
    rcases hkind with hkind | hkind | hkind <;> simp only [primary_cons, hkind, hvalue]

theorem primary_decides_step {tokens : List Token}
    (hexpr : ∀ rest, rest.length < tokens.length → Decides (level 1) rest) :
    Decides primary tokens := by
  cases tokens with
  | nil => exact (decides_unexpected .expression []).congr_nil primary_nil
  | cons token rest =>
    cases hkind : token.kind
    case integer => exact literal_decides (.inl hkind) rest
    case float => exact literal_decides (.inr (.inl hkind)) rest
    case string => exact literal_decides (.inr (.inr hkind)) rest
    case identifier =>
      exact decides_cons (decides_nothing _ rest) fun rest => by rw [primary_cons, hkind]
    case openParen =>
      have hinner := (hexpr rest (by simp)).andThen fun value after _ =>
        (mark_decides .closeParen after).map (f := fun _ => value)
      refine decides_cons hinner fun rest => ?_
      simp only [primary_cons, hkind, enclosed, expr_eq]
    all_goals
      exact (decides_unexpected .expression _).congr_cons fun rest => by rw [primary_cons, hkind]

theorem unary_decides_step {tokens : List Token} (hprimary : Decides primary tokens)
    (hunary : ∀ rest, rest.length < tokens.length → Decides unary rest) :
    Decides unary tokens := by
  cases tokens with
  | nil => exact (decides_unexpected .expression []).congr_nil unary_nil
  | cons token rest =>
    cases hsign : UnaryOp.ofToken? token with
    | none => exact hprimary.congr_cons fun rest => unary_cons_of_none hsign rest
    | some operator =>
      exact decides_cons (hunary rest (by simp)).map fun rest => unary_cons_of_some hsign rest

theorem operands_decide_step {n : Nat} {left : Expr} {tokens : List Token}
    (hlevel : ∀ rest, rest.length < tokens.length → Decides (level (n + 1)) rest)
    (hoperands : ∀ left rest, rest.length < tokens.length → Decides (operands n left) rest) :
    Decides (operands n left) tokens := by
  cases tokens with
  | nil => exact (decides_nothing left []).congr_nil (operands_nil n left)
  | cons token rest =>
    cases hsign : BinaryOp.among? (BinaryOp.ofLevel n) token with
    | none =>
      exact (decides_nothing left _).congr_cons fun rest => operands_cons_of_none hsign left rest
    | some operator =>
      refine decides_cons ((hlevel rest (by simp)).andThen fun right after h => ?_)
        fun rest => operands_cons_of_some hsign left rest
      exact hoperands _ after (Nat.lt_succ_of_lt (length_lt_of_ofTaken h))

/-- The rule of a level decides with one token of lookahead. -/
theorem level_decides {n : Nat} (hpos : 1 ≤ n) (hle : n ≤ 7) (tokens : List Token) :
    Decides (level n) tokens := by
  refine (expr_induct (fun n => Decides (level n)) (fun n left => Decides (operands n left))
    (Decides unary) (Decides primary) ?_ ?_ ?_ ?_ ?_).1 n tokens hpos hle
  · exact fun _ => primary_decides_step
  · exact fun _ => unary_decides_step
  · exact fun tokens h => h.congr fun others _ => level_seven others
  · intro n tokens hpos hle hnext hoperands
    refine (hnext.andThen fun left rest h => ?_).congr fun others _ => level_eq hpos hle others
    exact hoperands left rest (length_lt_of_ofTaken h)
  · exact fun _ _ _ _ _ => operands_decide_step

theorem expr_decides (tokens : List Token) : Decides expr tokens :=
  (level_decides (by decide) (by decide) tokens).congr fun others _ => expr_eq others

/-! ### Statements -/

/-- An expression and a semicolon. -/
theorem expr_semicolon_decides {α : Type} (f : Expr → α) (tokens : List Token) :
    Decides (fun tokens => (expr tokens).andThen fun value rest =>
      (mark .semicolon rest).andThen fun _ rest => .ok (f value, rest)) tokens :=
  (expr_decides tokens).andThen fun value rest _ =>
    (mark_decides .semicolon rest).map (f := fun _ => f value)

theorem initializer_decides (tokens : List Token) : Decides initializer tokens := by
  have hvalue : ∀ tokens, Decides (fun tokens => (equals tokens).andThen fun _ rest =>
      (expr rest).andThen fun value rest =>
      (mark .semicolon rest).andThen fun _ rest => .ok (some value, rest)) tokens := fun tokens =>
    (demand_decides _ _ tokens).andThen fun _ rest _ => expr_semicolon_decides some rest
  cases tokens with
  | nil => exact (hvalue []).congr_nil (initializer_eq [])
  | cons token rest =>
    by_cases hsemicolon : token.kind = .semicolon
    · refine decides_cons (decides_nothing none rest) fun rest => ?_
      rw [initializer_eq, mark_cons hsemicolon]
    · refine (hvalue (token :: rest)).congr_cons fun rest => ?_
      rw [initializer_eq, mark_cons_of_ne hsemicolon]

theorem declaration_decides (tokens : List Token) : Decides declaration tokens :=
  (demand_decides _ _ tokens).andThen fun _ rest _ =>
  (demand_decides _ _ rest).andThen fun _ rest _ => (initializer_decides rest).map

theorem assignment_decides (tokens : List Token) : Decides assignment tokens :=
  (demand_decides _ _ tokens).andThen fun target rest _ =>
  (demand_decides _ _ rest).andThen fun operator rest _ =>
  expr_semicolon_decides (fun value => Stmt.assignment operator target value) rest

theorem branches_decide_step {tokens : List Token}
    (hparts : ∀ rest, rest.length < tokens.length →
      Decides block rest ∧ Decides alternative rest) :
    Decides branches tokens := by
  refine (mark_decides .openParen tokens).andThen fun _ rest h => ?_
  have hopening := length_lt_of_demand h
  refine (expr_decides rest).andThen fun condition rest h => ?_
  have hcondition := length_lt_of_ofTaken h
  refine (mark_decides .closeParen rest).andThen fun _ rest h => ?_
  have hclosing := length_lt_of_demand h
  refine (hparts rest (by omega)).1.andThen fun body rest h => ?_
  have hbody := length_lt_of_ofTaken h
  exact (hparts rest (by omega)).2.map

theorem stmt_decides_step {tokens : List Token}
    (hif : ∀ word rest, tokens = word :: rest → Decides branches rest) : Decides stmt tokens := by
  cases tokens with
  | nil => exact (decides_unexpected .statement []).congr_nil stmt_nil
  | cons token rest =>
    by_cases hreturn : token.isKeyword "return" = true
    · exact decides_cons (expr_semicolon_decides Stmt.ret rest) fun rest => by
        rw [stmt_cons, if_pos hreturn, returned]
    by_cases hword : token.isKeyword "if" = true
    · exact decides_cons (hif token rest rfl) fun rest => by
        rw [stmt_cons, if_neg hreturn, if_pos hword]
    by_cases htype : token.isTypeName = true
    · exact (declaration_decides _).congr_cons fun rest => by
        rw [stmt_cons, if_neg hreturn, if_neg hword, if_pos htype]
    by_cases hname : token.kind = .identifier
    · exact (assignment_decides _).congr_cons fun rest => by
        rw [stmt_cons, if_neg hreturn, if_neg hword, if_neg htype, if_pos hname]
    · exact (decides_unexpected .statement _).congr_cons fun rest => by
        rw [stmt_cons, if_neg hreturn, if_neg hword, if_neg htype, if_neg hname]

theorem alternative_decides_step {tokens : List Token}
    (hparts : ∀ rest, rest.length < tokens.length →
      (∀ word after, rest = word :: after → Decides branches after) ∧ Decides block rest) :
    Decides alternative tokens := by
  cases tokens with
  | nil => exact (decides_nothing none []).congr_nil alternative_nil
  | cons token rest =>
    obtain ⟨hif, hblock⟩ := hparts rest (Nat.lt_succ_self _)
    by_cases helse : token.isKeyword "else" = true
    · have hbody : Decides (fun rest => if startsWith "if" rest then
            (ifStmt rest).andThen fun statement rest => .ok (some [statement], rest)
          else (block rest).andThen fun body rest => .ok (some body, rest)) rest := by
        -- which rule goes on depends on the next token
        have hstarts : ∀ others : List Token, others.head? = rest.head? →
            startsWith "if" others = startsWith "if" rest := fun others hhead => by
          rw [startsWith, startsWith, hhead]
        by_cases hword : startsWith "if" rest = true
        · cases rest with
          | nil => simp [startsWith] at hword
          | cons word after =>
            have hrule : Decides ifStmt (word :: after) :=
              decides_cons (hif word after rfl) fun after => ifStmt_cons hword after
            exact hrule.map.congr fun others hhead => by
              rw [if_pos ((hstarts others hhead).trans hword)]
        · exact hblock.map.congr fun others hhead => by
            rw [if_neg (by rwa [hstarts others hhead])]
      exact decides_cons hbody fun rest => by rw [alternative_cons, if_pos helse]
    · exact (decides_nothing none _).congr_cons fun rest => by rw [alternative_cons, if_neg helse]

theorem stmts_decide_step {tokens : List Token} (hstmt : Decides stmt tokens)
    (hstmts : ∀ rest, rest.length < tokens.length → Decides stmts rest) :
    Decides stmts tokens := by
  cases tokens with
  | nil => exact (decides_unexpected (.kind .closeBrace) []).congr_nil stmts_nil
  | cons token rest =>
    by_cases hclosing : token.kind = .closeBrace
    · exact decides_cons (decides_nothing [] rest) fun rest => by
        rw [stmts_cons, if_pos hclosing]
    · refine (hstmt.andThen fun statement after h => ?_).congr_cons fun rest => by
        rw [stmts_cons, if_neg hclosing]
      exact (hstmts after (length_lt_of_ofTaken h)).map

/-- The rules for statements decide with one token of lookahead. -/
theorem statements_decide (tokens : List Token) :
    Decides stmt tokens ∧ (∀ word rest, tokens = word :: rest → Decides branches rest) ∧
      Decides alternative tokens ∧ Decides block tokens ∧ Decides stmts tokens := by
  refine stmt_induct (Decides stmt)
    (fun tokens => ∀ word rest, tokens = word :: rest → Decides branches rest)
    (Decides alternative) (Decides block) (Decides stmts) ?_ ?_ ?_ ?_ ?_ tokens
  · intro tokens hparts word rest htokens
    subst htokens
    exact branches_decide_step fun after h => hparts after (Nat.lt_succ_of_lt h)
  · exact fun _ => stmt_decides_step
  · intro tokens hstmts
    refine ((mark_decides .openBrace tokens).andThen fun _ rest h => ?_).congr
      fun others _ => block_eq others
    exact hstmts rest (length_lt_of_demand h)
  · exact fun _ => alternative_decides_step
  · exact fun _ => stmts_decide_step

theorem stmt_decides (tokens : List Token) : Decides stmt tokens :=
  (statements_decide tokens).1

theorem block_decides (tokens : List Token) : Decides block tokens :=
  (statements_decide tokens).2.2.2.1

/-! ### Functions and programs -/

theorem moreArguments_decide_step {tokens : List Token}
    (harguments : ∀ rest, rest.length < tokens.length → Decides arguments rest) :
    Decides moreArguments tokens := by
  refine (demand_decides _ _ tokens).andThen fun _ rest h => ?_
  have htype := length_lt_of_demand h
  refine (demand_decides _ _ rest).andThen fun _ rest h => ?_
  have hname := length_lt_of_demand h
  exact (harguments rest (by omega)).map

theorem arguments_decide (tokens : List Token) : Decides arguments tokens := by
  induction hlength : tokens.length using Nat.strong_induction_on generalizing tokens with
  | _ length ih =>
    subst hlength
    have hmore := moreArguments_decide_step fun rest h => ih _ h rest rfl
    cases tokens with
    | nil => exact hmore.congr_nil (arguments_eq [])
    | cons token rest =>
      by_cases hclosing : token.kind = .closeParen
      · exact decides_cons (decides_nothing [] rest) fun rest => by
          rw [arguments_eq, mark_cons hclosing]
      · exact hmore.congr_cons fun rest => by rw [arguments_eq, mark_cons_of_ne hclosing]

theorem function_decides (tokens : List Token) : Decides function tokens := by
  refine Decides.congr ?_ fun others _ => function_eq others
  exact (demand_decides _ _ tokens).andThen fun _ rest _ =>
    (demand_decides _ _ rest).andThen fun _ rest _ =>
    (mark_decides .openParen rest).andThen fun _ rest _ =>
    (arguments_decide rest).andThen fun _ rest _ => (block_decides rest).map

/-- A program is a function and the program behind it. -/
theorem program_cons (token : Token) (rest : List Token) :
    program (token :: rest) =
      (function (token :: rest)).andThen fun function rest =>
      (program rest).andThen fun program rest =>
        .ok ({ functions := function :: program.functions }, rest) := by
  rw [program_eq, function]
  cases h : takeFunction (token :: rest) with
  | error stopped =>
    rw [runProgram_of_error h]
    rfl
  | ok taken =>
    rw [runProgram_of_ok h, ofTaken_ok, andThen_ok, program_eq, ProgramRun.halt_cons]
    cases (runProgram taken.rest).value.halt <;> rfl

theorem program_decides (tokens : List Token) : Decides program tokens := by
  induction hlength : tokens.length using Nat.strong_induction_on generalizing tokens with
  | _ length ih =>
    subst hlength
    cases tokens with
    | nil =>
      refine (decides_nothing ({ functions := [] } : Program) []).congr_nil ?_
      rw [program_eq, runProgram]
      rfl
    | cons token rest =>
      have hprograms : Decides (fun tokens => (function tokens).andThen fun tree rest =>
          (program rest).andThen fun program rest =>
            .ok (({ functions := tree :: program.functions } : Program), rest)) (token :: rest) :=
        (function_decides _).andThen fun tree after h =>
          (ih _ (length_lt_of_ofTaken h) after rfl).map
      exact hprograms.congr_cons (program_cons token)

/-- A function ends on a token that it takes, so nothing behind it matters. -/
theorem function_append {tokens rest : List Token} {tree : FunctionDef}
    (h : function tokens = .ok (tree, rest)) :
    ∃ used, tokens = used ++ rest ∧ ∀ after, function (used ++ after) = .ok (tree, after) := by
  obtain ⟨used, hused, hderives⟩ := function_sound tokens tree rest h
  exact ⟨used, hused, complete_of_derives hderives⟩

/-- A block ends on a token that it takes, so nothing behind it matters. -/
theorem block_append {tokens rest : List Token} {tree : List Stmt}
    (h : block tokens = .ok (tree, rest)) :
    ∃ used, tokens = used ++ rest ∧ ∀ after, block (used ++ after) = .ok (tree, after) := by
  obtain ⟨used, hused, hderives⟩ := block_sound tokens tree rest h
  exact ⟨used, hused, (complete_of_derives hderives).2⟩

end Parser

end CFrontEnd
