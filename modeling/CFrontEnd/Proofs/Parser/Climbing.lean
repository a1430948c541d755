import CFrontEnd.Proofs.Parser.Requests

/-!
# Precedence Climbing

Expressions can be taken without a rule for each level. One loop takes an operand, and then
operators as long as they bind tightly enough; each of them has a right operand that is taken by the
same loop with a higher bound. The six levels of rules and this loop agree on all tokens: they have
the same tree or the same failure, and they stop at the same token.

## Main definitions

* `Parser.takeClimb`: an expression whose operators bind at a level or tighter, taken by one loop.

## Main results

* `ends_of_climb`: an expression is never left before an operator that it could have taken.
* `climbOn_step`: the loop for a level is the loop for the next level with the operations of the
  level behind it.
* `level_eq_climb`: the rule of a level is the loop for the level.
* `answer_expr_eq_climb`: an expression at a cursor is taken alike.
-/

namespace CFrontEnd

namespace Parser

mutual

/-- Takes an operand, and operators of the least level or tighter ones with their operands. -/
def takeClimb (least : Nat) (tokens : List Token) : Takes tokens Expr :=
  (takeSigned tokens).andThenAtMost fun left rest _ => takeClimbOn least left rest
termination_by (tokens.length, 2)

/-- Takes operators of the least level or tighter ones. The right operand of an operator has tighter
operators only, so what was taken before is the left operand. -/
def takeClimbOn (least : Nat) (left : Expr) (tokens : List Token) : MayTake tokens Expr :=
  match tokens with
  | [] => .nothing left []
  | token :: rest =>
    match BinaryOp.ofToken? token with
    | none => .nothing left (token :: rest)
    | some operator =>
      if least ≤ operator.level then
        ((takeClimb (operator.level + 1) rest).andThenAtMost fun right rest' _ =>
          takeClimbOn least (.binary operator left right) rest').behind
            (Nat.le_add_right rest.length 2)
      else .nothing left (token :: rest)
termination_by (tokens.length, 0)

/-- Takes prefix operators and their operand. -/
def takeSigned (tokens : List Token) : Takes tokens Expr :=
  match tokens with
  | [] => .unexpected .expression []
  | token :: rest =>
    match UnaryOp.ofToken? token with
    | none => takeAtom (token :: rest)
    | some operator =>
      ((takeSigned rest).mapValue (.unary operator)).behind (Nat.le_succ rest.length)
termination_by (tokens.length, 1)

/-- Takes a literal, a name, or an expression in parentheses, in which the loop starts again at the
loosest level. -/
def takeAtom (tokens : List Token) : Takes tokens Expr :=
  match tokens with
  | [] => .unexpected .expression []
  | token :: rest =>
    match token.kind with
    | .integer | .float | .string =>
      match token.literal with
      | .ok literal => .first (.constant literal) token rest
      | .error failure => .halted failure (token :: rest)
    | .identifier => .first (.variable token.lexeme) token rest
    | .openParen =>
      ((takeClimb 1 rest).andThen fun expr rest' _ =>
        (takeKind .closeParen rest').mapValue fun _ => expr).behind (Nat.le_succ rest.length)
    | _ => .unexpected .expression (token :: rest)
termination_by (tokens.length, 0)

end

open Outcome

/-- An expression whose operators bind at a level or tighter. -/
def climb (least : Nat) (tokens : List Token) : Outcome Expr :=
  .ofTaken (takeClimb least tokens)

/-- The operators after an operand that bind at a level or tighter, with their operands. -/
def climbOn (least : Nat) (left : Expr) (tokens : List Token) : Outcome Expr :=
  .ofTaken (takeClimbOn least left tokens)

/-- Prefix operators and their operand. -/
def signed (tokens : List Token) : Outcome Expr :=
  .ofTaken (takeSigned tokens)

/-- A literal, a name, or an expression in parentheses. -/
def atom (tokens : List Token) : Outcome Expr :=
  .ofTaken (takeAtom tokens)

/-! ### One step of the loop -/

section Steps

variable {least : Nat} {left : Expr} {token : Token} {rest : List Token}

theorem climb_eq (least : Nat) (tokens : List Token) :
    climb least tokens = (signed tokens).andThen (climbOn least) := by
  rw [climb, takeClimb]
  exact ofTaken_andThenAtMost_eq rfl fun _ _ _ => rfl

theorem climbOn_nil (least : Nat) (left : Expr) : climbOn least left [] = .ok (left, []) := by
  rw [climbOn, takeClimbOn, ofTaken_nothing]

/-- A token that spells no operator ends the loop. -/
theorem climbOn_cons_of_none (h : BinaryOp.ofToken? token = none) :
    climbOn least left (token :: rest) = .ok (left, token :: rest) := by
  rw [climbOn, takeClimbOn, h, ofTaken_nothing]

/-- An operator that is too loose ends the loop. -/
theorem climbOn_cons_of_lt {operator : BinaryOp} (h : BinaryOp.ofToken? token = some operator)
    (hlevel : operator.level < least) :
    climbOn least left (token :: rest) = .ok (left, token :: rest) := by
  simp only [climbOn, takeClimbOn, h, if_neg (Nat.not_le_of_lt hlevel), ofTaken_nothing]

/-- An operator that is tight enough is taken with its right operand, and the loop goes on. -/
theorem climbOn_cons_of_le {operator : BinaryOp} (h : BinaryOp.ofToken? token = some operator)
    (hlevel : least ≤ operator.level) :
    climbOn least left (token :: rest) =
      (climb (operator.level + 1) rest).andThen fun right =>
        climbOn least (.binary operator left right) := by
  simp only [climbOn, takeClimbOn, h, if_pos hlevel, ofTaken_behind]
  exact ofTaken_andThenAtMost_eq rfl fun _ _ _ => rfl

theorem signed_cons_of_none (h : UnaryOp.ofToken? token = none) :
    signed (token :: rest) = atom (token :: rest) := by
  rw [signed, takeSigned, h, atom]

theorem signed_cons_of_some {operator : UnaryOp} (h : UnaryOp.ofToken? token = some operator) :
    signed (token :: rest) =
      (signed rest).andThen fun operand rest => .ok (.unary operator operand, rest) := by
  simp only [signed, takeSigned, h, ofTaken_behind]
  exact ofTaken_mapValue_eq rfl

end Steps

/-! ### Where the loop ends -/

theorem ends_cons_of_none {token : Token} (h : BinaryOp.ofToken? token = none) (n : Nat)
    (rest : List Token) : Ends n (token :: rest) := by
  intro first hhead operator hspells
  obtain rfl := Option.some.inj hhead
  rw [BinaryOp.ofToken?_eq_some_iff.mpr hspells] at h
  exact absurd h (by simp)

theorem ends_cons_of_lt {token : Token} {operator : BinaryOp} {n : Nat}
    (h : BinaryOp.ofToken? token = some operator) (hlevel : operator.level < n)
    (rest : List Token) : Ends n (token :: rest) := by
  intro first hhead other hspells
  obtain rfl := Option.some.inj hhead
  -- the token spells one operator only
  rwa [BinaryOp.eq_of_is hspells (BinaryOp.ofToken?_eq_some_iff.mp h)]

/-- The loop takes nothing where no operator is tight enough. -/
theorem climbOn_of_ends {n : Nat} {tokens : List Token} (h : Ends n tokens) (left : Expr) :
    climbOn n left tokens = .ok (left, tokens) := by
  cases tokens with
  | nil => exact climbOn_nil n left
  | cons token rest =>
    cases hsign : BinaryOp.ofToken? token with
    | none => exact climbOn_cons_of_none hsign
    | some operator =>
      exact climbOn_cons_of_lt hsign
        (h token rfl operator (BinaryOp.ofToken?_eq_some_iff.mp hsign))

/-- The loop goes on as long as an operator is tight enough. -/
theorem ends_of_climbOn {n : Nat} {left value : Expr} {tokens rest : List Token}
    (h : climbOn n left tokens = .ok (value, rest)) : Ends n rest := by
  -- on the tokens that are left, since every round takes some
  induction hlength : tokens.length using Nat.strong_induction_on generalizing tokens left with
  | _ length ih =>
    subst hlength
    cases tokens with
    | nil =>
      rw [climbOn_nil] at h
      obtain ⟨-, rfl⟩ := Prod.mk.inj (Except.ok.inj h)
      simp [Ends]
    | cons token after =>
      cases hsign : BinaryOp.ofToken? token with
      | none =>
        rw [climbOn_cons_of_none hsign] at h
        obtain ⟨-, rfl⟩ := Prod.mk.inj (Except.ok.inj h)
        exact ends_cons_of_none hsign n after
      | some operator =>
        rcases Nat.lt_or_ge operator.level n with hlt | hle
        · rw [climbOn_cons_of_lt hsign hlt] at h
          obtain ⟨-, rfl⟩ := Prod.mk.inj (Except.ok.inj h)
          exact ends_cons_of_lt hsign hlt after
        · rw [climbOn_cons_of_le hsign hle] at h
          obtain ⟨right, middle, hright, hmore⟩ := andThen_eq_ok_iff.mp h
          exact ih _ (Nat.lt_succ_of_lt (length_lt_of_ofTaken hright)) hmore rfl

/-- An expression is never left before an operator that it could have taken. -/
theorem ends_of_climb {n : Nat} {value : Expr} {tokens rest : List Token}
    (h : climb n tokens = .ok (value, rest)) : Ends n rest := by
  rw [climb_eq] at h
  obtain ⟨left, middle, -, hmore⟩ := andThen_eq_ok_iff.mp h
  exact ends_of_climbOn hmore

/-! ### The loop and the levels -/

theorem andThen_assoc {α β γ : Type} (outcome : Outcome α) (next : α → List Token → Outcome β)
    (last : β → List Token → Outcome γ) :
    (outcome.andThen next).andThen last =
      outcome.andThen fun value rest => (next value rest).andThen last := by
  cases outcome <;> rfl

/-- Rules that agree on everything that the first one leaves agree behind it. -/
theorem andThen_congr {α β : Type} {outcome : Outcome α} {next other : α → List Token → Outcome β}
    (h : ∀ value rest, outcome = .ok (value, rest) → next value rest = other value rest) :
    outcome.andThen next = outcome.andThen other := by
  cases outcome with
  | error halt => rfl
  | ok taken => exact h taken.1 taken.2 rfl

/-- The loop for a level takes what the loop for the next level takes, and then the operations of
the level. -/
theorem climbOn_step {n : Nat} {left : Expr} {tokens : List Token}
    (hlevel : ∀ rest, rest.length < tokens.length → level (n + 1) rest = climb (n + 1) rest)
    (hloop : ∀ left rest, rest.length < tokens.length →
      climbOn n left rest = (climbOn (n + 1) left rest).andThen (operands n)) :
    climbOn n left tokens = (climbOn (n + 1) left tokens).andThen (operands n) := by
  cases tokens with
  | nil => rw [climbOn_nil, climbOn_nil, andThen_ok, operands_nil]
  | cons token rest =>
    cases hsign : BinaryOp.ofToken? token with
    | none =>
      have hends := ends_cons_of_none hsign n rest
      rw [climbOn_of_ends hends, climbOn_of_ends hends.succ, andThen_ok, operands_of_ends hends]
    | some operator =>
      have hspells := BinaryOp.ofToken?_eq_some_iff.mp hsign
      rcases Nat.lt_trichotomy operator.level n with hloose | heq | htight
      -- too loose for both loops, and no operation of the level
      · have hends := ends_cons_of_lt hsign hloose rest
        rw [climbOn_of_ends hends, climbOn_of_ends hends.succ, andThen_ok, operands_of_ends hends]
      -- an operation of the level: the loop for the next level stops right before it
      · have hamong : BinaryOp.among? (BinaryOp.ofLevel n) token = some operator :=
          BinaryOp.among?_ofLevel_eq_some_iff.mpr ⟨hspells, heq⟩
        rw [climbOn_cons_of_lt hsign (Nat.lt_succ_of_le (Nat.le_of_eq heq)), andThen_ok,
          operands_cons_of_some hamong, climbOn_cons_of_le hsign (Nat.le_of_eq heq.symm), heq,
          hlevel rest (Nat.lt_succ_self _)]
        refine andThen_congr fun right after hright => ?_
        -- the right operand took all tighter operators, so only the level itself can go on
        have hshorter : after.length < (token :: rest).length :=
          Nat.lt_succ_of_lt (length_lt_of_ofTaken hright)
        rw [hloop _ after hshorter, climbOn_of_ends (ends_of_climb hright), andThen_ok]
      -- an operator that both loops take, with the same right operand
      · rw [climbOn_cons_of_le hsign htight, climbOn_cons_of_le hsign (Nat.le_of_lt htight),
          andThen_assoc]
        refine andThen_congr fun right after hright => ?_
        exact hloop _ after (Nat.lt_succ_of_lt (length_lt_of_ofTaken hright))

/-- No operator binds tighter than the last level. -/
theorem ends_seven (tokens : List Token) : Ends 7 tokens := by
  intro token _ operator _
  cases operator <;> decide

theorem atom_step {tokens : List Token}
    (hexpr : ∀ rest, rest.length < tokens.length → level 1 rest = climb 1 rest) :
    primary tokens = atom tokens := by
  cases tokens with
  | nil => rw [primary_nil, atom, takeAtom, ofTaken_unexpected]
  | cons token rest =>
    have henclosed : ofTaken ((takeClimb 1 rest).andThen fun expr rest' _ =>
        (takeKind .closeParen rest').mapValue fun _ => expr) = enclosed rest := by
      rw [enclosed, expr_eq, hexpr rest (Nat.lt_succ_self _)]
      exact ofTaken_andThen_eq rfl fun _ _ _ => ofTaken_mapValue_eq (ofTaken_takeKind _ _)
    rw [primary_cons, atom, takeAtom]
    -- only parentheses ask for another expression
    cases token.kind
    case openParen => simpa only [ofTaken_behind] using henclosed.symm
    case integer | float | string => cases token.literal <;> rfl
    all_goals rfl

theorem signed_step {tokens : List Token} (hatom : primary tokens = atom tokens)
    (hsigned : ∀ rest, rest.length < tokens.length → unary rest = signed rest) :
    unary tokens = signed tokens := by
  cases tokens with
  | nil => rw [unary_nil, signed, takeSigned, ofTaken_unexpected]
  | cons token rest =>
    cases hsign : UnaryOp.ofToken? token with
    | none => rw [unary_cons_of_none hsign, signed_cons_of_none hsign, hatom]
    | some operator =>
      rw [unary_cons_of_some hsign, signed_cons_of_some hsign, hsigned rest (Nat.lt_succ_self _)]

/-- The rule of a level and the loop for it agree, and so do all that they call. -/
theorem levels_climb :
    (∀ n tokens, 1 ≤ n → n ≤ 7 → level n tokens = climb n tokens) ∧
      (∀ n left tokens, 1 ≤ n → n ≤ 6 →
        climbOn n left tokens = (climbOn (n + 1) left tokens).andThen (operands n)) ∧
      (∀ tokens, unary tokens = signed tokens) ∧ ∀ tokens, primary tokens = atom tokens := by
  refine expr_induct (fun n tokens => level n tokens = climb n tokens)
    (fun n left tokens => climbOn n left tokens =
      (climbOn (n + 1) left tokens).andThen (operands n))
    (fun tokens => unary tokens = signed tokens) (fun tokens => primary tokens = atom tokens)
    ?primary ?unary ?tightest ?level ?operands
  case primary => exact fun _ => atom_step
  case unary => exact fun _ => signed_step
  case tightest =>
    intro tokens hunary
    -- behind the prefix operators no operator is tight enough for the last loop
    have hnothing : climbOn 7 = fun left rest => .ok (left, rest) := by
      funext left rest
      exact climbOn_of_ends (ends_seven rest) left
    rw [level_seven, hunary, climb_eq, hnothing]
    cases signed tokens <;> rfl
  case level =>
    intro n tokens hpos hle hnext hloop
    calc level n tokens
        = (climb (n + 1) tokens).andThen (operands n) := by rw [level_eq hpos hle, hnext]
      _ = (signed tokens).andThen fun left rest =>
            (climbOn (n + 1) left rest).andThen (operands n) := by rw [climb_eq, andThen_assoc]
      _ = (signed tokens).andThen (climbOn n) :=
          andThen_congr fun left rest h => (hloop left rest (length_lt_of_ofTaken h)).symm
      _ = climb n tokens := (climb_eq n tokens).symm
  case operands => exact fun _ _ _ _ _ => climbOn_step

/-- The rule of a level takes what the loop for the level takes. -/
theorem level_eq_climb {n : Nat} (hpos : 1 ≤ n) (hle : n ≤ 7) (tokens : List Token) :
    level n tokens = climb n tokens :=
  levels_climb.1 n tokens hpos hle

end Parser

/-- The answer to a request for an expression, taken by one loop. -/
def Cursor.climb (cursor : Cursor) (least : Nat) : Reply × Cursor :=
  cursor.settle .expr (Parser.takeClimb least cursor.rest)

/-- The six levels of rules are precedence climbing: at every cursor in any tokens, an expression is
the tree or the failure of the loop from the loosest level on, and the cursor stops where the loop
does. -/
theorem answer_expr_eq_climb (cursor : Cursor) : cursor.answer .expr = cursor.climb 1 := by
  have hclimb : Outcome.ofTaken (Parser.takeExpr cursor.rest) =
      Outcome.ofTaken (Parser.takeClimb 1 cursor.rest) :=
    (Parser.expr_eq _).trans (Parser.level_eq_climb (Nat.le_refl 1) (by decide) _)
  rw [Cursor.answer_eq_respond, Cursor.climb, Cursor.settle_eq_respond]
  simp only [Request.respond, Parser.expr, hclimb]

end CFrontEnd
