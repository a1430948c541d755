import CFrontEnd.Proofs.Parser.Lookahead

/-!
# The Loops of the Parser

Functions, parameters, statements and the operations of a level are found by loops: as long as the
next token allows it, one more is taken. Every round that is followed by another one takes a token,
so a loop has at most as many of them as there are tokens. What the loops find is what the rules
find.

## Main definitions

* `Round`: what one round of a loop comes to.
* `Rounds`: the rounds of a loop up to its end.
* `LoopsEnd`: all loops end within the number of tokens, with the results of the rules.

## Main results

* `rounds_of_eq`: a loop whose rounds take tokens ends, with the result of the function that it
  unrolls to.
* `loopsEnd`: all loops of the parser end on all tokens.
-/

namespace CFrontEnd

namespace Parser

open Outcome

/-- What one round of a loop comes to, from a state and the tokens before it. -/
inductive Round (σ α : Type) where
  /-- The loop goes on with another state and the tokens that are left. -/
  | again (state : σ) (rest : List Token)
  /-- The loop ends. -/
  | done (outcome : Outcome α)

variable {σ α β : Type}

/-- The loop goes through a number of rounds that take tokens, and then ends with an outcome. -/
inductive Rounds (round : σ → List Token → Round σ α) :
    Nat → σ → List Token → Outcome α → Prop
  | done {state : σ} {tokens : List Token} {outcome : Outcome α}
      (h : round state tokens = .done outcome) : Rounds round 0 state tokens outcome
  | again {n : Nat} {state next : σ} {tokens rest : List Token} {outcome : Outcome α}
      (h : round state tokens = .again next rest) (shorter : rest.length < tokens.length)
      (others : Rounds round n next rest outcome) : Rounds round (n + 1) state tokens outcome

/-- There are at most as many rounds as tokens. -/
theorem Rounds.le_length {round : σ → List Token → Round σ α} {n : Nat} {state : σ}
    {tokens : List Token} {outcome : Outcome α} (h : Rounds round n state tokens outcome) :
    n ≤ tokens.length := by
  induction h with
  | done => exact Nat.zero_le _
  | again _ shorter _ ih => exact Nat.lt_of_le_of_lt ih shorter

/-- The loop ends with the outcome, after at most as many rounds as there are tokens. -/
def EndsWith (round : σ → List Token → Round σ α) (state : σ) (tokens : List Token)
    (outcome : Outcome α) : Prop :=
  ∃ n, n ≤ tokens.length ∧ Rounds round n state tokens outcome

/-- A loop whose rounds take tokens ends, with the result of the function that it unrolls to. -/
theorem rounds_of_eq (round : σ → List Token → Round σ α) (loop : σ → List Token → Outcome α)
    (hloop : ∀ state tokens, loop state tokens =
      match round state tokens with
      | .again next rest => loop next rest
      | .done outcome => outcome)
    (hshorter : ∀ {state next tokens rest}, round state tokens = .again next rest →
      rest.length < tokens.length)
    (state : σ) (tokens : List Token) : EndsWith round state tokens (loop state tokens) := by
  have hrounds : ∃ n, Rounds round n state tokens (loop state tokens) := by
    -- by the number of tokens, which is lower in every other round
    induction hlength : tokens.length using Nat.strong_induction_on generalizing state tokens with
    | _ length ih =>
      subst hlength
      rw [hloop]
      cases hround : round state tokens with
      | done outcome => exact ⟨0, .done hround⟩
      | again next rest =>
        have hrest := hshorter hround
        obtain ⟨n, hn⟩ := ih _ hrest next rest rfl
        exact ⟨n + 1, .again hround hrest hn⟩
  obtain ⟨n, hn⟩ := hrounds
  exact ⟨n, hn.le_length, hn⟩

/-! ### Collecting -/

/-- A round that adds one more item to those that were found, unless the next token ends the
loop. -/
def collect (ending : List Token → Option (Outcome Unit)) (item : List Token → Outcome β)
    (found : List β) (tokens : List Token) : Round (List β) (List β) :=
  match ending tokens with
  | some outcome => .done (outcome.andThen fun _ rest => .ok (found, rest))
  | none =>
    match item tokens with
    | .ok (value, rest) => .again (found ++ [value]) rest
    | .error halt => .done (.error halt)

/-- The rule for a list of items finds what the loop collects. -/
theorem collect_endsWith {ending : List Token → Option (Outcome Unit)}
    (item : List Token → Outcome β) (items : List Token → Outcome (List β))
    (hitems : ∀ tokens, items tokens =
      match ending tokens with
      | some outcome => outcome.andThen fun _ rest => .ok ([], rest)
      | none => (item tokens).andThen fun value rest =>
          (items rest).andThen fun values rest => .ok (value :: values, rest))
    (hshorter : ∀ {tokens value rest}, item tokens = .ok (value, rest) →
      rest.length < tokens.length)
    (tokens : List Token) : EndsWith (collect ending item) [] tokens (items tokens) := by
  have hrounds := rounds_of_eq (collect ending item)
    (fun found tokens =>
      (items tokens).andThen fun values rest => .ok (found ++ values, rest))
    (fun found tokens => ?_) (fun {found next tokens rest} h => ?_) [] tokens
  · have hsame : ((items tokens).andThen fun values rest => .ok ([] ++ values, rest)) =
        items tokens := by
      cases items tokens <;> rfl
    rwa [hsame] at hrounds
  · rw [hitems, collect]
    cases ending tokens with
    | some outcome =>
      cases outcome with
      | error halt => rfl
      | ok taken =>
        obtain ⟨⟨⟩, rest⟩ := taken
        simp
    | none =>
      cases item tokens with
      | error halt => rfl
      | ok taken =>
        obtain ⟨value, rest⟩ := taken
        -- one more item in front of what the rule finds, or behind what was found
        simp only [andThen_ok]
        cases items rest with
        | error halt => rfl
        | ok others =>
          obtain ⟨values, left⟩ := others
          simp
  · rw [collect] at h
    split at h
    · simp at h
    · split at h
      · next value after hitem =>
        obtain ⟨-, rfl⟩ := Round.again.inj h
        exact hshorter hitem
      · simp at h

/-! ### The loops -/

/-- Functions are taken until no token is left. -/
def programRound : List FunctionDef → List Token → Round (List FunctionDef) (List FunctionDef) :=
  collect (fun tokens => if tokens = [] then some (.ok ((), [])) else none) function

/-- A parameter. -/
def argument (tokens : List Token) : Outcome Argument :=
  (typeName tokens).andThen fun typeName rest =>
  (name rest).andThen fun name rest => .ok ({ typeName, name }, rest)

/-- Parameters are taken up to a closing parenthesis. -/
def argumentRound : List Argument → List Token → Round (List Argument) (List Argument) :=
  collect
    (fun tokens =>
      match mark .closeParen tokens with
      | .ok (_, rest) => some (.ok ((), rest))
      | .error _ => none)
    argument

/-- Statements are taken up to a closing brace, which must come. -/
def blockRound : List Stmt → List Token → Round (List Stmt) (List Stmt) :=
  collect
    (fun tokens =>
      match mark .closeBrace tokens with
      | .ok (_, rest) => some (.ok ((), rest))
      | .error halt => if tokens = [] then some (.error halt) else none)
    stmt

/-- Operations of a level are taken as long as the next token is one of its operators. -/
def operationRound (n : Nat) (left : Expr) : List Token → Round Expr Expr
  | [] => .done (.ok (left, []))
  | token :: rest =>
    match BinaryOp.among? (BinaryOp.ofLevel n) token with
    | none => .done (.ok (left, token :: rest))
    | some operator =>
      match level (n + 1) rest with
      | .ok (right, rest') => .again (.binary operator left right) rest'
      | .error halt => .done (.error halt)

/-- All loops end within the number of tokens, with what the rules find. -/
structure LoopsEnd (tokens : List Token) : Prop where
  program : EndsWith programRound [] tokens
    ((program tokens).andThen fun program rest => .ok (program.functions, rest))
  arguments : EndsWith argumentRound [] tokens (arguments tokens)
  block : EndsWith blockRound [] tokens (stmts tokens)
  operations : ∀ n left, EndsWith (operationRound n) left tokens (operands n left tokens)

theorem program_endsWith (tokens : List Token) : EndsWith programRound [] tokens
    ((program tokens).andThen fun program rest => .ok (program.functions, rest)) := by
  refine collect_endsWith function
    (fun tokens => (program tokens).andThen fun program rest =>
      .ok (program.functions, rest)) (fun tokens => ?_) length_lt_of_ofTaken tokens
  cases tokens with
  | nil => simp [program_eq, runProgram]
  | cons token rest =>
    simp only [program_cons, reduceCtorEq, ↓reduceIte]
    cases function (token :: rest) with
    | error halt => rfl
    | ok taken =>
      obtain ⟨value, left⟩ := taken
      simp only [andThen_ok]
      cases program left <;> rfl

theorem arguments_endsWith (tokens : List Token) :
    EndsWith argumentRound [] tokens (arguments tokens) := by
  refine collect_endsWith argument arguments (fun tokens => ?_)
    (fun {tokens value rest} h => ?_) tokens
  · rw [arguments_eq]
    cases mark .closeParen tokens with
    | ok taken => rfl
    | error halt =>
      simp only [moreArguments, argument]
      cases typeName tokens with
      | error halt => rfl
      | ok taken =>
        obtain ⟨typeName, left⟩ := taken
        simp only [andThen_ok]
        cases name left <;> rfl
  · obtain ⟨typeName, middle, htype, hnamed⟩ := andThen_eq_ok_iff.mp h
    obtain ⟨name, left, hname, hvalue⟩ := andThen_eq_ok_iff.mp hnamed
    obtain ⟨-, rfl⟩ := Prod.mk.inj (Except.ok.inj hvalue)
    exact (length_lt_of_demand hname).trans (length_lt_of_demand htype)

theorem block_endsWith (tokens : List Token) :
    EndsWith blockRound [] tokens (stmts tokens) := by
  refine collect_endsWith stmt stmts (fun tokens => ?_) length_lt_of_ofTaken tokens
  cases tokens with
  -- the brace that is missing at the end is a fault of the loop, not of a statement
  | nil => exact stmts_nil
  | cons token rest =>
    rw [stmts_cons]
    by_cases h : token.kind = .closeBrace
    · rw [if_pos h, mark_cons h]
      rfl
    · rw [if_neg h, mark_cons_of_ne h]
      rfl

theorem operations_endsWith (n : Nat) (left : Expr) (tokens : List Token) :
    EndsWith (operationRound n) left tokens (operands n left tokens) := by
  refine rounds_of_eq (operationRound n) (operands n) (fun left tokens => ?_)
    (fun {left next tokens rest} h => ?_) left tokens
  · cases tokens with
    | nil => exact operands_nil n left
    | cons token rest =>
      rw [operationRound]
      cases hsign : BinaryOp.among? (BinaryOp.ofLevel n) token with
      | none => exact operands_cons_of_none hsign left rest
      | some operator =>
        rw [operands_cons_of_some hsign]
        cases level (n + 1) rest <;> rfl
  · cases tokens with
    | nil => simp [operationRound] at h
    | cons token tokens =>
      rw [operationRound] at h
      split at h
      · simp at h
      · split at h
        · next right after hright =>
          obtain ⟨-, rfl⟩ := Round.again.inj h
          exact (length_lt_of_ofTaken hright).trans (Nat.lt_succ_self _)
        · simp at h

/-- All loops of the parser end on all tokens. -/
theorem loopsEnd (tokens : List Token) : LoopsEnd tokens where
  program := program_endsWith tokens
  arguments := arguments_endsWith tokens
  block := block_endsWith tokens
  operations n left := operations_endsWith n left tokens

end Parser

end CFrontEnd
