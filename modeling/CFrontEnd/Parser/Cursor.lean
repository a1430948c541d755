import CFrontEnd.Parser.Failure

/-!
# Taking Tokens

The rules of the parser take tokens from the front of a list. A rule succeeds with a value and the
tokens that are left, or halts at the token at fault. It looks at the next token only.

`TakeResult` is the form in which the rules are defined. What is left is a suffix of the tokens, so
a rule cannot go on with other tokens, and a success proves that tokens were consumed, so the
recursion of the rules ends. `Outcome` is the same without the proofs; statements about the rules
are statements about outcomes.

* `Outcome.ofTaken_andThen`, `Outcome.ofTaken_andThenAtMost`: rules in sequence are outcomes in
  sequence.
* `Outcome.length_lt_of_ofTaken`: a success leaves fewer tokens than the bound.
-/

namespace CFrontEnd

/-- A value and the tokens that are left of some tokens, fewer than `bound`. -/
structure Taken (tokens : List Token) (bound : Nat) (α : Type) where
  /-- What the rule recognised. -/
  value : α
  /-- The tokens that are left. -/
  rest : List Token
  /-- Tokens are taken from the front only. -/
  suffix : rest <:+ tokens
  /-- Fewer than `bound` tokens are left. -/
  shorter : rest.length < bound

/-- A parse of some tokens that stopped before a suffix of them. -/
structure Stopped (tokens : List Token) extends Halt where
  /-- Tokens are taken from the front only. -/
  suffix : rest <:+ tokens

/-- The result of a rule on some tokens that leaves fewer than `bound` of them when it succeeds. -/
abbrev TakeResult (tokens : List Token) (bound : Nat) (α : Type) :=
  Except (Stopped tokens) (Taken tokens bound α)

/-- The result of a rule that takes at least one token when it succeeds. -/
abbrev Takes (tokens : List Token) (α : Type) := TakeResult tokens tokens.length α

/-- The result of a rule that may take no token. -/
abbrev MayTake (tokens : List Token) (α : Type) := TakeResult tokens (tokens.length + 1) α

/-- The result of a rule: a value and the tokens that are left, or a halt. -/
abbrev Outcome (α : Type) := Except Halt (α × List Token)

/-- The result of a rule without the proofs about the tokens that are left. -/
def Outcome.ofTaken {tokens : List Token} {bound : Nat} {α : Type}
    (result : TakeResult tokens bound α) : Outcome α :=
  match result with
  | .ok taken => .ok (taken.value, taken.rest)
  | .error stopped => .error stopped.toHalt

/-- The stopped parse as one of tokens with others in front. -/
def Stopped.within {tokens whole : List Token} (stopped : Stopped tokens)
    (suffix : tokens <:+ whole) : Stopped whole :=
  { stopped with suffix := stopped.suffix.trans suffix }

@[simp]
theorem Stopped.toHalt_within {tokens whole : List Token} (stopped : Stopped tokens)
    (suffix : tokens <:+ whole) : (stopped.within suffix).toHalt = stopped.toHalt := rfl

namespace TakeResult

variable {tokens : List Token} {bound : Nat} {α β : Type}

/-- Success with the first token of a list. -/
def first (value : α) (token : Token) (rest : List Token) : Takes (token :: rest) α :=
  .ok { value, rest, suffix := List.suffix_cons token rest, shorter := Nat.lt_succ_self _ }

/-- Success without taking a token. -/
def nothing (value : α) (tokens : List Token) : MayTake tokens α :=
  .ok { value, rest := tokens, suffix := List.suffix_refl _, shorter := Nat.lt_succ_self _ }

/-- A failure at the first token. -/
def halted (failure : Failure ParseError) (tokens : List Token) : TakeResult tokens bound α :=
  .error { failure, rest := tokens, suffix := List.suffix_refl _ }

/-- A halt at tokens that do not start with what was expected. -/
def unexpected (expected : Expected) (tokens : List Token) : TakeResult tokens bound α :=
  .error { Halt.unexpected expected tokens with suffix := List.suffix_refl _ }

/-- The result with its value changed. -/
def mapValue (result : TakeResult tokens bound α) (f : α → β) : TakeResult tokens bound β :=
  match result with
  | .error stopped => .error stopped
  | .ok taken => .ok { taken with value := f taken.value }

/-- The result as one of tokens with others in front, and with a weaker bound. -/
def within {whole : List Token} {bound' : Nat} (result : TakeResult tokens bound α)
    (suffix : tokens <:+ whole) (le : bound ≤ bound') : TakeResult whole bound' α :=
  match result with
  | .error stopped => .error (stopped.within suffix)
  | .ok taken =>
    .ok
      { value := taken.value
        rest := taken.rest
        suffix := taken.suffix.trans suffix
        shorter := Nat.lt_of_lt_of_le taken.shorter le }

/-- The result of a rule on the tokens behind the first one. -/
def behind {token : Token} {bound' : Nat} (result : TakeResult tokens bound α)
    (le : bound ≤ bound') : TakeResult (token :: tokens) bound' α :=
  result.within (List.suffix_cons token tokens) le

/-- A rule and then another one on the tokens that the first one leaves, which may take none. -/
def andThenAtMost (result : TakeResult tokens bound α)
    (next : α → (rest : List Token) → rest.length < bound → MayTake rest β) :
    TakeResult tokens bound β :=
  match result with
  | .error stopped => .error stopped
  | .ok taken => (next taken.value taken.rest taken.shorter).within taken.suffix taken.shorter

/-- A rule and then another one on the tokens that the first one leaves. -/
def andThen (result : TakeResult tokens bound α)
    (next : α → (rest : List Token) → rest.length < bound → Takes rest β) :
    TakeResult tokens bound β :=
  result.andThenAtMost fun value rest shorter =>
    (next value rest shorter).within (List.suffix_refl _) (Nat.le_succ _)

end TakeResult

namespace Outcome

variable {tokens : List Token} {bound : Nat} {α β : Type}

@[simp]
theorem ofTaken_error (stopped : Stopped tokens) :
    ofTaken (.error stopped : TakeResult tokens bound α) = .error stopped.toHalt := rfl

@[simp]
theorem ofTaken_ok (taken : Taken tokens bound α) :
    ofTaken (.ok taken) = .ok (taken.value, taken.rest) := rfl

@[simp]
theorem ofTaken_first (value : α) (token : Token) (rest : List Token) :
    ofTaken (TakeResult.first value token rest) = .ok (value, rest) := rfl

@[simp]
theorem ofTaken_nothing (value : α) (tokens : List Token) :
    ofTaken (TakeResult.nothing value tokens) = .ok (value, tokens) := rfl

@[simp]
theorem ofTaken_halted (failure : Failure ParseError) (tokens : List Token) :
    ofTaken (TakeResult.halted failure tokens : TakeResult tokens bound α) =
      .error { failure, rest := tokens } := rfl

@[simp]
theorem ofTaken_unexpected (expected : Expected) (tokens : List Token) :
    ofTaken (TakeResult.unexpected expected tokens : TakeResult tokens bound α) =
      .error (Halt.unexpected expected tokens) := rfl

@[simp]
theorem ofTaken_mapValue (result : TakeResult tokens bound α) (f : α → β) :
    ofTaken (result.mapValue f) = (ofTaken result).map fun x => (f x.1, x.2) := by
  cases result <;> rfl

@[simp]
theorem ofTaken_within {whole : List Token} {bound' : Nat} (result : TakeResult tokens bound α)
    (suffix : tokens <:+ whole) (le : bound ≤ bound') :
    ofTaken (result.within suffix le) = ofTaken result := by
  cases result <;> rfl

@[simp]
theorem ofTaken_behind {token : Token} {bound' : Nat} (result : TakeResult tokens bound α)
    (le : bound ≤ bound') :
    ofTaken (result.behind le : TakeResult (token :: tokens) bound' α) = ofTaken result :=
  ofTaken_within ..

/-- A rule in sequence with one that may take no token. -/
theorem ofTaken_andThenAtMost {result : TakeResult tokens bound α}
    {next : α → (rest : List Token) → rest.length < bound → MayTake rest β}
    {after : α → List Token → Outcome β}
    (h : ∀ value rest shorter, ofTaken (next value rest shorter) = after value rest) :
    ofTaken (result.andThenAtMost next) = (ofTaken result).bind fun x => after x.1 x.2 := by
  cases result with
  | error stopped => rfl
  | ok taken =>
    simp only [TakeResult.andThenAtMost, ofTaken_within, h, ofTaken_ok, Except.bind]

/-- Rules in sequence are outcomes in sequence. -/
theorem ofTaken_andThen {result : TakeResult tokens bound α}
    {next : α → (rest : List Token) → rest.length < bound → Takes rest β}
    {after : α → List Token → Outcome β}
    (h : ∀ value rest shorter, ofTaken (next value rest shorter) = after value rest) :
    ofTaken (result.andThen next) = (ofTaken result).bind fun x => after x.1 x.2 :=
  ofTaken_andThenAtMost fun value rest shorter => by rw [ofTaken_within, h]

/-- A success leaves fewer tokens than the bound. -/
theorem length_lt_of_ofTaken {result : TakeResult tokens bound α} {value : α} {rest : List Token}
    (h : ofTaken result = .ok (value, rest)) : rest.length < bound := by
  cases result with
  | error stopped => simp at h
  | ok taken =>
    simp only [ofTaken_ok, Except.ok.injEq, Prod.mk.injEq] at h
    exact h.2 ▸ taken.shorter

end Outcome

namespace Parser

/-- Takes a token of the given kind. -/
def takeKind (kind : TokenKind) : (tokens : List Token) → Takes tokens Token
  | [] => .unexpected (.kind kind) []
  | token :: rest =>
    if token.kind = kind then .first token token rest
    else .unexpected (.kind kind) (token :: rest)

/-- Takes a token of the given kind and text. -/
def takeLexeme (kind : TokenKind) (text : String) :
    (tokens : List Token) → Takes tokens Token
  | [] => .unexpected (.lexeme kind text) []
  | token :: rest =>
    if token.is kind text then .first token token rest
    else .unexpected (.lexeme kind text) (token :: rest)

/-- Takes a type name. -/
def takeTypeName : (tokens : List Token) → Takes tokens String
  | [] => .unexpected .typeName []
  | token :: rest =>
    if token.isTypeName then .first token.lexeme token rest
    else .unexpected .typeName (token :: rest)

/-- Takes a name. -/
def takeName (tokens : List Token) : Takes tokens String :=
  (takeKind .identifier tokens).mapValue Token.lexeme

/-- Takes an assignment operator. -/
def takeAssignOp : (tokens : List Token) → Takes tokens AssignOp
  | [] => .unexpected (.kind .assignmentOperator) []
  | token :: rest =>
    match AssignOp.ofToken? token with
    | some operator => .first operator token rest
    | none => .unexpected (.kind .assignmentOperator) (token :: rest)

/-- Succeeds only if no token is left. -/
def finish : List Token → Except Halt Unit
  | [] => .ok ()
  | token :: rest => .error (Halt.unexpected .endOfInput (token :: rest))

end Parser

end CFrontEnd
