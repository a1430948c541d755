import CFrontEnd.Proofs.Parser.Spans

/-!
# Tokens Spelled Alike

Since spans decide nothing, tokens that agree in kind and text, one by one, are parsed alike. They
have the same tree, or errors that say the same, about tokens at the same index.

## Main definitions

* `Token.spelling`: what a parse sees of a token.
* `ParseError.Alike`: errors that differ in their spans only.
* `EntryPoint.ParsesAlike`: what the parses of tokens that are spelled alike have in common.

## Main results

* `EntryPoint.viable_congr`: tokens that are spelled alike can be completed alike.
* `EntryPoint.parsesAlike_of_spelling`: they are parsed alike.
-/

namespace CFrontEnd

/-- The kind and the text of a token. -/
def Token.spelling (token : Token) : TokenKind × String :=
  (token.kind, token.lexeme)

/-- The errors are the same but for their spans. -/
inductive ParseError.Alike : ParseError → ParseError → Prop
  | unexpectedToken (expected : Expected) (found : TokenKind) (lexeme : String)
      (first second : Span) :
      Alike (.unexpectedToken expected found lexeme first)
        (.unexpectedToken expected found lexeme second)
  | unexpectedEnd (expected : Expected) : Alike (.unexpectedEnd expected) (.unexpectedEnd expected)
  | invalidLiteral (lexeme : String) (first second : Span) :
      Alike (.invalidLiteral lexeme first) (.invalidLiteral lexeme second)

theorem ParseError.Alike.message_eq {error other : ParseError} (h : error.Alike other) :
    error.message = other.message := by
  cases h <;> rfl

/-- Errors that are the same at one place are alike. -/
theorem ParseError.alike_of_respan {span : Span} {error other : ParseError}
    (h : error.respan (fun _ => span) = other.respan fun _ => span) : error.Alike other := by
  cases error <;> cases other <;> simp only [respan, reduceCtorEq] at h
  case unexpectedToken.unexpectedToken =>
    obtain ⟨rfl, rfl, rfl, -⟩ := ParseError.unexpectedToken.inj h
    constructor
  case unexpectedEnd.unexpectedEnd =>
    obtain rfl := ParseError.unexpectedEnd.inj h
    constructor
  case invalidLiteral.invalidLiteral =>
    obtain ⟨rfl, -⟩ := ParseError.invalidLiteral.inj h
    constructor

/-- A reported error is about the token at fault. -/
theorem reports_of_atFault_error {token : Token} {error : ParseError}
    (h : Pending.AtFault token (.error error)) : error.Reports token := by
  rcases h with ⟨expected, hexpected⟩ | ⟨-, hliteral⟩
  · exact .inl ⟨expected, by simpa using hexpected⟩
  · -- a string that cannot be cut is not reported, so this is a number without a value
    unfold Token.literal at hliteral
    split at hliteral
    · split at hliteral <;> simp at hliteral
    · split at hliteral <;> simp at hliteral
      exact .inr hliteral.symm

namespace EntryPoint

variable {entry : EntryPoint} {first second : List Token}

/-- What the parses of two lists of tokens have in common. -/
structure ParsesAlike (entry : EntryPoint) (first second : List Token) : Prop where
  /-- The trees are the same. -/
  tree : ∀ tree, entry.parse first = .ok tree ↔ entry.parse second = .ok tree
  /-- Both parses stop without a report, or neither does. -/
  abort : entry.parse first = .error .abort ↔ entry.parse second = .error .abort
  /-- The errors are alike. They are about the end, or about the tokens at one index: the first one
  after which the tokens cannot go on. -/
  error : ∀ error, entry.parse first = .error (.error error) →
    ∃ other, entry.parse second = .error (.error other) ∧ error.Alike other ∧
      ((∃ expected, error = .unexpectedEnd expected ∧ other = .unexpectedEnd expected) ∨
        ∃ i token token', first[i]? = some token ∧ second[i]? = some token' ∧
          error.Reports token ∧ other.Reports token' ∧
          IsLeast {j | j < first.length ∧ ¬entry.Viable (first.take (j + 1))} i ∧
          IsLeast {j | j < second.length ∧ ¬entry.Viable (second.take (j + 1))} i)

/-- Tokens that are spelled alike have the same parse, once all of them are at one place. -/
theorem mapError_parse_eq (entry : EntryPoint)
    (h : first.map Token.spelling = second.map Token.spelling) (span : Span) :
    (entry.parse first).mapError (Failure.respan fun _ => span) =
      (entry.parse second).mapError (Failure.respan fun _ => span) := by
  have hrespan : ∀ tokens : List Token, tokens.map (Token.respan fun _ => span) =
      (tokens.map Token.spelling).map fun spelling => ⟨spelling.1, spelling.2, span⟩ := by
    intro tokens
    rw [List.map_map]
    rfl
  rw [← entry.parse_respan, ← entry.parse_respan, hrespan, hrespan, h]

theorem parse_eq_ok_iff_of_spelling (h : first.map Token.spelling = second.map Token.spelling)
    (tree : entry.symbol.Tree) : entry.parse first = .ok tree ↔ entry.parse second = .ok tree := by
  have hparse := entry.mapError_parse_eq h ⟨0, 0⟩
  cases hfirst : entry.parse first <;> cases hsecond : entry.parse second <;>
    simp_all [Except.mapError]

/-- Tokens that are spelled alike can be completed alike. -/
theorem viable_congr (h : first.map Token.spelling = second.map Token.spelling) :
    entry.Viable first ↔ entry.Viable second := by
  refine exists_congr fun rest => exists_congr fun tree => parse_eq_ok_iff_of_spelling ?_ tree
  rw [List.map_append, List.map_append, h]

/-- Tokens that are spelled alike go wrong at the same indices. -/
theorem nonviable_congr (h : first.map Token.spelling = second.map Token.spelling) :
    {j | j < first.length ∧ ¬entry.Viable (first.take (j + 1))} =
      {j | j < second.length ∧ ¬entry.Viable (second.take (j + 1))} := by
  have hlength : first.length = second.length := by simpa using congrArg List.length h
  have htake : ∀ j, (first.take (j + 1)).map Token.spelling =
      (second.take (j + 1)).map Token.spelling := fun j => by
    rw [List.map_take, List.map_take, h]
  simp only [hlength, viable_congr (htake _)]

/-- Tokens that are spelled alike are parsed alike. -/
theorem parsesAlike_of_spelling (h : first.map Token.spelling = second.map Token.spelling) :
    entry.ParsesAlike first second := by
  have hparse := entry.mapError_parse_eq h ⟨0, 0⟩
  refine ⟨parse_eq_ok_iff_of_spelling h, ?abort, fun error herror => ?error⟩
  case abort =>
    -- at one place, the parses are the same, and a place is all that a report can change
    rcases hfirst : entry.parse first with (error | _) | tree <;>
      rcases hsecond : entry.parse second with (other | _) | tree' <;>
      simp_all [Except.mapError, Failure.respan]
  case error =>
    obtain ⟨other, hother, halike⟩ : ∃ other,
        entry.parse second = .error (.error other) ∧ error.Alike other := by
      rw [herror] at hparse
      rcases hsecond : entry.parse second with (other | _) | tree
      · rw [hsecond] at hparse
        have hrespan := Failure.error.inj (Except.error.inj hparse)
        exact ⟨other, rfl, ParseError.alike_of_respan hrespan⟩
      · simp [hsecond, Except.mapError, Failure.respan] at hparse
      · simp [hsecond, Except.mapError] at hparse
    refine ⟨other, hother, halike, ?_⟩
    rcases exists_atFault herror with ⟨expected, hend, -⟩ | ⟨i, token, hleast, hi, hfault⟩
    · obtain rfl : error = .unexpectedEnd expected := by simpa using hend
      cases halike
      exact .inl ⟨expected, rfl, rfl⟩
    · have hreports := reports_of_atFault_error hfault
      rcases exists_atFault hother with ⟨expected, hend, -⟩ | ⟨i', token', hleast', hi', hfault'⟩
      · -- an error about a token is not alike one about the end
        obtain rfl : other = .unexpectedEnd expected := by simpa using hend
        cases halike
        rcases hreports with ⟨_, hreports⟩ | hreports <;> simp at hreports
      · obtain rfl : i = i' := hleast.unique (nonviable_congr h ▸ hleast')
        exact .inr ⟨i, token, token', hi, hi', hreports, reports_of_atFault_error hfault', hleast,
          hleast'⟩

end EntryPoint

end CFrontEnd
