import CFrontEnd.Tree

/-!
# Parse Failures

What the parser reports when the tokens do not go on as the grammar asks: what it looked for, and
the token it found instead. The first failure ends a parse.

Next to the reported errors there is one way to stop without a report: a string token, made by
hand, from which no first and last byte can be cut. The texts that the lexer gives to string
tokens always have them.
-/

namespace CFrontEnd

/-- What the parser looked for. -/
inductive Expected where
  /-- Any token of a kind. -/
  | kind (kind : TokenKind)
  /-- A token of a kind with a given text. -/
  | lexeme (kind : TokenKind) (text : String)
  /-- A reserved word that names a type. -/
  | typeName
  | expression
  | statement
  | endOfInput
deriving DecidableEq, Repr

/-- The text of what was looked for. -/
def Expected.describe : Expected → String
  | .kind k => k.name
  | .lexeme _ text => "`" ++ text ++ "`"
  | .typeName => "type name"
  | .expression => "expression"
  | .statement => "statement"
  | .endOfInput => "end of input"

/-- A reported failure. -/
inductive ParseError where
  /-- A token stands where it cannot stand. -/
  | unexpectedToken (expected : Expected) (found : TokenKind) (lexeme : String) (span : Span)
  /-- The tokens end too early. -/
  | unexpectedEnd (expected : Expected)
  /-- A numeric literal has no value. -/
  | invalidLiteral (lexeme : String) (span : Span)
deriving DecidableEq, Repr

namespace ParseError

/-- The message of a failure. -/
def message : ParseError → String
  | .unexpectedToken expected found lexeme _ =>
    "expected " ++ expected.describe ++ ", found " ++ found.name ++ " `" ++ lexeme ++ "`"
  | .unexpectedEnd expected => "expected " ++ expected.describe ++ ", found end of input"
  | .invalidLiteral lexeme _ => "integer literal `" ++ lexeme ++ "` is out of range"

/-- The bytes of the token at fault; none stands for the end of the input. -/
def span? : ParseError → Option Span
  | .unexpectedToken _ _ _ span | .invalidLiteral _ span => some span
  | .unexpectedEnd _ => none

/-- What was looked for; a literal without a value is not a missing token. -/
def expected? : ParseError → Option Expected
  | .unexpectedToken expected _ _ _ | .unexpectedEnd expected => some expected
  | .invalidLiteral _ _ => none

end ParseError

/-- The end of a computation without a result: with a reported error, or without a report. -/
inductive Failure (ε : Type) where
  | error (error : ε)
  | abort
deriving DecidableEq, Repr

/-- A stopped parse: its failure, and the tokens from the one at fault on. -/
structure Halt where
  /-- Why the parse stopped. -/
  failure : Failure ParseError
  /-- The tokens that were not consumed. -/
  rest : List Token
deriving DecidableEq, Repr

/-- The failure to find what was expected at the front of the tokens. -/
def ParseError.unexpected (expected : Expected) : List Token → ParseError
  | [] => .unexpectedEnd expected
  | found :: _ => .unexpectedToken expected found.kind found.lexeme found.span

/-- A parse that stops because the tokens do not start with what was expected. -/
def Halt.unexpected (expected : Expected) (tokens : List Token) : Halt :=
  { failure := .error (ParseError.unexpected expected tokens), rest := tokens }

end CFrontEnd
