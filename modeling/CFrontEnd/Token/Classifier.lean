import CFrontEnd.Text.Alphanumeric
import CFrontEnd.Token

/-!
# Token Classifiers

Each kind of token has a matcher, which says how many characters at the front of a text form a
token of that kind. The classifiers are an ordered table of kinds and matchers; the first one that
matches gives the token.

The order matters: reserved words come before identifiers, and integers before floats, whose
matcher accepts integers too.
-/

namespace CFrontEnd

/-- The number of characters at the front of a text that a class of tokens takes, if it takes
any. -/
abbrev Matcher := List Char → Option Nat

namespace Matcher

/-- The single character `c`. -/
def char (c : Char) : Matcher
  | [] => none
  | first :: _ => if first = c then some 1 else none

/-- The number of decimal digits at the front. -/
def digitRun (text : List Char) : Nat :=
  (text.takeWhile Char.isDigit).length

/-- The character can start a name: an ASCII letter or the underscore. -/
def isNameStart (c : Char) : Bool :=
  c.isAlpha || c == '_'

/-- The character can stand in a name: an ASCII letter or digit, or the underscore. -/
def isNamePart (c : Char) : Bool :=
  c.isAlphanum || c == '_'

/-- The character can stand in a string literal. -/
def isStringPart (c : Char) : Bool :=
  Text.isAlphanumeric c || c == '_'

/-- The character makes an assignment operator together with a `=` after it. -/
def isCompound (c : Char) : Bool :=
  ['+', '-', '*', '/', '%', '&', '^', '|'].contains c

/-- A name, reserved or not. -/
def identifier : Matcher
  | [] => none
  | first :: rest =>
    if isNameStart first then some (1 + (rest.takeWhile isNamePart).length) else none

/-- A name that is a reserved word. -/
def keyword : Matcher := fun text =>
  (identifier text).filter fun length => keywords.contains (String.ofList (text.take length))

/-- `=`, or an operator with a `=` after it. No second `=` may follow, except after a shift. -/
def assignmentOperator : Matcher
  | '<' :: '<' :: '=' :: _ => some 3
  | '>' :: '>' :: '=' :: _ => some 3
  | '=' :: '=' :: _ => none
  | '=' :: _ => some 1
  | operator :: '=' :: rest =>
    if isCompound operator && rest.head? != some '=' then some 2 else none
  | _ => none

/-- `++`, `--`, `+`, `-`, `*`, `/` or `%`. -/
def arithmeticOperator : Matcher
  | '+' :: '+' :: _ => some 2
  | '-' :: '-' :: _ => some 2
  | '+' :: _ => some 1
  | '-' :: _ => some 1
  | '*' :: _ => some 1
  | '/' :: _ => some 1
  | '%' :: _ => some 1
  | _ => none

/-- `==`, `!=`, `>=`, `<=`, `<` or `>`. -/
def relationalOperator : Matcher
  | '=' :: '=' :: _ => some 2
  | '!' :: '=' :: _ => some 2
  | '>' :: '=' :: _ => some 2
  | '<' :: '=' :: _ => some 2
  | '<' :: _ => some 1
  | '>' :: _ => some 1
  | _ => none

/-- `&&`, `||`, or a `!` that no `=` follows. -/
def logicalOperator : Matcher
  | '&' :: '&' :: _ => some 2
  | '|' :: '|' :: _ => some 2
  | '!' :: '=' :: _ => none
  | '!' :: _ => some 1
  | _ => none

/-- Digits that no point follows. -/
def integer : Matcher := fun text =>
  let length := digitRun text
  if 0 < length ∧ (text.drop length).head? ≠ some '.' then some length else none

/-- Digits with a point before, among or after them, or digits alone. -/
def float : Matcher := fun text =>
  let whole := digitRun text
  match text.drop whole with
  | '.' :: rest =>
    let fraction := digitRun rest
    if 0 < whole ∨ 0 < fraction then some (whole + 1 + fraction) else none
  | _ => if 0 < whole then some whole else none

/-- Letters, digits and underscores, at least one, between double quotes. -/
def string : Matcher
  | '"' :: rest =>
    let body := (rest.takeWhile isStringPart).length
    if 0 < body ∧ (rest.drop body).head? = some '"' then some (body + 2) else none
  | _ => none

end Matcher

/-- A kind of token and the matcher of its texts. -/
abbrev Classifier := TokenKind × Matcher

/-- The classifiers of the language, in order of priority. -/
def classifiers : List Classifier :=
  [(.keyword, Matcher.keyword),
    (.openBrace, Matcher.char '\x7b'),
    (.closeBrace, Matcher.char '\x7d'),
    (.openParen, Matcher.char '('),
    (.closeParen, Matcher.char ')'),
    (.semicolon, Matcher.char ';'),
    (.assignmentOperator, Matcher.assignmentOperator),
    (.arithmeticOperator, Matcher.arithmeticOperator),
    (.relationalOperator, Matcher.relationalOperator),
    (.logicalOperator, Matcher.logicalOperator),
    (.identifier, Matcher.identifier),
    (.integer, Matcher.integer),
    (.float, Matcher.float),
    (.string, Matcher.string)]

/-- The kind and the length of the first match in a table of classifiers. -/
def classifyWith (table : List Classifier) (text : List Char) : Option (TokenKind × Nat) :=
  table.findSome? fun classifier => (classifier.2 text).map fun length => (classifier.1, length)

/-- The kind and the length of the token at the front of a text. -/
def classify (text : List Char) : Option (TokenKind × Nat) :=
  classifyWith classifiers text

end CFrontEnd
