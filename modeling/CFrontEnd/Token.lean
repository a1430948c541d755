import CFrontEnd.Decimal.Numeral

/-!
# Tokens

A token is a kind, the text it covers and the bytes it covers. Tokens can also be made by hand,
so the kind and the text need not fit each other; what a token stands for is computed from the
two.

* `Token.value_of_kind`: only integer and float tokens have a value.
* `Token.stringBody?_eq_some_iff`: the text of a string token must start and end with one-byte
  characters, and its body is what stands between them.
-/

namespace CFrontEnd

/-- The reserved words of the language. -/
def keywords : List String :=
  ["auto", "break", "case", "char", "const", "continue", "default", "do", "double", "else",
    "enum", "extern", "float", "for", "goto", "if", "int", "long", "register", "return", "short",
    "signed", "sizeof", "static", "struct", "switch", "typedef", "union", "unsigned", "void",
    "volatile", "while"]

/-- The reserved words that name a type. -/
def typeNames : List String :=
  ["char", "double", "float", "int", "long", "short", "signed", "unsigned", "void"]

/-- The classes of tokens. -/
inductive TokenKind where
  | keyword
  | openBrace
  | closeBrace
  | openParen
  | closeParen
  | semicolon
  | assignmentOperator
  | arithmeticOperator
  | relationalOperator
  | logicalOperator
  | identifier
  | integer
  | float
  | string
deriving DecidableEq, Repr

/-- The name of a kind in messages and listings. -/
def TokenKind.name : TokenKind → String
  | .keyword => "Keyword"
  | .openBrace => "OpenBrace"
  | .closeBrace => "CloseBrace"
  | .openParen => "OpenParen"
  | .closeParen => "CloseParen"
  | .semicolon => "Semicolon"
  | .assignmentOperator => "AssignmentOperator"
  | .arithmeticOperator => "ArithmeticOperator"
  | .relationalOperator => "RelationalOperator"
  | .logicalOperator => "LogicalOperator"
  | .identifier => "Identifier"
  | .integer => "Integer"
  | .float => "Float"
  | .string => "String"

/-- The kinds in the order of their declaration. -/
def TokenKind.all : List TokenKind :=
  [.keyword, .openBrace, .closeBrace, .openParen, .closeParen, .semicolon, .assignmentOperator,
    .arithmeticOperator, .relationalOperator, .logicalOperator, .identifier, .integer, .float,
    .string]

/-- The kind with the given name. -/
def TokenKind.ofName? (name : String) : Option TokenKind :=
  all.find? fun kind => kind.name == name

/-- A range of byte offsets, from `start` to before `stop`. -/
structure Span where
  /-- The offset of the first byte. -/
  start : Nat
  /-- The offset after the last byte. -/
  stop : Nat
deriving DecidableEq, Repr

/-- The value of a numeric literal. -/
inductive Number where
  | int (value : Int64)
  | float (value : Binary64)
deriving DecidableEq

/-- Equality of numbers as values, see `Binary64.same`. -/
def Number.same : Number → Number → Bool
  | .int m, .int n => m == n
  | .float x, .float y => x.same y
  | _, _ => false

/-- A classified piece of text. -/
structure Token where
  /-- The class of the token. -/
  kind : TokenKind
  /-- The text of the token. -/
  lexeme : String
  /-- The bytes of the source that the token covers. -/
  span : Span
deriving DecidableEq, Repr

namespace Token

/-- The number that an integer or float token stands for. An integer token whose text is out of
range or no integer has none, and likewise for a float token. -/
def value (token : Token) : Option Number :=
  match token.kind with
  | .integer => (Numeral.int64? token.lexeme.toList).map .int
  | .float => (Numeral.binary64? token.lexeme.toList).map .float
  | _ => none

/-- The token has the given kind and exactly the given text. -/
def is (token : Token) (kind : TokenKind) (lexeme : String) : Bool :=
  token.kind == kind && token.lexeme == lexeme

/-- The token is the given reserved word. -/
def isKeyword (token : Token) (word : String) : Bool :=
  token.is .keyword word

/-- The token is a reserved word that names a type. -/
def isTypeName (token : Token) : Bool :=
  token.kind == .keyword && typeNames.contains token.lexeme

/-- Equality of tokens in kind, text, value and span. A token whose value is not a number differs
from itself. -/
def same (first second : Token) : Bool :=
  first.kind == second.kind && first.lexeme == second.lexeme && first.span == second.span &&
    match first.value, second.value with
    | some m, some n => m.same n
    | none, none => true
    | _, _ => false

/-- Equality of token lists, token by token. -/
def sameAll : List Token → List Token → Bool
  | [], [] => true
  | first :: firsts, second :: seconds => first.same second && sameAll firsts seconds
  | _, _ => false

/-- The kind and the text of the token, as in a listing. -/
def describe (token : Token) : String :=
  token.kind.name ++ " " ++ token.lexeme

/-- The character takes a single byte. -/
def isSingleByte (c : Char) : Bool :=
  c.utf8Size == 1

/-- The text between the first and the last byte of the token's text. There is none if the text
has fewer than two bytes or one of these two bytes is only a part of a character. -/
def stringBody? (token : Token) : Option String :=
  match token.lexeme.toList with
  | [] => none
  | first :: rest =>
    if isSingleByte first && rest.getLast?.any isSingleByte then
      some (String.ofList rest.dropLast)
    else none

/-- Only integer and float tokens have a value. -/
theorem value_of_kind {token : Token} {number : Number} (h : token.value = some number) :
    token.kind = .integer ∨ token.kind = .float := by
  unfold value at h
  split at h <;> simp_all

/-- The text of a string token must start and end with one-byte characters, and its body is what
stands between them. -/
theorem stringBody?_eq_some_iff {token : Token} {body : String} :
    token.stringBody? = some body ↔
      ∃ first last, isSingleByte first = true ∧ isSingleByte last = true ∧
        token.lexeme.toList = first :: (body.toList ++ [last]) := by
  unfold stringBody?
  split
  · rename_i h
    simp [h]
  · rename_i first rest h
    rw [h]
    constructor
    · intro hbody
      split at hbody
      · rename_i hends
        simp only [Bool.and_eq_true, Option.any_eq_true] at hends
        obtain ⟨hfirst, last, hlast, hsingle⟩ := hends
        obtain rfl := Option.some.inj hbody
        obtain ⟨front, rfl⟩ := List.getLast?_eq_some_iff.mp hlast
        exact ⟨first, last, hfirst, hsingle, by simp⟩
      · simp at hbody
    · rintro ⟨first', last, hfirst, hlast, hlist⟩
      obtain ⟨rfl, rfl⟩ := List.cons.inj hlist
      simp [hfirst, hlast]

end Token

end CFrontEnd
