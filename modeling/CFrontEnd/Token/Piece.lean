import CFrontEnd.Event
import CFrontEnd.Text.Blank
import CFrontEnd.Text.Position
import CFrontEnd.Token.Classifier

/-!
# Pieces of a Text

A text is cut into pieces: tokens, and single characters that belong to no token. The pieces keep
every character of the text; the tokens are what the parser reads, and a character that is passed
over is reported unless it is blank.

* `Piece.flatten_scan`: the texts of the pieces, put back together, give the text.
-/

namespace CFrontEnd

/-- A piece of a text: a token, or a character that is passed over, with its byte offset. -/
inductive Piece where
  | token (found : Token)
  | skipped (offset : Nat) (character : Char)
deriving DecidableEq, Repr

namespace Piece

/-- The characters of the piece. -/
def text : Piece → List Char
  | .token found => found.lexeme.toList
  | .skipped _ character => [character]

/-- The token of the piece. -/
def token? : Piece → Option Token
  | .token found => some found
  | .skipped .. => none

/-- The report on a character that is passed over; blank characters are passed over silently. -/
def event? : Piece → Option Event
  | .token _ => none
  | .skipped offset character =>
    if Text.isBlank character then none else some (.skippedCharacter offset character)

/-- The pieces of a text that starts at a byte offset, for a table of classifiers. A match takes
at least the first character. -/
def scanWith (table : List Classifier) (offset : Nat) : List Char → List Piece
  | [] => []
  | first :: rest =>
    match classifyWith table (first :: rest) with
    | some (kind, length) =>
      let lexeme := first :: rest.take (length - 1)
      let stop := offset + Text.byteLength lexeme
      .token { kind, lexeme := String.ofList lexeme, span := { start := offset, stop } } ::
        scanWith table stop (rest.drop (length - 1))
    | none => .skipped offset first :: scanWith table (offset + first.utf8Size) rest
termination_by text => text.length
decreasing_by
  · simp only [List.length_drop, List.length_cons]
    omega
  · simp

/-- The pieces of a text. -/
def scan (text : List Char) : List Piece :=
  scanWith classifiers 0 text

/-- The first token of some pieces, the reports on the pieces before it, and the pieces after
it. -/
def nextToken : List Piece → List Event × Option Token × List Piece
  | [] => ([], none, [])
  | .token found :: rest => ([], some found, rest)
  | piece :: rest =>
    let (events, found, left) := nextToken rest
    (piece.event?.toList ++ events, found, left)

/-- The answers to `count` requests for the next token, and the reports made on the way. -/
def nextTokens : Nat → List Piece → List Event × List (Option Token)
  | 0, _ => ([], [])
  | count + 1, pieces =>
    let (events, found, left) := nextToken pieces
    let (later, tokens) := nextTokens count left
    (events ++ later, found :: tokens)

/-- The texts of the pieces, put back together, give the text. -/
theorem flatten_scanWith (table : List Classifier) (offset : Nat) (text : List Char) :
    (scanWith table offset text).flatMap Piece.text = text := by
  fun_induction scanWith table offset text with
  | case1 => rfl
  | case2 offset first rest kind length h lexeme stop ih =>
    simp [Piece.text, ih, lexeme]
  | case3 offset first rest h ih =>
    simp [Piece.text, ih]

/-- The pieces of a text keep all of it. -/
theorem flatten_scan (text : List Char) : (scan text).flatMap Piece.text = text :=
  flatten_scanWith classifiers 0 text

end Piece

/-- The tokens of some pieces. The other pieces are reported. -/
def Piece.tokens (pieces : List Piece) : Logged (List Token) :=
  { value := pieces.filterMap Piece.token?, events := pieces.filterMap Piece.event? }

/-- Cuts a text into tokens. The characters passed over are reported, and then a summary. -/
def lexLogged (text : String) : Logged (List Token) := do
  let tokens ← Piece.tokens (Piece.scan text.toList)
  Logged.report [.lexedSource tokens.length (Text.byteLength text.toList)]
  return tokens

/-- The tokens of a text. -/
def lex (text : String) : List Token :=
  (lexLogged text).value

/-- The reports on cutting a text into tokens. -/
def lexEvents (text : String) : List Event :=
  (lexLogged text).events

theorem lex_eq_scan (text : String) :
    lex text = (Piece.scan text.toList).filterMap Piece.token? := rfl

theorem lexEvents_eq_scan (text : String) :
    lexEvents text = (Piece.scan text.toList).filterMap Piece.event? ++
      [.lexedSource (lex text).length (Text.byteLength text.toList)] := rfl

end CFrontEnd
