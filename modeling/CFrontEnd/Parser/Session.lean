import CFrontEnd.Parser.Program

/-!
# Parser Sessions

A cursor in a list of tokens, and requests that take tokens or recognise rules from the cursor on.
A request that fails leaves the cursor at the token at fault, and later requests go on from there.

* `Cursor.rest_leaving`: the cursor stands before what a rule leaves.
-/

namespace CFrontEnd

/-- A place in a list of tokens. -/
structure Cursor where
  /-- All the tokens. -/
  tokens : List Token
  /-- The index of the next token that is not consumed. -/
  position : Nat
deriving DecidableEq, Repr

namespace Cursor

/-- The cursor before the first token. -/
def start (tokens : List Token) : Cursor :=
  { tokens, position := 0 }

/-- The tokens that are not consumed. -/
def rest (cursor : Cursor) : List Token :=
  cursor.tokens.drop cursor.position

/-- The next token that is not consumed. -/
def peek? (cursor : Cursor) : Option Token :=
  cursor.tokens[cursor.position]?

/-- The cursor behind the tokens that were taken, where `left` is what is left of the others. -/
def leaving (cursor : Cursor) (left : List Token) (_ : left <:+ cursor.rest) : Cursor :=
  { cursor with position := cursor.position + (cursor.rest.length - left.length) }

/-- The cursor stands before what is left. -/
theorem rest_leaving {cursor : Cursor} {left : List Token} (suffix : left <:+ cursor.rest) :
    (cursor.leaving left suffix).rest = left := by
  have hdrop : cursor.rest.drop (cursor.rest.length - left.length) = left :=
    (List.suffix_iff_eq_drop.mp suffix).symm
  rwa [rest, List.drop_drop] at hdrop

end Cursor

/-- A request to a parser. -/
inductive Request where
  /-- The next token, without consuming it. -/
  | peek
  /-- The next token. -/
  | advance
  /-- The next token if it is of a kind. -/
  | eat (kind : TokenKind)
  /-- The next token, which must be of a kind. -/
  | expect (kind : TokenKind)
  /-- Whether all tokens are consumed. -/
  | atEnd
  /-- All tokens must be consumed. -/
  | finish
  | program
  | function
  | stmt
  | block
  | expr
deriving DecidableEq, Repr

/-- The answer to a request. -/
inductive Reply where
  | token (found : Option Token)
  | atEnd (answer : Bool)
  | finished
  | program (value : Program)
  | function (value : FunctionDef)
  | stmt (value : Stmt)
  | block (value : List Stmt)
  | expr (value : Expr)
  | failed (failure : Failure ParseError)

namespace Cursor

/-- The answer to a rule and the cursor after it. -/
def settle {α : Type} {bound : Nat} (cursor : Cursor) (reply : α → Reply) :
    TakeResult cursor.rest bound α → Reply × Cursor
  | .ok taken => (reply taken.value, cursor.leaving taken.rest taken.suffix)
  | .error stopped => (.failed stopped.failure, cursor.leaving stopped.rest stopped.suffix)

/-- Answers a request. Gives the answer and the cursor after it. -/
def answerLogged (cursor : Cursor) : Request → Logged (Reply × Cursor)
  | .peek => return (.token cursor.peek?, cursor)
  | .advance =>
    match cursor.peek? with
    | some found => return (.token (some found), { cursor with position := cursor.position + 1 })
    | none => return (.token none, cursor)
  | .eat kind =>
    match Parser.takeKind kind cursor.rest with
    | .ok taken => return (.token (some taken.value), cursor.leaving taken.rest taken.suffix)
    | .error _ => return (.token none, cursor)
  | .expect kind =>
    return cursor.settle (fun found => .token (some found)) (Parser.takeKind kind cursor.rest)
  | .atEnd => return (.atEnd (cursor.tokens.length ≤ cursor.position), cursor)
  | .finish =>
    match Parser.finish cursor.rest with
    | .ok () => return (.finished, cursor)
    | .error halt => return (.failed halt.failure, cursor)
  | .program => return cursor.settle .program (← Parser.takeProgramLogged cursor.rest)
  | .function => return cursor.settle .function (← Parser.takeFunctionLogged cursor.rest)
  | .stmt => return cursor.settle .stmt (Parser.takeStmt cursor.rest)
  | .block => return cursor.settle .block (Parser.takeBlock cursor.rest)
  | .expr => return cursor.settle .expr (Parser.takeExpr cursor.rest)

/-- The answer to a request and the cursor after it. -/
def answer (cursor : Cursor) (request : Request) : Reply × Cursor :=
  (cursor.answerLogged request).value

/-- Answers requests in turn. Gives the answers, each with the cursor after it. A session ends with
a request that stops without a report. -/
def runLogged (cursor : Cursor) : List Request → Logged (List (Reply × Cursor))
  | [] => return []
  | request :: requests => do
    let (reply, next) ← cursor.answerLogged request
    match reply with
    -- nothing can be asked of a parser that stopped without a report
    | .failed .abort => return [(reply, next)]
    | _ => return (reply, next) :: (← next.runLogged requests)

/-- The answers to requests in turn, each with the cursor after it. -/
def run (cursor : Cursor) (requests : List Request) : List (Reply × Cursor) :=
  (cursor.runLogged requests).value

/-- The reports of a session. -/
def runEvents (cursor : Cursor) (requests : List Request) : List Event :=
  (cursor.runLogged requests).events

end Cursor

end CFrontEnd
