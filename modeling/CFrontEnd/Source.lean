import CFrontEnd.Parser.Failure
import CFrontEnd.Text.Blank
import CFrontEnd.Text.Position

/-!
# Sources and Diagnostics

A source is a named text without blank text at its ends. Spans are offsets into that text. A
diagnostic is a message with the place in the source that it is about.
-/

namespace CFrontEnd

/-- A named source text. -/
structure Source where
  /-- The name shown in diagnostics, usually a path. -/
  name : String
  /-- The text, without blank text at its ends. -/
  content : String
deriving DecidableEq, Repr

/-- A message about a place in a source. -/
structure Diagnostic where
  /-- What is wrong. -/
  message : String
  /-- The name of the source. -/
  file : String
  /-- The line and the column. -/
  position : Position
deriving DecidableEq, Repr

namespace Source

/-- The source with the given name; blank text at the ends of the text is dropped. -/
def named (name text : String) : Source :=
  { name, content := String.ofList (Text.trim text.toList) }

/-- A source that comes from nowhere in particular. -/
def ofText (text : String) : Source :=
  named "<input>" text

/-- The place of a byte offset in the text. -/
def position (source : Source) (offset : Nat) : Position :=
  Position.ofOffset source.content.toList offset

/-- The offset after the last byte of the text. -/
def endOffset (source : Source) : Nat :=
  Text.byteLength source.content.toList

/-- The diagnostic for a message about a span; no span stands for the end of the text. -/
def diagnostic (source : Source) (message : String) (span : Option Span) : Diagnostic :=
  { message
    file := source.name
    position := source.position ((span.map Span.start).getD source.endOffset) }

/-- The diagnostic for a parse error. -/
def diagnose (source : Source) (error : ParseError) : Diagnostic :=
  source.diagnostic error.message error.span?

end Source

/-- The text of a diagnostic. -/
def Diagnostic.display (diagnostic : Diagnostic) : String :=
  "error: " ++ diagnostic.message ++ " at " ++ diagnostic.file ++ ":" ++
    toString diagnostic.position.line ++ ":" ++ toString diagnostic.position.column

end CFrontEnd
