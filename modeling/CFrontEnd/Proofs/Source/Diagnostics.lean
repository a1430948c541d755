import CFrontEnd.Proofs.Source.Aborts

/-!
# The Place of a Diagnostic

A diagnostic of a failed compilation is about a place in the text. Either the text ends too early,
and the place is just behind its last character; or a token is at fault, the first one after which
the text cannot go on to a program, and the place is where that token starts. The place is a line
and a column, and read as such it leads back to the token.

## Main definitions

* `Diagnostic.AtEnd`: the diagnostic is about the end of the text.
* `Diagnostic.AtToken`: the diagnostic is about a token of the text.

## Main results

* `Source.compile_eq_error_iff`: a compilation fails exactly if the parse does.
* `diagnostic_located`: every diagnostic of a compilation is about the end or the token at fault.
-/

namespace CFrontEnd

open Text

namespace Diagnostic

/-- The message says that the text ends too early, and the place is just behind the last character
of its last line. -/
structure AtEnd (diagnostic : Diagnostic) (content : List Char) : Prop where
  /-- The message names what was looked for. -/
  message_eq : ∃ expected : Expected,
    diagnostic.message = "expected " ++ expected.describe ++ ", found end of input"
  /-- The line is the last one, and the column follows its last character. -/
  position_eq : ∃ line, (content.splitOn '\n').getLast? = some line ∧
    diagnostic.position = { line := (content.splitOn '\n').length, column := line.length + 1 }

/-- The message quotes the text of the token, and the place is where the token starts. -/
structure AtToken (diagnostic : Diagnostic) (content : List Char) (token : Token) : Prop where
  /-- The message ends with the text of the token, or is about its value. -/
  message_eq : (∃ expected : Expected, diagnostic.message =
      "expected " ++ expected.describe ++ ", found " ++ token.kind.name ++ " `" ++ token.lexeme ++
        "`") ∨
    diagnostic.message = "integer literal `" ++ token.lexeme ++ "` is out of range"
  /-- Lines and columns are counted from one. -/
  one_le : 1 ≤ diagnostic.position.line ∧ 1 ≤ diagnostic.position.column
  /-- The line exists, and goes on with the text of the token from the column on. -/
  exists_line : ∃ line, (content.splitOn '\n')[diagnostic.position.line - 1]? = some line ∧
    token.lexeme.toList <+: line.drop (diagnostic.position.column - 1)
  /-- The lines above and the characters before the column are the bytes before the token. -/
  first_byte : byteLength (diagnostic.position.upto content) = token.span.start

end Diagnostic

namespace Source

/-- The place of a text that ends too early. -/
theorem atEnd_diagnose (source : Source) (expected : Expected) :
    (source.diagnose (.unexpectedEnd expected)).AtEnd source.content.toList := by
  have hposition : (source.diagnose (.unexpectedEnd expected)).position =
      Position.start.advance source.content.toList := by
    simp [diagnose, diagnostic, ParseError.span?, position, endOffset, Position.ofOffset,
      uptoOffset_of_le]
  obtain ⟨lines, line, hsplit, hadvance⟩ := Position.exists_splitOn_eq source.content.toList
  refine ⟨⟨expected, rfl⟩, line, by rw [hsplit, List.getLast?_concat], ?_⟩
  rw [hposition, hadvance, hsplit, List.length_append, List.length_singleton]

/-- The place of a token at fault. -/
theorem atToken_diagnose {source : Source} {error : ParseError} {token : Token}
    (hmem : token ∈ lex source.content) (hreports : error.Reports token) :
    (source.diagnose error).AtToken source.content.toList token := by
  have hmarked : token.span.Marks source.content.toList token.lexeme.toList :=
    ((Piece.cuts_scan source.content.toList).marked (mem_lex_iff.mp hmem)).2
  obtain ⟨before, after, htext, hstart, -⟩ := hmarked
  rw [List.append_assoc] at htext
  have hspan : error.span? = some token.span := by
    rcases hreports with ⟨expected, rfl⟩ | rfl <;> rfl
  -- the characters before the place are those before the token
  have hposition : (source.diagnose error).position = Position.start.advance before := by
    rw [diagnose, diagnostic, hspan, Option.map_some, Option.getD_some, position,
      Position.ofOffset, ← hstart, htext, uptoOffset_append]
  obtain ⟨line, hline, -, hdrop, hupto⟩ :=
    Position.getElem?_splitOn_advance before (token.lexeme.toList ++ after)
  rw [← htext] at hline hupto
  obtain ⟨lines, own, -, hadvance⟩ := Position.exists_splitOn_eq before
  refine ⟨?_, ?_, ⟨line, by rwa [hposition], ?_⟩, by rw [hposition, hupto, hstart]⟩
  · rcases hreports with ⟨expected, rfl⟩ | rfl
    · exact .inl ⟨expected, rfl⟩
    · exact .inr rfl
  · rw [hposition, hadvance]
    exact ⟨Nat.le_add_left .., Nat.le_add_left ..⟩
  · -- there is no line feed in a token
    have hfree : ∀ c ∈ token.lexeme.toList, decide (c ≠ '\n') = true := by
      intro c hc
      have hblank := isBlank_eq_false_of_mem_lex hmem hc
      refine decide_eq_true fun hbreak => ?_
      rw [hbreak] at hblank
      exact absurd hblank (by decide)
    rw [hposition, hdrop, List.takeWhile_append_of_pos hfree]
    exact List.prefix_append _ _

/-- A compilation fails exactly if the parse does, and reports the error at its place. -/
theorem compile_eq_error_iff {source : Source} {generator : Generator}
    {failure : Failure CompileError} :
    source.compile generator = .error failure ↔
      ∃ error, parseSource source.content = .error (.error error) ∧
        failure = .error (.parse (source.diagnose error)) := by
  rw [compile_eq]
  cases hparse : parseSource source.content with
  | ok program => simp
  | error halt =>
    cases halt with
    | abort => exact absurd hparse (parseSource_ne_abort _)
    | error error => simp [explain, eq_comm]

/-- A compilation that fails with a diagnostic is a parse that fails with a report. -/
theorem exists_parseError {source : Source} {generator : Generator} {diagnostic : Diagnostic}
    (h : source.compile generator = .error (.error (.parse diagnostic))) :
    ∃ error, parseSource source.content = .error (.error error) ∧
      diagnostic = source.diagnose error := by
  obtain ⟨error, hparse, hfailure⟩ := compile_eq_error_iff.mp h
  exact ⟨error, hparse, by simpa using hfailure⟩

end Source

/-- A diagnostic of a compilation names the source. It is about the end of the text, where the text
is not yet a program, or about the first token after which the text cannot go on to one. -/
theorem diagnostic_located (source : Source) (generator : Generator) (diagnostic : Diagnostic)
    (h : source.compile generator = .error (.error (.parse diagnostic))) :
    diagnostic.file = source.name ∧
      ((∃ expected, parse (lex source.content) = .error (.error (.unexpectedEnd expected))) ∧
          diagnostic.AtEnd source.content.toList ∨
        ∃ i token,
          IsLeast {j | j < (lex source.content).length ∧
            ¬EntryPoint.program.Viable ((lex source.content).take (j + 1))} i ∧
          (lex source.content)[i]? = some token ∧
          diagnostic.AtToken source.content.toList token) := by
  obtain ⟨error, hparse, rfl⟩ := source.exists_parseError h
  refine ⟨rfl, ?_⟩
  have hentry : EntryPoint.program.parse (lex source.content) = .error (.error error) := hparse
  rcases EntryPoint.program.parse_trichotomy (lex source.content) with ⟨tree, htree⟩ |
    ⟨expected, -, -, hend⟩ | ⟨before, token, after, next, failure, htokens, hrun, hadvance, hstop⟩
  · simp [htree] at hentry
  · obtain rfl : error = .unexpectedEnd expected := by simpa [hentry] using hend
    exact .inl ⟨⟨expected, hparse⟩, source.atEnd_diagnose expected⟩
  · obtain rfl : failure = .error error := by simpa [hentry, eq_comm] using hstop
    have hmem : token ∈ lex source.content := by simp [htokens]
    obtain ⟨other, hother, hreports⟩ := reports_of_atFault (Pending.atFault_of_advance hadvance)
      (stringBody?_isSome_of_mem_lex hmem)
    obtain rfl : error = other := by simpa using hother
    have hbefore : EntryPoint.program.Viable before :=
      EntryPoint.viable_iff_run.mpr ⟨next, hrun⟩
    have htoken : ¬EntryPoint.program.Viable (before ++ [token]) := by
      simp [EntryPoint.viable_snoc_iff hrun, hadvance]
    refine .inr ⟨before.length, token, ?_, by simp [htokens], Source.atToken_diagnose hmem hreports⟩
    rw [htokens]
    exact EntryPoint.isLeast_of_not_viable hbefore htoken

/-- A parenthesis on the second line, behind a character of two bytes. -/
theorem diagnostic_located_parenthesis :
    let source := Source.named "t.c" " é\n ) "
    let diagnostic : Diagnostic :=
      { message := "expected type name, found CloseParen `)`", file := "t.c"
        position := { line := 2, column := 2 } }
    source.compile Program.dump = .error (.error (.parse diagnostic)) ∧
      diagnostic.file = source.name ∧ ∃ i token,
        IsLeast {j | j < (lex source.content).length ∧
          ¬EntryPoint.program.Viable ((lex source.content).take (j + 1))} i ∧
        (lex source.content)[i]? = some token ∧
        diagnostic.AtToken source.content.toList token := by
  intro source diagnostic
  have hcontent : source.content.toList = ['é', '\n', ' ', ')'] := by decide
  have hmatch : classify [')'] = some (.closeParen, 1) := by decide
  -- the parenthesis is the only token, and it starts at the fifth byte
  have hlex : lex source.content = [⟨.closeParen, ")", ⟨4, 5⟩⟩] := by
    rw [lex_eq_scan, hcontent, Piece.scan, Piece.scanWith_of_none (by decide),
      Piece.scanWith_of_none (by decide), Piece.scanWith_of_none (by decide),
      Piece.scanWith_of_match hmatch, List.drop_one, List.tail_cons, Piece.scanWith]
    rfl
  have hparse : parse [⟨.closeParen, ")", ⟨4, 5⟩⟩] =
      .error (.error (.unexpectedToken .typeName .closeParen ")" ⟨4, 5⟩)) := by
    cbv
  have hcompile : source.compile Program.dump = .error (.error (.parse diagnostic)) := by
    rw [Source.compile_eq, parseSource_eq, hlex, hparse]
    decide
  obtain ⟨hfile, ⟨⟨expected, hend⟩, -⟩ | htoken⟩ :=
    diagnostic_located source Program.dump diagnostic hcompile
  · simp [hlex, hparse] at hend
  · exact ⟨hcompile, hfile, htoken⟩

end CFrontEnd
