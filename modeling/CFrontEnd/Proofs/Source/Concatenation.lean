import CFrontEnd.Proofs.Parser.Lookahead
import CFrontEnd.Proofs.Parser.Spans
import CFrontEnd.Proofs.Source.Aborts

/-!
# Programs Joined

A function ends with a token of its own, so the functions of a program are not changed by what
follows them, and what follows a program is parsed as a program of its own. An error that is about
a token is final: nothing behind that token makes up for it. Together with the cut of texts at
blanks, this makes the program of two texts the functions of both.

## Main definitions

* `Program.append`: the functions of two programs, one after the other.

## Main results

* `Parser.program_append`: the parse goes on behind a whole program as at the start.
* `parse_append_of_fault`: an error about a token stays, whatever follows.
* `parseSource_append`: the program of two texts with blanks between them.
* `parse_append`: all of this in one statement.
-/

namespace CFrontEnd

open CFrontEnd.Parser

/-- The functions of two programs, one after the other. -/
def Program.append (first second : Program) : Program :=
  { functions := first.functions ++ second.functions }

instance : Append Program :=
  ⟨Program.append⟩

/-- Behind a whole program, the parse goes on as at the start. -/
theorem Parser.program_append {first : List Token} {tree : Program}
    (h : program first = .ok (tree, [])) (second : List Token) :
    program (first ++ second) =
      (program second).andThen fun others rest => .ok (tree ++ others, rest) := by
  induction hlength : first.length using Nat.strong_induction_on generalizing first tree with
  | _ length ih =>
    subst hlength
    cases first with
    | nil =>
      obtain rfl : ({ functions := [] } : Program) = tree := by
        simpa [program_eq, runProgram] using h
      rw [List.nil_append]
      cases program second <;> rfl
    | cons token rest =>
      rw [program_cons] at h
      obtain ⟨function, left, hfunction, hothers⟩ := Outcome.andThen_eq_ok_iff.mp h
      obtain ⟨others, _, hleft, htree⟩ := Outcome.andThen_eq_ok_iff.mp hothers
      obtain ⟨rfl, rfl⟩ := Prod.mk.inj (Except.ok.inj htree)
      -- the first function is found in front of any tokens
      obtain ⟨used, hused, hafter⟩ := function_append hfunction
      have hshorter : left.length < (token :: rest).length :=
        Outcome.length_lt_of_ofTaken hfunction
      have hmore : Parser.function (token :: (rest ++ second)) =
          .ok (function, left ++ second) := by
        rw [← List.cons_append, hused, List.append_assoc]
        exact hafter _
      rw [List.cons_append, program_cons, hmore, Outcome.andThen_ok, ih _ hshorter hleft rfl]
      cases program second <;> rfl

/-- The functions of a program are kept, and what follows them is parsed on its own. -/
theorem parse_append_of_ok {first : List Token} {tree : Program} (h : parse first = .ok tree)
    (second : List Token) : parse (first ++ second) = (parse second).map (tree ++ ·) := by
  rw [parse_eq, parse_eq, program_append (complete_eq_ok_iff.mp h)]
  cases program second with
  | error halt => rfl
  | ok taken =>
    obtain ⟨others, rest⟩ := taken
    cases rest <;> rfl

/-- An error about a token stays, whatever follows. -/
theorem parse_append_of_fault {first : List Token} {failure : Failure ParseError}
    (h : parse first = .error failure)
    (hfault : ∀ expected, failure ≠ .error (.unexpectedEnd expected)) (second : List Token) :
    parse (first ++ second) = .error failure := by
  rcases EntryPoint.program.parse_trichotomy first with ⟨tree, htree⟩ | ⟨expected, -, -, hend⟩ |
    ⟨before, token, after, next, found, rfl, hrun, hadvance, hfound⟩
  · exact absurd (h.symm.trans htree) (by simp)
  · exact absurd (Except.error.inj (h.symm.trans hend)) (hfault expected)
  · obtain rfl := Except.error.inj (h.symm.trans hfound)
    -- the stack refuses the token before it comes to what follows
    rw [List.append_assoc, List.cons_append]
    exact EntryPoint.parse_of_advance_error hrun hadvance (after ++ second)

/-- The program of two texts with blanks between them has the functions of both; an error in the
second text is as many bytes further on as there are in front of it. -/
theorem parseSource_append {first gap second : String} {tree : Program} (hne : gap ≠ "")
    (hgap : ∀ c ∈ gap.toList, Text.isBlank c = true) (h : parseSource first = .ok tree) :
    parseSource (first ++ gap ++ second) =
      ((parseSource second).map (tree ++ ·)).mapError
        (Failure.respan (Span.shift (first ++ gap).utf8ByteSize)) := by
  have hsecond : parse ((lex second).map (Token.respan (Span.shift (first ++ gap).utf8ByteSize))) =
      (parse (lex second)).mapError
        (Failure.respan (Span.shift (first ++ gap).utf8ByteSize)) :=
    EntryPoint.program.parse_respan _ (lex second)
  rw [parseSource_eq] at h ⊢
  rw [lex_append _ _ hne hgap, parse_append_of_ok h, hsecond, parseSource_eq]
  cases parse (lex second) <;> rfl

/-- Programs are parsed piece by piece. Behind the tokens of a program, the functions of the other
tokens follow, or their error does. An error about a token is the same whatever follows, and only
one about the end is not. So the program of two texts with blanks between them has the functions of
both, and an error of the second one is as many bytes further on as there are in front of it. -/
theorem parse_append :
    (∀ (first second : List Token) (tree : Program), parse first = .ok tree →
      parse (first ++ second) = (parse second).map (tree ++ ·)) ∧
    (∀ (first second : List Token) (failure : Failure ParseError), parse first = .error failure →
      (∀ expected, failure ≠ .error (.unexpectedEnd expected)) →
      parse (first ++ second) = .error failure) ∧
    ∀ (first gap second : String) (tree : Program), gap ≠ "" →
      (∀ c ∈ gap.toList, Text.isBlank c = true) → parseSource first = .ok tree →
      parseSource (first ++ gap ++ second) =
        ((parseSource second).map (tree ++ ·)).mapError
          (Failure.respan (Span.shift (first ++ gap).utf8ByteSize)) :=
  ⟨fun _ second _ h => parse_append_of_ok h second,
    fun _ second _ h hfault => parse_append_of_fault h hfault second,
    fun _ _ _ _ => parseSource_append⟩

/-- A function in front of one with a literal that is too large, as tokens and as a text. -/
theorem parse_append_tooLarge :
    let token (kind : TokenKind) (lexeme : String) : Token := ⟨kind, lexeme, ⟨0, 1⟩⟩
    let header := [token .keyword "int", token .identifier "f", token .openParen "(",
      token .closeParen ")", token .openBrace "\x7b"]
    let first := header ++ [token .closeBrace "\x7d"]
    let second := header ++ [token .keyword "return", token .integer "9223372036854775808"]
    let tree : Program :=
      { functions := [{ returnType := "int", name := "f", arguments := [], body := [] }] }
    let fault : Failure ParseError := .error (.invalidLiteral "9223372036854775808" ⟨0, 1⟩)
    parse first = .ok tree ∧ parse second = .error fault ∧
      parse (first ++ second) = .error fault ∧ parse (second ++ first) = .error fault ∧
      parseSource "int f()\x7b\x7d" = .ok tree ∧
      parseSource ("int f()\x7b\x7d" ++ "\n" ++ "x") =
        .error (.error (.unexpectedToken .typeName .identifier "x" ⟨10, 11⟩)) := by
  intro token header first second tree fault
  have hfirst : parse first = .ok tree := by cbv
  -- the integer comes to where an operand is looked for, and it is refused there
  have hrun : Pending.run EntryPoint.program.repeats EntryPoint.program.parts
      (header ++ [token .keyword "return"]) = .ok (Pending.level 1 ++ [.mark .semicolon, .stmts]) :=
    rfl
  have hadvance : Pending.advance true (Pending.level 1 ++ [.mark .semicolon, .stmts])
      ⟨.integer, "9223372036854775808", ⟨0, 1⟩⟩ = .error fault := rfl
  have hsecond : parse second = .error fault :=
    EntryPoint.parse_of_advance_error hrun hadvance []
  have hlex : lex "int f()\x7b\x7d" =
      [⟨.keyword, "int", ⟨0, 3⟩⟩, ⟨.identifier, "f", ⟨4, 5⟩⟩, ⟨.openParen, "(", ⟨5, 6⟩⟩,
        ⟨.closeParen, ")", ⟨6, 7⟩⟩, ⟨.openBrace, "\x7b", ⟨7, 8⟩⟩,
        ⟨.closeBrace, "\x7d", ⟨8, 9⟩⟩] := by decide +kernel
  have hlex' : lex "x" = [⟨.identifier, "x", ⟨0, 1⟩⟩] := by decide +kernel
  have htext : parseSource "int f()\x7b\x7d" = .ok tree := by
    rw [parseSource_eq, hlex]
    cbv
  have hother : parseSource "x" =
      .error (.error (.unexpectedToken .typeName .identifier "x" ⟨0, 1⟩)) := by
    rw [parseSource_eq, hlex']
    cbv
  refine ⟨hfirst, hsecond, ?_, ?_, htext, ?_⟩
  · rw [parse_append.1 first second tree hfirst, hsecond]
    rfl
  · exact parse_append.2.1 second first fault hsecond (by simp [fault])
  · have hgap : ∀ c ∈ "\n".toList, Text.isBlank c = true := List.all_eq_true.mp (by decide)
    rw [parse_append.2.2 _ "\n" "x" tree (by decide) hgap htext, hother]
    rfl

end CFrontEnd
