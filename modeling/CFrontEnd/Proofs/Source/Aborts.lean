import CFrontEnd.Compilation
import CFrontEnd.Proofs.Lexer.ByteScan
import CFrontEnd.Proofs.Parser.Viability
import CFrontEnd.Proofs.Text.Lines

/-!
# Where a Parse Aborts

A parse stops without a report only at a string token whose text cannot be cut, and only if it
comes to look at that token for a literal. Such tokens are made by hand: the string tokens of a
text have two quotes to cut off. So for a text nothing stops without a report, although the lexer,
the rule for string literals and the search for the place of an error all take slices of texts:
every one of these slices exists.

## Main definitions

* `lex?`, `Source.compile?` and their siblings: the same results, found by slices of the text that
  may not exist.

## Main results

* `Pending.advance_eq_abort_iff`: the tokens that make the parser stop without a report.
* `EntryPoint.parse_eq_abort_iff`: the token lists that do so.
* `aborts_confined`: only tokens made by hand do so, and all slices of a text exist.
-/

namespace CFrontEnd

open Text

/-! ### Tokens made by hand -/

/-- A literal stops the parser without a report only if it is a string that cannot be cut. -/
theorem Token.literal_eq_abort_iff {token : Token} :
    token.literal = .error .abort ↔ token.kind = .string ∧ token.stringBody? = none := by
  unfold Token.literal
  split
  · next hstring =>
    cases hbody : token.stringBody? <;> simp [hstring]
  · next hstring =>
    split <;> simp [hstring]

/-- A string that can be cut is a literal. -/
theorem Token.exists_literal {token : Token} (hstring : token.kind = .string)
    (hbody : token.stringBody?.isSome = true) : ∃ literal, token.literal = .ok literal := by
  obtain ⟨body, hbody⟩ := Option.isSome_iff_exists.mp hbody
  exact ⟨.string body, by rw [Token.literal, if_pos hstring, hbody]⟩

namespace Pending

variable {program : Bool} {stack : List Pending} {token : Token}

/-- The parser stops without a report at a string that cannot be cut, where an operand may come
next. -/
theorem advance_eq_abort_iff :
    advance program stack token = .error .abort ↔
      token.kind = .string ∧ token.stringBody? = none ∧ ∃ next, operand? stack = some next := by
  constructor
  · intro habort
    rcases atFault_of_advance habort with ⟨expected, hexpected⟩ | ⟨-, hliteral⟩
    · simp at hexpected
    · obtain ⟨hstring, hbody⟩ := Token.literal_eq_abort_iff.mp hliteral
      refine ⟨hstring, hbody, ?_⟩
      -- where no operand may come next, there would be a report
      have hadvance := advance_literal program (.inr hstring) stack
      cases hoperand : operand? stack with
      | some next => exact ⟨next, rfl⟩
      | none =>
        rw [hoperand] at hadvance
        obtain ⟨expected, hrefuse⟩ := hadvance
        simp [hrefuse, refuse] at habort
  · rintro ⟨hstring, hbody, next, hoperand⟩
    have hadvance := advance_literal program (.inr hstring) stack
    rw [hoperand, Token.literal_eq_abort_iff.mpr ⟨hstring, hbody⟩] at hadvance
    exact hadvance

/-- A string that can be cut is allowed exactly where an operand may come next. -/
theorem exists_advance_iff_of_string (hstring : token.kind = .string)
    (hbody : token.stringBody?.isSome = true) :
    (∃ next, advance program stack token = .ok next) ↔ ∃ next, operand? stack = some next := by
  obtain ⟨literal, hliteral⟩ := Token.exists_literal hstring hbody
  have hadvance := advance_literal program (.inr hstring) stack
  cases hoperand : operand? stack with
  | some next =>
    rw [hoperand, hliteral] at hadvance
    exact iff_of_true ⟨next, hadvance⟩ ⟨next, rfl⟩
  | none =>
    rw [hoperand] at hadvance
    obtain ⟨expected, hrefuse⟩ := hadvance
    simp [hrefuse, refuse]

end Pending

namespace EntryPoint

open Pending

/-- A parse stops at the first token that the stack refuses. -/
theorem parse_of_advance_error {entry : EntryPoint} {before : List Token} {token : Token}
    {next : List Pending} {failure : Failure ParseError}
    (hrun : run entry.repeats entry.parts before = .ok next)
    (hadvance : advance entry.repeats next token = .error failure) (after : List Token) :
    entry.parse (before ++ token :: after) = .error failure := by
  have hverdict : entry.verdict (before ++ token :: after) =
      .error { failure, rest := token :: after } := by
    rw [verdict, verdict_append_of_run hrun, verdict_cons_of_error hadvance]
  rcases entry.parse_cases (before ++ token :: after) with ⟨tree, -, htree⟩ | ⟨halt, hparse, hhalt⟩
  · simp [htree] at hverdict
  · obtain rfl := Except.error.inj (hhalt.symm.trans hverdict)
    exact hparse

/-- A token list stops a parse without a report exactly if one of its tokens is a string that
cannot be cut, and the tokens before it are viable with a string in its place. -/
theorem parse_eq_abort_iff (entry : EntryPoint) (tokens : List Token) :
    entry.parse tokens = .error .abort ↔
      ∃ i token, tokens[i]? = some token ∧ token.kind = .string ∧ token.stringBody? = none ∧
        ∃ literal : Token, literal.kind = .string ∧ literal.stringBody?.isSome = true ∧
          entry.Viable (tokens.take i ++ [literal]) := by
  constructor
  · intro habort
    rcases entry.parse_trichotomy tokens with ⟨tree, hparse⟩ | ⟨expected, -, -, hparse⟩ |
      ⟨before, token, after, next, failure, rfl, hrun, hadvance, hparse⟩
    · simp [hparse] at habort
    · simp [hparse] at habort
    · obtain rfl : failure = .abort := Except.error.inj (hparse.symm.trans habort)
      obtain ⟨hstring, hbody, hoperand⟩ := advance_eq_abort_iff.mp hadvance
      refine ⟨before.length, token, by simp, hstring, hbody, sample .string "\"\"", rfl, by decide,
        ?_⟩
      rw [List.take_left, viable_snoc_iff hrun]
      exact (exists_advance_iff_of_string rfl (by decide)).mpr hoperand
  · rintro ⟨i, token, htoken, hstring, hbody, literal, hliteral, hcut, hviable⟩
    obtain ⟨next, hrun⟩ := viable_iff_run.mp hviable.of_append
    have hoperand := (exists_advance_iff_of_string hliteral hcut).mp
      ((viable_snoc_iff hrun literal).mp hviable)
    have hadvance : advance entry.repeats next token = .error .abort :=
      advance_eq_abort_iff.mpr ⟨hstring, hbody, hoperand⟩
    -- the parse comes to the token, and stops there
    obtain ⟨hlt, rfl⟩ := List.getElem?_eq_some_iff.mp htoken
    have hparse := parse_of_advance_error hrun hadvance (tokens.drop (i + 1))
    rwa [← List.drop_eq_getElem_cons hlt, List.take_append_drop] at hparse

/-- Where every string token can be cut, every parse ends with a tree or a report. -/
theorem parse_ne_abort (entry : EntryPoint) {tokens : List Token} (h : Sliceable tokens) :
    entry.parse tokens ≠ .error .abort := by
  intro habort
  obtain ⟨i, token, htoken, hstring, hbody, -⟩ := (entry.parse_eq_abort_iff tokens).mp habort
  have hsome := h token (List.mem_of_getElem? htoken) hstring
  simp [hbody] at hsome

end EntryPoint

/-! ### Tokens of a text -/

/-- The result of a computation, unless it stopped without a report. -/
def unlessAborted {ε α : Type} : Except (Failure ε) α → Option (Except (Failure ε) α)
  | .error .abort => none
  | result => some result

theorem unlessAborted_eq {ε α : Type} {result : Except (Failure ε) α} (h : result ≠ .error .abort) :
    unlessAborted result = some result := by
  unfold unlessAborted
  split
  · exact absurd rfl h
  · rfl

/-- The tokens of a text, found by slices of the text. -/
def lex? (text : String) : Option (List Token) :=
  (scanBytes? text.toList 0).map (·.filterMap Piece.token?)

/-- The program that a text forms, found by slices of the text and of its string tokens. -/
def parseSource? (text : String) : Option (Except (Failure ParseError) Program) :=
  (lex? text).bind fun tokens => unlessAborted (parse tokens)

namespace Source

/-- The diagnostic for a message about a span, found by slices of the text. -/
def diagnostic? (source : Source) (message : String) (span : Option Span) : Option Diagnostic :=
  (Position.ofOffset? source.content.toList ((span.map Span.start).getD source.endOffset)).map
    fun position => { message, file := source.name, position }

/-- The text of a generator for the program in a source, found by slices of the text. -/
def compile? (source : Source) (generator : Generator) : Option (Compiled String) := do
  match ← parseSource? source.content with
  | .ok program => some (.ok (generator program))
  | .error .abort => none
  | .error (.error error) =>
    let diagnostic ← source.diagnostic? error.message error.span?
    some (.error (.error (.parse diagnostic)))

/-- The tokens of a source, one line each, found by slices of the text. -/
def listing? (source : Source) : Option String :=
  (lex? source.content).map fun tokens =>
    String.join (tokens.map fun token => token.describe ++ "\n")

end Source

theorem lex?_eq (text : String) : lex? text = some (lex text) := by
  rw [lex?, scanBytes?_eq, Option.map_some, lex_eq_scan]

theorem sliceable_lex (text : String) : Sliceable (lex text) :=
  fun _ hmem hstring => stringBody?_isSome_of_mem_lex hmem hstring

theorem parseSource_ne_abort (text : String) : parseSource text ≠ .error .abort :=
  EntryPoint.program.parse_ne_abort (sliceable_lex text)

theorem parseSource?_eq (text : String) : parseSource? text = some (parseSource text) := by
  rw [parseSource?, lex?_eq, Option.bind_some]
  exact unlessAborted_eq (parseSource_ne_abort text)

namespace Source

theorem diagnostic?_eq (source : Source) (message : String) (span : Option Span) :
    source.diagnostic? message span = some (source.diagnostic message span) := by
  rw [diagnostic?, Position.ofOffset?_eq, Option.map_some]
  rfl

theorem compile?_eq (source : Source) (generator : Generator) :
    source.compile? generator = some (source.compile generator) := by
  have habort := parseSource_ne_abort source.content
  rw [compile?, parseSource?_eq, compile_eq]
  cases hparse : parseSource source.content with
  | ok program => rfl
  | error failure =>
    cases failure with
    | abort => exact absurd hparse habort
    | error error =>
      simp [diagnostic?_eq, explain, diagnose]

theorem listing?_eq (source : Source) : source.listing? = some source.listing := by
  rw [listing?, lex?_eq, Option.map_some, listing_eq]

end Source

/-- Only a string token made by hand stops a parse without a report: one whose text has no slice
between its first and its last byte, at a place where any other string would be viable. For a text,
the lexer, the parser, the listing, the compilation and the diagnostics have results, since every
slice they take exists. -/
theorem aborts_confined :
    (∀ (entry : EntryPoint) (tokens : List Token), entry.parse tokens = .error .abort ↔
      ∃ i token, tokens[i]? = some token ∧ token.kind = .string ∧
        slice? 1 (byteLength token.lexeme.toList - 1) token.lexeme.toList = none ∧
        ∃ literal : Token, literal.kind = .string ∧
          (slice? 1 (byteLength literal.lexeme.toList - 1) literal.lexeme.toList).isSome ∧
          entry.Viable (tokens.take i ++ [literal])) ∧
      (∀ text, lex? text = some (lex text) ∧ parseSource? text = some (parseSource text)) ∧
      ∀ source : Source, source.listing? = some source.listing ∧
        (∀ generator, source.compile? generator = some (source.compile generator)) ∧
        ∀ message span,
          source.diagnostic? message span = some (source.diagnostic message span) := by
  refine ⟨fun entry tokens => ?_, fun text => ⟨lex?_eq text, parseSource?_eq text⟩, fun source =>
    ⟨source.listing?_eq, source.compile?_eq, source.diagnostic?_eq⟩⟩
  rw [entry.parse_eq_abort_iff tokens]
  simp only [Token.stringBody?_eq_slice?, Option.map_eq_none_iff, Option.isSome_map]

end CFrontEnd
