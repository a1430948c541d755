import CFrontEnd.Proofs.Parser.Spelling
import CFrontEnd.Proofs.Printing.Dump
import CFrontEnd.Proofs.Source.Diagnostics
import CFrontEnd.Proofs.Source.Respacing

/-!
# What a Listing Tells

A listing has one line for each token, with its kind and its text: no text of a token has a line
feed in it, and no name of a kind has a blank. So a listing gives the spelling of all tokens, and
with it all that a compilation depends on but the places.

## Main results

* `Source.linesOf_listing`: the lines of a listing.
* `Source.listing_eq_iff`: listings are the same exactly if the tokens are spelled alike.
* `listing_determines`: sources with one listing compile to one text or fail with one message.
-/

namespace CFrontEnd

open Text

/-! ### Lines of tokens -/

theorem TokenKind.blank_not_mem_name (kind : TokenKind) : ' ' ∉ kind.name.toList := by
  cases kind <;> decide

theorem TokenKind.newline_not_mem_name (kind : TokenKind) : '\n' ∉ kind.name.toList := by
  cases kind <;> decide

theorem TokenKind.name_injective : Function.Injective TokenKind.name := by
  intro first second h
  have hfound : ∀ kind : TokenKind, ofName? kind.name = some kind := by
    intro kind
    cases kind <;> decide
  exact Option.some.inj ((hfound first).symm.trans (h ▸ hfound second))

/-- The line of a listing for a kind and a text. -/
def TokenKind.line (spelling : TokenKind × String) : String :=
  spelling.1.name ++ " " ++ spelling.2

theorem Token.map_describe (tokens : List Token) :
    tokens.map Token.describe = (tokens.map Token.spelling).map TokenKind.line := by
  rw [List.map_map]
  rfl

/-- The first blank of a line ends the kind, and the text follows. -/
theorem TokenKind.line_injective : Function.Injective TokenKind.line := by
  have hkind : ∀ spelling : TokenKind × String,
      (line spelling).toList.takeWhile (· != ' ') = spelling.1.name.toList := by
    intro spelling
    have hfree : ∀ c ∈ spelling.1.name.toList, (c != ' ') = true := fun c hc =>
      bne_iff_ne.mpr (ne_of_mem_of_not_mem hc spelling.1.blank_not_mem_name)
    have hline : (line spelling).toList =
        spelling.1.name.toList ++ ' ' :: spelling.2.toList := by
      simp [line]
    rw [hline, List.takeWhile_append_of_pos hfree, List.takeWhile_cons_of_neg (by decide),
      List.append_nil]
  rintro ⟨kind, lexeme⟩ ⟨kind', lexeme'⟩ h
  obtain rfl : kind = kind' := by
    refine TokenKind.name_injective (String.toList_inj.mp ?_)
    rw [← hkind (kind, lexeme), h, hkind]
  exact congrArg _ ((String.append_right_inj _).mp h)

namespace Source

/-- The lines of a listing are those of the tokens. -/
theorem linesOf_listing (source : Source) :
    linesOf source.listing = (lex source.content).map Token.describe := by
  refine linesOf_fullLines ?_ (List.forall_mem_map.mpr fun token hmem => ?_)
  · simp [listing_eq, fullLines, String.toList_join, List.flatMap_map]
  · have hlexeme : '\n' ∉ token.lexeme.toList := fun hbreak =>
      absurd (isBlank_eq_false_of_mem_lex hmem hbreak) (by decide)
    simp [Token.describe, token.kind.newline_not_mem_name, hlexeme]

/-- Listings are the same exactly if the tokens are spelled alike. -/
theorem listing_eq_iff {first second : Source} :
    first.listing = second.listing ↔
      (lex first.content).map Token.spelling = (lex second.content).map Token.spelling := by
  have hlisting : ∀ source : Source, source.listing =
      String.join (((lex source.content).map Token.describe).map (· ++ "\n")) := by
    intro source
    rw [listing_eq, List.map_map]
    rfl
  constructor
  · intro h
    have hlines := congrArg linesOf h
    rw [linesOf_listing, linesOf_listing, Token.map_describe, Token.map_describe] at hlines
    exact List.map_injective_iff.mpr TokenKind.line_injective hlines
  · intro h
    rw [hlisting, hlisting, Token.map_describe, Token.map_describe, h]

/-- Sources whose tokens are spelled alike compile to one text, or fail with one message. -/
theorem compile_of_spelling {first second : Source}
    (h : (lex first.content).map Token.spelling = (lex second.content).map Token.spelling)
    (generator : Generator) :
    (∃ text, first.compile generator = .ok text ∧ second.compile generator = .ok text) ∨
      ∃ one other : Diagnostic, first.compile generator = .error (.error (.parse one)) ∧
        second.compile generator = .error (.error (.parse other)) ∧
        one.message = other.message := by
  rcases parseSource_of_spelling h with ⟨program, hfirst, hsecond⟩ |
    ⟨error, found, hfirst, hsecond, halike⟩
  · exact .inl ⟨generator program, compile_eq_ok_iff.mpr ⟨program, hfirst, rfl⟩,
      compile_eq_ok_iff.mpr ⟨program, hsecond, rfl⟩⟩
  · exact .inr ⟨first.diagnose error, second.diagnose found,
      compile_eq_error_iff.mpr ⟨error, hfirst, rfl⟩,
      compile_eq_error_iff.mpr ⟨found, hsecond, rfl⟩, halike.message_eq⟩

end Source

/-- Spans decide nothing: tokens that agree in kind and text are parsed alike. The listing of a
source gives these, so sources with the same listing compile to the same text, or fail with the same
message. -/
theorem listing_determines :
    (∀ (entry : EntryPoint) (first second : List Token),
      first.map Token.spelling = second.map Token.spelling → entry.ParsesAlike first second) ∧
    ∀ first second : Source,
      (first.listing = second.listing ↔
        (lex first.content).map Token.spelling = (lex second.content).map Token.spelling) ∧
      (first.listing = second.listing → ∀ generator : Generator,
        (∃ text, first.compile generator = .ok text ∧ second.compile generator = .ok text) ∨
          ∃ one other : Diagnostic, first.compile generator = .error (.error (.parse one)) ∧
            second.compile generator = .error (.error (.parse other)) ∧
            one.message = other.message) :=
  ⟨fun _ _ _ h => EntryPoint.parsesAlike_of_spelling h, fun _ _ =>
    ⟨Source.listing_eq_iff, fun h => Source.compile_of_spelling (Source.listing_eq_iff.mp h)⟩⟩

/-- Two sources that differ in their blanks only, and are no programs. -/
theorem listing_determines_blanks :
    let first := Source.named "a.c" "(1"
    let second := Source.named "b.c" "(\n1"
    first.listing = second.listing ∧
      EntryPoint.expr.ParsesAlike (lex first.content) (lex second.content) ∧
      ∃ one other : Diagnostic,
        first.compile Program.dump = .error (.error (.parse one)) ∧
        second.compile Program.dump = .error (.error (.parse other)) ∧
        one.message = other.message := by
  intro first second
  have hfirst : first.listing = "OpenParen (\nInteger 1\n" := by decide +kernel
  have hsecond : second.listing = "OpenParen (\nInteger 1\n" := by decide +kernel
  have hlisting := hfirst.trans hsecond.symm
  have hlex : lex first.content = [⟨.openParen, "(", ⟨0, 1⟩⟩, ⟨.integer, "1", ⟨1, 2⟩⟩] := by
    decide +kernel
  have hparse : parse [⟨.openParen, "(", ⟨0, 1⟩⟩, ⟨.integer, "1", ⟨1, 2⟩⟩] =
      .error (.error (.unexpectedToken .typeName .openParen "(" ⟨0, 1⟩)) := by
    cbv
  obtain ⟨halike, hsources⟩ := listing_determines
  obtain ⟨hiff, hcompile⟩ := hsources first second
  refine ⟨hlisting, halike .expr _ _ (hiff.mp hlisting), ?_⟩
  rcases hcompile hlisting Program.dump with ⟨text, hok, -⟩ | hdiagnostics
  · simp [Source.compile_eq, parseSource_eq, hlex, hparse] at hok
  · exact hdiagnostics

end CFrontEnd
