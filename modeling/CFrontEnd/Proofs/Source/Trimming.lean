import CFrontEnd.Proofs.Parser.Spans
import CFrontEnd.Proofs.Source.Diagnostics
import Mathlib.Data.List.TakeWhile

/-!
# Blank Text Around a Source

A source drops the blank text around it. This changes no token, and moves all of them by the bytes
that are dropped in front. So the text of a file and the source made of it have the same program, or
the same error at places that differ by these bytes; and the line and the column of a diagnostic,
counted in the source, differ from those in the file by the lines and the characters that are
dropped.

## Main definitions

* `Position.behind`: a place in a text, seen from the start of what is in front of the text.
* `Source.Moved`: an error of a text, and the error of the source made of it.
* `Trims`: what trimming changes.

## Main results

* `lex_surrounded`: blank text around a text only moves its tokens.
* `Position.advance_behind`: how far a place moves behind other text.
* `trimming_moves`: what trimming changes of a compilation.
-/

namespace CFrontEnd

open Text

/-! ### Trimmed texts -/

namespace Text

variable {before after text : List Char}

/-- The blank text that is removed at the end. -/
def trailingBlank (text : List Char) : List Char :=
  ((trimStart text).reverse.takeWhile isBlank).reverse

/-- A text is what trimming leaves of it, between the blank text that it removes. -/
theorem leading_trim_trailing (text : List Char) :
    leadingBlank text ++ trim text ++ trailingBlank text = text := by
  have hend : trimEnd (trimStart text) ++ trailingBlank text = trimStart text := by
    rw [trimEnd, trailingBlank, ← List.reverse_append, List.takeWhile_append_dropWhile,
      List.reverse_reverse]
  rw [trim, List.append_assoc, hend, trimStart_append_leading]

theorem isBlank_of_mem_leadingBlank {c : Char} (h : c ∈ leadingBlank text) : isBlank c = true :=
  List.all_eq_true.mp List.all_takeWhile c h

theorem isBlank_of_mem_trailingBlank {c : Char} (h : c ∈ trailingBlank text) :
    isBlank c = true :=
  List.all_eq_true.mp List.all_takeWhile c (List.mem_reverse.mp h)

/-- Trimming removes any blank text around a text. -/
theorem trim_surrounded (hbefore : ∀ c ∈ before, isBlank c = true)
    (hafter : ∀ c ∈ after, isBlank c = true) (text : List Char) :
    trim (before ++ text ++ after) = trim text := by
  have hreverse : ∀ c ∈ after.reverse, isBlank c = true := fun c hc =>
    hafter c (List.mem_reverse.mp hc)
  rw [trim, trim, trimStart, List.append_assoc, List.dropWhile_append_of_pos hbefore,
    List.dropWhile_append]
  -- a text of blanks only is dropped together with what follows it
  split
  · next hnil =>
    have hblank : after.dropWhile isBlank = [] := List.dropWhile_eq_nil_iff.mpr hafter
    rw [hblank, trimStart, List.isEmpty_iff.mp hnil]
  · rw [trimEnd, List.reverse_append, List.dropWhile_append_of_pos hreverse]
    rfl

end Text

/-! ### Tokens between blanks -/

/-- No bytes in front of a token leave it where it is. -/
theorem Token.respan_shift_zero : Token.respan (Span.shift 0) = id := rfl

/-- Blank text around a text only moves its tokens. -/
theorem lex_surrounded {before after : String} (hbefore : ∀ c ∈ before.toList, isBlank c = true)
    (hafter : ∀ c ∈ after.toList, isBlank c = true) (text : String) :
    lex (before ++ text ++ after) =
      (lex text).map (Token.respan (Span.shift before.utf8ByteSize)) := by
  have hnil : lex "" = [] := by decide +kernel
  have hstart : lex (before ++ text) =
      (lex text).map (Token.respan (Span.shift before.utf8ByteSize)) := by
    by_cases hempty : before = ""
    · simp [hempty, Token.respan_shift_zero]
    · have hjoined := lex_append "" text hempty hbefore
      rwa [String.empty_append, hnil, List.nil_append] at hjoined
  by_cases hempty : after = ""
  · rw [hempty, String.append_empty, hstart]
  · have hjoined := lex_append (before ++ text) "" hempty hafter
    rwa [String.append_empty, hnil, List.map_nil, List.append_nil, hstart] at hjoined

/-! ### Places behind other text -/

/-- A place in a text, seen from the start of what is in front of the text: as many lines further
down as there are line feeds in front, and on the first line as many columns further on as there are
characters behind the last of them. -/
def Position.behind (before : List Char) (position : Position) : Position :=
  { line := position.line + before.count '\n'
    column :=
      if position.line = 1 then
        position.column + (before.reverse.takeWhile (· ≠ '\n')).length
      else position.column }

/-- The place after a text moves by the lines and the columns in front of the text. -/
theorem Position.advance_behind (before text : List Char) :
    start.advance (before ++ text) = (start.advance text).behind before := by
  -- on the end of the text; a line feed there makes the columns in front count no more
  induction text using List.reverseRecOn with
  | nil =>
    rw [List.append_nil, advance_eq_after, after, behind]
    simp [advance, start, Nat.add_comm]
  | append_singleton text c ih =>
    have hone : 1 ≤ (start.advance text).line := by
      obtain ⟨lines, line, -, hadvance⟩ := exists_splitOn_eq text
      rw [hadvance]
      exact Nat.le_add_left ..
    rw [← List.append_assoc, advance_append, ih, advance_append]
    generalize start.advance text = position at hone
    by_cases hbreak : c = '\n'
    · simp [advance, next, hbreak, behind]
      omega
    · simp only [advance, List.foldl_cons, List.foldl_nil, next, hbreak, if_false, behind]
      split <;> simp [Nat.add_right_comm]

example : (Position.mk 1 3).behind ['\n', ' ', ' '] = ⟨2, 5⟩ := by decide

example : (Position.mk 2 3).behind ['\n', ' ', ' '] = ⟨3, 3⟩ := by decide

/-- A place where characters of a text start moves by the lines and the columns in front of the
text. -/
theorem Position.ofOffset_surrounded (front before after back : List Char) :
    ofOffset (front ++ (before ++ after) ++ back) (byteLength before + byteLength front) =
      (ofOffset (before ++ after) (byteLength before)).behind front := by
  have hlonger : front ++ (before ++ after) ++ back = (front ++ before) ++ (after ++ back) := by
    simp
  have hoffset : byteLength before + byteLength front = byteLength (front ++ before) := by
    rw [byteLength_append, Nat.add_comm]
  rw [ofOffset, ofOffset, hlonger, hoffset, uptoOffset_append, uptoOffset_append, advance_behind]

/-! ### Errors of a trimmed text -/

namespace Source

/-- A text is the content of the source made of it, between the blank text that is dropped. -/
theorem append_named (name raw : String) :
    String.ofList (leadingBlank raw.toList) ++ (named name raw).content ++
      String.ofList (trailingBlank raw.toList) = raw := by
  rw [named, ← String.ofList_append, ← String.ofList_append, leading_trim_trailing,
    String.ofList_toList]

/-- Blank text around a text leaves the source made of it as it is. -/
theorem named_surrounded (name : String) {before after : String}
    (hbefore : ∀ c ∈ before.toList, isBlank c = true)
    (hafter : ∀ c ∈ after.toList, isBlank c = true) (raw : String) :
    named name (before ++ raw ++ after) = named name raw := by
  rw [named, named, String.toList_append, String.toList_append, trim_surrounded hbefore hafter]

/-- The tokens of a text are those of the source made of it, moved by the bytes that are dropped in
front. -/
theorem lex_raw (name raw : String) :
    lex raw = (lex (named name raw).content).map
      (Token.respan (Span.shift (byteLength (leadingBlank raw.toList)))) := by
  have hbefore : ∀ c ∈ (String.ofList (leadingBlank raw.toList)).toList, isBlank c = true := by
    simpa using fun c => isBlank_of_mem_leadingBlank
  have hafter : ∀ c ∈ (String.ofList (trailingBlank raw.toList)).toList, isBlank c = true := by
    simpa using fun c => isBlank_of_mem_trailingBlank
  have hlex := lex_surrounded hbefore hafter (named name raw).content
  rwa [append_named, ← byteLength_toList, String.toList_ofList] at hlex

/-- The parse of a text is that of the source made of it, but for the span of an error. -/
theorem parseSource_raw (name raw : String) :
    parseSource raw = (parseSource (named name raw).content).mapError
      (Failure.respan (Span.shift (byteLength (leadingBlank raw.toList)))) := by
  rw [parseSource_eq, parseSource_eq, lex_raw name raw]
  exact EntryPoint.program.parse_respan _ _

/-- A text forms the program that the source made of it forms. -/
theorem parseSource_raw_eq_ok_iff (name raw : String) {program : Program} :
    parseSource raw = .ok program ↔ parseSource (named name raw).content = .ok program := by
  rw [parseSource_raw name raw]
  cases parseSource (named name raw).content <;> simp [Except.mapError]

/-- A text has the error of the source made of it, but for its span. -/
theorem parseSource_raw_eq_error_iff (name raw : String) {failure : Failure ParseError} :
    parseSource raw = .error failure ↔
      ∃ trimmed, parseSource (named name raw).content = .error (.error trimmed) ∧ failure =
        .error (trimmed.respan (Span.shift (byteLength (leadingBlank raw.toList)))) := by
  rw [parseSource_raw name raw]
  cases hparse : parseSource (named name raw).content with
  | ok program => simp [Except.mapError]
  | error halt =>
    cases halt with
    | abort => exact absurd hparse (parseSource_ne_abort _)
    | error trimmed => simp [Except.mapError, Failure.respan, eq_comm]

/-- An error of a text, and the error of the source made of it. -/
structure Moved (name raw : String) (trimmed found : ParseError) : Prop where
  /-- The diagnostic has the message of the error that is found in the text. -/
  message_eq : ((named name raw).diagnose trimmed).message = found.message
  /-- The bytes at fault are as many bytes further on as are dropped in front. -/
  span?_eq : found.span? =
    trimmed.span?.map (Span.shift (byteLength (leadingBlank raw.toList)))
  /-- The place where they start is that of the diagnostic, seen from the start of what is dropped,
  and a token of the text stands there. -/
  located : ∀ span, found.span? = some span →
    let diagnostic := (named name raw).diagnose trimmed
    let position := diagnostic.position.behind (leadingBlank raw.toList)
    Position.ofOffset raw.toList span.start = position ∧
      ∃ token ∈ lex raw, token.span = span ∧
        Diagnostic.AtToken { diagnostic with position } raw.toList token

/-- An error with a place is about a token of the text. -/
theorem exists_token_of_span? {text : String} {error : ParseError} {span : Span}
    (h : parseSource text = .error (.error error)) (hspan : error.span? = some span) :
    ∃ token ∈ lex text, token.span = span ∧ error.Reports token := by
  have hentry : EntryPoint.program.parse (lex text) = .error (.error error) := h
  rcases EntryPoint.exists_atFault hentry with ⟨expected, hend, -⟩ | ⟨i, token, -, hi, hfault⟩
  · obtain rfl : error = .unexpectedEnd expected := by simpa using hend
    simp [ParseError.span?] at hspan
  · have hmem : token ∈ lex text := List.mem_of_getElem? hi
    obtain ⟨other, hother, hreports⟩ :=
      reports_of_atFault hfault (stringBody?_isSome_of_mem_lex hmem)
    obtain rfl : error = other := by simpa using hother
    refine ⟨token, hmem, ?_, hreports⟩
    rcases hreports with ⟨expected, rfl⟩ | rfl <;> exact Option.some.inj hspan

/-- A token of the source moves by the lines and the columns that are dropped in front. -/
theorem position_raw {name raw : String} {token : Token}
    (hmem : token ∈ lex (named name raw).content) :
    Position.ofOffset raw.toList (token.span.start + byteLength (leadingBlank raw.toList)) =
      ((named name raw).position token.span.start).behind (leadingBlank raw.toList) := by
  have hmarked : token.span.Marks (named name raw).content.toList token.lexeme.toList :=
    ((Piece.cuts_scan (named name raw).content.toList).marked (mem_lex_iff.mp hmem)).2
  obtain ⟨before, after, htext, hstart, -⟩ := hmarked
  have hcontent : (named name raw).content.toList = trim raw.toList := String.toList_ofList
  have hmoved := Position.ofOffset_surrounded (leadingBlank raw.toList) before
    (token.lexeme.toList ++ after) (trailingBlank raw.toList)
  rw [← List.append_assoc before, ← htext, hstart] at hmoved
  rw [position, ← hmoved, hcontent, leading_trim_trailing]

/-- An error of the source moves by what is dropped in front of the source. -/
theorem moved_respan {name raw : String} {error : ParseError}
    (h : parseSource (named name raw).content = .error (.error error)) :
    Moved name raw error
      (error.respan (Span.shift (byteLength (leadingBlank raw.toList)))) := by
  refine ⟨(error.message_respan _).symm, error.span?_respan _, fun span hspan => ?_⟩
  rw [error.span?_respan, Option.map_eq_some_iff] at hspan
  obtain ⟨_, htrimmed, rfl⟩ := hspan
  obtain ⟨token, hmem, rfl, hreports⟩ := exists_token_of_span? h htrimmed
  have hposition := position_raw hmem
  -- the error is about the moved token, which is one of the whole text
  generalize hchange : Span.shift (byteLength (leadingBlank raw.toList)) = change
  have hraw : token.respan change ∈ lex raw := by
    rw [lex_raw name raw, hchange]
    exact List.mem_map_of_mem hmem
  have hreports : (error.respan change).Reports (token.respan change) := by
    rcases hreports with ⟨expected, rfl⟩ | rfl
    · exact .inl ⟨expected, rfl⟩
    · exact .inr rfl
  have hat : (({ name, content := raw } : Source).diagnose (error.respan change)).AtToken
      raw.toList (token.respan change) := atToken_diagnose hraw hreports
  have hdiagnose : ({ name, content := raw } : Source).diagnose (error.respan change) =
      { (named name raw).diagnose error with
        position := ((named name raw).diagnose error).position.behind
          (leadingBlank raw.toList) } := by
    simp only [diagnose, diagnostic, error.message_respan, error.span?_respan, htrimmed,
      Option.map_some, Option.getD_some, ← hposition, ← hchange]
    rfl
  have hplace : ((named name raw).diagnose error).position =
      (named name raw).position token.span.start := by
    rw [diagnose, diagnostic, htrimmed]
    rfl
  refine ⟨?_, _, hraw, rfl, hdiagnose ▸ hat⟩
  rw [hplace, ← hposition, ← hchange]
  rfl

end Source

/-- What a compilation makes of a text, and what the parse makes of it, blanks included. -/
structure Trims (name raw : String) : Prop where
  /-- A compilation succeeds with what the generator makes of the program of the whole text. -/
  compile_eq_ok_iff : ∀ generator text, (Source.named name raw).compile generator = .ok text ↔
    ∃ program, parseSource raw = .ok program ∧ generator program = text
  /-- A compilation fails exactly if the parse of the whole text does. -/
  compile_fails_iff : ∀ generator,
    (∃ failure, (Source.named name raw).compile generator = .error failure) ↔
      ∃ failure, parseSource raw = .error failure
  /-- Both report the same error, at places that differ by what is dropped in front. -/
  moved : ∀ failure, parseSource raw = .error failure → ∃ found trimmed,
    failure = .error found ∧
      parseSource (Source.named name raw).content = .error (.error trimmed) ∧
      Source.Moved name raw trimmed found ∧
      ∀ generator, (Source.named name raw).compile generator =
        .error (.error (.parse ((Source.named name raw).diagnose trimmed)))
  /-- Blank text that is added around the text, or removed there, changes nothing. -/
  surrounded : ∀ before after : String, (∀ c ∈ before.toList, isBlank c = true) →
    (∀ c ∈ after.toList, isBlank c = true) → ∀ generator,
      (Source.named name (before ++ raw ++ after)).compile generator =
        (Source.named name raw).compile generator

/-- Trimming changes the places in a text and nothing else. -/
theorem trimming_moves (name raw : String) : Trims name raw := by
  refine ⟨fun generator text => ?_, fun generator => ?_, fun failure hfailure => ?_,
    fun before after hbefore hafter generator => by
      rw [Source.named_surrounded name hbefore hafter]⟩
  · simp only [Source.compile_eq_ok_iff, Source.parseSource_raw_eq_ok_iff name raw]
  · simp [Source.compile_eq_error_iff, Source.parseSource_raw_eq_error_iff name raw]
  · obtain ⟨trimmed, htrimmed, rfl⟩ := (Source.parseSource_raw_eq_error_iff name raw).mp hfailure
    exact ⟨_, trimmed, rfl, htrimmed, Source.moved_respan htrimmed,
      fun generator => Source.compile_eq_error_iff.mpr ⟨trimmed, htrimmed, rfl⟩⟩

end CFrontEnd
