import CFrontEnd.Proofs.Lexer.Coverage
import CFrontEnd.Proofs.Lexer.Isolation

/-!
# Texts Joined by Blanks

No match looks past a blank, so a text is cut in the same way whether it ends or goes on with a
blank, however incomplete its end is. Behind the blanks the cut starts afresh: what stands there is
cut as a text of its own, and only its places are further on.

## Main definitions

* `Token.respan`: the token at other bytes.
* `Piece.shift`: the piece further on in a text.
* `skipEvents`: the reports on the skipped characters of a text.

## Main results

* `Piece.Cuts.scanWith_append`: a text in front of a blank is cut as a text of its own.
* `Piece.Cuts.scanWith_add`: the offset of a text only moves its pieces.
* `lex_append`: the tokens of two texts with blanks between them.
* `lex_append_blank`: the same, together with the reports.
-/

namespace CFrontEnd

open Text

/-- The span as many bytes further on. -/
def Span.shift (bytes : Nat) (span : Span) : Span :=
  { start := span.start + bytes, stop := span.stop + bytes }

/-- The token with its span changed. -/
def Token.respan (change : Span → Span) (token : Token) : Token :=
  { token with span := change token.span }

/-- The report on a skipped character as many bytes further on. -/
def Event.shift (bytes : Nat) : Event → Event
  | .skippedCharacter offset character => .skippedCharacter (offset + bytes) character
  | event => event

/-- The value of a token does not depend on its place. -/
theorem Token.value_respan (change : Span → Span) (token : Token) :
    (token.respan change).value = token.value := rfl

namespace Piece

/-- The piece as many bytes further on. -/
def shift (bytes : Nat) : Piece → Piece
  | .token found => .token (found.respan (Span.shift bytes))
  | .skipped offset character => .skipped (offset + bytes) character

theorem token?_shift (bytes : Nat) (piece : Piece) :
    (piece.shift bytes).token? = piece.token?.map (Token.respan (Span.shift bytes)) := by
  cases piece <;> rfl

theorem event?_shift (bytes : Nat) (piece : Piece) :
    (piece.shift bytes).event? = piece.event?.map (Event.shift bytes) := by
  cases piece with
  | token found => rfl
  | skipped offset character =>
    cases hblank : isBlank character <;> simp [shift, event?, hblank, Event.shift]

variable {offset : Nat} {text : List Char} {pieces : List Piece}

/-- A text in front of a blank is cut as a text of its own, and the cut goes on with the blank. -/
theorem Cuts.scanWith_append (h : Cuts offset text pieces) {rest : List Char}
    (hrest : Isolated rest) :
    scanWith classifiers offset (text ++ rest) =
      pieces ++ scanWith classifiers (offset + byteLength text) rest := by
  -- along the cut of the first text; what matches there does not see the blank
  induction h with
  | done => simp
  | @token offset kind lexeme more pieces hne hmatch hcuts ih =>
    have hlonger : classify (lexeme ++ (more ++ rest)) = some (kind, lexeme.length) := by
      rw [← List.append_assoc, classify_append hrest, hmatch]
    rw [List.append_assoc, Piece.scanWith_of_match hlonger, List.take_left, List.drop_left, ih,
      byteLength_append, ← Nat.add_assoc]
    rfl
  | @skipped offset first more pieces hmatch hcuts ih =>
    have hlonger : classify (first :: (more ++ rest)) = none := by
      rw [← List.cons_append, classify_append hrest, hmatch]
    rw [List.cons_append, Piece.scanWith_of_none hlonger, ih, byteLength_cons, ← Nat.add_assoc]
    rfl

/-- The offset of a text only moves its pieces. -/
theorem Cuts.scanWith_add (h : Cuts offset text pieces) (bytes : Nat) :
    scanWith classifiers (offset + bytes) text = pieces.map (shift bytes) := by
  induction h with
  | done =>
    rw [scanWith]
    rfl
  | @token offset kind lexeme rest pieces hne hmatch hcuts ih =>
    rw [Piece.scanWith_of_match hmatch, List.take_left, List.drop_left, Nat.add_right_comm, ih]
    simp [shift, Token.respan, Span.shift, Nat.add_right_comm]
  | @skipped offset first rest pieces hmatch hcuts ih =>
    rw [Piece.scanWith_of_none hmatch, Nat.add_right_comm, ih]
    rfl

/-! ### What is read off the pieces -/

section Reading

variable {α : Type} {read : Piece → Option α} {gap : List Char}

/-- Where nothing is read off blanks, blanks only move what comes behind them. -/
theorem filterMap_scanWith_blanks
    (hsilent : ∀ offset c, isBlank c = true → read (.skipped offset c) = none)
    (hgap : ∀ c ∈ gap, isBlank c = true) (offset : Nat) (text : List Char) :
    (scanWith classifiers offset (gap ++ text)).filterMap read =
      (scanWith classifiers (offset + byteLength gap) text).filterMap read := by
  induction gap generalizing offset with
  | nil => simp
  | cons first gap ih =>
    have hfirst := hgap first List.mem_cons_self
    rw [List.cons_append, Piece.scanWith_of_none (classify_blank hfirst),
      List.filterMap_cons_none (hsilent offset first hfirst),
      ih fun c hmem => hgap c (List.mem_cons_of_mem _ hmem), byteLength_cons, Nat.add_assoc]

/-- What is read off two texts with blanks between them is read off each of them, and what is read
off the second one is moved. -/
theorem filterMap_scan_append {move : α → α} {first second : List Char}
    (hsilent : ∀ offset c, isBlank c = true → read (.skipped offset c) = none)
    (hmove : ∀ piece, read (piece.shift (byteLength (first ++ gap))) = (read piece).map move)
    (hne : gap ≠ []) (hgap : ∀ c ∈ gap, isBlank c = true) :
    (scan (first ++ gap ++ second)).filterMap read =
      (scan first).filterMap read ++ ((scan second).filterMap read).map move := by
  have hisolated : Isolated (gap ++ second) := by
    obtain ⟨blank, more, rfl⟩ := List.exists_cons_of_ne_nil hne
    intro c hc
    exact Option.some.inj hc ▸ hgap blank List.mem_cons_self
  have hfirst := (cuts_scan first).scanWith_append hisolated
  have hsecond := (cuts_scan second).scanWith_add (byteLength (first ++ gap))
  calc (scan (first ++ gap ++ second)).filterMap read
      = (scan first).filterMap read ++
          (scanWith classifiers (0 + byteLength first) (gap ++ second)).filterMap read := by
        rw [List.append_assoc, scan, hfirst, List.filterMap_append]
    _ = (scan first).filterMap read ++
          (scanWith classifiers (0 + byteLength (first ++ gap)) second).filterMap read := by
        rw [filterMap_scanWith_blanks hsilent hgap, byteLength_append, Nat.add_assoc]
    _ = (scan first).filterMap read ++ ((scan second).filterMap read).map move := by
        rw [hsecond, List.filterMap_map, List.map_filterMap]
        simp only [Function.comp_def, hmove]

end Reading

end Piece

/-- The reports on the skipped characters of a text. -/
def skipEvents (text : String) : List Event :=
  (Piece.scan text.toList).filterMap Piece.event?

/-- The reports on a text are those on its skipped characters and the summary. -/
theorem lexEvents_eq (text : String) :
    lexEvents text = skipEvents text ++ [.lexedSource (lex text).length text.utf8ByteSize] := by
  rw [lexEvents_eq_scan, byteLength_toList, skipEvents]

/-- Where nothing is read off blanks, what is read off two texts with blanks between them is read
off the first one and, moved, off the second one. -/
theorem filterMap_scan_string {α : Type} {read : Piece → Option α} (move : Nat → α → α)
    (first second : String) {gap : String}
    (hsilent : ∀ offset c, isBlank c = true → read (.skipped offset c) = none)
    (hmove : ∀ bytes piece, read (piece.shift bytes) = (read piece).map (move bytes))
    (hne : gap ≠ "") (hgap : ∀ c ∈ gap.toList, isBlank c = true) :
    (Piece.scan (first ++ gap ++ second).toList).filterMap read =
      (Piece.scan first.toList).filterMap read ++
        ((Piece.scan second.toList).filterMap read).map
          (move (first ++ gap).utf8ByteSize) := by
  have hne : gap.toList ≠ [] := by simpa using hne
  rw [String.toList_append, ← byteLength_toList, String.toList_append]
  exact Piece.filterMap_scan_append hsilent (hmove _) hne hgap

/-- Two texts with blanks between them have the tokens of the first one and then those of the
second one. -/
theorem lex_append (first second : String) {gap : String} (hne : gap ≠ "")
    (hgap : ∀ c ∈ gap.toList, isBlank c = true) :
    lex (first ++ gap ++ second) =
      lex first ++ (lex second).map (Token.respan (Span.shift (first ++ gap).utf8ByteSize)) :=
  filterMap_scan_string (fun bytes => Token.respan (Span.shift bytes)) first second
    (fun _ _ _ => rfl) Piece.token?_shift hne hgap

/-- Two texts with blanks between them have the tokens of the first one and then those of the
second one, and so it is with the reports on skipped characters. What comes from the second text is
as many bytes further on as there are in front of it, and is the same otherwise. -/
theorem lex_append_blank (first gap second : String) (hne : gap ≠ "")
    (hgap : ∀ c ∈ gap.toList, isBlank c = true) :
    lex (first ++ gap ++ second) =
        lex first ++ (lex second).map (Token.respan (Span.shift (first ++ gap).utf8ByteSize)) ∧
      lexEvents (first ++ gap ++ second) =
        skipEvents first ++ (skipEvents second).map (Event.shift (first ++ gap).utf8ByteSize) ++
          [.lexedSource ((lex first).length + (lex second).length)
            (first ++ gap ++ second).utf8ByteSize] := by
  have htokens := lex_append first second hne hgap
  have hskips : skipEvents (first ++ gap ++ second) =
      skipEvents first ++ (skipEvents second).map (Event.shift (first ++ gap).utf8ByteSize) :=
    filterMap_scan_string Event.shift first second (fun _ _ hblank => if_pos hblank)
      Piece.event?_shift hne hgap
  refine ⟨htokens, ?_⟩
  rw [lexEvents_eq, hskips, htokens, List.length_append, List.length_map]

/-- A quote that the first text leaves open and one at the front of the second text stay apart,
although the text without the blanks has a string there. -/
theorem lex_append_blank_quotes :
    let first := "a \"b"
    let gap := "\u00a0\n"
    let second := "\" @c"
    gap ≠ "" ∧ (∀ c ∈ gap.toList, isBlank c = true) ∧
      lex (first ++ gap ++ second) =
        lex first ++ (lex second).map (Token.respan (Span.shift 7)) ∧
      lexEvents (first ++ gap ++ second) =
        skipEvents first ++ (skipEvents second).map (Event.shift 7) ++
          [.lexedSource ((lex first).length + (lex second).length) 11] := by
  intro first gap second
  have hne : gap ≠ "" := by decide
  have hgap : ∀ c ∈ gap.toList, isBlank c = true := List.all_eq_true.mp (by decide)
  exact ⟨hne, hgap, lex_append_blank first gap second hne hgap⟩

end CFrontEnd
