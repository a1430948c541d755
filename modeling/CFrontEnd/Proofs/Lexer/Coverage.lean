import CFrontEnd.Proofs.Lexer.Matchers

/-!
# Coverage

Cutting a text into tokens accounts for all of it. The pieces of a text, which are its tokens and
the characters that are skipped, stand one after the other without a gap, so each character is in
one token or skipped once, and the reports name what was skipped.

## Main definitions

* `Piece.Cuts`: the pieces of a text by matches alone, without the scan.
* `Accounts`: how tokens, skipped characters and reports account for a text.

## Main results

* `Piece.cuts_scanWith`: the scan cuts every text at the matches.
* `lex_accounts`: the tokens and the reports of a text account for it.
-/

namespace CFrontEnd

open Text

/-- The character at the offset lies as a whole in the span. -/
def Span.holds (span : Span) (offset : Nat) (character : Char) : Bool :=
  span.start ≤ offset && offset + character.utf8Size ≤ span.stop

namespace Piece

/-- The bytes of the piece. -/
def span : Piece → Span
  | .token found => found.span
  | .skipped offset character => { start := offset, stop := offset + character.utf8Size }

/-- The character that is skipped, with its offset. -/
def skipped? : Piece → Option (Nat × Char)
  | .token _ => none
  | .skipped offset character => some (offset, character)

/-- The piece accounts for the character at the offset: a token that holds it, or that character
skipped. -/
def holds (offset : Nat) (character : Char) : Piece → Bool
  | .token found => found.span.holds offset character
  | .skipped other found => (other, found) == (offset, character)

/-- The pieces are the text from an offset on, cut at the matches: a token where there is one, and
a skipped character where there is none. -/
inductive Cuts : Nat → List Char → List Piece → Prop
  | done {offset : Nat} : Cuts offset [] []
  | token {offset : Nat} {kind : TokenKind} {lexeme rest : List Char} {pieces : List Piece} :
      lexeme ≠ [] → classify (lexeme ++ rest) = some (kind, lexeme.length) →
      Cuts (offset + byteLength lexeme) rest pieces →
      Cuts offset (lexeme ++ rest)
        (.token
            { kind
              lexeme := String.ofList lexeme
              span := { start := offset, stop := offset + byteLength lexeme } } :: pieces)
  | skipped {offset : Nat} {first : Char} {rest : List Char} {pieces : List Piece} :
      classify (first :: rest) = none → Cuts (offset + first.utf8Size) rest pieces →
      Cuts offset (first :: rest) (.skipped offset first :: pieces)

/-- The scan cuts every text at the matches. -/
theorem cuts_scanWith (offset : Nat) (text : List Char) :
    Cuts offset text (scanWith classifiers offset text) := by
  -- on the length, since a token takes several characters at once
  induction hlength : text.length using Nat.strongRecOn generalizing offset text with
  | _ n ih =>
    subst hlength
    cases hmatch : classify text with
    | some found =>
      obtain ⟨kind, length⟩ := found
      obtain ⟨hpos, hle⟩ := classify_bounds hmatch
      -- the match is not longer than the text, so its characters are all there
      have htake : (text.take length).length = length := by
        rw [List.length_take, Nat.min_eq_left hle]
      have hrest : (text.drop length).length < text.length := by
        rw [List.length_drop]
        omega
      have hlexeme : classify (text.take length ++ text.drop length) =
          some (kind, (text.take length).length) := by
        rw [List.take_append_drop, htake, hmatch]
      have hcut := Cuts.token (List.ne_nil_of_length_pos (by omega)) hlexeme
        (ih _ hrest (offset + byteLength (text.take length)) _ rfl)
      rwa [List.take_append_drop, ← scanWith_of_match hmatch] at hcut
    | none =>
      cases text with
      | nil =>
        rw [scanWith]
        exact .done
      | cons first rest =>
        rw [scanWith_of_none hmatch]
        exact .skipped hmatch (ih _ (by simp) _ _ rfl)

variable {offset : Nat} {text : List Char} {pieces : List Piece}

/-- A piece has a place in the text where its characters stand, they fill its span, and the match
at that place gives the piece. -/
theorem Cuts.place (h : Cuts offset text pieces) {piece : Piece} (hmem : piece ∈ pieces) :
    ∃ before after, text = before ++ piece.text ++ after ∧
      piece.span.start = offset + byteLength before ∧
      piece.span.stop = piece.span.start + byteLength piece.text ∧ 0 < byteLength piece.text ∧
      classify (piece.text ++ after) =
        piece.token?.map fun found => (found.kind, piece.text.length) := by
  induction h with
  | done => simp at hmem
  | @token offset kind lexeme rest pieces hne hmatch hcuts ih =>
    rcases List.mem_cons.mp hmem with rfl | hlater
    -- the first piece has nothing before it
    · have hpos : 0 < byteLength lexeme := by
        obtain ⟨first, others, rfl⟩ := List.exists_cons_of_ne_nil hne
        have hsize := first.utf8Size_pos
        rw [byteLength_cons]
        omega
      exact ⟨[], rest, by simp [Piece.text], by simp [Piece.span], by simp [Piece.span, Piece.text],
        by simpa [Piece.text] using hpos, by simpa [Piece.text, Piece.token?] using hmatch⟩
    -- a later piece has the first one and its own text before it
    · obtain ⟨before, after, rfl, hstart, hrest⟩ := ih hlater
      refine ⟨lexeme ++ before, after, by simp, ?_, hrest⟩
      rw [hstart, byteLength_append, Nat.add_assoc]
  | @skipped offset first rest pieces hmatch hcuts ih =>
    rcases List.mem_cons.mp hmem with rfl | hlater
    · exact ⟨[], rest, by simp [Piece.text], by simp [Piece.span], by simp [Piece.span, Piece.text],
        by simpa [Piece.text] using first.utf8Size_pos,
        by simpa [Piece.text, Piece.token?] using hmatch⟩
    · obtain ⟨before, after, rfl, hstart, hrest⟩ := ih hlater
      refine ⟨first :: before, after, by simp, ?_, hrest⟩
      rw [hstart, byteLength_cons, Nat.add_assoc]

/-- No piece starts before the text. -/
theorem Cuts.offset_le (h : Cuts offset text pieces) {piece : Piece} (hmem : piece ∈ pieces) :
    offset ≤ piece.span.start := by
  obtain ⟨before, -, -, hstart, -⟩ := h.place hmem
  omega

/-- A piece ends where the next one starts, or before. -/
theorem Cuts.pairwise (h : Cuts offset text pieces) :
    pieces.Pairwise fun first second => first.span.stop ≤ second.span.start := by
  induction h with
  | done => exact .nil
  | token hne hmatch hcuts ih => exact .cons (fun _ hmem => hcuts.offset_le hmem) ih
  | skipped hmatch hcuts ih => exact .cons (fun _ hmem => hcuts.offset_le hmem) ih

/-- A piece that accounts for a character has it in its span. -/
theorem span_of_holds {piece : Piece} {character : Char}
    (h : piece.holds offset character = true) :
    piece.span.start ≤ offset ∧ offset + character.utf8Size ≤ piece.span.stop := by
  cases piece with
  | token found => simpa [holds, Span.holds, span] using h
  | skipped other found =>
    obtain ⟨rfl, rfl⟩ : other = offset ∧ found = character := by simpa [holds] using h
    simp [span]

/-- The pieces after an offset do not account for a character before it. -/
theorem Cuts.countP_eq_zero (h : Cuts offset text pieces) {place : Nat} {character : Char}
    (hplace : place < offset) : pieces.countP (holds place character) = 0 := by
  refine List.countP_eq_zero.mpr fun piece hmem hholds => ?_
  have hstart := h.offset_le hmem
  have hspan := span_of_holds hholds
  omega

/-- A character of a text in two parts is in the first part or in the second. -/
theorem mem_first_or_second {first second before after : List Char} {character : Char}
    (h : first ++ second = before ++ character :: after) :
    (∃ own, first = before ++ character :: own) ∨
      ∃ between, before = first ++ between ∧ second = between ++ character :: after := by
  rcases List.append_eq_append_iff.mp h with ⟨between, hbefore, hsecond⟩ | ⟨own, hfirst, hown⟩
  · exact .inr ⟨between, hbefore, hsecond⟩
  · cases own with
    -- the first part ends right before the character
    | nil => exact .inr ⟨[], by simpa using hfirst.symm, by simpa using hown.symm⟩
    | cons other own =>
      obtain ⟨rfl, -⟩ := List.cons.inj hown
      exact .inl ⟨own, hfirst⟩

/-- Exactly one piece accounts for a character of the text. -/
theorem Cuts.countP_eq_one (h : Cuts offset text pieces) {before after : List Char}
    {character : Char} (htext : text = before ++ character :: after) :
    pieces.countP (holds (offset + byteLength before) character) = 1 := by
  have hsize := character.utf8Size_pos
  -- the first piece accounts for the character, or for none of its bytes
  induction h generalizing before with
  | done => simp at htext
  | @token offset kind lexeme rest pieces hne hmatch hcuts ih =>
    rcases mem_first_or_second htext with ⟨own, rfl⟩ | ⟨between, rfl, hrest⟩
    -- the token holds the character, and all other pieces start behind it
    · have hfirst : holds (offset + byteLength before) character (.token
          { kind
            lexeme := String.ofList (before ++ character :: own)
            span := ⟨offset, offset + byteLength (before ++ character :: own)⟩ }) = true := by
        simp only [holds, Span.holds, byteLength_append, byteLength_cons, Bool.and_eq_true,
          decide_eq_true_eq]
        omega
      rw [List.countP_cons_of_pos hfirst, hcuts.countP_eq_zero]
      simp only [byteLength_append, byteLength_cons]
      omega
    -- the token ends before the character
    · have hfirst : ¬holds (offset + byteLength (lexeme ++ between)) character (.token
          { kind
            lexeme := String.ofList lexeme
            span := ⟨offset, offset + byteLength lexeme⟩ }) = true := by
        simp only [holds, Span.holds, byteLength_append, Bool.and_eq_true, decide_eq_true_eq]
        omega
      rw [List.countP_cons_of_neg hfirst, byteLength_append, ← Nat.add_assoc]
      exact ih hrest
  | @skipped offset first rest pieces hmatch hcuts ih =>
    cases before with
    -- the character itself is skipped
    | nil =>
      obtain ⟨rfl, rfl⟩ := List.cons.inj htext
      have hfirst : holds (offset + byteLength []) first (.skipped offset first) = true := by
        simp [holds]
      rw [List.countP_cons_of_pos hfirst, hcuts.countP_eq_zero (by simpa using hsize)]
    | cons other before =>
      obtain ⟨rfl, hrest⟩ := List.cons.inj htext
      have hother := first.utf8Size_pos
      have hfirst : ¬holds (offset + byteLength (first :: before)) character
          (.skipped offset first) = true := by
        simp only [holds, byteLength_cons, beq_iff_eq, Prod.mk.injEq]
        omega
      rw [List.countP_cons_of_neg hfirst, byteLength_cons, ← Nat.add_assoc]
      exact ih hrest

/-- The pieces that account for a character are the tokens that hold it and the times it is
skipped. -/
theorem countP_holds (pieces : List Piece) (place : Nat) (character : Char) :
    pieces.countP (holds place character) =
      (pieces.filterMap token?).countP (fun token => token.span.holds place character) +
        (pieces.filterMap skipped?).count (place, character) := by
  induction pieces with
  | nil => rfl
  | cons piece pieces ih =>
    cases piece with
    | token found =>
      rw [List.countP_cons, ih, List.filterMap_cons_some (f := token?) (b := found) rfl,
        List.filterMap_cons_none (f := skipped?) rfl, List.countP_cons]
      exact Nat.add_right_comm ..
    | skipped other found =>
      rw [List.countP_cons, ih, List.filterMap_cons_none (f := token?) rfl,
        List.filterMap_cons_some (f := skipped?) (b := (other, found)) rfl, List.count_cons]
      exact Nat.add_assoc ..

/-- The reports on the pieces are those on the skipped characters that are not blank. -/
theorem filterMap_event? (pieces : List Piece) :
    pieces.filterMap event? =
      ((pieces.filterMap skipped?).filter fun skipped => !isBlank skipped.2).map
        fun skipped => .skippedCharacter skipped.1 skipped.2 := by
  induction pieces with
  | nil => rfl
  | cons piece pieces ih =>
    cases piece with
    | token found =>
      rw [List.filterMap_cons_none rfl, List.filterMap_cons_none rfl]
      exact ih
    | skipped offset character =>
      cases hblank : isBlank character <;> simp [event?, skipped?, hblank, ih]

end Piece

/-- The characters of a text that are skipped, with their offsets, in order. -/
def skippedCharacters (text : String) : List (Nat × Char) :=
  (Piece.scan text.toList).filterMap Piece.skipped?

/-- The part stands in the text at the bytes of the span, which starts and ends between two
characters. -/
def Span.Marks (span : Span) (text part : List Char) : Prop :=
  ∃ before after, text = before ++ part ++ after ∧ byteLength before = span.start ∧
    byteLength (before ++ part) = span.stop

/-- The tokens and the skipped characters account for the whole text, and the reports for the
skipped characters. -/
structure Accounts (text : String) (tokens : List Token) (skipped : List (Nat × Char))
    (events : List Event) : Prop where
  /-- The span of a token is not empty, and its text is the text in this span. -/
  marked : ∀ token ∈ tokens, token.span.start < token.span.stop ∧
    token.span.Marks text.toList token.lexeme.toList
  /-- The kind and the length of a token are those of the match at its place. -/
  matched : ∀ token ∈ tokens, ∃ before after, text.toList = before ++ after ∧
    byteLength before = token.span.start ∧
    classify after = some (token.kind, token.lexeme.toList.length)
  /-- The spans of the tokens do not overlap and stand in the order of the tokens. -/
  ordered : tokens.Pairwise fun first second => first.span.stop ≤ second.span.start
  /-- A skipped character is the character of the text at its offset. -/
  skipped_marked : ∀ offset character, (offset, character) ∈ skipped →
    Span.Marks ⟨offset, offset + character.utf8Size⟩ text.toList [character]
  /-- A character of the text is in one token and not skipped, or in no token and skipped once. -/
  once : ∀ before character after, text.toList = before ++ character :: after →
    tokens.countP (fun token => token.span.holds (byteLength before) character) +
      skipped.count (byteLength before, character) = 1
  /-- The tokens and the skipped characters in the order of their places give the text. -/
  restored : ∃ pieces : List Piece, pieces.filterMap Piece.token? = tokens ∧
    pieces.filterMap Piece.skipped? = skipped ∧
    pieces.Pairwise (fun first second => first.span.stop ≤ second.span.start) ∧
    pieces.flatMap Piece.text = text.toList
  /-- The reports are on the skipped characters that are not blank, in increasing order of their
  offsets, and at last on the whole text. -/
  reported : skipped.Pairwise (fun first second => first.1 < second.1) ∧
    events = ((skipped.filter fun passed => !isBlank passed.2).map
      fun passed => .skippedCharacter passed.1 passed.2) ++
        [.lexedSource tokens.length text.utf8ByteSize]

namespace Piece

/-- The pieces of a whole text. -/
theorem cuts_scan (text : List Char) : Cuts 0 text (scan text) :=
  cuts_scanWith 0 text

/-- A piece fills its span, which is not empty, with its text. -/
theorem Cuts.marked {text : List Char} {pieces : List Piece} (h : Cuts 0 text pieces)
    {piece : Piece} (hmem : piece ∈ pieces) :
    piece.span.start < piece.span.stop ∧ piece.span.Marks text piece.text := by
  obtain ⟨before, after, htext, hstart, hstop, hpos, -⟩ := h.place hmem
  refine ⟨by omega, before, after, htext, by omega, ?_⟩
  rw [byteLength_append]
  omega

end Piece

/-- A token of a text is a piece of it. -/
theorem mem_lex_iff {text : String} {token : Token} :
    token ∈ lex text ↔ .token token ∈ Piece.scan text.toList := by
  simp only [lex_eq_scan, List.mem_filterMap]
  constructor
  · rintro ⟨piece, hmem, htoken⟩
    cases piece with
    | token found => exact Option.some.inj htoken ▸ hmem
    | skipped offset character => simp [Piece.token?] at htoken
  · exact fun hmem => ⟨_, hmem, rfl⟩

/-- A skipped character of a text is a piece of it. -/
theorem mem_skippedCharacters_iff {text : String} {offset : Nat} {character : Char} :
    (offset, character) ∈ skippedCharacters text ↔
      .skipped offset character ∈ Piece.scan text.toList := by
  simp only [skippedCharacters, List.mem_filterMap]
  constructor
  · rintro ⟨piece, hmem, hskipped⟩
    cases piece with
    | token found => simp [Piece.skipped?] at hskipped
    | skipped other found =>
      obtain ⟨rfl, rfl⟩ := Prod.mk.inj (Option.some.inj hskipped)
      exact hmem
  · exact fun hmem => ⟨_, hmem, rfl⟩

/-- The tokens of a text and the characters that are skipped account for all of it, and the reports
name what is skipped. -/
theorem lex_accounts (text : String) :
    Accounts text (lex text) (skippedCharacters text) (lexEvents text) where
  marked := by
    intro token hmem
    exact (Piece.cuts_scan text.toList).marked (mem_lex_iff.mp hmem)
  matched := by
    intro token hmem
    obtain ⟨before, after, htext, hstart, -, -, hmatch⟩ :=
      (Piece.cuts_scan text.toList).place (mem_lex_iff.mp hmem)
    refine ⟨before, token.lexeme.toList ++ after, ?_, ?_, hmatch⟩
    · rw [htext, List.append_assoc]
      rfl
    · rw [Nat.zero_add] at hstart
      exact hstart.symm
  ordered := by
    refine List.pairwise_filterMap.mpr ((Piece.cuts_scan text.toList).pairwise.imp ?_)
    intro first second hle token htoken other hother
    cases first <;> cases second <;> simp_all [Piece.token?, Piece.span]
  skipped_marked := by
    intro offset character hmem
    exact ((Piece.cuts_scan text.toList).marked (mem_skippedCharacters_iff.mp hmem)).2
  once := by
    intro before character after htext
    have hone := (Piece.cuts_scan text.toList).countP_eq_one htext
    rwa [Nat.zero_add, Piece.countP_holds] at hone
  restored :=
    ⟨Piece.scan text.toList, rfl, rfl, (Piece.cuts_scan text.toList).pairwise,
      Piece.flatten_scan text.toList⟩
  reported := by
    constructor
    -- a skipped character has a size, so the next one starts strictly behind it
    · refine List.pairwise_filterMap.mpr ((Piece.cuts_scan text.toList).pairwise.imp ?_)
      intro first second hle passed hpassed later hlater
      cases first with
      | token found => simp [Piece.skipped?] at hpassed
      | skipped offset character =>
        cases second with
        | token found => simp [Piece.skipped?] at hlater
        | skipped other found =>
          obtain rfl := Option.some.inj hpassed
          obtain rfl := Option.some.inj hlater
          exact Nat.lt_of_lt_of_le (Nat.lt_add_of_pos_right character.utf8Size_pos) hle
    · rw [lexEvents_eq_scan, Piece.filterMap_event?, byteLength_toList]
      rfl

end CFrontEnd
