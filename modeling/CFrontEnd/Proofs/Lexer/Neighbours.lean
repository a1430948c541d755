import CFrontEnd.Proofs.Lexer.Skipping

/-!
# The Neighbours of a Token

A matcher looks to the right only, so what follows a token is a matter of its own match, while what
stands in front of it is a matter of the whole cut: no token and no skipped character before it ends
inside a word or a number. This is said of the last character before each cut and carried through
the text.

## Main definitions

* `Cuttable`: no word and no number goes on behind a character.
* `Token.Bounded`: what may stand in front of a token and behind it.

## Main results

* `TokenKind.Spells.cuttable`, `Passed.cuttable`: every piece ends where a text can be cut.
* `Piece.Cuts.cuttable`: a text is cut only there.
* `lex_bounded`: the tokens of a text begin and end at the boundaries of words and numbers.
-/

namespace CFrontEnd

open Text Matcher

/-- Behind the character, the text can be cut: no name goes on behind a letter or an underscore, and
no digit follows a character of a name or a point. -/
structure Cuttable (last : Char) (rest : List Char) : Prop where
  word : isNameStart last = true → ∀ c ∈ rest.head?, isNamePart c = false
  number : isNamePart last = true ∨ last = '.' → ∀ c ∈ rest.head?, c.isDigit = false

section Cut

variable {lexeme rest : List Char} {last : Char}

/-- Behind a character that stands in no name and no number, a text can be cut. -/
theorem cuttable_of_not (hpart : isNamePart last = false) (hpoint : last ≠ '.') :
    Cuttable last rest where
  word hstart := by simp [isNamePart_of_isNameStart hstart] at hpart
  number h := by simp [hpart, hpoint] at h

/-- A name ends where no character of names follows. -/
theorem cuttable_of_name (h : ∀ c ∈ rest.head?, isNamePart c = false) : Cuttable last rest where
  word _ := h
  number _ c hc := isDigit_eq_false_of_isNamePart (h c hc)

/-- A number ends with a digit or a point, where no digit follows. -/
theorem cuttable_of_number (hlast : last.isDigit = true ∨ last = '.')
    (h : ∀ c ∈ rest.head?, c.isDigit = false) : Cuttable last rest where
  word hstart := by
    rcases hlast with hdigit | rfl
    · simp [isNameStart_eq_false_of_isDigit hdigit] at hstart
    · exact absurd hstart (by decide)
  number _ := h

/-- The kinds with fixed spellings that are no words. -/
def TokenKind.signs : List TokenKind :=
  singles.map Prod.fst ++ operators

/-- Braces, parentheses, semicolons and operators end with no character of a name or a number. -/
theorem not_of_mem_signs {kind : TokenKind} (hkind : kind ∈ TokenKind.signs)
    (h : kind.Spells lexeme) (hlast : last ∈ lexeme.getLast?) :
    isNamePart last = false ∧ last ≠ '.' := by
  have hall : ∀ kind ∈ TokenKind.signs, kind.spellings ≠ [] ∧ ∀ word ∈ kind.spellings,
      word.toList.getLast?.all (fun c => !isNamePart c && c != '.') = true := by
    decide
  obtain ⟨hspellings, hends⟩ := hall kind hkind
  rw [TokenKind.spells_iff_mem_spellings hspellings] at h
  have hend := hends _ h
  rw [String.toList_ofList, Option.mem_def.mp hlast] at hend
  simpa using hend

/-- Where a token can end, the text can be cut. -/
theorem TokenKind.Spells.cuttable {kind : TokenKind} (h : kind.Spells lexeme)
    (hstops : kind.Stops lexeme rest) (hlast : last ∈ lexeme.getLast?) : Cuttable last rest := by
  have hmem : last ∈ lexeme := List.mem_of_getLast? hlast
  cases kind with
  | keyword | identifier => exact cuttable_of_name hstops
  | integer => exact cuttable_of_number (.inl (h.2 last hmem)) fun c hc => (hstops c hc).1
  | float =>
    obtain ⟨whole, fraction, rfl, hwhole, hfraction, -⟩ := h
    refine cuttable_of_number ?_ hstops
    rcases List.mem_append.mp hmem with hdigit | hbehind
    · exact .inl (hwhole last hdigit)
    · rcases List.mem_cons.mp hbehind with hpoint | hdigit
      · exact .inr hpoint
      · exact .inl (hfraction last hdigit)
  | string =>
    obtain ⟨body, rfl, -, -⟩ := h
    rw [← List.cons_append, List.getLast?_concat] at hlast
    obtain rfl := Option.some.inj hlast
    exact cuttable_of_not (by decide) (by decide)
  | _ =>
    obtain ⟨hpart, hpoint⟩ := not_of_mem_signs (by decide) h hlast
    exact cuttable_of_not hpart hpoint

/-- Behind a character that is passed over, the text can be cut. -/
theorem Passed.cuttable (h : Passed last rest) : Cuttable last rest where
  word hstart := by
    have hname := h.name
    simp [isNamePart_of_isNameStart hstart] at hname
  number hlast := h.point (hlast.resolve_left (by simp [h.name]))

/-- The first piece of a text is given by the match in front of the other pieces. -/
theorem Piece.Cuts.head {offset : Nat} {text : List Char} {piece : Piece} {pieces : List Piece}
    (h : Cuts offset text (piece :: pieces)) :
    piece.text ≠ [] ∧
      piece.span = { start := offset, stop := offset + byteLength piece.text } ∧
      classify (piece.text ++ pieces.flatMap Piece.text) =
        piece.token?.map fun found => (found.kind, piece.text.length) := by
  cases h with
  | token hne hmatch hcuts =>
    simpa [Piece.text, Piece.span, Piece.token?, hcuts.flatten] using ⟨hne, hmatch⟩
  | skipped hmatch hcuts =>
    simpa [Piece.text, Piece.span, Piece.token?, hcuts.flatten] using hmatch

/-- A text is cut only where it can be cut. -/
theorem Piece.Cuts.cuttable {offset : Nat} {text : List Char} {before after : List Piece}
    (h : Cuts offset text (before ++ after))
    (hlast : last ∈ (before.flatMap Piece.text).getLast?) :
    Cuttable last (after.flatMap Piece.text) := by
  cases before using List.reverseRecOn with
  | nil => simp at hlast
  | append_singleton before piece =>
    rw [List.append_assoc, List.singleton_append] at h
    -- the last piece in front of the cut ends with the last character
    obtain ⟨hne, -, hmatch⟩ := h.behind.head
    rw [List.flatMap_append, List.flatMap_singleton, List.getLast?_append_of_ne_nil _ hne] at hlast
    cases piece with
    | token found =>
      obtain ⟨hspells, hstops⟩ := classify_append_iff.mp hmatch
      exact hspells.cuttable hstops hlast
    | skipped place character =>
      obtain rfl := Option.some.inj hlast
      exact (classify_eq_none_iff.mp hmatch).cuttable

end Cut

/-! ### What stands in front of a token and behind it -/

/-- The text in front of a token and the text behind it, as far as words, numbers and operators
could go on there. -/
structure Token.Bounded (token : Token) (before after : List Char) : Prop where
  /-- A name has no character of names behind it, and no letter and no underscore in front of it.
  It is reserved exactly if it is one of the reserved words. -/
  word : token.kind = .keyword ∨ token.kind = .identifier →
    (∀ c ∈ after.head?, isNamePart c = false) ∧ (∀ c ∈ before.getLast?, isNameStart c = false) ∧
      (token.kind = .keyword ↔ token.lexeme ∈ keywords)
  /-- An integer is all digits. It has no digit and no point behind it, and no character of names
  and no point in front of it. -/
  integer : token.kind = .integer →
    (token.lexeme.toList ≠ [] ∧ AllDigits token.lexeme.toList) ∧
      (∀ c ∈ after.head?, c.isDigit = false ∧ c ≠ '.') ∧
      ∀ c ∈ before.getLast?, isNamePart c = false ∧ c ≠ '.'
  /-- A float has one point, at least one digit, and no digit behind it. -/
  float : token.kind = .float →
    token.lexeme.toList.count '.' = 1 ∧ (∃ c ∈ token.lexeme.toList, c.isDigit = true) ∧
      ∀ c ∈ after.head?, c.isDigit = false
  /-- A `=`, `<`, `>` or `!` has no `=` behind it. -/
  equals : token.lexeme ∈ ["=", "<", ">", "!"] → after.head? ≠ some '='
  /-- A `+` has no `+` behind it, and a `-` no `-`. -/
  sign : ∀ sign, sign = '+' ∨ sign = '-' → token.lexeme = String.singleton sign →
    after.head? ≠ some sign
  /-- An assignment with an operation has no `=` behind it. -/
  compound : token.kind = .assignmentOperator → ∀ operator, isCompound operator = true →
    token.lexeme = String.ofList [operator, '='] → after.head? ≠ some '='

section Bounded

variable {token : Token} {before after : List Char}

/-- A `=` that follows is taken with a first character that it can go together with. -/
theorem head?_ne_equals {first : Char} {kind : TokenKind}
    (h : first = '=' ∨ (first = '<' ∨ first = '>') ∨ first = '!')
    (hmatch : classify (first :: after) = some (kind, 1)) : after.head? ≠ some '=' := by
  intro hhead
  rcases h with rfl | hrelational | rfl
  · simp [classify_equals, hhead] at hmatch
  · rw [classify_relational hrelational, if_pos hhead] at hmatch
    split_ifs at hmatch <;> simp at hmatch
  · simp [classify_not, hhead] at hmatch

/-- A `+` or a `-` that follows itself is taken together with it. -/
theorem head?_ne_sign {sign : Char} {kind : TokenKind} (h : sign = '+' ∨ sign = '-')
    (hmatch : classify (sign :: after) = some (kind, 1)) : after.head? ≠ some sign := by
  intro hhead
  rw [classify_arithmetic (by rcases h with rfl | rfl <;> decide)] at hmatch
  split_ifs at hmatch with hsingle hdouble
  · simp at hmatch
  · simp at hmatch
  · exact hdouble ⟨h, hhead⟩

/-- No letter and no underscore stands in front of a name. -/
theorem isNameStart_eq_false_of_cuttable {lexeme : List Char} (hname : IsIdentifier lexeme)
    {last : Char} (h : Cuttable last (lexeme ++ after)) : isNameStart last = false := by
  obtain ⟨first, rest, rfl, hfirst, -⟩ := hname
  by_contra hstart
  have hpart := h.word (by simpa using hstart) first rfl
  simp [isNamePart_of_isNameStart hfirst] at hpart

/-- No character of names and no point stands in front of digits. -/
theorem not_of_cuttable_digits {lexeme : List Char} (hne : lexeme ≠ []) (h : AllDigits lexeme)
    {last : Char} (hcut : Cuttable last (lexeme ++ after)) :
    isNamePart last = false ∧ last ≠ '.' := by
  obtain ⟨first, rest, rfl⟩ := List.exists_cons_of_ne_nil hne
  have hdigit := h first List.mem_cons_self
  by_contra hnot
  have hother :=
    hcut.number (by simp only [not_and_or, not_not] at hnot; simpa using hnot) first rfl
  simp [hdigit] at hother

/-- A float has one point, and a digit in front of it or behind it. -/
theorem count_point_of_float {lexeme : List Char} (h : TokenKind.float.Spells lexeme) :
    lexeme.count '.' = 1 ∧ ∃ c ∈ lexeme, c.isDigit = true := by
  obtain ⟨whole, fraction, rfl, hwhole, hfraction, hne⟩ := h
  have hnone : ∀ {digits : List Char}, AllDigits digits → digits.count '.' = 0 := by
    intro digits hdigits
    refine List.count_eq_zero.mpr fun hmem => ?_
    exact absurd (hdigits '.' hmem) (by decide)
  refine ⟨by simp [hnone hwhole, hnone hfraction], ?_⟩
  rcases hne with hne | hne
  · obtain ⟨first, rest, rfl⟩ := List.exists_cons_of_ne_nil hne
    exact ⟨first, by simp, hwhole first (by simp)⟩
  · obtain ⟨first, rest, rfl⟩ := List.exists_cons_of_ne_nil hne
    exact ⟨first, by simp, hfraction first (by simp)⟩

/-- A match that starts where the text can be cut is bounded. -/
theorem bounded_of_classify
    (hmatch : classify (token.lexeme.toList ++ after) =
      some (token.kind, token.lexeme.toList.length))
    (hfront : ∀ last ∈ before.getLast?, Cuttable last (token.lexeme.toList ++ after)) :
    token.Bounded before after := by
  obtain ⟨hspells, hstops⟩ := classify_append_iff.mp hmatch
  refine ⟨?word, ?integer, ?float, ?equals, ?sign, ?compound⟩
  case word =>
    rintro (hkind | hkind) <;> rw [hkind] at hspells hstops ⊢
    · have hmem : token.lexeme ∈ keywords := by
        rwa [TokenKind.spells_iff_mem_spellings (by decide), String.ofList_toList] at hspells
      exact ⟨hstops, fun c hc =>
        isNameStart_eq_false_of_cuttable (isIdentifier_of_mem_keywords hspells) (hfront c hc),
        iff_of_true rfl hmem⟩
    · obtain ⟨hname, hfree⟩ := hspells
      rw [String.ofList_toList] at hfree
      exact ⟨hstops, fun c hc => isNameStart_eq_false_of_cuttable hname (hfront c hc),
        iff_of_false (by decide) hfree⟩
  case integer =>
    intro hkind
    rw [hkind] at hspells hstops
    exact ⟨hspells, hstops, fun c hc => not_of_cuttable_digits hspells.1 hspells.2 (hfront c hc)⟩
  case float =>
    intro hkind
    rw [hkind] at hspells hstops
    obtain ⟨hpoint, hdigit⟩ := count_point_of_float hspells
    exact ⟨hpoint, hdigit, hstops⟩
  case equals =>
    intro hmem
    simp only [List.mem_cons, List.not_mem_nil, or_false] at hmem
    rcases hmem with hlexeme | hlexeme | hlexeme | hlexeme <;> rw [hlexeme] at hmatch
    · exact head?_ne_equals (.inl rfl) hmatch
    · exact head?_ne_equals (.inr (.inl (.inl rfl))) hmatch
    · exact head?_ne_equals (.inr (.inl (.inr rfl))) hmatch
    · exact head?_ne_equals (.inr (.inr rfl)) hmatch
  case sign =>
    intro sign hsign hlexeme
    rw [hlexeme, String.toList_singleton] at hmatch
    exact head?_ne_sign hsign hmatch
  case compound =>
    intro hkind operator _ hlexeme
    rw [hkind, hlexeme, String.toList_ofList] at hstops
    -- only the shifts, of three characters, end in front of any character
    exact hstops.resolve_left (by simp)

end Bounded

/-- Each token of a text stands between the text in front of it and the text behind it, and begins
and ends at the boundaries of words and numbers. -/
theorem lex_bounded (text : String) : ∀ token ∈ lex text, ∃ before after,
    text.toList = before ++ token.lexeme.toList ++ after ∧
      byteLength before = token.span.start ∧
      byteLength (before ++ token.lexeme.toList) = token.span.stop ∧
      token.Bounded before after := by
  intro token htoken
  have hcuts := Piece.cuts_scan text.toList
  obtain ⟨front, back, hscan⟩ := List.append_of_mem (mem_lex_iff.mp htoken)
  rw [hscan] at hcuts
  have htext := hcuts.flatten
  rw [List.flatMap_append, List.flatMap_cons, ← List.append_assoc] at htext
  -- the token, with its place behind the pieces in front of it
  obtain ⟨-, hspan, hmatch⟩ := hcuts.behind.head
  rw [Nat.zero_add] at hspan
  have hstart := congrArg Span.start hspan
  have hstop := congrArg Span.stop hspan
  refine ⟨front.flatMap Piece.text, back.flatMap Piece.text, htext.symm, hstart.symm, ?_,
    bounded_of_classify hmatch fun last hlast => hcuts.cuttable hlast⟩
  rw [byteLength_append]
  exact hstop.symm

/-- A name between a number and a sign: the point in front of it belongs to the number. -/
theorem lex_bounded_name :
    let text := "1.x_2=-3"
    let token : Token := ⟨.identifier, "x_2", ⟨2, 5⟩⟩
    token ∈ lex text ∧ ∃ before after,
      text.toList = before ++ token.lexeme.toList ++ after ∧
        byteLength before = token.span.start ∧
        byteLength (before ++ token.lexeme.toList) = token.span.stop ∧
        token.Bounded before after := by
  intro text token
  have hlex : lex text = [⟨.float, "1.", ⟨0, 2⟩⟩, token, ⟨.assignmentOperator, "=", ⟨5, 6⟩⟩,
      ⟨.arithmeticOperator, "-", ⟨6, 7⟩⟩, ⟨.integer, "3", ⟨7, 8⟩⟩] := by
    decide +kernel
  have hmem : token ∈ lex text := by
    rw [hlex]
    exact List.mem_cons_of_mem _ List.mem_cons_self
  exact ⟨hmem, lex_bounded text token hmem⟩

end CFrontEnd
