import CFrontEnd.Proofs.Lexer.Words
import CFrontEnd.Proofs.Parser.Spelling
import CFrontEnd.Proofs.Source.Aborts

/-!
# Texts Spaced Anew

The kind of a token depends on what follows it in its text, but the text of a token, alone between
blanks, is a token of the same kind. So the tokens of a text, written with blanks between them, are
cut into the same tokens again, nothing but these blanks is skipped, and the parse is the same but
for its spans.

## Main definitions

* `respaced`: tokens written one after the other, each behind a gap.
* `Spacing`: gaps that keep tokens apart.
* `Relexed`: what a text and the same text spaced anew have in common.

## Main results

* `map_bare_scanWith`: a text of tokens and gaps is cut into these tokens and the characters of the
  gaps.
* `relex_respaced`: the tokens of a text survive any spacing.
-/

namespace CFrontEnd

open Text

/-- Tokens one after the other, each behind a gap, and a last gap. -/
def respaced (items : List (String × Token)) (last : String) : String :=
  String.join (items.map fun item => item.1 ++ item.2.lexeme) ++ last

/-- The gaps are blank, and none between two tokens is empty. -/
structure Spacing (items : List (String × Token)) (last : String) : Prop where
  blank : ∀ item ∈ items, ∀ c ∈ item.1.toList, isBlank c = true
  last : ∀ c ∈ last.toList, isBlank c = true
  /-- Only in front of the first token there may be no gap. -/
  apart : ∀ item ∈ items.tail, item.1 ≠ ""

section Respaced

variable {items : List (String × Token)} {item : String × Token} {last : String}

theorem toList_respaced_cons :
    (respaced (item :: items) last).toList =
      item.1.toList ++ (item.2.lexeme.toList ++ (respaced items last).toList) := by
  simp [respaced, String.join_cons]

theorem Spacing.tail (h : Spacing (item :: items) last) : Spacing items last where
  blank other hmem := h.blank other (List.mem_cons_of_mem _ hmem)
  last := h.last
  apart other hmem := h.apart other (List.mem_of_mem_tail hmem)

/-- Behind a token stands a gap or nothing. -/
theorem Spacing.isolated (h : Spacing (item :: items) last) :
    Isolated (respaced items last).toList := by
  cases items with
  | nil => exact fun c hc => h.last c (List.mem_of_mem_head? (by simpa [respaced] using hc))
  | cons next items =>
    have hne : next.1.toList ≠ [] := by
      simpa using h.apart next List.mem_cons_self
    obtain ⟨blank, more, hgap⟩ := List.exists_cons_of_ne_nil hne
    intro c hc
    rw [toList_respaced_cons, hgap] at hc
    apply h.blank next (by simp)
    rw [hgap]
    exact List.mem_cons.mpr (.inl (Option.some.inj hc).symm)

end Respaced

namespace Piece

/-- The piece without its place: the spelling of a token, or a skipped character. -/
def bare : Piece → (TokenKind × String) ⊕ Char
  | .token found => .inl found.spelling
  | .skipped _ character => .inr character

theorem map_spelling_filterMap_token? (pieces : List Piece) :
    (pieces.filterMap token?).map Token.spelling = (pieces.map bare).filterMap Sum.getLeft? := by
  rw [List.map_filterMap, List.filterMap_map]
  congr 1
  funext piece
  cases piece <;> rfl

theorem map_snd_filterMap_skipped? (pieces : List Piece) :
    (pieces.filterMap skipped?).map Prod.snd = (pieces.map bare).filterMap Sum.getRight? := by
  rw [List.map_filterMap, List.filterMap_map]
  congr 1
  funext piece
  cases piece <;> rfl

/-- Blanks in front of a text are skipped one by one. -/
theorem map_bare_scanWith_blanks {gap : List Char} (h : ∀ c ∈ gap, isBlank c = true)
    (offset : Nat) (text : List Char) :
    (scanWith classifiers offset (gap ++ text)).map bare =
      gap.map .inr ++ (scanWith classifiers (offset + byteLength gap) text).map bare := by
  induction gap generalizing offset with
  | nil => rfl
  | cons first gap ih =>
    rw [List.cons_append, scanWith_of_none (classify_blank (h first List.mem_cons_self)),
      List.map_cons, ih fun c hc => h c (List.mem_cons_of_mem _ hc), byteLength_cons,
      ← Nat.add_assoc]
    rfl

/-- Tokens and the characters of their gaps, in the order of `respaced`. -/
def interleaved (items : List (String × Token)) (last : String) :
    List ((TokenKind × String) ⊕ Char) :=
  items.flatMap (fun item => item.1.toList.map .inr ++ [.inl item.2.spelling]) ++
    last.toList.map .inr

theorem filterMap_getLeft?_interleaved (items : List (String × Token)) (last : String) :
    (interleaved items last).filterMap Sum.getLeft? = items.map fun item => item.2.spelling := by
  have hgap : ∀ gap : List Char,
      (gap.map (.inr (α := TokenKind × String))).filterMap Sum.getLeft? = [] := by
    intro gap
    simp [List.filterMap_map, Function.comp_def]
  induction items with
  | nil => exact hgap last.toList
  | cons item items ih =>
    rw [interleaved, List.flatMap_cons, List.append_assoc, List.filterMap_append, ← interleaved,
      ih, List.filterMap_append, hgap]
    rfl

theorem filterMap_getRight?_interleaved (items : List (String × Token)) (last : String) :
    (interleaved items last).filterMap Sum.getRight? =
      items.flatMap (·.1.toList) ++ last.toList := by
  have hgap : ∀ gap : List Char,
      (gap.map (.inr (α := TokenKind × String))).filterMap Sum.getRight? = gap := by
    intro gap
    simp [List.filterMap_map, Function.comp_def]
  induction items with
  | nil => exact hgap last.toList
  | cons item items ih =>
    rw [interleaved, List.flatMap_cons, List.append_assoc, List.filterMap_append, ← interleaved,
      ih, List.filterMap_append, hgap]
    simp

/-- A text of words and gaps is cut into these words and the characters of the gaps. -/
theorem map_bare_scanWith {items : List (String × Token)} {last : String}
    (hspacing : Spacing items last) (hlexes : ∀ item ∈ items, item.2.word.Lexes) (offset : Nat) :
    (scanWith classifiers offset (respaced items last).toList).map bare =
      interleaved items last := by
  induction items generalizing offset with
  | nil =>
    have hlast := map_bare_scanWith_blanks hspacing.last offset []
    rw [List.append_nil, scanWith] at hlast
    simpa [respaced, interleaved] using hlast
  | cons item items ih =>
    -- the gap is skipped, and the word matches in front of the next gap as it does alone
    have hmatch : classify (item.2.lexeme.toList ++ (respaced items last).toList) =
        some (item.2.kind, item.2.lexeme.toList.length) := by
      rw [classify_append hspacing.isolated]
      exact hlexes item List.mem_cons_self
    rw [toList_respaced_cons,
      map_bare_scanWith_blanks (hspacing.blank item List.mem_cons_self), scanWith_of_match hmatch,
      List.take_left, List.drop_left, List.map_cons,
      ih hspacing.tail fun other hmem => hlexes other (List.mem_cons_of_mem _ hmem)]
    simp [bare, Token.spelling, interleaved]

end Piece

/-- What a text and the same tokens spaced anew have in common. -/
structure Relexed (text other : String) (gaps : List Char) : Prop where
  /-- The tokens have the same kinds and texts. -/
  spelling : (lex other).map Token.spelling = (lex text).map Token.spelling
  /-- The tokens have the same values. -/
  value : (lex other).map Token.value = (lex text).map Token.value
  /-- The characters that are skipped are those of the gaps, in order. -/
  skipped : (skippedCharacters other).map Prod.snd = gaps
  /-- Both texts form the same program, or fail with errors that differ in their spans at most. -/
  parse : (∃ program, parseSource text = .ok program ∧ parseSource other = .ok program) ∨
    ∃ error found, parseSource text = .error (.error error) ∧
      parseSource other = .error (.error found) ∧ error.Alike found

/-- The value of a token depends on its kind and its text only. -/
theorem Token.map_value_of_spelling {first second : List Token}
    (h : first.map Token.spelling = second.map Token.spelling) :
    first.map Token.value = second.map Token.value := by
  have hvalue : ∀ tokens : List Token, tokens.map Token.value =
      (tokens.map Token.spelling).map fun spelling =>
        Token.value ⟨spelling.1, spelling.2, ⟨0, 0⟩⟩ := by
    intro tokens
    rw [List.map_map]
    rfl
  rw [hvalue, hvalue, h]

/-- Texts whose tokens are spelled alike form the same program, or have errors that are alike. -/
theorem parseSource_of_spelling {text other : String}
    (h : (lex text).map Token.spelling = (lex other).map Token.spelling) :
    (∃ program, parseSource text = .ok program ∧ parseSource other = .ok program) ∨
      ∃ error found, parseSource text = .error (.error error) ∧
        parseSource other = .error (.error found) ∧ error.Alike found := by
  have halike : EntryPoint.program.ParsesAlike (lex text) (lex other) :=
    EntryPoint.parsesAlike_of_spelling h
  rcases hparse : parseSource text with (error | _) | program
  · obtain ⟨found, hfound, herrors, -⟩ := halike.error error hparse
    exact .inr ⟨error, found, rfl, hfound, herrors⟩
  · exact absurd hparse (parseSource_ne_abort text)
  · exact .inl ⟨program, rfl, (halike.tree program).mp hparse⟩

/-- The tokens of a text, written in order with blanks between any two of them, are cut into the
same tokens again. Only the blanks are skipped, and the parse changes in its spans at most. -/
theorem relex_respaced (text : String) (items : List (String × Token)) (last : String)
    (htokens : items.map Prod.snd = lex text) (hspacing : Spacing items last) :
    Relexed text (respaced items last)
      (items.flatMap (·.1.toList) ++ last.toList) := by
  have hlexes : ∀ item ∈ items, item.2.word.Lexes := by
    intro item hmem
    have htoken : item.2 ∈ lex text := htokens ▸ List.mem_map_of_mem hmem
    exact Word.lexes_of_spells (spells_of_mem_lex htoken)
  have hscan := Piece.map_bare_scanWith hspacing hlexes 0
  have hspelling : (lex (respaced items last)).map Token.spelling =
      (lex text).map Token.spelling := by
    rw [lex_eq_scan, Piece.map_spelling_filterMap_token?, Piece.scan, hscan,
      Piece.filterMap_getLeft?_interleaved, ← htokens, List.map_map]
    rfl
  refine ⟨hspelling, Token.map_value_of_spelling hspelling, ?_,
    parseSource_of_spelling hspelling.symm⟩
  rw [skippedCharacters, Piece.map_snd_filterMap_skipped?, Piece.scan, hscan,
    Piece.filterMap_getRight?_interleaved]

/-- Four tokens without a blank between them: the name ends the number, and stands apart from it
behind a no-break space. -/
theorem relex_respaced_exponent :
    let text := "-=1.e5||"
    let items : List (String × Token) :=
      [("", ⟨.assignmentOperator, "-=", ⟨0, 2⟩⟩), ("\n", ⟨.float, "1.", ⟨2, 4⟩⟩),
        ("\u00a0\t", ⟨.identifier, "e5", ⟨4, 6⟩⟩), (" ", ⟨.logicalOperator, "||", ⟨6, 8⟩⟩)]
    items.map Prod.snd = lex text ∧ Spacing items "\n" ∧
      Relexed text (respaced items "\n") ['\n', '\u00a0', '\t', ' ', '\n'] := by
  intro text items
  have hlex : items.map Prod.snd = lex text := by decide +kernel
  have hspacing : Spacing items "\n" :=
    { blank := by
        have hall : ∀ item ∈ items, item.1.toList.all isBlank = true := by decide
        exact fun item hmem => List.all_eq_true.mp (hall item hmem)
      last := List.all_eq_true.mp (by decide)
      apart := by decide }
  exact ⟨hlex, hspacing, relex_respaced text items "\n" hlex hspacing⟩

end CFrontEnd
