import CFrontEnd.Proofs.Lexer.Boundaries
import CFrontEnd.Proofs.Lexer.Concatenation

/-!
# Skipped Characters

A character is skipped exactly where it can start no token: it is no letter, no digit, no underscore
and no mark, or a mark, a point or a quote without the characters that it needs. What is skipped
carries nothing: with blanks in its place, a text has the same tokens at the same places, since no
token ends for the sake of a skipped character.

## Main definitions

* `Passed`: the condition under which the lexer passes over a character.
* `blanked`: a text with blanks for the characters that are passed over.
* `BlankedOut`: a text and the same text with blanks for some of its characters.

## Main results

* `classify_eq_none_iff`: nothing matches exactly under this condition.
* `BlankedOut.stops`: a token that ends in front of a text ends in front of the blanked text.
* `Piece.Cuts.filterMap_scanWith_blanked`: a blanked text has the tokens of the text.
* `skipping_exact`: which characters are skipped, and that blanks can stand for them.
-/

namespace CFrontEnd

open Text Matcher

/-! ### Which characters are passed over -/

/-- The characters that are tokens, or start one, whatever follows them. -/
def certainMarks : List Char :=
  ['\x7b', '\x7d', '(', ')', ';', '+', '-', '*', '/', '%', '=', '<', '>', '!']

/-- The lexer passes over the first character of a text. -/
structure Passed (first : Char) (rest : List Char) : Prop where
  /-- The first character is no ASCII letter, no digit and no underscore. -/
  name : isNamePart first = false
  /-- The first character is none of the marks that are tokens whatever follows them. -/
  mark : first ∉ certainMarks
  /-- A `&` or a `|` is not followed by itself. -/
  doubled : first = '&' ∨ first = '|' → rest.head? ≠ some first
  /-- A `&`, a `|` or a `^` is not followed by a single `=`. -/
  assigned : first = '&' ∨ first = '|' ∨ first = '^' → ¬SingleEquals rest
  /-- A point is not followed by a digit. -/
  point : first = '.' → ∀ c ∈ rest.head?, c.isDigit = false
  /-- A quote is not followed by letters, digits and underscores, at least one, and a quote. -/
  quoted : first = '"' → ∀ body after, rest = body ++ '"' :: after → body ≠ [] →
    ¬∀ c ∈ body, isStringPart c = true

section Condition

variable {first : Char} {rest : List Char}

/-- The characters `&`, `|` and `^` are passed over where they are no operator. -/
theorem classify_bitwise_eq_none_iff (h : first = '&' ∨ first = '|' ∨ first = '^') :
    classify (first :: rest) = none ↔ Passed first rest := by
  rw [classify_bitwise (by simpa using h)]
  constructor
  · intro hnone
    split_ifs at hnone with hsingle hdouble
    exact
      { name := by rcases h with rfl | rfl | rfl <;> rfl
        mark := by rcases h with rfl | rfl | rfl <;> decide
        doubled := fun hsign hhead =>
          hdouble ⟨by rcases hsign with rfl | rfl <;> decide, hhead⟩
        assigned := fun _ => hsingle
        point := by
          rintro rfl
          exact absurd h (by decide)
        quoted := by
          rintro rfl
          exact absurd h (by decide) }
  · intro hpassed
    have hdouble : ¬(first ≠ '^' ∧ rest.head? = some first) := by
      rintro ⟨hne, hhead⟩
      exact hpassed.doubled (by tauto) hhead
    rw [if_neg (hpassed.assigned h), if_neg hdouble]

/-- A point is passed over in front of anything but a digit. -/
theorem classify_point_eq_none_iff : classify ('.' :: rest) = none ↔ Passed '.' rest := by
  have hnone : AllDigits [] := by simp [AllDigits]
  have hrun : digitRun rest = 0 ↔ ∀ c ∈ rest.head?, c.isDigit = false :=
    digitRun_append_eq_iff hnone
  have hmatch : classify ('.' :: rest) = none ↔ digitRun rest = 0 := by
    rw [classify_eq_head?, candidates_other (by decide) (by decide), if_pos rfl]
    split_ifs with hpos
    · simp [Nat.ne_of_gt hpos]
    · simp [Nat.eq_zero_of_not_pos hpos]
  rw [hmatch, hrun]
  constructor
  · intro h
    exact
      { name := rfl
        mark := by decide
        doubled := by simp
        assigned := by simp
        point := fun _ => h
        quoted := by simp }
  · exact fun h => h.point rfl

/-- A quote is passed over where no string is closed. -/
theorem classify_quote_eq_none_iff : classify ('"' :: rest) = none ↔ Passed '"' rest := by
  constructor
  · intro hnone
    refine
      { name := rfl
        mark := by decide
        doubled := by simp
        assigned := by simp
        point := by simp
        quoted := fun _ body after hrest hne hbody => ?_ }
    -- the quote would open a string
    have hmatch : classify ('"' :: (body ++ ['"']) ++ after) =
        some (.string, ('"' :: (body ++ ['"'])).length) := classify_string_append hne hbody
    rw [List.cons_append, List.append_assoc, List.singleton_append, ← hrest, hnone] at hmatch
    cases hmatch
  · intro hpassed
    rw [classify_eq_head?, candidates_other (by decide) (by decide), if_neg (by decide)]
    cases hstring : string ('"' :: rest) with
    | none => rfl
    | some length =>
      obtain ⟨body, htake, hne, hbody⟩ := spells_of_string hstring
      have hrest : rest = body ++ '"' :: ('"' :: rest).drop length := by
        have hall := List.take_append_drop length ('"' :: rest)
        rw [htake, List.cons_append, List.append_assoc] at hall
        exact (List.cons.inj hall).2.symm
      exact absurd hbody (hpassed.quoted rfl _ _ hrest hne)

theorem mem_marks_of_mem_certainMarks (h : first ∈ certainMarks) : first ∈ marks := by
  have hall : certainMarks.all (fun c => decide (c ∈ marks)) = true := by decide
  exact of_decide_eq_true (List.all_eq_true.mp hall first h)

/-- A text that starts with such a mark starts with a token. -/
theorem classify_ne_none (h : first ∈ certainMarks) : classify (first :: rest) ≠ none := by
  rcases mark_cases (mem_marks_of_mem_certainMarks h) with
    hsingle | harithmetic | hrelational | hbitwise | rfl | rfl
  · obtain ⟨⟨kind, _⟩, hkind, rfl⟩ := List.mem_map.mp hsingle
    rw [classify_eq_head?, candidates_single hkind]
    exact Option.some_ne_none _
  · rw [classify_arithmetic harithmetic]
    split_ifs <;> exact Option.some_ne_none _
  · rw [classify_relational hrelational]
    split_ifs <;> exact Option.some_ne_none _
  · simp only [List.mem_cons, List.not_mem_nil, or_false] at hbitwise
    rcases hbitwise with rfl | rfl | rfl <;> exact absurd h (by decide)
  · rw [classify_equals]
    split_ifs <;> exact Option.some_ne_none _
  · rw [classify_not]
    split_ifs <;> exact Option.some_ne_none _

/-- The first character is passed over exactly where nothing matches. -/
theorem classify_eq_none_iff : classify (first :: rest) = none ↔ Passed first rest := by
  by_cases hbitwise : first = '&' ∨ first = '|' ∨ first = '^'
  · exact classify_bitwise_eq_none_iff hbitwise
  by_cases hpoint : first = '.'
  · subst hpoint
    exact classify_point_eq_none_iff
  by_cases hquote : first = '"'
  · subst hquote
    exact classify_quote_eq_none_iff
  by_cases hpart : isNamePart first = true
  · have hname : classify (first :: rest) ≠ none := by
      rcases isNamePart_cases hpart with hstart | hdigit
      · rw [classify_isNameStart hstart]
        exact Option.some_ne_none _
      · rw [classify_eq_head?, candidates_digits hdigit]
        split_ifs <;> exact Option.some_ne_none _
    exact iff_of_false hname fun hpassed => by simpa [hpart] using hpassed.name
  have hpart := Bool.eq_false_of_not_eq_true hpart
  by_cases hmark : first ∈ marks
  · have hall : marks.all (fun c => decide (c ∈ certainMarks ∨
        (c = '&' ∨ c = '|' ∨ c = '^'))) = true := by decide
    have hcertain : first ∈ certainMarks :=
      (of_decide_eq_true (List.all_eq_true.mp hall first hmark)).resolve_right hbitwise
    exact iff_of_false (classify_ne_none hcertain) fun hpassed => hpassed.mark hcertain
  · have hnone : classify (first :: rest) = none := by
      rw [classify_eq_head?, candidates_other hmark hpart, if_neg hpoint]
      simp [string, hquote]
    exact iff_of_true hnone
      { name := hpart
        mark := mt mem_marks_of_mem_certainMarks hmark
        doubled := fun h => absurd (h.imp_right .inl) hbitwise
        assigned := fun h => absurd h hbitwise
        point := fun h => absurd h hpoint
        quoted := fun h => absurd h hquote }

end Condition

/-! ### Blanks for what is passed over -/

/-- The second text is the first one with blanks for some of its characters. -/
inductive BlankedOut : List Char → List Char → Prop
  | done : BlankedOut [] []
  | keep {c : Char} {text other : List Char} :
      BlankedOut text other → BlankedOut (c :: text) (c :: other)
  | blank {c : Char} {text other : List Char} {count : Nat} :
      0 < count → BlankedOut text other →
        BlankedOut (c :: text) (List.replicate count ' ' ++ other)

namespace BlankedOut

variable {text other : List Char}

theorem append (h : BlankedOut text other) (first : List Char) :
    BlankedOut (first ++ text) (first ++ other) := by
  induction first with
  | nil => exact h
  | cons c first ih => exact .keep ih

/-- What is not blank was not changed. -/
theorem exists_cons {c : Char} (h : BlankedOut text (c :: other)) (hc : c ≠ ' ') :
    ∃ rest, text = c :: rest ∧ BlankedOut rest other := by
  generalize hother : c :: other = blanked at h
  cases h with
  | done => exact absurd hother (by simp)
  | @keep d text others hrest =>
    obtain ⟨rfl, rfl⟩ := List.cons.inj hother
    exact ⟨text, rfl, hrest⟩
  | blank hpos hrest =>
    obtain ⟨count, rfl⟩ := Nat.exists_eq_add_one_of_ne_zero (Nat.ne_of_gt hpos)
    exact absurd (List.cons.inj hother).1 hc

theorem head?_eq {c : Char} (h : BlankedOut text other) (hc : c ≠ ' ')
    (hhead : other.head? = some c) : text.head? = some c := by
  obtain ⟨after, rfl⟩ := List.head?_eq_some_iff.mp hhead
  obtain ⟨rest, rfl, -⟩ := h.exists_cons hc
  rfl

theorem getElem?_one {c d : Char} (h : BlankedOut text other) (hc : c ≠ ' ') (hd : d ≠ ' ')
    (hfirst : other.head? = some c) (hsecond : other[1]? = some d) : text[1]? = some d := by
  obtain ⟨after, rfl⟩ := List.head?_eq_some_iff.mp hfirst
  obtain ⟨rest, rfl, hrest⟩ := h.exists_cons hc
  rw [List.getElem?_cons_succ, ← List.head?_eq_getElem?] at hsecond ⊢
  exact hrest.head?_eq hd hsecond

/-- What no character in front has is had by none after blanking. -/
theorem forall_head? {p : Char → Prop} (h : BlankedOut text other) (hblank : p ' ')
    (hp : ∀ c ∈ text.head?, p c) : ∀ c ∈ other.head?, p c := by
  intro c hc
  by_cases heq : c = ' '
  · exact heq ▸ hblank
  · exact hp c (h.head?_eq heq hc)

/-- A token that ends in front of a text ends in front of the blanked one, if two `=` in front are
kept together. -/
theorem stops (h : BlankedOut text other) {kind : TokenKind} {lexeme : List Char}
    (hequals : text.head? = some '=' → text[1]? = some '=' → other[1]? = some '=')
    (hstops : kind.Stops lexeme text) : kind.Stops lexeme other := by
  have hhead : text.head? ≠ some '=' → other.head? ≠ some '=' := mt (h.head?_eq (by decide))
  cases kind with
  | keyword | identifier | integer | float => exact h.forall_head? (by decide) hstops
  | assignmentOperator | logicalOperator => exact hstops.imp_right hhead
  | arithmeticOperator =>
    refine hstops.imp_right fun ⟨hsingle, hsign⟩ => ⟨?_, ?_⟩
    -- a single `=` in the blanked text would be a single one in the text
    · rintro ⟨hfirst, hsecond⟩
      have hown := h.head?_eq (by decide) hfirst
      refine hsecond (hequals hown ?_)
      by_contra hne
      exact hsingle ⟨hown, hne⟩
    · intro sign hsigns hlexeme
      exact mt (h.head?_eq (by rcases hsigns with rfl | rfl <;> decide)) (hsign sign hsigns hlexeme)
  | relationalOperator =>
    refine hstops.imp_right fun ⟨hfirst, hsign⟩ => ⟨hhead hfirst, ?_⟩
    rintro sign hsigns hlexeme ⟨hsame, hsecond⟩
    have hne : sign ≠ ' ' := by rcases hsigns with rfl | rfl <;> decide
    exact hsign sign hsigns hlexeme
      ⟨h.head?_eq hne hsame, h.getElem?_one hne (by decide) hsame hsecond⟩
  | openBrace | closeBrace | openParen | closeParen | semicolon | string => trivial

end BlankedOut

namespace Piece

/-- The text of the piece, with blanks for a character that is passed over. -/
def blanked : Piece → List Char
  | .token found => found.lexeme.toList
  | .skipped _ character => List.replicate character.utf8Size ' '

variable {offset : Nat} {text : List Char} {pieces : List Piece}

theorem Cuts.blankedOut (h : Cuts offset text pieces) :
    BlankedOut text (pieces.flatMap Piece.blanked) := by
  induction h with
  | done => exact .done
  | token hne hmatch hcuts ih =>
    simp only [List.flatMap_cons, Piece.blanked, String.toList_ofList]
    exact ih.append _
  | @skipped offset first rest pieces hmatch hcuts ih => exact .blank first.utf8Size_pos ih

/-- The first token of a text is kept. -/
theorem Cuts.take_isPrefix (h : Cuts offset text pieces) {kind : TokenKind} {length : Nat}
    (hmatch : classify text = some (kind, length)) :
    text.take length <+: pieces.flatMap Piece.blanked := by
  cases h with
  | done => simp
  | token hne hfound hcuts =>
    obtain ⟨-, rfl⟩ := Prod.mk.inj (Option.some.inj (hfound.symm.trans hmatch))
    simp [Piece.blanked]
  | skipped hnone hcuts =>
    rw [hnone] at hmatch
    cases hmatch

/-- A blank takes one byte. -/
theorem byteLength_replicate_blank (count : Nat) :
    byteLength (List.replicate count ' ') = count := by
  rw [byteLength_of_ascii fun c hmem => by rw [List.eq_of_mem_replicate hmem]; rfl,
    List.length_replicate]

/-- Two `=` at the front of a text are a token, so the second one is kept with the first. -/
theorem Cuts.equals_blanked (h : Cuts offset text pieces) (hfirst : text.head? = some '=')
    (hsecond : text[1]? = some '=') : (pieces.flatMap Piece.blanked)[1]? = some '=' := by
  obtain ⟨rest, rfl⟩ := List.head?_eq_some_iff.mp hfirst
  rw [List.getElem?_cons_succ, ← List.head?_eq_getElem?] at hsecond
  obtain ⟨more, rfl⟩ := List.head?_eq_some_iff.mp hsecond
  have hmatch : classify ('=' :: '=' :: more) = some (.relationalOperator, 2) := by
    rw [classify_equals, List.head?_cons, if_pos rfl]
  obtain ⟨after, hafter⟩ := h.take_isPrefix hmatch
  rw [← hafter]
  rfl

/-- With blanks for the characters that are passed over, a text has the same tokens. -/
theorem Cuts.filterMap_scanWith_blanked (h : Cuts offset text pieces) :
    (scanWith classifiers offset (pieces.flatMap Piece.blanked)).filterMap token? =
      pieces.filterMap token? := by
  -- along the cut of the text; each token ends where it did, as what follows it lets it end
  induction h with
  | done =>
    rw [List.flatMap_nil, scanWith]
  | @token offset kind lexeme rest pieces hne hmatch hcuts ih =>
    obtain ⟨hspells, hstops⟩ := classify_append_iff.mp hmatch
    have hother : classify (lexeme ++ pieces.flatMap Piece.blanked) =
        some (kind, lexeme.length) :=
      classify_append_iff.mpr ⟨hspells, hcuts.blankedOut.stops hcuts.equals_blanked hstops⟩
    rw [List.flatMap_cons, Piece.blanked, String.toList_ofList, scanWith_of_match hother,
      List.take_left, List.drop_left, List.filterMap_cons_some (f := token?) rfl, ih]
    rfl
  | @skipped offset first rest pieces hmatch hcuts ih =>
    have hblanks : ∀ c ∈ List.replicate first.utf8Size ' ', isBlank c = true := by
      intro c hc
      rw [List.eq_of_mem_replicate hc]
      rfl
    rw [List.flatMap_cons, Piece.blanked, filterMap_scanWith_blanks (fun _ _ _ => rfl) hblanks,
      byteLength_replicate_blank, ih, List.filterMap_cons_none rfl]

/-- The texts of the pieces, put back together, give the text. -/
theorem Cuts.flatten (h : Cuts offset text pieces) : pieces.flatMap Piece.text = text := by
  induction h with
  | done => rfl
  | token hne hmatch hcuts ih => simp [Piece.text, ih]
  | skipped hmatch hcuts ih => simp [Piece.text, ih]

/-- Behind some pieces of a text, the other pieces are those of the rest of it. -/
theorem Cuts.behind {before after : List Piece} (h : Cuts offset text (before ++ after)) :
    Cuts (offset + byteLength (before.flatMap Piece.text)) (after.flatMap Piece.text) after := by
  induction before generalizing offset text with
  | nil =>
    have hflat : after.flatMap Piece.text = text := h.flatten
    rwa [hflat]
  | cons piece before ih =>
    -- the first piece has its place, and the others follow it
    cases h with
    | token hne hmatch hcuts =>
      rw [List.flatMap_cons, byteLength_append, Piece.text, String.toList_ofList, ← Nat.add_assoc]
      exact ih hcuts
    | skipped hmatch hcuts =>
      rw [List.flatMap_cons, byteLength_append, ← Nat.add_assoc]
      exact ih hcuts

/-- The first piece is a skipped character exactly if nothing matches. -/
theorem Cuts.exists_skipped_iff {first : Char} {rest : List Char}
    (h : Cuts offset (first :: rest) pieces) :
    (∃ later, pieces = .skipped offset first :: later) ↔ classify (first :: rest) = none := by
  generalize htext : first :: rest = text at h ⊢
  cases h with
  | done => cases htext
  | token hne hmatch hcuts => simp [hmatch]
  | skipped hmatch hcuts =>
    cases htext
    exact iff_of_true ⟨_, rfl⟩ hmatch

end Piece

/-- The text with as many blanks as bytes for each character that is passed over. -/
def blanked (text : String) : String :=
  String.ofList ((Piece.scan text.toList).flatMap Piece.blanked)

/-- At each place that the lexer comes to, it passes over the character there exactly if no token
can start with it, and blanks in the place of all such characters leave the tokens as they are. -/
theorem skipping_exact :
    (∀ (text : String) (before after : List Piece) (first : Char) (rest : List Char),
      Piece.scan text.toList = before ++ after → after.flatMap Piece.text = first :: rest →
        ((∃ later, after =
            .skipped (byteLength (before.flatMap Piece.text)) first :: later) ↔
          Passed first rest)) ∧
      ∀ text : String, lex (blanked text) = lex text := by
  refine ⟨fun text before after first rest hscan hrest => ?_, fun text => ?_⟩
  · have hcuts := Piece.cuts_scan text.toList
    rw [hscan] at hcuts
    have hbehind := hcuts.behind
    rw [hrest, Nat.zero_add] at hbehind
    exact hbehind.exists_skipped_iff.trans classify_eq_none_iff
  · rw [lex_eq_scan, blanked, String.toList_ofList]
    exact (Piece.cuts_scan text.toList).filterMap_scanWith_blanked

/-- A `&` in front of two `=` is passed over, and a blank in its place leaves the operator behind it
as it is. -/
theorem skipping_exact_ampersand :
    let text := "&==1"
    let pieces := Piece.scan text.toList
    pieces = [] ++ pieces ∧ pieces.flatMap Piece.text = '&' :: ['=', '=', '1'] ∧
      (∃ later, pieces = .skipped 0 '&' :: later) ∧ lex (blanked text) = lex text := by
  intro text pieces
  have hpassed : Passed '&' ['=', '=', '1'] :=
    { name := rfl
      mark := by decide
      doubled := fun _ => by decide
      assigned := fun _ => by decide
      point := fun h => absurd h (by decide)
      quoted := fun h => absurd h (by decide) }
  have hflat : pieces.flatMap Piece.text = '&' :: ['=', '=', '1'] :=
    (Piece.flatten_scan text.toList).trans (by decide)
  exact ⟨rfl, hflat, (skipping_exact.1 text [] pieces '&' _ rfl hflat).mpr hpassed,
    skipping_exact.2 text⟩

end CFrontEnd
