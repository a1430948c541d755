import CFrontEnd.Proofs.Lexer.Boundaries
import CFrontEnd.Tree

/-!
# Words

A word is a token without its place. Words that stand in a text with blanks between any two of them
come back from it, each with its own kind and text: a name that is not reserved, a run of digits, a
run of digits with a point inside, a quoted text and every fixed spelling of the language. On its
own, every text of a kind is a word, since nothing follows it.

## Main definitions

* `Word.Lexes`: the text of the word, on its own, is a token of the word's kind.
* `Spaced`: a text in which words stand apart.

## Main results

* `Word.lexes_of_spells`: every text of a kind is a word.
* `lex_spaced`: a text of words that stand apart has exactly these words.
* `Word.Lexes.lex_eq`: a word on its own is a text with one token.
-/

namespace CFrontEnd

open Text

/-- A token without its place. -/
structure Word where
  /-- The class of the token. -/
  kind : TokenKind
  /-- The text of the token. -/
  lexeme : String
deriving DecidableEq, Repr

/-- The token without its place. -/
def Token.word (token : Token) : Word :=
  { kind := token.kind, lexeme := token.lexeme }

/-- The text of the word, on its own, is a token of the word's kind. -/
def Word.Lexes (word : Word) : Prop :=
  classify word.lexeme.toList = some (word.kind, word.lexeme.toList.length)

/-! ### Which texts are words -/

/-- Every text of a kind is a word. -/
theorem Word.lexes_of_spells {word : Word} (h : word.kind.Spells word.lexeme.toList) :
    word.Lexes := by
  have hmatch : classify (word.lexeme.toList ++ []) =
      some (word.kind, word.lexeme.toList.length) :=
    classify_append_iff.mpr ⟨h, word.kind.stops_nil word.lexeme.toList⟩
  rwa [List.append_nil] at hmatch

instance (word : Word) : Decidable word.Lexes :=
  inferInstanceAs (Decidable (_ = _))

theorem UnaryOp.lexes (operator : UnaryOp) : Word.Lexes ⟨operator.kind, operator.spelling⟩ := by
  cases operator <;> decide

theorem BinaryOp.lexes (operator : BinaryOp) : Word.Lexes ⟨operator.kind, operator.spelling⟩ := by
  cases operator <;> decide

theorem AssignOp.lexes (operator : AssignOp) :
    Word.Lexes ⟨.assignmentOperator, operator.spelling⟩ := by
  cases operator <;> decide

/-- Every reserved word is a word. -/
theorem keyword_lexes {spelling : String} (h : spelling ∈ keywords) :
    Word.Lexes ⟨.keyword, spelling⟩ := by
  refine Word.lexes_of_spells ?_
  show String.ofList spelling.toList ∈ keywords
  rwa [String.ofList_toList]

/-! ### Words in a text -/

/-- The words stand in the text in this order, with blanks between any two of them. -/
inductive Spaced : List Word → List Char → Prop
  | done : Spaced [] []
  | blank {first : Char} {words : List Word} {text : List Char} :
      isBlank first = true → Spaced words text → Spaced words (first :: text)
  | word {word : Word} {words : List Word} {text : List Char} :
      Isolated text → Spaced words text → Spaced (word :: words) (word.lexeme.toList ++ text)

/-- A scan of words that stand apart finds these words. -/
theorem Spaced.words_scanWith {words : List Word} {text : List Char} (h : Spaced words text)
    (hlexes : ∀ word ∈ words, word.Lexes) (offset : Nat) :
    ((Piece.scanWith classifiers offset text).filterMap Piece.token?).map Token.word = words := by
  -- one step of the scan for each step of the spacing
  induction h generalizing offset with
  | done =>
    rw [Piece.scanWith]
    rfl
  | blank hblank _ ih =>
    rw [Piece.scanWith_of_none (classify_blank hblank),
      List.filterMap_cons_none (f := Piece.token?) rfl]
    exact ih hlexes _
  | @word word words text hisolated _ ih =>
    have hmatch : classify (word.lexeme.toList ++ text) =
        some (word.kind, word.lexeme.toList.length) := by
      rw [classify_append hisolated]
      exact hlexes word List.mem_cons_self
    rw [Piece.scanWith_of_match hmatch, List.take_left, List.drop_left, String.ofList_toList,
      List.filterMap_cons_some (f := Piece.token?) rfl, List.map_cons,
      ih fun other hmem => hlexes other (List.mem_cons_of_mem _ hmem)]
    rfl

/-- A text of words that stand apart has exactly these words. -/
theorem lex_spaced {words : List Word} {text : String} (h : Spaced words text.toList)
    (hlexes : ∀ word ∈ words, word.Lexes) : (lex text).map Token.word = words :=
  h.words_scanWith hlexes 0

/-- A word on its own is a text with one token. -/
theorem Word.Lexes.lex_eq {word : Word} (h : word.Lexes) :
    lex word.lexeme =
      [{ kind := word.kind
         lexeme := word.lexeme
         span := { start := 0, stop := word.lexeme.utf8ByteSize } }] := by
  rw [lex_eq_scan, Piece.scan, Piece.scanWith_of_match h, List.take_length, List.drop_length,
    String.ofList_toList, byteLength_toList, Piece.scanWith, Nat.zero_add]
  rfl

/-- Words can be made to stand apart. -/
theorem exists_spaced (words : List Word) : ∃ text, Isolated text ∧ Spaced words text := by
  induction words with
  | nil => exact ⟨[], by simp [Isolated], .done⟩
  | cons word words ih =>
    obtain ⟨text, hisolated, hspaced⟩ := ih
    exact ⟨' ' :: (word.lexeme.toList ++ text), by simp [Isolated, isBlank],
      .blank rfl (.word hisolated hspaced)⟩

end CFrontEnd
