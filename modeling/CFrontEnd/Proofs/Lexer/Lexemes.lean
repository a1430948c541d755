import CFrontEnd.Proofs.Lexer.Coverage
import CFrontEnd.Proofs.Lexer.Isolation

/-!
# The Texts of Tokens

The kind of a token says what its text looks like. Tokens made by hand can break this rule, tokens
that are cut from a text cannot: the text is what a matcher of the kind took, after the matchers
with priority took nothing. So no reserved word is a name, a run of digits is an integer and never
a float, and every string has its two quotes.

## Main definitions

* `TokenKind.Spells`: the texts of the tokens of a kind.

## Main results

* `spells_of_classify`: a match is a text of its kind.
* `spells_of_mem_lex`: the tokens of a text have texts of their kinds.
* `isBlank_eq_false_of_mem_lex`: no blank stands inside a token of a text.
* `stringBody?_isSome_of_mem_lex`: every string token of a text has a first and a last byte to cut.
-/

namespace CFrontEnd

open Text

/-- A letter or an underscore, with letters, digits and underscores behind it, all of them ASCII. -/
def IsIdentifier (text : List Char) : Prop :=
  ∃ first rest, text = first :: rest ∧ Matcher.isNameStart first = true ∧
    ∀ c ∈ rest, Matcher.isNamePart c = true

/-- Decimal digits, or nothing. -/
def AllDigits (text : List Char) : Prop :=
  ∀ c ∈ text, c.isDigit = true

namespace TokenKind

/-- The texts of the kinds that have only finitely many. -/
def spellings : TokenKind → List String
  | .keyword => keywords
  | .openBrace => ["\x7b"]
  | .closeBrace => ["\x7d"]
  | .openParen => ["("]
  | .closeParen => [")"]
  | .semicolon => [";"]
  | .assignmentOperator => ["=", "+=", "-=", "*=", "/=", "%=", "&=", "^=", "|=", "<<=", ">>="]
  | .arithmeticOperator => ["++", "--", "+", "-", "*", "/", "%"]
  | .relationalOperator => ["==", "!=", ">=", "<=", "<", ">"]
  | .logicalOperator => ["&&", "||", "!"]
  | .identifier | .integer | .float | .string => []

/-- The texts of the tokens of a kind. -/
def Spells (kind : TokenKind) (text : List Char) : Prop :=
  match kind with
  | .identifier => IsIdentifier text ∧ String.ofList text ∉ keywords
  | .integer => text ≠ [] ∧ AllDigits text
  | .float => ∃ whole fraction, text = whole ++ '.' :: fraction ∧ AllDigits whole ∧
      AllDigits fraction ∧ (whole ≠ [] ∨ fraction ≠ [])
  | .string => ∃ body, text = '"' :: (body ++ ['"']) ∧ body ≠ [] ∧
      ∀ c ∈ body, Matcher.isStringPart c = true
  | kind => String.ofList text ∈ kind.spellings

/-- The texts of most kinds are fixed. -/
theorem spells_iff_mem_spellings {kind : TokenKind} (hkind : kind.spellings ≠ [])
    {text : List Char} : kind.Spells text ↔ String.ofList text ∈ kind.spellings := by
  cases kind
  case identifier | integer | float | string => exact absurd rfl hkind
  all_goals rfl

end TokenKind

namespace Matcher

variable {text : List Char} {length : Nat}

/-- A run of characters at the front is what `takeWhile` takes. -/
theorem take_takeWhile (p : Char → Bool) (text : List Char) :
    text.take (text.takeWhile p).length = text.takeWhile p :=
  (List.prefix_iff_eq_take.mp (List.takeWhile_prefix p)).symm

/-- The characters of a run have what the run is about. -/
theorem of_mem_takeWhile {p : Char → Bool} {c : Char} (h : c ∈ text.takeWhile p) : p c = true :=
  List.all_eq_true.mp List.all_takeWhile c h

theorem allDigits_take_digitRun (text : List Char) : AllDigits (text.take (digitRun text)) := by
  rw [digitRun, take_takeWhile]
  exact fun c hc => of_mem_takeWhile hc

theorem spells_of_char {kind : TokenKind} {c : Char} (hspells : kind.Spells [c])
    (h : char c text = some length) : kind.Spells (text.take length) := by
  cases text with
  | nil => simp [char] at h
  | cons first rest =>
    obtain ⟨rfl, rfl⟩ : first = c ∧ 1 = length := by simpa [char] using h
    exact hspells

theorem isIdentifier_of_identifier (h : identifier text = some length) :
    IsIdentifier (text.take length) := by
  cases text with
  | nil => simp [identifier] at h
  | cons first rest =>
    obtain ⟨hfirst, rfl⟩ : isNameStart first = true ∧
        1 + (rest.takeWhile isNamePart).length = length := by
      simpa [identifier] using h
    refine ⟨first, rest.takeWhile isNamePart, ?_, hfirst, fun c hc => of_mem_takeWhile hc⟩
    rw [Nat.add_comm, List.take_succ_cons, take_takeWhile]

/-- A name that is not matched as a reserved word is free. -/
theorem spells_of_identifier (hkeyword : keyword text = none)
    (h : identifier text = some length) : TokenKind.identifier.Spells (text.take length) :=
  ⟨isIdentifier_of_identifier h, by simpa [keyword, h] using hkeyword⟩

theorem spells_of_keyword (h : keyword text = some length) :
    TokenKind.keyword.Spells (text.take length) := by
  have hmem := (Option.filter_eq_some_iff.mp h).2
  simpa [TokenKind.Spells, TokenKind.spellings] using hmem

theorem spells_of_assignmentOperator (h : assignmentOperator text = some length) :
    TokenKind.assignmentOperator.Spells (text.take length) := by
  unfold assignmentOperator at h
  split at h
  -- an operator that goes together with the sign
  case h_5 =>
    obtain ⟨hcompound, rfl⟩ := Option.ite_none_right_eq_some.mp h |>.imp_right Option.some.inj
    simp only [isCompound, Bool.and_eq_true, List.contains_iff_mem, List.mem_cons,
      List.not_mem_nil, or_false] at hcompound
    rcases hcompound.1 with rfl | rfl | rfl | rfl | rfl | rfl | rfl | rfl <;>
      simp [TokenKind.Spells, TokenKind.spellings]
  case h_3 | h_6 => simp at h
  all_goals
    obtain rfl := Option.some.inj h
    simp [TokenKind.Spells, TokenKind.spellings]

theorem spells_of_arithmeticOperator (h : arithmeticOperator text = some length) :
    TokenKind.arithmeticOperator.Spells (text.take length) := by
  unfold arithmeticOperator at h
  split at h
  case h_8 => simp at h
  all_goals
    obtain rfl := Option.some.inj h
    simp [TokenKind.Spells, TokenKind.spellings]

theorem spells_of_relationalOperator (h : relationalOperator text = some length) :
    TokenKind.relationalOperator.Spells (text.take length) := by
  unfold relationalOperator at h
  split at h
  case h_7 => simp at h
  all_goals
    obtain rfl := Option.some.inj h
    simp [TokenKind.Spells, TokenKind.spellings]

theorem spells_of_logicalOperator (h : logicalOperator text = some length) :
    TokenKind.logicalOperator.Spells (text.take length) := by
  unfold logicalOperator at h
  split at h
  case h_3 | h_5 => simp at h
  all_goals
    obtain rfl := Option.some.inj h
    simp [TokenKind.Spells, TokenKind.spellings]

theorem spells_of_integer (h : integer text = some length) :
    TokenKind.integer.Spells (text.take length) := by
  obtain ⟨⟨hpos, -⟩, rfl⟩ : (0 < digitRun text ∧ (text.drop (digitRun text)).head? ≠ some '.') ∧
      digitRun text = length := by
    simpa [integer] using h
  refine ⟨fun hnil => ?_, allDigits_take_digitRun text⟩
  have hle := digitRun_le text
  rw [List.take_eq_nil_iff] at hnil
  rcases hnil with hzero | rfl
  · omega
  · simp at hle
    omega

/-- Digits that are not matched as an integer go on with a point. -/
theorem spells_of_float (hinteger : integer text = none) (h : float text = some length) :
    TokenKind.float.Spells (text.take length) := by
  have hwhole := digitRun_le text
  simp only [float] at h
  split at h
  · rename_i rest hdrop
    obtain ⟨hsome, rfl⟩ := Option.ite_none_right_eq_some.mp h |>.imp_right Option.some.inj
    have hfraction := digitRun_le rest
    refine ⟨text.take (digitRun text), rest.take (digitRun rest), ?_,
      allDigits_take_digitRun text, allDigits_take_digitRun rest, ?_⟩
    · rw [Nat.add_assoc, List.take_add, hdrop, Nat.add_comm 1, List.take_succ_cons]
    · refine hsome.imp (fun hpos => ?_) fun hpos => ?_
      · exact List.ne_nil_of_length_pos (by rw [List.length_take]; omega)
      · exact List.ne_nil_of_length_pos (by rw [List.length_take]; omega)
  · rename_i hpoint
    -- digits alone would have been matched as an integer
    obtain ⟨hpos, -⟩ := Option.ite_none_right_eq_some.mp h
    rw [integer, if_pos ⟨hpos, fun hhead => (List.head?_eq_some_iff.mp hhead).elim hpoint⟩]
      at hinteger
    simp at hinteger

theorem spells_of_string (h : string text = some length) :
    TokenKind.string.Spells (text.take length) := by
  simp only [string] at h
  split at h
  · rename_i rest
    obtain ⟨⟨hpos, hquote⟩, rfl⟩ :=
      Option.ite_none_right_eq_some.mp h |>.imp_right Option.some.inj
    obtain ⟨after, hafter⟩ := List.head?_eq_some_iff.mp hquote
    refine ⟨rest.takeWhile isStringPart, ?_, List.ne_nil_of_length_pos hpos,
      fun c hc => of_mem_takeWhile hc⟩
    -- the body and the closing quote
    rw [List.take_succ_cons, List.take_add, hafter, take_takeWhile]
    rfl
  · simp at h

end Matcher

/-- A match is a match of the classifier of its kind, and those before it in the table match
nothing. -/
theorem exists_matcher_of_classify {text : List Char} {kind : TokenKind} {length : Nat}
    (h : classify text = some (kind, length)) :
    ∃ matcher, (kind, matcher) ∈ classifiers ∧ matcher text = some length ∧
      ∀ classifier ∈ classifiers.takeWhile (·.1 ≠ kind), classifier.2 text = none := by
  obtain ⟨before, classifier, after, htable, hmatch, hbefore⟩ := List.findSome?_eq_some_iff.mp h
  obtain ⟨taken, htaken, heq⟩ := Option.map_eq_some_iff.mp hmatch
  obtain ⟨rfl, rfl⟩ := Prod.mk.inj heq
  refine ⟨classifier.2, by simp [htable], htaken, fun other hother => ?_⟩
  -- the classifiers of other kinds end before the one that matches
  have hmem : other ∈ before := by
    rw [htable, List.takeWhile_append, List.takeWhile_cons_of_neg (by simp),
      List.append_nil] at hother
    split at hother
    · exact hother
    · exact (List.takeWhile_sublist _).subset hother
  simpa using hbefore other hmem

/-- A match is a text of its kind. -/
theorem spells_of_classify {text : List Char} {kind : TokenKind} {length : Nat}
    (h : classify text = some (kind, length)) : kind.Spells (text.take length) := by
  obtain ⟨matcher, hmem, hmatch, hbefore⟩ := exists_matcher_of_classify h
  -- in the order of the table
  simp only [classifiers, List.mem_cons, Prod.mk.injEq, List.not_mem_nil, or_false] at hmem
  rcases hmem with ⟨rfl, rfl⟩ | ⟨rfl, rfl⟩ | ⟨rfl, rfl⟩ | ⟨rfl, rfl⟩ | ⟨rfl, rfl⟩ | ⟨rfl, rfl⟩ |
    ⟨rfl, rfl⟩ | ⟨rfl, rfl⟩ | ⟨rfl, rfl⟩ | ⟨rfl, rfl⟩ | ⟨rfl, rfl⟩ | ⟨rfl, rfl⟩ | ⟨rfl, rfl⟩ |
    ⟨rfl, rfl⟩
  · exact Matcher.spells_of_keyword hmatch
  · exact Matcher.spells_of_char (by simp [TokenKind.Spells, TokenKind.spellings]) hmatch
  · exact Matcher.spells_of_char (by simp [TokenKind.Spells, TokenKind.spellings]) hmatch
  · exact Matcher.spells_of_char (by simp [TokenKind.Spells, TokenKind.spellings]) hmatch
  · exact Matcher.spells_of_char (by simp [TokenKind.Spells, TokenKind.spellings]) hmatch
  · exact Matcher.spells_of_char (by simp [TokenKind.Spells, TokenKind.spellings]) hmatch
  · exact Matcher.spells_of_assignmentOperator hmatch
  · exact Matcher.spells_of_arithmeticOperator hmatch
  · exact Matcher.spells_of_relationalOperator hmatch
  · exact Matcher.spells_of_logicalOperator hmatch
  -- reserved words come before names, and integers before floats
  · have hkeyword := hbefore (.keyword, Matcher.keyword) (by simp [classifiers])
    exact Matcher.spells_of_identifier hkeyword hmatch
  · exact Matcher.spells_of_integer hmatch
  · have hinteger := hbefore (.integer, Matcher.integer) (by simp [classifiers])
    exact Matcher.spells_of_float hinteger hmatch
  · exact Matcher.spells_of_string hmatch

/-- The tokens of a text have texts of their kinds. -/
theorem spells_of_mem_lex {text : String} {token : Token} (h : token ∈ lex text) :
    token.kind.Spells token.lexeme.toList := by
  obtain ⟨before, after, -, -, -, -, hmatch⟩ :=
    (Piece.cuts_scan text.toList).place (mem_lex_iff.mp h)
  have hspells := spells_of_classify hmatch
  rwa [List.take_left] at hspells

/-- No blank stands inside a match, since the match would have ended before it. -/
theorem isBlank_eq_false_of_classify {text : List Char} {kind : TokenKind} {length : Nat}
    (h : classify text = some (kind, length)) {c : Char} (hc : c ∈ text.take length) :
    isBlank c = false := by
  cases hblank : isBlank c with
  | false => rfl
  | true =>
    obtain ⟨word, others, htake⟩ := List.append_of_mem hc
    have hrest : Isolated (c :: others ++ text.drop length) := by simpa [Isolated] using hblank
    have hword : classify word = some (kind, length) := by
      rw [← classify_append hrest, ← h, ← List.append_assoc, ← htake, List.take_append_drop]
    have hle := (classify_bounds hword).2
    have hlength : length = word.length + (others.length + 1) := by
      rw [← List.length_cons, ← List.length_append, ← htake, List.length_take,
        Nat.min_eq_left (classify_bounds h).2]
    omega

/-- No blank stands inside a token of a text. -/
theorem isBlank_eq_false_of_mem_lex {text : String} {token : Token} (h : token ∈ lex text)
    {c : Char} (hc : c ∈ token.lexeme.toList) : isBlank c = false := by
  obtain ⟨before, after, -, -, -, -, hmatch⟩ :=
    (Piece.cuts_scan text.toList).place (mem_lex_iff.mp h)
  refine isBlank_eq_false_of_classify hmatch ?_
  rwa [List.take_left]

/-- Every string token of a text has a first and a last byte to cut. -/
theorem stringBody?_isSome_of_mem_lex {text : String} {token : Token} (h : token ∈ lex text)
    (hstring : token.kind = .string) : token.stringBody?.isSome = true := by
  obtain ⟨body, hlexeme, -⟩ : TokenKind.string.Spells token.lexeme.toList :=
    hstring ▸ spells_of_mem_lex h
  exact Option.isSome_iff_exists.mpr ⟨String.ofList body,
    Token.stringBody?_eq_some_iff.mpr ⟨'"', '"', by decide, by decide, by simpa using hlexeme⟩⟩

end CFrontEnd
