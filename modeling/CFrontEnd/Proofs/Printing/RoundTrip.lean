import CFrontEnd.Compilation
import CFrontEnd.Proofs.Decimal.Numerals
import CFrontEnd.Proofs.Parser.Acceptance
import CFrontEnd.Proofs.Printing.Layout

/-!
# Reading Back a Printed Program

Cutting a printed program into tokens gives back its words, and the words of a tree are a phrase of
the grammar with that tree. The proof goes over the layouts, one case for each way to write a tree.

## Main results

* `Layout.lexes`: every word of a well-formed tree is a token of its kind on its own.
* `Layout.derives`: tokens with the words of a tree are a phrase with that tree.
* `parseSource_printed`: a printed program is read back as it was.
-/

namespace CFrontEnd

open Grammar

/-! ### Words of names and literals -/

/-- A name that is not reserved is a word. -/
theorem Word.name_lexes {name : String} (h : IsName name) : (Word.name name).Lexes := by
  obtain ⟨hfree, hidentifier⟩ := h
  refine Word.lexes_of_spells ?_
  show IsIdentifier name.toList ∧ String.ofList name.toList ∉ keywords
  rw [String.ofList_toList]
  exact ⟨hidentifier, hfree⟩

/-- The name of a type is reserved. -/
theorem mem_keywords_of_mem_typeNames {typeName : String} (h : typeName ∈ typeNames) :
    typeName ∈ keywords := by
  have hall : ∀ name ∈ typeNames, name ∈ keywords := by decide
  exact hall typeName h

/-- The digits of an integer, with the zeros in front. -/
theorem isDigit_of_mem_padded {zeros n : Nat} {c : Char}
    (h : c ∈ List.replicate zeros '0' ++ Nat.toDigits 10 n) : c.isDigit = true := by
  rcases List.mem_append.mp h with hzero | hdigit
  · rw [List.eq_of_mem_replicate hzero]
    rfl
  · exact Nat.isDigit_of_mem_toDigits (by decide) (by decide) hdigit

theorem padded_ne_nil (zeros n : Nat) : List.replicate zeros '0' ++ Nat.toDigits 10 n ≠ [] :=
  List.append_ne_nil_of_right_ne_nil _ Nat.toDigits_ne_nil

theorem Word.integer_lexes (zeros : Nat) (value : Int64) : (Word.integer zeros value).Lexes := by
  refine Word.lexes_of_spells ?_
  rw [Word.integer, String.toList_ofList]
  exact ⟨padded_ne_nil zeros _, fun _ => isDigit_of_mem_padded⟩

theorem Word.float_lexes {spelling : String} {value : Binary64} (h : SpellsFloat spelling value) :
    (Word.float spelling).Lexes := by
  obtain ⟨-, whole, fraction, hspelling, hne, -, hwhole, hfraction⟩ := h
  exact Word.lexes_of_spells ⟨whole, fraction, hspelling, hwhole, hfraction, .inl hne⟩

theorem Word.string_lexes {body : String} (h : (Literal.string body).WellFormed) :
    (Word.string body).Lexes := by
  refine Word.lexes_of_spells ?_
  rw [Word.string, String.toList_ofList]
  exact ⟨body.toList, rfl, h.1, h.2⟩

/-- Every word of a well-formed tree is a token of its kind on its own. -/
theorem Layout.lexes {symbol : Nonterminal} {tree : symbol.Tree} {words : List Word}
    (h : Layout symbol tree words) (hwell : symbol.WellFormed tree) :
    ∀ word ∈ words, word.Lexes := by
  have hopen : Word.openParen.Lexes := by decide
  have hclose : Word.closeParen.Lexes := by decide
  have hopenBrace : Word.openBrace.Lexes := by decide
  have hcloseBrace : Word.closeBrace.Lexes := by decide
  have hsemicolon : Word.semicolon.Lexes := by decide
  -- the remaining words have names and literals of the tree, which are well formed
  have htype : ∀ typeName ∈ typeNames, (Word.reserved typeName).Lexes :=
    fun _ hmem => keyword_lexes (mem_keywords_of_mem_typeNames hmem)
  have hif : (Word.reserved "if").Lexes := by decide
  have helse : (Word.reserved "else").Lexes := by decide
  induction h with
  | program _ ih => exact ih hwell
  | noFunction | noArgument | noStmt => simp
  | functions _ _ ihfirst ihrest =>
    obtain ⟨hfirst, hrest⟩ := List.forall_mem_cons.mp hwell
    exact List.forall_mem_append.mpr ⟨ihfirst hfirst, ihrest hrest⟩
  | function _ _ ihparameters ihbody =>
    obtain ⟨hreturn, hname, harguments, hbody⟩ := hwell
    simp only [List.forall_mem_cons, List.forall_mem_append]
    exact ⟨htype _ hreturn, Word.name_lexes hname, hopen, ihparameters harguments, hclose,
      ihbody hbody⟩
  | arguments _ ih =>
    obtain ⟨hargument, harguments⟩ := List.forall_mem_cons.mp hwell
    simp only [List.forall_mem_cons]
    exact ⟨htype _ hargument.1, Word.name_lexes hargument.2, ih harguments⟩
  | block _ ih =>
    simp only [List.forall_mem_cons, List.forall_mem_append]
    exact ⟨hopenBrace, ih hwell, hcloseBrace, List.forall_mem_nil _⟩
  | stmts _ _ ihfirst ihrest =>
    exact List.forall_mem_append.mpr ⟨ihfirst hwell.1, ihrest hwell.2⟩
  | ret _ ih =>
    simp only [List.forall_mem_cons, List.forall_mem_append]
    exact ⟨by decide, ih hwell, hsemicolon,
      List.forall_mem_nil _⟩
  | assignment _ ih =>
    simp only [List.forall_mem_cons, List.forall_mem_append]
    exact ⟨Word.name_lexes hwell.1, AssignOp.lexes _, ih hwell.2, hsemicolon,
      List.forall_mem_nil _⟩
  | declaration =>
    simp only [List.forall_mem_cons]
    exact ⟨htype _ hwell.1, Word.name_lexes hwell.2, hsemicolon,
      List.forall_mem_nil _⟩
  | initialized _ ih =>
    obtain ⟨htypeName, hname, hvalue⟩ := hwell
    simp only [List.forall_mem_cons, List.forall_mem_append]
    exact ⟨htype _ htypeName, Word.name_lexes hname, AssignOp.lexes _, ih hvalue, hsemicolon,
      List.forall_mem_nil _⟩
  | conditional _ ih => exact ih hwell
  | ifThen _ _ ihcondition ihbody =>
    simp only [List.forall_mem_cons, List.forall_mem_append]
    exact ⟨hif, hopen, ihcondition hwell.1, hclose, ihbody hwell.2⟩
  | ifElse _ _ _ ihcondition ihbody ihrest =>
    obtain ⟨hcondition, hbody, hrest⟩ := hwell
    simp only [List.forall_mem_cons, List.forall_mem_append]
    exact ⟨hif, hopen, ihcondition hcondition, hclose, ihbody hbody, helse, ihrest hrest⟩
  | elseIf _ _ _ ihcondition ihbody ihrest =>
    obtain ⟨hcondition, hbody, hrest, -⟩ := hwell
    simp only [List.forall_mem_cons, List.forall_mem_append]
    exact ⟨hif, hopen, ihcondition hcondition, hclose, ihbody hbody, helse, ihrest hrest⟩
  | integer zeros => exact List.forall_mem_singleton.mpr (Word.integer_lexes zeros _)
  | float hspells => exact List.forall_mem_singleton.mpr (Word.float_lexes hspells)
  | string => exact List.forall_mem_singleton.mpr (Word.string_lexes hwell)
  | name => exact List.forall_mem_singleton.mpr (Word.name_lexes hwell)
  | unary _ ih => exact List.forall_mem_cons.mpr ⟨UnaryOp.lexes _, ih hwell⟩
  | binary _ _ _ ihleft ihright =>
    simp only [List.forall_mem_cons, List.forall_mem_append]
    exact ⟨ihleft hwell.1, BinaryOp.lexes _, ihright hwell.2⟩
  | parentheses _ ih =>
    simp only [List.forall_mem_cons, List.forall_mem_append]
    exact ⟨hopen, ih hwell, hclose, List.forall_mem_nil _⟩

/-! ### Values of the printed literals -/

namespace Numeral

/-- The digits of an integer have it as their value, whatever zeros stand in front. -/
theorem int64?_padded (zeros : Nat) {value : Int64} (h : 0 ≤ value.toInt) :
    int64? (List.replicate zeros '0' ++ Nat.toDigits 10 value.toInt.toNat) = some value := by
  have hdigits : ∀ c ∈ List.replicate zeros '0' ++ Nat.toDigits 10 value.toInt.toNat,
      c.isDigit = true := fun _ => isDigit_of_mem_padded
  have hnatural : natural? (List.replicate zeros '0' ++ Nat.toDigits 10 value.toInt.toNat) =
      some value.toInt.toNat := by
    rw [natural?, if_pos ⟨padded_ne_nil zeros _, List.all_eq_true.mpr hdigits⟩,
      Nat.ofDigitChars_append, Nat.ofDigitChars_replicate_zero, Nat.mul_zero,
      Nat.ofDigitChars_ten_toDigits]
  have hinteger : integer? (List.replicate zeros '0' ++ Nat.toDigits 10 value.toInt.toNat) =
      some value.toInt := by
    rw [integer?, splitSign_digits hdigits]
    simp only [hnatural, Bool.false_eq_true, ↓reduceIte]
    exact congrArg some (Int.toNat_of_nonneg h)
  rw [int64?, hinteger, Option.bind_some, if_pos ⟨value.minValue_le_toInt, value.toInt_le⟩,
    Int64.ofInt_toInt]

end Numeral

/-- The quotes of a string stand around its body. -/
theorem Token.stringBody?_of_word {token : Token} {body : String}
    (h : token.word = .string body) : token.stringBody? = some body := by
  have hlexeme : token.lexeme = (Word.string body).lexeme := congrArg Word.lexeme h
  refine stringBody?_eq_some_iff.mpr ⟨'"', '"', by decide, by decide, ?_⟩
  rw [hlexeme, Word.string, String.toList_ofList]

/-! ### Phrases of printed trees -/

namespace Grammar

/-- One more operation to the right of some operations. -/
theorem Derives.operations_snoc {n : Nat} {sign : Token} {operator : BinaryOp}
    {right : List Token} {operand : Expr}
    (hsign : sign.is operator.kind operator.spelling = true) (hlevel : operator.level = n)
    (hright : Derives (.level (n + 1)) right operand) :
    {tokens : List Token} → {operations : List (BinaryOp × Expr)} →
      Derives (.operations n) tokens operations →
      Derives (.operations n) (tokens ++ sign :: right) (operations ++ [(operator, operand)])
  | _, _, .noOperation => by
    have hone := Derives.operations hsign hlevel hright .noOperation
    rwa [List.append_nil] at hone
  | _, _, .operations hfirst hsame hoperand hmore => by
    have hlater := Derives.operations_snoc hsign hlevel hright hmore
    simpa using Derives.operations hfirst hsame hoperand hlater

/-- An operator between an operand of its level and a tighter one. -/
theorem Derives.binary {sign : Token} {operator : BinaryOp} {first rest : List Token}
    {left right : Expr} (hsign : sign.is operator.kind operator.spelling = true)
    (hleft : Derives (.level operator.level) first left)
    (hright : Derives (.level (operator.level + 1)) rest right) :
    Derives (.level operator.level) (first ++ sign :: rest) (.binary operator left right) := by
  generalize hlevel : operator.level = n at hleft hright
  -- the left operand is a chain of its level, and the operator goes to its end
  cases hleft with
  | level hle hoperand hmore =>
    have hlonger := Derives.level hle hoperand (Derives.operations_snoc hsign hlevel hright hmore)
    simpa [chain] using hlonger
  | tightest =>
    have hle : operator.level ≤ 6 := by cases operator <;> decide
    omega

end Grammar

/-- A slot for an expression has a level of the grammar. -/
def Grammar.Nonterminal.IsSlot : Nonterminal → Prop
  | level n => n ≤ 7
  | _ => True

namespace Token

variable {token : Token}

theorem kind_of_word {word : Word} (h : token.word = word) : token.kind = word.kind :=
  congrArg Word.kind h

theorem lexeme_of_word {word : Word} (h : token.word = word) : token.lexeme = word.lexeme :=
  congrArg Word.lexeme h

/-- A token with a word has its kind and its text. -/
theorem is_of_word {word : Word} (h : token.word = word) :
    token.is word.kind word.lexeme = true := by
  simp [is, kind_of_word h, lexeme_of_word h]

theorem isTypeName_of_word {typeName : String} (h : token.word = .reserved typeName)
    (hmem : typeName ∈ typeNames) : token.isTypeName = true := by
  simp [isTypeName, kind_of_word h, lexeme_of_word h, Word.reserved, hmem]

end Token

namespace Grammar

/-- A prefix operator in front of what fits into its slot, where no binary operator does. -/
theorem Derives.unary_of_level {sign : Token} {operator : UnaryOp} {rest : List Token}
    {operand : Expr} (hsign : sign.is operator.kind operator.spelling = true)
    (h : Derives (.level 7) rest operand) :
    Derives .unary (sign :: rest) (.unary operator operand) := by
  cases h with
  | level hle => omega
  | tightest hoperand => exact .unary hsign hoperand

/-! ### Tokens with given words -/

section Words

variable {token : Token}

theorem Derives.of_integer {zeros : Nat} {value : Int64} (hvalue : 0 ≤ value.toInt)
    (h : token.word = .integer zeros value) :
    Derives .primary [token] (.constant (.int value)) := by
  refine .integer (Token.kind_of_word h) ?_
  rw [Token.value, Token.kind_of_word h, Token.lexeme_of_word h]
  simp only [Word.integer, String.toList_ofList, Numeral.int64?_padded zeros hvalue,
    Option.map_some]

theorem Derives.of_float {spelling : String} {value : Binary64}
    (hspells : SpellsFloat spelling value) (h : token.word = .float spelling) :
    Derives .primary [token] (.constant (.float value)) := by
  refine .float (Token.kind_of_word h) ?_
  rw [Token.value, Token.kind_of_word h, Token.lexeme_of_word h]
  simp only [Word.float, hspells.1, Option.map_some]

theorem Derives.of_string {body : String} (h : token.word = .string body) :
    Derives .primary [token] (.constant (.string body)) :=
  .string (Token.kind_of_word h) (Token.stringBody?_of_word h)

theorem Derives.of_name {name : String} (h : token.word = .name name) :
    Derives .primary [token] (.variable name) := by
  have hderives := Derives.name (Token.kind_of_word h)
  rwa [Token.lexeme_of_word h] at hderives

variable {tokens : List Token} {inner body rest : List Word}

/-- The words of an expression and a semicolon. -/
theorem exists_of_words_semicolon (h : tokens.map Token.word = inner ++ [.semicolon]) :
    ∃ expression semicolon, tokens = expression ++ [semicolon] ∧
      expression.map Token.word = inner ∧ semicolon.kind = .semicolon := by
  obtain ⟨expression, last, rfl, hexpression, hlast⟩ := List.map_eq_append_iff.mp h
  obtain ⟨semicolon, rfl, hsemicolon⟩ := List.map_eq_singleton_iff.mp hlast
  exact ⟨expression, semicolon, rfl, hexpression, Token.kind_of_word hsemicolon⟩

/-- The words of an `if` statement up to its body. -/
theorem exists_of_words_if (h : tokens.map Token.word =
      .reserved "if" :: .openParen :: (inner ++ .closeParen :: rest)) :
    ∃ word opening condition closing after,
      tokens = word :: opening :: (condition ++ closing :: after) ∧
        word.isKeyword "if" = true ∧ opening.kind = .openParen ∧
        condition.map Token.word = inner ∧ closing.kind = .closeParen ∧
        after.map Token.word = rest := by
  simp only [List.map_eq_cons_iff, List.map_eq_append_iff] at h
  obtain ⟨word, _, rfl, hword, opening, _, rfl, hopening, condition, _, rfl, hcondition, closing,
    after, rfl, hclosing, hafter⟩ := h
  exact ⟨word, opening, condition, closing, after, rfl, Token.is_of_word hword,
    Token.kind_of_word hopening, hcondition, Token.kind_of_word hclosing, hafter⟩

/-- The words of a body and of the `else` after it. -/
theorem exists_of_words_else (h : tokens.map Token.word = body ++ .reserved "else" :: rest) :
    ∃ first alternative after, tokens = first ++ alternative :: after ∧
      first.map Token.word = body ∧ alternative.isKeyword "else" = true ∧
      after.map Token.word = rest := by
  obtain ⟨first, last, rfl, hfirst, hlast⟩ := List.map_eq_append_iff.mp h
  obtain ⟨alternative, after, rfl, halternative, hafter⟩ := List.map_eq_cons_iff.mp hlast
  exact ⟨first, alternative, after, rfl, hfirst, Token.is_of_word halternative, hafter⟩

end Words

end Grammar

/-- Tokens with the words of a well-formed tree are a phrase with that tree. -/
theorem Layout.derives {symbol : Nonterminal} {tree : symbol.Tree} {words : List Word}
    (h : Layout symbol tree words) (hwell : symbol.WellFormed tree) (hslot : symbol.IsSlot)
    {tokens : List Token} (htokens : tokens.map Token.word = words) :
    Derives symbol tokens tree := by
  have hexpr : Nonterminal.expr.IsSlot := (by decide : 1 ≤ 7)
  -- each way to write a tree is one rule of the grammar; slots are what operators leave room for
  induction h generalizing tokens with
  | program _ ih => exact .program (ih hwell trivial htokens)
  | noFunction =>
    obtain rfl := List.map_eq_nil_iff.mp htokens
    exact .noFunction
  | functions _ _ ihfirst ihrest =>
    obtain ⟨first, rest, rfl, hfirst, hrest⟩ := List.map_eq_append_iff.mp htokens
    obtain ⟨hfunction, hfunctions⟩ := List.forall_mem_cons.mp hwell
    exact .functions (ihfirst hfunction trivial hfirst) (ihrest hfunctions trivial hrest)
  | @function function _ _ _ _ ihparameters ihbody =>
    simp only [List.map_eq_cons_iff, List.map_eq_append_iff] at htokens
    obtain ⟨type, _, rfl, htype, name, _, rfl, hname, opening, _, rfl, hopening, parameters, _,
      rfl, hparameters, closing, body, rfl, hclosing, hbody⟩ := htokens
    obtain ⟨hreturn, -, harguments, hstatements⟩ := hwell
    have hderives := Derives.function (Token.isTypeName_of_word htype hreturn)
      (Token.kind_of_word hname) (Token.kind_of_word hopening)
      (ihparameters harguments trivial hparameters) (Token.kind_of_word hclosing)
      (ihbody hstatements trivial hbody)
    rwa [Token.lexeme_of_word htype, Token.lexeme_of_word hname] at hderives
  | noArgument =>
    obtain rfl := List.map_eq_nil_iff.mp htokens
    exact .noArgument
  | arguments _ ih =>
    simp only [List.map_eq_cons_iff] at htokens
    obtain ⟨type, _, rfl, htype, name, rest, rfl, hname, hrest⟩ := htokens
    obtain ⟨hargument, harguments⟩ := List.forall_mem_cons.mp hwell
    have hderives := Derives.arguments (Token.isTypeName_of_word htype hargument.1)
      (Token.kind_of_word hname) (ih harguments trivial hrest)
    rwa [Token.lexeme_of_word htype, Token.lexeme_of_word hname] at hderives
  | block _ ih =>
    simp only [List.map_eq_cons_iff, List.map_eq_append_iff, List.map_eq_nil_iff] at htokens
    obtain ⟨opening, _, rfl, hopening, inner, _, rfl, hinner, closing, _, rfl, hclosing, rfl⟩ :=
      htokens
    exact .block (Token.kind_of_word hopening) (ih hwell trivial hinner)
      (Token.kind_of_word hclosing)
  | noStmt =>
    obtain rfl := List.map_eq_nil_iff.mp htokens
    exact .noStmt
  | stmts _ _ ihfirst ihrest =>
    obtain ⟨first, rest, rfl, hfirst, hrest⟩ := List.map_eq_append_iff.mp htokens
    exact .stmts (ihfirst hwell.1 trivial hfirst) (ihrest hwell.2 trivial hrest)
  | ret _ ih =>
    obtain ⟨word, _, rfl, hword, hvalue⟩ := List.map_eq_cons_iff.mp htokens
    obtain ⟨inner, semicolon, rfl, hinner, hsemicolon⟩ := exists_of_words_semicolon hvalue
    exact .ret (Token.is_of_word hword) (ih hwell hexpr hinner) hsemicolon
  | assignment _ ih =>
    simp only [List.map_eq_cons_iff] at htokens
    obtain ⟨name, _, rfl, hname, sign, _, rfl, hsign, hvalue⟩ := htokens
    obtain ⟨inner, semicolon, rfl, hinner, hsemicolon⟩ := exists_of_words_semicolon hvalue
    have hderives := Derives.assignment (Token.kind_of_word hname) (Token.is_of_word hsign)
      (ih hwell.2 hexpr hinner) hsemicolon
    rwa [Token.lexeme_of_word hname] at hderives
  | declaration =>
    simp only [List.map_eq_cons_iff, List.map_eq_nil_iff] at htokens
    obtain ⟨type, _, rfl, htype, name, _, rfl, hname, semicolon, _, rfl, hsemicolon, rfl⟩ :=
      htokens
    have hderives := Derives.declaration (Token.isTypeName_of_word htype hwell.1)
      (Token.kind_of_word hname) (Token.kind_of_word hsemicolon)
    rwa [Token.lexeme_of_word htype, Token.lexeme_of_word hname] at hderives
  | initialized _ ih =>
    simp only [List.map_eq_cons_iff] at htokens
    obtain ⟨type, _, rfl, htype, name, _, rfl, hname, sign, _, rfl, hsign, hvalue⟩ := htokens
    obtain ⟨inner, semicolon, rfl, hinner, hsemicolon⟩ := exists_of_words_semicolon hvalue
    have hderives := Derives.initialized (Token.isTypeName_of_word htype hwell.1)
      (Token.kind_of_word hname) (Token.is_of_word hsign) (ih hwell.2.2 hexpr hinner) hsemicolon
    rwa [Token.lexeme_of_word htype, Token.lexeme_of_word hname] at hderives
  | conditional _ ih => exact .conditional (ih hwell trivial htokens)
  | ifThen _ _ ihcondition ihbody =>
    obtain ⟨word, opening, inner, closing, body, rfl, hword, hopening, hinner, hclosing, hbody⟩ :=
      exists_of_words_if htokens
    exact .ifThen hword hopening (ihcondition hwell.1 hexpr hinner) hclosing
      (ihbody hwell.2 trivial hbody)
  | ifElse _ _ _ ihcondition ihbody ihrest =>
    obtain ⟨word, opening, inner, closing, after, rfl, hword, hopening, hinner, hclosing, hafter⟩ :=
      exists_of_words_if htokens
    obtain ⟨body, alternative, rest, rfl, hbody, halternative, hrest⟩ :=
      exists_of_words_else hafter
    exact .ifElse hword hopening (ihcondition hwell.1 hexpr hinner) hclosing
      (ihbody hwell.2.1 trivial hbody) halternative (ihrest hwell.2.2 trivial hrest)
  | elseIf _ _ _ ihcondition ihbody ihrest =>
    obtain ⟨word, opening, inner, closing, after, rfl, hword, hopening, hinner, hclosing, hafter⟩ :=
      exists_of_words_if htokens
    obtain ⟨body, alternative, rest, rfl, hbody, halternative, hrest⟩ :=
      exists_of_words_else hafter
    exact .elseIf hword hopening (ihcondition hwell.1 hexpr hinner) hclosing
      (ihbody hwell.2.1 trivial hbody) halternative (ihrest hwell.2.2.1 trivial hrest)
  | integer zeros =>
    obtain ⟨token, rfl, htoken⟩ := List.map_eq_singleton_iff.mp htokens
    exact .of_primary hslot (.of_integer hwell htoken)
  | float hspells =>
    obtain ⟨token, rfl, htoken⟩ := List.map_eq_singleton_iff.mp htokens
    exact .of_primary hslot (.of_float hspells htoken)
  | string =>
    obtain ⟨token, rfl, htoken⟩ := List.map_eq_singleton_iff.mp htokens
    exact .of_primary hslot (.of_string htoken)
  | name =>
    obtain ⟨token, rfl, htoken⟩ := List.map_eq_singleton_iff.mp htokens
    exact .of_primary hslot (.of_name htoken)
  | unary _ ih =>
    obtain ⟨sign, rest, rfl, hsign, hrest⟩ := List.map_eq_cons_iff.mp htokens
    have hoperand := ih hwell (Nat.le_refl 7) hrest
    exact .of_unary hslot (.unary_of_level (Token.is_of_word hsign) hoperand)
  | @binary n operator _ _ _ _ hle _ _ ihleft ihright =>
    simp only [List.map_eq_cons_iff, List.map_eq_append_iff] at htokens
    obtain ⟨first, _, rfl, hfirst, sign, rest, rfl, hsign, hrest⟩ := htokens
    have hlevel : operator.level ≤ 6 := by cases operator <;> decide
    have hderives := Derives.binary (Token.is_of_word hsign)
      (ihleft hwell.1 (Nat.le_succ_of_le hlevel) hfirst)
      (ihright hwell.2 (Nat.succ_le_succ hlevel) hrest)
    -- the slot may be looser than the operator
    obtain ⟨k, hk⟩ := Nat.exists_eq_add_of_le hle
    rw [hk] at hderives
    exact hderives.loosen (by omega)
  | parentheses _ ih =>
    simp only [List.map_eq_cons_iff, List.map_eq_append_iff, List.map_eq_nil_iff] at htokens
    obtain ⟨opening, _, rfl, hopening, inner, _, rfl, hinner, closing, _, rfl, hclosing, rfl⟩ :=
      htokens
    exact .of_primary hslot (.parentheses (Token.kind_of_word hopening)
      (ih hwell hexpr hinner) (Token.kind_of_word hclosing))

/-- A well-formed program can be written down, and however this is done, it is read back as it
was. -/
theorem parseSource_printed {program : Program} (h : program.WellFormed) :
    (∃ text, program.Printed text) ∧
      ∀ text, program.Printed text → parseSource text = .ok program := by
  refine ⟨Program.exists_printed h, fun text hprinted => ?_⟩
  obtain ⟨words, hlayout, hspaced⟩ := hprinted
  have hwords : (lex text).map Token.word = words := lex_spaced hspaced (hlayout.lexes h)
  have hderives : Derives .program (lex text) program := hlayout.derives h trivial hwords
  have hrule : EntryPoint.program.rule (lex text) = .ok (program, []) :=
    EntryPoint.rule_of_derives hderives
  exact Parser.complete_eq_ok_iff.mpr hrule

/-- A function with a parameter, whose value needs parentheses. -/
theorem parseSource_printed_product :
    let product : Program := ⟨[{
      returnType := "int"
      name := "f"
      arguments := [{ typeName := "int", name := "a" }]
      body := [.ret (.binary .mul (.binary .add (.variable "a") (.constant (.int 7)))
        (.unary .minus (.constant (.string "b_1"))))] }]⟩
    product.WellFormed ∧ ∃ text, product.Printed text ∧ parseSource text = .ok product := by
  intro product
  have hwell : product.WellFormed := by
    have hf : IsName "f" := ⟨by decide, 'f', [], by decide, by decide, by simp⟩
    have ha : IsName "a" := ⟨by decide, 'a', [], by decide, by decide, by simp⟩
    have hseven : (Literal.int 7).WellFormed := (by decide : 0 ≤ Int64.toInt 7)
    have hstring : (Literal.string "b_1").WellFormed :=
      ⟨by decide, List.all_eq_true.mp (by decide +kernel)⟩
    refine List.forall_mem_singleton.mpr ⟨by decide, hf, ?_, ?_, trivial⟩
    · exact List.forall_mem_singleton.mpr ⟨by decide, ha⟩
    · exact ⟨⟨ha, hseven⟩, hstring⟩
  obtain ⟨⟨text, hprinted⟩, hread⟩ := parseSource_printed hwell
  exact ⟨hwell, text, hprinted, hread text hprinted⟩

end CFrontEnd
