import CFrontEnd.Proofs.Decimal.Numerals
import CFrontEnd.Proofs.Lexer.Words
import CFrontEnd.Proofs.Source.Aborts
import Mathlib.Data.Nat.Digits.Defs

/-!
# Numbers in a Text

An integer in a text has its exact value or no value at all. It has none exactly if it is greater
than the greatest 64-bit integer, no matter how many digits it has, and a parse that comes to look
at it for its value then reports it. A number with a point always has a value. So the report on a
literal without a value is only made on integers, and what its message says of them is true.

## Main definitions

* `Numeral.denoted`: the number that decimal digits denote.
* `Token.OutOfRange`: an integer token that is greater than every 64-bit integer.

## Main results

* `Numeral.int64?_of_le`, `Numeral.int64?_of_lt`: which digits are read as a 64-bit integer.
* `Token.exists_value_of_float`: a number with a point always has a value.
* `EntryPoint.outOfRange_of_parse`: a literal without a value is an integer that is out of range.
* `integers_exact`: integers have their exact value or a located error.
-/

namespace CFrontEnd

open Grammar

/-! ### The value of digits -/

namespace Numeral

/-- The number that decimal digits denote. The last digit counts for one, and every digit for ten
times as much as the next one. -/
def denoted (digits : List Char) : Nat :=
  Nat.ofDigits 10 (digits.reverse.map fun c => c.toNat - '0'.toNat)

/-- Digits that are read one after the other denote what they add up to. -/
theorem ofDigitChars_eq_denoted (digits : List Char) :
    Nat.ofDigitChars 10 digits 0 = denoted digits := by
  -- the last digit is read last
  induction digits using List.reverseRecOn with
  | nil => rfl
  | append_singleton digits c ih =>
    calc Nat.ofDigitChars 10 (digits ++ [c]) 0
        = 10 * denoted digits + (c.toNat - '0'.toNat) := by
          rw [Nat.ofDigitChars_append, ih, Nat.ofDigitChars_cons, Nat.ofDigitChars_nil]
      _ = denoted (digits ++ [c]) := by
          rw [denoted, denoted, List.reverse_concat, List.map_cons, Nat.ofDigits_cons,
            Nat.add_comm]

variable {digits : List Char}

theorem integer?_eq_denoted (hne : digits ≠ []) (hdigits : AllDigits digits) :
    integer? digits = some (denoted digits : Int) := by
  have hnatural : natural? digits = some (denoted digits) := by
    rw [natural?, if_pos ⟨hne, List.all_eq_true.mpr hdigits⟩, ofDigitChars_eq_denoted]
  rw [integer?_digits hdigits, hnatural]
  rfl

/-- Digits that denote a 64-bit integer are read as that integer. -/
theorem int64?_of_le (hne : digits ≠ []) (hdigits : AllDigits digits)
    (hle : denoted digits ≤ 2 ^ 63 - 1) :
    ∃ value : Int64, value.toInt = denoted digits ∧ int64? digits = some value := by
  have hleast : Int64.minValue.toInt ≤ (denoted digits : Int) := by
    rw [Int64.toInt_minValue]
    omega
  have hgreatest : (denoted digits : Int) ≤ Int64.maxValue.toInt := by
    rw [Int64.toInt_maxValue]
    omega
  refine ⟨Int64.ofInt (denoted digits), ?_, ?_⟩
  · exact Int64.toInt_ofInt_of_le hleast (Int.lt_of_le_sub_one hgreatest)
  · rw [int64?, integer?_eq_denoted hne hdigits, Option.bind_some, if_pos ⟨hleast, hgreatest⟩]

/-- Digits that denote no 64-bit integer are not read. -/
theorem int64?_of_lt (hne : digits ≠ []) (hdigits : AllDigits digits)
    (hlt : 2 ^ 63 - 1 < denoted digits) : int64? digits = none := by
  have hgreatest : ¬(denoted digits : Int) ≤ Int64.maxValue.toInt := by
    rw [Int64.toInt_maxValue]
    omega
  rw [int64?, integer?_eq_denoted hne hdigits, Option.bind_some, if_neg (hgreatest ·.2)]

end Numeral

open Numeral

/-! ### The value of a token -/

namespace Token

variable {token : Token}

/-- An integer has its exact value. -/
theorem value_of_le (hkind : token.kind = .integer) (hne : token.lexeme.toList ≠ [])
    (hdigits : AllDigits token.lexeme.toList) (hle : denoted token.lexeme.toList ≤ 2 ^ 63 - 1) :
    ∃ value : Int64, value.toInt = denoted token.lexeme.toList ∧
      token.value = some (.int value) := by
  obtain ⟨value, hvalue, hread⟩ := int64?_of_le hne hdigits hle
  exact ⟨value, hvalue, by rw [Token.value, hkind, hread]; rfl⟩

/-- The token is an integer that is greater than every 64-bit integer. -/
structure OutOfRange (token : Token) : Prop where
  kind : token.kind = .integer
  nonempty : token.lexeme ≠ ""
  digits : AllDigits token.lexeme.toList
  range : 2 ^ 63 - 1 < denoted token.lexeme.toList

/-- An integer that is out of range has no value. -/
theorem OutOfRange.value (h : token.OutOfRange) : token.value = none := by
  have hread := int64?_of_lt (String.toList_eq_nil_iff.not.mpr h.nonempty) h.digits h.range
  rw [Token.value, h.kind, hread]
  rfl

/-- A number with a point always has a value. -/
theorem exists_value_of_float (hkind : token.kind = .float)
    (hspells : token.kind.Spells token.lexeme.toList) :
    ∃ value, token.value = some (.float value) := by
  rw [hkind] at hspells
  obtain ⟨whole, fraction, hlexeme, hwhole, hfraction, hsome⟩ := hspells
  have hne : whole ++ fraction ≠ [] := by
    rw [ne_eq, List.append_eq_nil_iff, not_and_or]
    exact hsome
  have hdecimal := decimal?_pointed hwhole hfraction hne
  obtain ⟨first, rest, htext, hfirst⟩ := exists_cons_of_decimal? hdecimal
  have hread : binary64? (first :: rest) = (decimal? (first :: rest)).map (.ofDecimal false) :=
    binary64?_eq_of_digit false hfirst
  rw [← htext, hdecimal, ← hlexeme] at hread
  exact ⟨_, by rw [Token.value, hkind, hread]; rfl⟩

/-- A number of a text that has no value is an integer that is out of range. -/
theorem outOfRange_of_value (hspells : token.kind.Spells token.lexeme.toList)
    (hnumber : token.IsNumber) (hnone : token.value = none) : token.OutOfRange := by
  have hkind : token.kind = .integer := by
    refine hnumber.resolve_right fun hfloat => ?_
    obtain ⟨value, hvalue⟩ := exists_value_of_float hfloat hspells
    simp [hnone] at hvalue
  rw [hkind] at hspells
  obtain ⟨hne, hdigits⟩ := hspells
  refine ⟨hkind, String.toList_eq_nil_iff.not.mp hne, hdigits, Nat.lt_of_not_le fun hle => ?_⟩
  obtain ⟨value, -, hvalue⟩ := value_of_le hkind hne hdigits hle
  simp [hnone] at hvalue

end Token

/-! ### Literals without a value -/

/-- The messages about what was looked for start alike. -/
theorem ParseError.head?_message {error : ParseError} {expected : Expected}
    (h : error.expected? = some expected) : error.message.toList.head? = some 'e' := by
  have hword : ∃ rest : String, error.message = "expected " ++ rest := by
    cases error with
    | unexpectedToken expected found lexeme span =>
      refine ⟨expected.describe ++ (", found " ++ (found.name ++ (" `" ++ (lexeme ++ "`")))), ?_⟩
      unfold message
      simp only [String.append_assoc]
    | unexpectedEnd expected => exact ⟨_, String.append_assoc ..⟩
    | invalidLiteral => simp [expected?] at h
  obtain ⟨rest, hrest⟩ := hword
  rw [hrest, String.toList_append]
  rfl

/-- The message about a literal without a value is that of no other failure. -/
theorem ParseError.message_eq_outOfRange_iff {error : ParseError} {quoted : String} :
    error.message = "integer literal `" ++ quoted ++ "` is out of range" ↔
      ∃ span, error = .invalidLiteral quoted span := by
  constructor
  · intro h
    have hhead : error.message.toList.head? = some 'i' := by
      rw [h, String.append_assoc, String.toList_append]
      rfl
    cases hexpected : error.expected? with
    | some expected => simp [head?_message hexpected] at hhead
    | none =>
      cases error with
      | invalidLiteral lexeme span =>
        have hmessage : "integer literal `" ++ lexeme ++ "` is out of range" =
          "integer literal `" ++ quoted ++ "` is out of range" := h
        rw [String.append_left_inj, String.append_right_inj] at hmessage
        exact ⟨span, by rw [hmessage]⟩
      | unexpectedToken | unexpectedEnd => simp [expected?] at hexpected
  · rintro ⟨span, rfl⟩
    rfl

/-- A literal without a value that is reported in a text is an integer that is out of range. -/
theorem EntryPoint.outOfRange_of_parse {entry : EntryPoint} {text lexeme : String} {span : Span}
    (h : entry.parse (lex text) = .error (.error (.invalidLiteral lexeme span))) :
    ∃ token ∈ lex text, token.lexeme = lexeme ∧ token.span = span ∧ token.OutOfRange := by
  rcases entry.exists_atFault h with ⟨expected, hend, -⟩ | ⟨i, token, -, htoken, hfault⟩
  · simp at hend
  have hmem : token ∈ lex text := List.mem_of_getElem? htoken
  rcases hfault with ⟨expected, hunexpected⟩ | ⟨hnumber | hstring, hliteral⟩
  · simp at hunexpected
  · rcases Pending.literal_number hnumber with ⟨found, hfound, -⟩ | ⟨hinvalid, hnone⟩
    · simp [hfound] at hliteral
    · rw [hinvalid] at hliteral
      obtain ⟨rfl, rfl⟩ := ParseError.invalidLiteral.inj
        (Failure.error.inj (Except.error.inj hliteral))
      have hrange := Token.outOfRange_of_value (spells_of_mem_lex hmem) hnumber hnone
      exact ⟨token, hmem, rfl, rfl, hrange⟩
  -- the strings of a text can be cut
  · obtain ⟨found, hfound⟩ :=
      Token.exists_literal hstring (stringBody?_isSome_of_mem_lex hmem hstring)
    simp [hfound] at hliteral

/-- A number without a value makes up no expression. -/
theorem parseExpression_of_value {token : Token} (hnumber : token.IsNumber)
    (hnone : token.value = none) :
    parseExpression [token] = .error (.error (.invalidLiteral token.lexeme token.span)) := by
  have hliteral : token.literal = .error (.error (.invalidLiteral token.lexeme token.span)) := by
    rcases Pending.literal_number hnumber with ⟨-, -, hsome⟩ | ⟨hinvalid, -⟩
    · simp [hnone] at hsome
    · exact hinvalid
  -- the parse looks for an operand first
  have hadvance : Pending.advance EntryPoint.expr.repeats EntryPoint.expr.parts token =
      .error (.error (.invalidLiteral token.lexeme token.span)) := by
    have hoperand := Pending.advance_literal false (.inl hnumber) (Pending.level 1)
    rwa [hliteral] at hoperand
  have hrun : Pending.run EntryPoint.expr.repeats EntryPoint.expr.parts [] =
      .ok EntryPoint.expr.parts := rfl
  exact EntryPoint.parse_of_advance_error hrun hadvance []

/-! ### Integers on their own -/

/-- The token of a text that is an integer as a whole. -/
def Token.integer (digits : String) : Token :=
  { kind := .integer, lexeme := digits, span := { start := 0, stop := digits.utf8ByteSize } }

/-- Integers have their exact value or a located error. Digits alone are an integer with the value
that they denote, as a token and as an expression, if it is a 64-bit integer; otherwise the token
has no value, and the error says where it is. In any text, the error is only reported for an
integer that is out of range, so its message is true of what it quotes, and no other message looks
like it: a number with a point always has a value. -/
theorem integers_exact :
    (∀ digits : String, digits ≠ "" → AllDigits digits.toList →
      lex digits = [.integer digits] ∧
        (denoted digits.toList ≤ 2 ^ 63 - 1 → ∃ value : Int64,
          value.toInt = denoted digits.toList ∧
          (Token.integer digits).value = some (.int value) ∧
          parseExpression (lex digits) = .ok (.constant (.int value))) ∧
        (2 ^ 63 - 1 < denoted digits.toList →
          (Token.integer digits).value = none ∧
          parseExpression (lex digits) =
            .error (.error (.invalidLiteral digits { start := 0, stop := digits.utf8ByteSize })))) ∧
      (∀ (entry : EntryPoint) (text : String) (error : ParseError),
        entry.parse (lex text) = .error (.error error) → ∀ quoted : String,
          (error.message = "integer literal `" ++ quoted ++ "` is out of range" ↔
            ∃ span, error = .invalidLiteral quoted span) ∧
          ∀ span, error = .invalidLiteral quoted span →
            ∃ token ∈ lex text, token.lexeme = quoted ∧ token.span = span ∧ token.OutOfRange) ∧
      ∀ text, ∀ token ∈ lex text, token.kind = .float →
        ∃ value, token.value = some (.float value) := by
  refine ⟨fun digits hnonempty hdigits => ?alone, fun entry text error hparse quoted => ?reported,
    fun text token hmem hkind => ?float⟩
  case alone =>
    have hne : digits.toList ≠ [] := String.toList_eq_nil_iff.not.mpr hnonempty
    have hlexes : Word.Lexes ⟨.integer, digits⟩ := Word.lexes_of_spells ⟨hne, hdigits⟩
    have hlex : lex digits = [.integer digits] := hlexes.lex_eq
    have hkind : (Token.integer digits).kind = .integer := rfl
    refine ⟨hlex, fun hle => ?_, fun hlt => ?_⟩
    · obtain ⟨value, hexact, hvalue⟩ := Token.value_of_le hkind hne hdigits hle
      have hderives : Derives EntryPoint.expr.symbol [.integer digits] (.constant (.int value)) :=
        .of_primary (by decide) (.integer hkind hvalue)
      refine ⟨value, hexact, hvalue, ?_⟩
      rw [hlex]
      exact EntryPoint.parse_of_derives hderives
    · have hrange : (Token.integer digits).OutOfRange := ⟨hkind, hnonempty, hdigits, hlt⟩
      refine ⟨hrange.value, ?_⟩
      rw [hlex]
      exact parseExpression_of_value (.inl hkind) hrange.value
  case reported =>
    refine ⟨ParseError.message_eq_outOfRange_iff, fun span herror => ?_⟩
    rw [herror] at hparse
    exact EntryPoint.outOfRange_of_parse hparse
  case float => exact Token.exists_value_of_float hkind (spells_of_mem_lex hmem)

/-- The greatest integer behind zeros, the integer after it alone and in a function, and a number
that starts with its point. -/
theorem integers_exact_edge :
    (∃ value : Int64, value.toInt = 9223372036854775807 ∧
        parseExpression (lex "009223372036854775807") = .ok (.constant (.int value))) ∧
      parseExpression (lex "9223372036854775808") =
        .error (.error (.invalidLiteral "9223372036854775808" ⟨0, 19⟩)) ∧
      (∃ token ∈ lex "int f()\x7breturn 9223372036854775808;\x7d",
        token.lexeme = "9223372036854775808" ∧ token.span = ⟨15, 34⟩ ∧ token.OutOfRange) ∧
      ∃ value, Token.value ⟨.float, ".5", ⟨0, 2⟩⟩ = some (.float value) := by
  obtain ⟨halone, hreported, hfloat⟩ := integers_exact
  refine ⟨?greatest, ?next, ?reported, ?float⟩
  case greatest =>
    have hdenoted : denoted "009223372036854775807".toList = 9223372036854775807 := by decide
    have hdigits : AllDigits "009223372036854775807".toList := List.all_eq_true.mp (by decide)
    obtain ⟨-, hvalue, -⟩ := halone "009223372036854775807" (by decide) hdigits
    obtain ⟨value, hexact, -, hparse⟩ := hvalue (by rw [hdenoted]; decide)
    exact ⟨value, by rw [hexact, hdenoted]; rfl, hparse⟩
  case next =>
    have hdenoted : denoted "9223372036854775808".toList = 9223372036854775808 := by decide
    have hdigits : AllDigits "9223372036854775808".toList := List.all_eq_true.mp (by decide)
    obtain ⟨-, -, hnone⟩ := halone "9223372036854775808" (by decide) hdigits
    exact (hnone (by rw [hdenoted]; decide)).2
  case reported =>
    let before : List Token :=
      [⟨.keyword, "int", ⟨0, 3⟩⟩, ⟨.identifier, "f", ⟨4, 5⟩⟩, ⟨.openParen, "(", ⟨5, 6⟩⟩,
        ⟨.closeParen, ")", ⟨6, 7⟩⟩, ⟨.openBrace, "\x7b", ⟨7, 8⟩⟩, ⟨.keyword, "return", ⟨8, 14⟩⟩]
    have hlex : lex "int f()\x7breturn 9223372036854775808;\x7d" =
        before ++ [⟨.integer, "9223372036854775808", ⟨15, 34⟩⟩, ⟨.semicolon, ";", ⟨34, 35⟩⟩,
          ⟨.closeBrace, "\x7d", ⟨35, 36⟩⟩] := by decide +kernel
    -- the integer comes to where an operand is looked for, and it is refused there
    have hrun : Pending.run EntryPoint.program.repeats EntryPoint.program.parts before = .ok _ :=
      rfl
    have hparse : EntryPoint.program.parse (lex "int f()\x7breturn 9223372036854775808;\x7d") =
        .error (.error (.invalidLiteral "9223372036854775808" ⟨15, 34⟩)) := by
      rw [hlex]
      exact EntryPoint.parse_of_advance_error hrun rfl _
    exact (hreported .program _ _ hparse _).2 _ rfl
  case float =>
    have hlex : lex ".5" = [⟨.float, ".5", ⟨0, 2⟩⟩] := by decide +kernel
    exact hfloat ".5" ⟨.float, ".5", ⟨0, 2⟩⟩ (by simp [hlex]) rfl

end CFrontEnd
