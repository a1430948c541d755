import CFrontEnd.Proofs.Lexer.Priorities
import CFrontEnd.Proofs.Lexer.Lexemes

/-!
# Where Tokens End

A match depends on the text it takes and on two characters behind it at most. For each kind there is
a condition on what follows, and a text of the kind is a token at the front of a longer text exactly
if the rest of it meets this condition.

## Main definitions

* `TokenKind.Stops`: what may follow a token of a kind.

## Main results

* `classify_arithmetic` and its siblings: the first match by the first character of a text.
* `classify_append_iff`: a text is a token if it is a text of the kind and what follows lets it end.
-/

namespace CFrontEnd

open Matcher

/-- A token of the kind with the given text can end in front of the rest. -/
def TokenKind.Stops (kind : TokenKind) (lexeme rest : List Char) : Prop :=
  match kind with
  | .keyword | .identifier => ∀ c ∈ rest.head?, isNamePart c = false
  | .integer => ∀ c ∈ rest.head?, c.isDigit = false ∧ c ≠ '.'
  | .float => ∀ c ∈ rest.head?, c.isDigit = false
  -- only the shifts end in front of any character
  | .assignmentOperator => lexeme.length = 3 ∨ rest.head? ≠ some '='
  -- the operators of two characters grow no further
  | .arithmeticOperator => lexeme.length = 2 ∨
      ¬SingleEquals rest ∧ ∀ sign, (sign = '+' ∨ sign = '-') → lexeme = [sign] →
        rest.head? ≠ some sign
  | .relationalOperator => lexeme.length = 2 ∨
      rest.head? ≠ some '=' ∧ ∀ sign, (sign = '<' ∨ sign = '>') → lexeme = [sign] →
        ¬(rest.head? = some sign ∧ rest[1]? = some '=')
  | .logicalOperator => lexeme.length = 2 ∨ rest.head? ≠ some '='
  | .openBrace | .closeBrace | .openParen | .closeParen | .semicolon | .string => True

/-- At the end of a text every token can end. -/
theorem TokenKind.stops_nil (kind : TokenKind) (lexeme : List Char) : kind.Stops lexeme [] := by
  cases kind <;> simp [Stops, SingleEquals]

section Boundary

variable {first : Char} {lexeme rest : List Char}

/-- The first match is the first candidate of the language. -/
theorem classify_eq_head? (text : List Char) : classify text = (candidates text).head? :=
  classifyWith_eq_head? classifiers text

/-! ### Braces, parentheses, semicolons and operators -/

theorem classify_single_append {kind : TokenKind} (hkind : kind ∈ singles.map Prod.fst)
    (h : kind.Spells lexeme) : classify (lexeme ++ rest) = some (kind, lexeme.length) := by
  have hspelling : ∀ single ∈ singles, single.1.spellings = [String.singleton single.2] := by
    decide
  obtain ⟨⟨kind, c⟩, hmem, rfl⟩ := List.mem_map.mp hkind
  rw [TokenKind.spells_iff_mem_spellings (by rw [hspelling _ hmem]; simp), hspelling _ hmem,
    List.mem_singleton] at h
  obtain rfl : lexeme = [c] := by simpa using congrArg String.toList h
  rw [List.singleton_append, classify_eq_head?, candidates_single hmem]
  rfl

theorem classify_arithmetic (h : first ∈ ['+', '-', '*', '/', '%']) :
    classify (first :: rest) =
      if SingleEquals rest then some (.assignmentOperator, 2)
      else some (.arithmeticOperator,
        if (first = '+' ∨ first = '-') ∧ rest.head? = some first then 2 else 1) := by
  rw [classify_eq_head?, candidates_arithmetic h]
  split <;> rfl

theorem classify_relational (h : first = '<' ∨ first = '>') :
    classify (first :: rest) =
      if rest.head? = some first ∧ rest[1]? = some '=' then some (.assignmentOperator, 3)
      else some (.relationalOperator, if rest.head? = some '=' then 2 else 1) := by
  rw [classify_eq_head?, candidates_relational h]
  split <;> rfl

theorem classify_bitwise (h : first ∈ ['&', '|', '^']) :
    classify (first :: rest) =
      if SingleEquals rest then some (.assignmentOperator, 2)
      else if first ≠ '^' ∧ rest.head? = some first then some (.logicalOperator, 2)
      else none := by
  rw [classify_eq_head?, candidates_bitwise h]
  split
  · rfl
  · split <;> rfl

theorem classify_equals :
    classify ('=' :: rest) =
      if rest.head? = some '=' then some (.relationalOperator, 2)
      else some (.assignmentOperator, 1) := by
  rw [classify_eq_head?, candidates_equals]
  split <;> rfl

theorem classify_not :
    classify ('!' :: rest) =
      if rest.head? = some '=' then some (.relationalOperator, 2)
      else some (.logicalOperator, 1) := by
  rw [classify_eq_head?, candidates_not]
  split <;> rfl

/-- Behind a `=` there is a single one if none follows it. -/
theorem singleEquals_cons : SingleEquals ('=' :: rest) ↔ rest.head? ≠ some '=' := by
  simp [SingleEquals, List.head?_eq_getElem?]

theorem not_singleEquals_cons (h : first ≠ '=') : ¬SingleEquals (first :: rest) := by
  simp [SingleEquals, h]

/-- The kinds of operators. -/
def TokenKind.operators : List TokenKind :=
  [.assignmentOperator, .arithmeticOperator, .relationalOperator, .logicalOperator]

theorem classify_operator_append {kind : TokenKind} (hkind : kind ∈ TokenKind.operators)
    (h : kind.Spells lexeme) :
    classify (lexeme ++ rest) = some (kind, lexeme.length) ↔ kind.Stops lexeme rest := by
  have hfixed : ∀ kind ∈ TokenKind.operators, kind.spellings ≠ [] := by decide
  obtain ⟨word, rfl⟩ : ∃ word : String, lexeme = word.toList := ⟨_, String.toList_ofList.symm⟩
  rw [TokenKind.spells_iff_mem_spellings (hfixed kind hkind), String.ofList_toList] at h
  simp only [TokenKind.operators, List.mem_cons, List.not_mem_nil, or_false] at hkind
  rcases hkind with rfl | rfl | rfl | rfl <;>
    simp only [TokenKind.spellings, List.mem_cons, List.not_mem_nil, or_false] at h
  · rcases h with rfl | rfl | rfl | rfl | rfl | rfl | rfl | rfl | rfl | rfl | rfl <;>
      simp [classify_arithmetic, classify_relational, classify_bitwise, classify_equals,
        singleEquals_cons, TokenKind.Stops]
  -- a single sign is left with the choice that the match makes
  · rcases h with rfl | rfl | rfl | rfl | rfl | rfl | rfl <;>
      simp [classify_arithmetic, not_singleEquals_cons, TokenKind.Stops] <;>
      split_ifs <;> simp_all
  · rcases h with rfl | rfl | rfl | rfl | rfl | rfl <;>
      simp [classify_relational, classify_equals, classify_not, TokenKind.Stops] <;>
      split_ifs <;> simp_all
  · rcases h with rfl | rfl | rfl <;>
      simp [classify_bitwise, classify_not, not_singleEquals_cons, TokenKind.Stops]

/-! ### Names, numbers and strings -/

/-- A whole run of characters, up to a character of another kind. -/
theorem takeWhile_run {p : Char → Bool} {run : List Char} (hrun : ∀ c ∈ run, p c = true)
    (rest : List Char) (hrest : ∀ c ∈ rest.head?, p c = false) :
    (run ++ rest).takeWhile p = run := by
  rw [List.takeWhile_append_of_pos hrun, takeWhile_eq_nil hrest, List.append_nil]

/-- A run ends where the rest starts with no character of its kind. -/
theorem length_takeWhile_append_eq_iff {p : Char → Bool} {run : List Char}
    (hrun : ∀ c ∈ run, p c = true) :
    ((run ++ rest).takeWhile p).length = run.length ↔ ∀ c ∈ rest.head?, p c = false := by
  rw [List.takeWhile_append_of_pos hrun, List.length_append]
  cases rest with
  | nil => simp
  | cons first rest => cases h : p first <;> simp [h]

theorem digitRun_append_eq_iff {digits : List Char} (hdigits : AllDigits digits) :
    digitRun (digits ++ rest) = digits.length ↔ ∀ c ∈ rest.head?, c.isDigit = false :=
  length_takeWhile_append_eq_iff hdigits

theorem le_digitRun_append {digits : List Char} (hdigits : AllDigits digits) :
    digits.length ≤ digitRun (digits ++ rest) := by
  rw [digitRun, List.takeWhile_append_of_pos hdigits, List.length_append]
  exact Nat.le_add_right ..

/-- The kind of a name. -/
def nameKind (lexeme : List Char) : TokenKind :=
  if String.ofList lexeme ∈ keywords then .keyword else .identifier

theorem classify_isNameStart (h : isNameStart first = true) :
    let length := 1 + (rest.takeWhile isNamePart).length
    classify (first :: rest) = some (nameKind ((first :: rest).take length), length) := by
  intro length
  rw [classify_eq_head?, candidates_name h, nameKind]
  split <;> rfl

/-- A name is the whole run of its characters. -/
theorem classify_name_append (h : IsIdentifier lexeme) {kind : TokenKind}
    (hkind : nameKind lexeme = kind) :
    classify (lexeme ++ rest) = some (kind, lexeme.length) ↔
      ∀ c ∈ rest.head?, isNamePart c = false := by
  obtain ⟨first, others, rfl, hfirst, hothers⟩ := h
  rw [List.cons_append, classify_isNameStart hfirst, ← length_takeWhile_append_eq_iff hothers,
    Option.some.injEq, Prod.mk.injEq, List.length_cons, Nat.add_comm]
  constructor
  · rintro ⟨-, hlength⟩
    exact Nat.succ.inj hlength
  · intro hlength
    refine ⟨?_, congrArg _ hlength⟩
    rw [hlength, List.take_succ_cons, List.take_left, hkind]

/-- Digits at the front make a number. -/
theorem candidates_digits_append {digits : List Char} (hne : digits ≠ []) (h : AllDigits digits)
    (rest : List Char) :
    let whole := digitRun (digits ++ rest)
    candidates (digits ++ rest) =
      if ((digits ++ rest).drop whole).head? = some '.' then
        [(.float, whole + 1 + digitRun ((digits ++ rest).drop (whole + 1)))]
      else [(.integer, whole), (.float, whole)] := by
  obtain ⟨first, others, rfl⟩ := List.exists_cons_of_ne_nil hne
  exact candidates_digits (h first List.mem_cons_self)

theorem classify_integer_append (hne : lexeme ≠ []) (h : AllDigits lexeme) :
    classify (lexeme ++ rest) = some (.integer, lexeme.length) ↔
      ∀ c ∈ rest.head?, c.isDigit = false ∧ c ≠ '.' := by
  rw [classify_eq_head?, candidates_digits_append hne h]
  constructor
  · intro hmatch
    -- in front of a point the digits are a float
    split_ifs at hmatch with hpoint
    · simp at hmatch
    have hwhole : digitRun (lexeme ++ rest) = lexeme.length := by simpa using hmatch
    intro c hc
    refine ⟨(digitRun_append_eq_iff h).mp hwhole c hc, ?_⟩
    rintro rfl
    rw [hwhole, List.drop_left] at hpoint
    exact hpoint hc
  · intro hrest
    have hwhole : digitRun (lexeme ++ rest) = lexeme.length :=
      (digitRun_append_eq_iff h).mpr fun c hc => (hrest c hc).1
    have hpoint : ¬rest.head? = some '.' := fun hhead => (hrest '.' hhead).2 rfl
    rw [hwhole, List.drop_left, if_neg hpoint]
    rfl

theorem classify_float_append {whole fraction : List Char} (hwhole : AllDigits whole)
    (hfraction : AllDigits fraction) (hne : whole ≠ [] ∨ fraction ≠ []) :
    classify (whole ++ '.' :: fraction ++ rest) =
        some (.float, (whole ++ '.' :: fraction).length) ↔
      ∀ c ∈ rest.head?, c.isDigit = false := by
  have hmatch : classify (whole ++ '.' :: fraction ++ rest) =
      some (.float, whole.length + 1 + digitRun (fraction ++ rest)) := by
    rw [classify_eq_head?,
      show whole ++ '.' :: fraction ++ rest = whole ++ '.' :: (fraction ++ rest) by simp]
    cases whole with
    -- without digits in front of the point there are some behind it
    | nil =>
      have hpos : 0 < digitRun (fraction ++ rest) :=
        Nat.lt_of_lt_of_le (List.length_pos_iff.mpr (hne.resolve_left (by simp)))
          (le_digitRun_append hfraction)
      rw [List.nil_append, candidates_other (by decide) (by decide),
        if_pos rfl, if_pos hpos, List.length_nil, Nat.zero_add]
      rfl
    | cons first others =>
      have hrun : digitRun (first :: others ++ '.' :: (fraction ++ rest)) =
          (first :: others).length :=
        (digitRun_append_eq_iff hwhole).mpr (by simp)
      rw [candidates_digits_append (by simp) hwhole, hrun,
        ← List.drop_drop, List.drop_left, List.head?_cons, if_pos rfl]
      rfl
  rw [hmatch, ← digitRun_append_eq_iff hfraction]
  simp
  omega

theorem classify_string_append {body : List Char} (hne : body ≠ [])
    (hbody : ∀ c ∈ body, isStringPart c = true) :
    classify ('"' :: (body ++ ['"']) ++ rest) =
      some (.string, ('"' :: (body ++ ['"'])).length) := by
  have hpos : 0 < body.length := List.length_pos_iff.mpr hne
  have hquote : isStringPart '"' = false := by decide +kernel
  have hrun : (body ++ '"' :: rest).takeWhile isStringPart = body :=
    takeWhile_run hbody _ fun c hc => Option.some.inj hc ▸ hquote
  rw [List.cons_append, List.append_assoc, List.singleton_append, classify_eq_head?,
    candidates_other (by decide) (by decide), if_neg (by decide)]
  simp [string, hrun, hpos]

/-! ### Texts of all kinds -/

/-- Every reserved word is spelled like a name. -/
theorem isIdentifier_of_mem_keywords (h : String.ofList lexeme ∈ keywords) :
    IsIdentifier lexeme := by
  have hall : ∀ word ∈ keywords, identifier word.toList = some word.toList.length := by decide
  have hname := isIdentifier_of_identifier (hall _ h)
  rwa [List.take_length, String.toList_ofList] at hname

/-- A text of a kind is a token of this kind in a longer text if what follows lets it end. -/
theorem classify_append_iff_stops {kind : TokenKind} (h : kind.Spells lexeme) :
    classify (lexeme ++ rest) = some (kind, lexeme.length) ↔ kind.Stops lexeme rest := by
  cases kind with
  | assignmentOperator | arithmeticOperator | relationalOperator | logicalOperator =>
    exact classify_operator_append (by decide) h
  | openBrace | closeBrace | openParen | closeParen | semicolon =>
    exact iff_of_true (classify_single_append (by decide) h) trivial
  | keyword => exact classify_name_append (isIdentifier_of_mem_keywords h) (if_pos h)
  | identifier => exact classify_name_append h.1 (if_neg h.2)
  | integer => exact classify_integer_append h.1 h.2
  | float =>
    obtain ⟨whole, fraction, rfl, hwhole, hfraction, hne⟩ := h
    exact classify_float_append hwhole hfraction hne
  | string =>
    obtain ⟨body, rfl, hne, hbody⟩ := h
    exact iff_of_true (classify_string_append hne hbody) trivial

/-- A text is a token at the front of a longer text exactly if it is a text of the kind, and what
follows lets it end. -/
theorem classify_append_iff {kind : TokenKind} :
    classify (lexeme ++ rest) = some (kind, lexeme.length) ↔
      kind.Spells lexeme ∧ kind.Stops lexeme rest := by
  constructor
  · intro h
    have hspells := spells_of_classify h
    rw [List.take_left] at hspells
    exact ⟨hspells, (classify_append_iff_stops hspells).mp h⟩
  · rintro ⟨hspells, hstops⟩
    exact (classify_append_iff_stops hspells).mpr hstops

end Boundary

end CFrontEnd
