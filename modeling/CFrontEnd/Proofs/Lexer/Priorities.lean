import CFrontEnd.Proofs.Lexer.Isolation
import Mathlib.Data.List.Permutation

/-!
# The Order of the Classifiers

At most two classifiers match the front of a text, and if there are two, they are one of four pairs.
In each pair the one that comes first in the table takes at least as much as the other, so the first
match is a longest one. The order of the table matters for these pairs and for no others.

## Main definitions

* `candidates`: all matches at the front of a text.
* `Overlap`: the candidates that can stand together.
* `KeepsPriorities`: a table has the classifiers of each pair in order.
* `lexWith`: the tokens of a text for a table.

## Main results

* `candidates_arithmetic` and its siblings: the candidates of a text by its first character.
* `overlap_candidates`: the candidates of every text overlap in one of the four ways, or not at all.
* `le_of_classify`: the first match is a longest one.
* `candidatesIn_eq_of_keeps`: a table that keeps the priorities has the same candidates in the same
  order.
* `keeps_of_lexWith_eq`: a table that cuts every text like the classifiers keeps the priorities.
* `classifiers_ordered`: all of this together.
-/

namespace CFrontEnd

open Matcher

/-- The kinds and lengths of all matches at the front of a text, in the order of the table. -/
def candidatesIn (table : List Classifier) (text : List Char) : List (TokenKind × Nat) :=
  table.filterMap fun classifier => (classifier.2 text).map fun length => (classifier.1, length)

/-- The kinds and lengths of all matches of the language at the front of a text. -/
def candidates (text : List Char) : List (TokenKind × Nat) :=
  candidatesIn classifiers text

/-- The first match is the first candidate. -/
theorem classifyWith_eq_head? (table : List Classifier) (text : List Char) :
    classifyWith table text = (candidatesIn table text).head? :=
  List.head?_filterMap.symm

/-! ### The characters of names and numbers -/

/-- A character of a name or a number is no mark. -/
theorem not_mem_marks_of_isNamePart {c : Char} (h : isNamePart c = true) : c ∉ marks := by
  have hall : marks.all (fun d => !isNamePart d) = true := by decide
  intro hmem
  simpa [h] using List.all_eq_true.mp hall c hmem

/-- All decimal digits. -/
def digitCharacters : List Char :=
  ['0', '1', '2', '3', '4', '5', '6', '7', '8', '9']

theorem mem_digitCharacters {c : Char} (h : c.isDigit = true) : c ∈ digitCharacters := by
  have hpoints : digitCharacters.map Char.toNat = [48, 49, 50, 51, 52, 53, 54, 55, 56, 57] := by
    decide
  obtain ⟨hlow, hhigh⟩ := Char.isDigit_iff_toNat.mp h
  refine mem_of_toNat_mem ?_
  simp only [Char.reduceToNat] at hlow hhigh
  simp only [hpoints, List.mem_cons, List.not_mem_nil, or_false]
  omega

/-- A digit starts no name. -/
theorem isNameStart_eq_false_of_isDigit {c : Char} (h : c.isDigit = true) :
    isNameStart c = false := by
  have hall : digitCharacters.all (fun d => !isNameStart d) = true := by decide
  simpa using List.all_eq_true.mp hall c (mem_digitCharacters h)

/-! ### The candidates of a text by its first character -/

/-- One `=` follows, and not two. -/
def SingleEquals (rest : List Char) : Prop :=
  rest.head? = some '=' ∧ rest[1]? ≠ some '='

instance (rest : List Char) : Decidable (SingleEquals rest) :=
  inferInstanceAs (Decidable (_ ∧ _))

section Mark

variable {first : Char} {rest : List Char}

/-- A character that cannot stand in a name is no digit. -/
theorem isDigit_eq_false_of_isNamePart (h : isNamePart first = false) : first.isDigit = false := by
  cases hdigit : first.isDigit with
  | false => rfl
  | true => exact (isNamePart_of_isDigit hdigit).symm.trans h

/-- Names and integers start with a character of a name. -/
theorem matchers_eq_none_of_isNamePart (h : isNamePart first = false) (rest : List Char) :
    keyword (first :: rest) = none ∧ identifier (first :: rest) = none ∧
      integer (first :: rest) = none := by
  have hstart : isNameStart first = false := by
    cases hstart : isNameStart first with
    | false => rfl
    | true => exact (isNamePart_of_isNameStart hstart).symm.trans h
  have hname : identifier (first :: rest) = none := identifier_eq_none hstart
  refine ⟨?_, hname, ?_⟩
  · rw [keyword, hname, Option.filter_none]
  · simp [integer, digitRun, isDigit_eq_false_of_isNamePart h]

/-- The classifiers of the texts that start with a mark. -/
def markClassifiers : List Classifier :=
  (classifiers.drop 1).take 9

/-- Names, numbers and strings start with no mark. -/
theorem candidates_of_mem_marks (h : first ∈ marks) :
    candidates (first :: rest) = candidatesIn markClassifiers (first :: rest) := by
  have hpart : isNamePart first = false := by
    cases hpart : isNamePart first with
    | false => rfl
    | true => exact absurd h (not_mem_marks_of_isNamePart hpart)
  obtain ⟨hkeyword, hname, hinteger⟩ := matchers_eq_none_of_isNamePart hpart rest
  have hpoint : first ≠ '.' := fun heq => absurd (heq ▸ h) (by decide)
  have hquote : first ≠ '"' := fun heq => absurd (heq ▸ h) (by decide)
  have hfloat : float (first :: rest) = none := by
    simp [float, digitRun, isDigit_eq_false_of_isNamePart hpart, hpoint]
  have hstring : string (first :: rest) = none := by simp [string, hquote]
  simp only [candidates, candidatesIn, markClassifiers, classifiers, List.drop_succ_cons,
    List.drop_zero, List.take_succ_cons, List.take_zero, List.filterMap_cons, List.filterMap_nil,
    hname, hkeyword, hinteger, hfloat, hstring, Option.map_none]

/-- The candidates of the nine matchers by the cases of their definitions. -/
theorem candidatesIn_markClassifiers :
    candidatesIn markClassifiers (first :: rest) =
      [(TokenKind.openBrace, if first = '\x7b' then some 1 else none),
        (.closeBrace, if first = '\x7d' then some 1 else none),
        (.openParen, if first = '(' then some 1 else none),
        (.closeParen, if first = ')' then some 1 else none),
        (.semicolon, if first = ';' then some 1 else none),
        (.assignmentOperator, assignmentOperator (first :: rest)),
        (.arithmeticOperator, arithmeticOperator (first :: rest)),
        (.relationalOperator, relationalOperator (first :: rest)),
        (.logicalOperator, logicalOperator (first :: rest))].filterMap
          fun found => found.2.map (found.1, ·) := rfl

/-- An operator that goes together with `=` takes it if it stands alone. -/
theorem assignmentOperator_of_isCompound (h : isCompound first = true) :
    assignmentOperator (first :: rest) = if SingleEquals rest then some 2 else none := by
  have hshift : ¬(first = '<' ∨ first = '>') := by
    rintro (rfl | rfl) <;> exact absurd h (by decide)
  have hequals : first ≠ '=' := by
    rintro rfl
    exact absurd h (by decide)
  simp only [assignmentOperator_cons, hshift, hequals, h, true_and, false_and, if_false]
  rfl

/-- An arithmetic operator, and in front of a single `=` an assignment too. -/
theorem candidates_arithmetic (h : first ∈ ['+', '-', '*', '/', '%']) :
    candidates (first :: rest) =
      (if SingleEquals rest then [(.assignmentOperator, 2)] else []) ++
        [(.arithmeticOperator,
          if (first = '+' ∨ first = '-') ∧ rest.head? = some first then 2 else 1)] := by
  simp only [List.mem_cons, List.not_mem_nil, or_false] at h
  have hmark : first ∈ marks := by rcases h with rfl | rfl | rfl | rfl | rfl <;> decide
  have hcompound : isCompound first = true := by
    rcases h with rfl | rfl | rfl | rfl | rfl <;> rfl
  rw [candidates_of_mem_marks hmark, candidatesIn_markClassifiers,
    assignmentOperator_of_isCompound hcompound]
  rcases h with rfl | rfl | rfl | rfl | rfl <;> by_cases hsingle : SingleEquals rest <;>
    simp [arithmeticOperator_cons, relationalOperator_cons, logicalOperator_cons,
      List.filterMap_cons, hsingle] <;>
    split_ifs <;> rfl

/-- A relational operator, and doubled in front of a `=` an assignment too. -/
theorem candidates_relational (h : first = '<' ∨ first = '>') :
    candidates (first :: rest) =
      (if rest.head? = some first ∧ rest[1]? = some '=' then [(.assignmentOperator, 3)] else []) ++
        [(.relationalOperator, if rest.head? = some '=' then 2 else 1)] := by
  have hmark : first ∈ marks := by rcases h with rfl | rfl <;> decide
  rw [candidates_of_mem_marks hmark, candidatesIn_markClassifiers]
  rcases h with rfl | rfl <;>
    simp [assignmentOperator_cons, arithmeticOperator_cons, relationalOperator_cons,
      logicalOperator_cons, isCompound, List.filterMap_cons] <;>
    split_ifs <;> simp_all

theorem candidates_equals :
    candidates ('=' :: rest) =
      if rest.head? = some '=' then [(.relationalOperator, 2)] else [(.assignmentOperator, 1)] := by
  rw [candidates_of_mem_marks (by decide), candidatesIn_markClassifiers]
  simp [assignmentOperator_cons, arithmeticOperator_cons, relationalOperator_cons,
      logicalOperator_cons, List.filterMap_cons]
  split_ifs <;> simp_all

theorem candidates_not :
    candidates ('!' :: rest) =
      if rest.head? = some '=' then [(.relationalOperator, 2)] else [(.logicalOperator, 1)] := by
  rw [candidates_of_mem_marks (by decide), candidatesIn_markClassifiers]
  simp [assignmentOperator_cons, arithmeticOperator_cons, relationalOperator_cons,
      logicalOperator_cons, isCompound, List.filterMap_cons]
  split_ifs <;> simp_all

/-- An assignment in front of a single `=`, and no operator else but `&&` and `||`. -/
theorem candidates_bitwise (h : first ∈ ['&', '|', '^']) :
    candidates (first :: rest) =
      (if SingleEquals rest then [(.assignmentOperator, 2)] else []) ++
        (if first ≠ '^' ∧ rest.head? = some first then [(.logicalOperator, 2)] else []) := by
  simp only [List.mem_cons, List.not_mem_nil, or_false] at h
  have hmark : first ∈ marks := by rcases h with rfl | rfl | rfl <;> decide
  have hcompound : isCompound first = true := by rcases h with rfl | rfl | rfl <;> rfl
  rw [candidates_of_mem_marks hmark, candidatesIn_markClassifiers,
    assignmentOperator_of_isCompound hcompound]
  rcases h with rfl | rfl | rfl <;> by_cases hsingle : SingleEquals rest <;>
    simp [arithmeticOperator_cons, relationalOperator_cons, logicalOperator_cons,
      List.filterMap_cons, hsingle] <;>
    split_ifs <;> rfl

/-- The characters that are tokens of their own, with their kinds. -/
def singles : List (TokenKind × Char) :=
  [(.openBrace, '\x7b'), (.closeBrace, '\x7d'), (.openParen, '('), (.closeParen, ')'),
    (.semicolon, ';')]

theorem candidates_single {kind : TokenKind} (h : (kind, first) ∈ singles) :
    candidates (first :: rest) = [(kind, 1)] := by
  simp only [singles, List.mem_cons, Prod.mk.injEq, List.not_mem_nil, or_false] at h
  have hmark : first ∈ marks := by
    rcases h with ⟨-, rfl⟩ | ⟨-, rfl⟩ | ⟨-, rfl⟩ | ⟨-, rfl⟩ | ⟨-, rfl⟩ <;> decide
  rw [candidates_of_mem_marks hmark, candidatesIn_markClassifiers]
  rcases h with ⟨rfl, rfl⟩ | ⟨rfl, rfl⟩ | ⟨rfl, rfl⟩ | ⟨rfl, rfl⟩ | ⟨rfl, rfl⟩ <;>
    simp [assignmentOperator_cons, arithmeticOperator_cons, relationalOperator_cons,
      logicalOperator_cons, isCompound]

/-- The marks by the classifiers that look at them. -/
theorem mark_cases (h : first ∈ marks) :
    first ∈ singles.map Prod.snd ∨ first ∈ ['+', '-', '*', '/', '%'] ∨
      (first = '<' ∨ first = '>') ∨ first ∈ ['&', '|', '^'] ∨ first = '=' ∨ first = '!' := by
  have hall : marks.all (fun c => decide (c ∈ singles.map Prod.snd ∨
      c ∈ ['+', '-', '*', '/', '%'] ∨ (c = '<' ∨ c = '>') ∨ c ∈ ['&', '|', '^'] ∨ c = '=' ∨
        c = '!')) = true := by decide
  exact of_decide_eq_true (List.all_eq_true.mp hall first h)

end Mark

section NoMark

variable {first : Char} {rest : List Char}

/-- Only names, numbers and strings are left for a text that starts with no mark. -/
theorem candidates_of_not_mem_marks (h : first ∉ marks) :
    candidates (first :: rest) =
      [(TokenKind.keyword, keyword (first :: rest)), (.identifier, identifier (first :: rest)),
        (.integer, integer (first :: rest)), (.float, float (first :: rest)),
        (.string, string (first :: rest))].filterMap fun found => found.2.map (found.1, ·) := by
  have hchar : ∀ c ∈ marks, char c (first :: rest) = none := fun c hc => char_eq_none hc h
  simp only [candidates, candidatesIn, classifiers, List.filterMap_cons, List.filterMap_nil,
    hchar _ (show '\x7b' ∈ marks by decide), hchar _ (show '\x7d' ∈ marks by decide),
    hchar _ (show '(' ∈ marks by decide), hchar _ (show ')' ∈ marks by decide),
    hchar _ (show ';' ∈ marks by decide), assignmentOperator_eq_none h,
    arithmeticOperator_eq_none h, relationalOperator_eq_none h, logicalOperator_eq_none h,
    Option.map_none]

/-- A character of a name can start one, or is a digit. -/
theorem isNamePart_cases (h : isNamePart first = true) :
    isNameStart first = true ∨ first.isDigit = true := by
  simp only [isNamePart, Char.isAlphanum, Bool.or_eq_true] at h
  simp only [isNameStart, Bool.or_eq_true]
  tauto

/-- Numbers and strings start with no letter. -/
theorem candidates_name (h : isNameStart first = true) :
    let length := 1 + (rest.takeWhile isNamePart).length
    candidates (first :: rest) =
      (if String.ofList ((first :: rest).take length) ∈ keywords then [(.keyword, length)]
        else []) ++ [(.identifier, length)] := by
  intro length
  have hdigit : first.isDigit = false := by
    cases hdigit : first.isDigit with
    | false => rfl
    | true => exact h.symm.trans (isNameStart_eq_false_of_isDigit hdigit)
  have hpoint : first ≠ '.' := by
    rintro rfl
    exact absurd h (by decide)
  have hquote : first ≠ '"' := by
    rintro rfl
    exact absurd h (by decide)
  have hinteger : integer (first :: rest) = none := by simp [integer, digitRun, hdigit]
  have hfloat : float (first :: rest) = none := by simp [float, digitRun, hdigit, hpoint]
  have hstring : string (first :: rest) = none := by simp [string, hquote]
  have hname : identifier (first :: rest) = some length := if_pos h
  have hkeyword : keyword (first :: rest) =
      if String.ofList ((first :: rest).take length) ∈ keywords then some length else none := by
    simp [keyword, hname, Option.filter_some]
  rw [candidates_of_not_mem_marks (not_mem_marks_of_isNamePart (isNamePart_of_isNameStart h)),
    hkeyword, hname, hinteger, hfloat, hstring]
  split_ifs <;> rfl

/-- A number is an integer and a float, unless a point follows its first digits. -/
theorem candidates_digits (h : first.isDigit = true) :
    let whole := digitRun (first :: rest)
    candidates (first :: rest) =
      if ((first :: rest).drop whole).head? = some '.' then
        [(.float, whole + 1 + digitRun ((first :: rest).drop (whole + 1)))]
      else [(.integer, whole), (.float, whole)] := by
  intro whole
  have hpos : 0 < whole := by simp [whole, digitRun, h]
  have hname : identifier (first :: rest) = none :=
    identifier_eq_none (isNameStart_eq_false_of_isDigit h)
  have hkeyword : keyword (first :: rest) = none := by rw [keyword, hname, Option.filter_none]
  have hquote : first ≠ '"' := by
    rintro rfl
    exact absurd h (by decide)
  have hstring : string (first :: rest) = none := by simp [string, hquote]
  rw [candidates_of_not_mem_marks (not_mem_marks_of_isNamePart (isNamePart_of_isDigit h)),
    hkeyword, hname, hstring]
  by_cases hpoint : ((first :: rest).drop whole).head? = some '.'
  · obtain ⟨after, hafter⟩ := List.head?_eq_some_iff.mp hpoint
    have hlater : (first :: rest).drop (whole + 1) = after := by
      rw [← List.drop_drop, hafter]
      rfl
    have hinteger : integer (first :: rest) = none := by
      rw [integer, if_neg fun hand => hand.2 hpoint]
    have hfloat : float (first :: rest) = some (whole + 1 + digitRun after) := by
      simp only [float]
      rw [hafter]
      exact if_pos (.inl hpos)
    rw [hinteger, hfloat, if_pos hpoint, hlater]
    rfl
  · have hinteger : integer (first :: rest) = some whole := if_pos ⟨hpos, hpoint⟩
    have hfloat : float (first :: rest) = some whole := by
      simp only [float]
      split
      · rename_i after hafter
        exact absurd (by rw [hafter]; rfl) hpoint
      · exact if_pos hpos
    rw [hinteger, hfloat, if_neg hpoint]
    rfl

/-- No digits stand at the front of a text that starts with no digit. -/
theorem digitRun_eq_zero (h : first.isDigit = false) : digitRun (first :: rest) = 0 := by
  simp [digitRun, h]

/-- A text that starts with no mark, letter or digit is a float without a whole part or a string,
if it is a token at all. -/
theorem candidates_other (hmark : first ∉ marks) (hpart : isNamePart first = false) :
    candidates (first :: rest) =
      if first = '.' then
        if 0 < digitRun rest then [(.float, 1 + digitRun rest)] else []
      else ((string (first :: rest)).map (.string, ·)).toList := by
  obtain ⟨hkeyword, hname, hinteger⟩ := matchers_eq_none_of_isNamePart hpart rest
  rw [candidates_of_not_mem_marks hmark, hkeyword, hname, hinteger]
  by_cases hpoint : first = '.'
  · subst hpoint
    have hfloat : float ('.' :: rest) =
        if 0 < digitRun rest then some (1 + digitRun rest) else none := by
      rw [float.eq_def]
      simp [digitRun_eq_zero (show '.'.isDigit = false from rfl)]
    have hstring : string ('.' :: rest) = none := by simp [string]
    rw [hfloat, hstring, if_pos rfl]
    split_ifs <;> rfl
  · have hfloat : float (first :: rest) = none := by
      simp [float, digitRun, isDigit_eq_false_of_isNamePart hpart, hpoint]
    rw [hfloat, if_neg hpoint]
    cases string (first :: rest) <;> rfl

end NoMark

/-! ### Which candidates stand together -/

/-- The candidates that can stand together at the front of a text. -/
inductive Overlap : List (TokenKind × Nat) → Prop
  | none : Overlap []
  | one (candidate : TokenKind × Nat) : Overlap [candidate]
  /-- A reserved word is a name, as a whole. -/
  | name (length : Nat) : Overlap [(.keyword, length), (.identifier, length)]
  /-- An integer is a float, as a whole. -/
  | number (length : Nat) : Overlap [(.integer, length), (.float, length)]
  /-- An assignment operator goes on behind an arithmetic one. -/
  | arithmetic {long short : Nat} :
      short < long → Overlap [(.assignmentOperator, long), (.arithmeticOperator, short)]
  /-- An assignment operator goes on behind a relational one. -/
  | relational {long short : Nat} :
      short < long → Overlap [(.assignmentOperator, long), (.relationalOperator, short)]

/-- The kinds that can match together, the one with priority first. -/
def priorities : List (TokenKind × TokenKind) :=
  [(.keyword, .identifier), (.integer, .float), (.assignmentOperator, .arithmeticOperator),
    (.assignmentOperator, .relationalOperator)]

/-- Candidates that overlap are two at most. Two of them are in order, and the first one is not
shorter. -/
theorem Overlap.cases {found : List (TokenKind × Nat)} (h : Overlap found) :
    found = [] ∨ (∃ candidate, found = [candidate]) ∨
      ∃ first second, found = [first, second] ∧ (first.1, second.1) ∈ priorities ∧
        second.2 ≤ first.2 := by
  cases h with
  | none => exact .inl rfl
  | one candidate => exact .inr (.inl ⟨candidate, rfl⟩)
  | name length | number length =>
    exact .inr (.inr ⟨_, _, rfl, by simp [priorities], Nat.le_refl length⟩)
  | arithmetic hlt | relational hlt =>
    exact .inr (.inr ⟨_, _, rfl, by simp [priorities], Nat.le_of_lt hlt⟩)

theorem overlap_of_mem_marks {first : Char} (h : first ∈ marks) (rest : List Char) :
    Overlap (candidates (first :: rest)) := by
  rcases mark_cases h with hsingle | harithmetic | hrelational | hbitwise | rfl | rfl
  · obtain ⟨⟨kind, _⟩, hkind, rfl⟩ := List.mem_map.mp hsingle
    rw [candidates_single hkind]
    exact .one _
  · rw [candidates_arithmetic harithmetic]
    by_cases hequals : SingleEquals rest
    -- the second character is the sign, so it does not double the first one
    · have hdouble : ¬((first = '+' ∨ first = '-') ∧ rest.head? = some first) := by
        rintro ⟨rfl | rfl, hhead⟩ <;> exact absurd (hequals.1.symm.trans hhead) (by decide)
      rw [if_pos hequals, if_neg hdouble]
      exact .arithmetic (by decide)
    · rw [if_neg hequals]
      exact .one _
  · rw [candidates_relational hrelational]
    by_cases hdouble : rest.head? = some first ∧ rest[1]? = some '='
    · rw [if_pos hdouble]
      refine .relational ?_
      split_ifs <;> decide
    · rw [if_neg hdouble]
      exact .one _
  · rw [candidates_bitwise hbitwise]
    by_cases hequals : SingleEquals rest
    · have hdouble : ¬(first ≠ '^' ∧ rest.head? = some first) := by
        rintro ⟨-, hhead⟩
        obtain rfl : first = '=' := Option.some.inj (hhead.symm.trans hequals.1)
        exact absurd hbitwise (by decide)
      rw [if_pos hequals, if_neg hdouble]
      exact .one _
    · rw [if_neg hequals]
      split_ifs
      · exact .one _
      · exact .none
  · rw [candidates_equals]
    split_ifs
    · exact .one _
    · exact .one _
  · rw [candidates_not]
    split_ifs
    · exact .one _
    · exact .one _

/-- The candidates of every text overlap in one of the four ways, or not at all. -/
theorem overlap_candidates (text : List Char) : Overlap (candidates text) := by
  cases text with
  | nil => exact .none
  | cons first rest =>
    by_cases hmark : first ∈ marks
    · exact overlap_of_mem_marks hmark rest
    cases hpart : isNamePart first with
    | true =>
      rcases isNamePart_cases hpart with hstart | hdigit
      · rw [candidates_name hstart]
        split_ifs
        · exact .name _
        · exact .one _
      · rw [candidates_digits hdigit]
        split_ifs
        · exact .one _
        · exact .number _
    | false =>
      rw [candidates_other hmark hpart]
      split_ifs
      · exact .one _
      · exact .none
      · cases string (first :: rest) with
        | none => exact .none
        | some length => exact .one _

/-- The first match is a longest one. -/
theorem le_of_classify {text : List Char} {kind : TokenKind} {length : Nat}
    (h : classify text = some (kind, length)) {other : TokenKind × Nat}
    (hother : other ∈ candidates text) : other.2 ≤ length := by
  have hhead : (candidates text).head? = some (kind, length) :=
    (classifyWith_eq_head? classifiers text).symm.trans h
  rcases (overlap_candidates text).cases with hnil | ⟨candidate, hone⟩ |
    ⟨first, second, htwo, -, hle⟩
  · rw [hnil] at hother
    exact absurd hother List.not_mem_nil
  · rw [hone] at hhead hother
    obtain rfl := Option.some.inj hhead
    rw [List.mem_singleton.mp hother]
  · rw [htwo] at hhead hother
    obtain rfl := Option.some.inj hhead
    rcases List.mem_pair.mp hother with rfl | rfl
    · exact Nat.le_refl _
    · exact hle

/-! ### Tables in another order -/

/-- The tokens of a text for a table of classifiers. -/
def lexWith (table : List Classifier) (text : String) : List Token :=
  (Piece.scanWith table 0 text.toList).filterMap Piece.token?

/-- One kind comes before another in a table. -/
def Precedes (table : List Classifier) (first second : TokenKind) : Prop :=
  (table.map Prod.fst).idxOf first < (table.map Prod.fst).idxOf second

/-- In each pair of kinds that can match together, the one with priority comes first. -/
def KeepsPriorities (table : List Classifier) : Prop :=
  ∀ pair ∈ priorities, Precedes table pair.1 pair.2

instance (table : List Classifier) (first second : TokenKind) :
    Decidable (Precedes table first second) :=
  inferInstanceAs (Decidable (_ < _))

instance (table : List Classifier) : Decidable (KeepsPriorities table) :=
  inferInstanceAs (Decidable (∀ pair ∈ priorities, _))

/-- The kinds of the candidates stand in the order of the table. -/
theorem map_fst_candidatesIn_sublist (table : List Classifier) (text : List Char) :
    ((candidatesIn table text).map Prod.fst).Sublist (table.map Prod.fst) := by
  induction table with
  | nil => exact .slnil
  | cons classifier table ih =>
    rw [candidatesIn, List.filterMap_cons]
    cases classifier.2 text with
    | none => exact ih.cons _
    | some length => exact ih.cons_cons _

section Permuted

variable {table : List Classifier} {text : List Char} {first second : TokenKind × Nat}

/-- Two candidates show which of their kinds comes first in the table. -/
theorem precedes_of_candidatesIn (hnodup : (table.map Prod.fst).Nodup)
    (h : candidatesIn table text = [first, second]) : Precedes table first.1 second.1 := by
  have hindex : (table.map Prod.fst).Pairwise fun kind other =>
      (table.map Prod.fst).idxOf kind < (table.map Prod.fst).idxOf other := by
    rw [List.pairwise_iff_getElem]
    intro i j hi hj hlt
    rwa [hnodup.idxOf_getElem, hnodup.idxOf_getElem]
  have hsublist := map_fst_candidatesIn_sublist table text
  rw [h] at hsublist
  exact (List.pairwise_cons.mp (hindex.sublist hsublist)).1 _ List.mem_cons_self

/-- No kind has two classifiers. -/
theorem nodup_of_perm (h : table.Perm classifiers) : (table.map Prod.fst).Nodup :=
  (h.map Prod.fst).nodup_iff.mpr (by decide)

theorem candidatesIn_perm (h : table.Perm classifiers) (text : List Char) :
    (candidatesIn table text).Perm (candidates text) :=
  h.filterMap _

/-- A table that keeps the priorities has the same candidates in the same order. -/
theorem candidatesIn_eq_of_keeps (h : table.Perm classifiers) (hkeeps : KeepsPriorities table)
    (text : List Char) : candidatesIn table text = candidates text := by
  have hperm := candidatesIn_perm h text
  rcases (overlap_candidates text).cases with hnil | ⟨candidate, hone⟩ |
    ⟨first, second, htwo, hpair, -⟩
  · rw [hnil] at hperm ⊢
    exact hperm.eq_nil
  · rw [hone] at hperm ⊢
    exact hperm.eq_singleton
  · rw [htwo] at hperm ⊢
    rcases List.perm_pair.mp hperm with heq | hswap
    · exact heq
    -- the kind without priority would come first in the table
    · have hlt := hkeeps _ hpair
      exact absurd (precedes_of_candidatesIn (nodup_of_perm h) hswap) (Nat.lt_asymm hlt)

end Permuted

/-- Two tables with the same first matches cut every text alike. -/
theorem scanWith_congr {table other : List Classifier}
    (h : ∀ text, classifyWith table text = classifyWith other text) (offset : Nat)
    (text : List Char) : Piece.scanWith table offset text = Piece.scanWith other offset text := by
  fun_induction Piece.scanWith table offset text with
  | case1 => rw [Piece.scanWith]
  | case2 offset first rest kind length hmatch lexeme stop ih =>
    rw [Piece.scanWith, ← h, hmatch]
    exact congrArg _ ih
  | case3 offset first rest hmatch ih =>
    rw [Piece.scanWith, ← h, hmatch]
    exact congrArg _ ih

/-- The first token of a text is of the kind of the first match. -/
theorem head?_lexWith {table : List Classifier} {text : String} {kind : TokenKind} {length : Nat}
    (hne : text ≠ "") (h : classifyWith table text.toList = some (kind, length)) :
    (lexWith table text).head?.map Token.kind = some kind := by
  obtain ⟨first, rest, htext⟩ := List.exists_cons_of_ne_nil (mt String.toList_eq_nil_iff.mp hne)
  rw [htext] at h
  rw [lexWith, htext, Piece.scanWith, h]
  rfl

/-- Each of the pairs stands together at the front of a text. -/
theorem exists_candidates_of_mem_priorities {pair : TokenKind × TokenKind}
    (h : pair ∈ priorities) :
    ∃ text : String, text ≠ "" ∧ ∃ long short, candidates text.toList =
      [(pair.1, long), (pair.2, short)] := by
  simp only [priorities, List.mem_cons, List.not_mem_nil, or_false] at h
  rcases h with rfl | rfl | rfl | rfl
  · exact ⟨"if", by decide, 2, 2, by decide⟩
  · exact ⟨"0", by decide, 1, 1, by decide⟩
  · exact ⟨"+=", by decide, 2, 1, by decide⟩
  · exact ⟨"<<=", by decide, 3, 1, by decide⟩

/-- A table that cuts every text like the classifiers of the language keeps the priorities. -/
theorem keeps_of_lexWith_eq {table : List Classifier} (h : table.Perm classifiers)
    (hlex : ∀ text, lexWith table text = lex text) : KeepsPriorities table := by
  intro pair hpair
  have hdistinct : ∀ pair ∈ priorities, pair.1 ≠ pair.2 := by decide
  obtain ⟨text, hne, long, short, htwo⟩ := exists_candidates_of_mem_priorities hpair
  have hperm := candidatesIn_perm h text.toList
  rw [htwo] at hperm
  rcases List.perm_pair.mp hperm with heq | hswap
  · exact precedes_of_candidatesIn (nodup_of_perm h) heq
  -- the first token of the text would be of the other kind
  · have hfirst : (lexWith table text).head?.map Token.kind = some pair.2 :=
      head?_lexWith hne (by rw [classifyWith_eq_head?, hswap]; rfl)
    have hown : (lex text).head?.map Token.kind = some pair.1 :=
      head?_lexWith hne (by rw [classifyWith_eq_head?]; exact congrArg _ htwo)
    rw [hlex text, hown] at hfirst
    exact absurd (Option.some.inj hfirst) (hdistinct pair hpair)

/-- At most two classifiers match the front of a text, and two only as a reserved word and a name,
as an integer and a float, or as an assignment operator and the shorter arithmetic or relational
operator at its front. So the first match is a longest one, and the classifiers in another order cut
all texts alike exactly if the order is the same for these four pairs. -/
theorem classifiers_ordered :
    (∀ text, Overlap (candidates text)) ∧
      (∀ text, (classify text = none ↔ candidates text = []) ∧
        ∀ kind length, classify text = some (kind, length) →
          (kind, length) ∈ candidates text ∧ ∀ other ∈ candidates text, other.2 ≤ length) ∧
      ∀ table, table.Perm classifiers →
        ((∀ text, lexWith table text = lex text) ↔ KeepsPriorities table) := by
  refine ⟨overlap_candidates, fun text => ⟨?_, fun kind length hmatch => ⟨?_, ?_⟩⟩,
    fun table hperm => ⟨keeps_of_lexWith_eq hperm, fun hkeeps text => ?_⟩⟩
  · rw [classify, classifyWith_eq_head?, List.head?_eq_none_iff]
    rfl
  · rw [classify, classifyWith_eq_head?] at hmatch
    exact List.mem_of_head? hmatch
  · exact fun other hother => le_of_classify hmatch hother
  · have hfirst : ∀ text, classifyWith table text = classifyWith classifiers text := by
      intro text
      rw [classifyWith_eq_head?, classifyWith_eq_head?, candidatesIn_eq_of_keeps hperm hkeeps]
      rfl
    rw [lexWith, scanWith_congr hfirst, lex_eq_scan, Piece.scan]

/-- The table with the last three classifiers in front cuts all texts alike, although floats and
strings come before operators in it. -/
theorem classifiers_ordered_rotated :
    let table := classifiers.drop 11 ++ classifiers.take 11
    table.Perm classifiers ∧ KeepsPriorities table ∧ ∀ text, lexWith table text = lex text := by
  intro table
  have hperm : table.Perm classifiers :=
    List.perm_append_comm.trans (.of_eq (List.take_append_drop 11 classifiers))
  have hkeeps : KeepsPriorities table := by decide
  exact ⟨hperm, hkeeps, (classifiers_ordered.2.2 table hperm).mpr hkeeps⟩

end CFrontEnd
