import CFrontEnd.Proofs.Lexer.Matchers

/-!
# Blanks End Every Match

No matcher accepts a blank character, and none looks past one. What a text starts with is therefore
the same whether the text ends there or goes on with a blank.

## Main definitions

* `Isolated`: a text that may follow a word without changing it.

## Main results

* `Matcher.arithmeticOperator_cons` and its siblings: which characters decide on an operator.
* `classify_append`: what follows a word after a blank does not change the match.
-/

namespace CFrontEnd

open Text

/-- The text is empty or starts with a blank. -/
def Isolated (rest : List Char) : Prop :=
  ∀ c ∈ rest.head?, isBlank c = true

/-- All blank characters. -/
def blankCharacters : List Char :=
  ['\x09', '\x0a', '\x0b', '\x0c', '\x0d', '\x20', '\x85', '\u00a0', '\u1680', '\u2000', '\u2001',
    '\u2002', '\u2003', '\u2004', '\u2005', '\u2006', '\u2007', '\u2008', '\u2009', '\u200a',
    '\u2028', '\u2029', '\u202f', '\u205f', '\u3000']

/-- A character is one of several if its code point is one of theirs. -/
theorem mem_of_toNat_mem {c : Char} {characters : List Char}
    (h : c.toNat ∈ characters.map Char.toNat) : c ∈ characters := by
  obtain ⟨d, hd, hcd⟩ := List.mem_map.mp h
  rwa [← Char.toNat_inj.mp hcd]

theorem mem_blankCharacters {c : Char} (h : isBlank c = true) : c ∈ blankCharacters := by
  have hpoints : blankCharacters.map Char.toNat =
      [9, 10, 11, 12, 13, 0x20, 0x85, 0xa0, 0x1680, 0x2000, 0x2001, 0x2002, 0x2003, 0x2004,
        0x2005, 0x2006, 0x2007, 0x2008, 0x2009, 0x200a, 0x2028, 0x2029, 0x202f, 0x205f,
        0x3000] := by
    decide
  -- a code point of the ranges is one of the list
  refine mem_of_toNat_mem ?_
  simp only [isBlank, Bool.or_eq_true, Bool.and_eq_true, decide_eq_true_eq, beq_iff_eq] at h
  simp only [hpoints, List.mem_cons, List.not_mem_nil, or_false]
  omega

/-- A blank cannot stand in a string literal. -/
theorem isStringPart_eq_false_of_isBlank {c : Char} (h : isBlank c = true) :
    Matcher.isStringPart c = false := by
  -- the table of letters and digits is looked at once for each blank
  have hall : blankCharacters.all (fun d => !Matcher.isStringPart d) = true := by decide +kernel
  simpa using List.all_eq_true.mp hall c (mem_blankCharacters h)

namespace Matcher

/-- The characters of names can stand in string literals. -/
theorem isStringPart_of_isNamePart {c : Char} (h : isNamePart c = true) :
    isStringPart c = true := by
  simp only [isNamePart, Bool.or_eq_true] at h
  rcases h with halphanum | hunderscore
  · simp [isStringPart, isAlphanumeric_of_isAlphanum halphanum]
  · simp [isStringPart, hunderscore]

/-- Digits can stand in names. -/
theorem isNamePart_of_isDigit {c : Char} (h : c.isDigit = true) : isNamePart c = true := by
  simp [isNamePart, Char.isAlphanum, h]

/-- What can start a name can stand in a name. -/
theorem isNamePart_of_isNameStart {c : Char} (h : isNameStart c = true) : isNamePart c = true := by
  simp only [isNameStart, Bool.or_eq_true] at h
  rcases h with halpha | hunderscore
  · simp [isNamePart, Char.isAlphanum, halpha]
  · simp [isNamePart, hunderscore]

theorem isNamePart_eq_false_of_isBlank {c : Char} (h : isBlank c = true) :
    isNamePart c = false := by
  cases hpart : isNamePart c with
  | false => rfl
  | true => exact (isStringPart_of_isNamePart hpart).symm.trans (isStringPart_eq_false_of_isBlank h)

theorem isDigit_eq_false_of_isBlank {c : Char} (h : isBlank c = true) : c.isDigit = false := by
  cases hdigit : c.isDigit with
  | false => rfl
  | true => exact (isNamePart_of_isDigit hdigit).symm.trans (isNamePart_eq_false_of_isBlank h)

/-! ### Which characters decide on an operator -/

theorem arithmeticOperator_cons (first : Char) (rest : List Char) :
    arithmeticOperator (first :: rest) =
      if (first = '+' ∨ first = '-') ∧ rest.head? = some first then some 2
      else if first ∈ ['+', '-', '*', '/', '%'] then some 1
      else none := by
  unfold arithmeticOperator
  -- two characters at most are looked at
  cases rest <;> split <;> simp_all <;> grind

theorem relationalOperator_cons (first : Char) (rest : List Char) :
    relationalOperator (first :: rest) =
      if first ∈ ['=', '!', '>', '<'] ∧ rest.head? = some '=' then some 2
      else if first ∈ ['<', '>'] then some 1
      else none := by
  unfold relationalOperator
  cases rest <;> split <;> simp_all <;> grind

theorem logicalOperator_cons (first : Char) (rest : List Char) :
    logicalOperator (first :: rest) =
      if (first = '&' ∨ first = '|') ∧ rest.head? = some first then some 2
      else if first = '!' ∧ rest.head? ≠ some '=' then some 1
      else none := by
  unfold logicalOperator
  cases rest <;> split <;> simp_all <;> grind

theorem assignmentOperator_cons (first : Char) (rest : List Char) :
    assignmentOperator (first :: rest) =
      if (first = '<' ∨ first = '>') ∧ rest.head? = some first ∧ rest[1]? = some '=' then some 3
      else if first = '=' then if rest.head? = some '=' then none else some 1
      else if isCompound first ∧ rest.head? = some '=' ∧ rest[1]? ≠ some '=' then some 2
      else none := by
  unfold assignmentOperator
  -- three characters at most are looked at
  rcases rest with _ | ⟨second, _ | ⟨third, rest⟩⟩ <;> split <;> simp_all <;> grind

/-! ### Texts that start with no mark -/

/-- The characters that braces, parentheses, the semicolon and the operators start with. -/
def marks : List Char :=
  ['\x7b', '\x7d', '(', ')', ';', '=', '<', '>', '+', '-', '*', '/', '%', '&', '^', '|', '!']

/-- No mark is blank. -/
theorem not_mem_marks_of_isBlank {c : Char} (h : isBlank c = true) : c ∉ marks := by
  have hall : blankCharacters.all (fun d => !marks.contains d) = true := by decide
  simpa using List.all_eq_true.mp hall c (mem_blankCharacters h)

section NoMark

variable {first : Char} {rest : List Char}

theorem char_eq_none {c : Char} (hc : c ∈ marks) (h : first ∉ marks) :
    char c (first :: rest) = none := by
  have hne : first ≠ c := fun heq => h (heq ▸ hc)
  simp [char, hne]

theorem arithmeticOperator_eq_none (h : first ∉ marks) :
    arithmeticOperator (first :: rest) = none := by
  simp only [marks, List.mem_cons, not_or] at h
  simp [arithmeticOperator_cons, h]

theorem relationalOperator_eq_none (h : first ∉ marks) :
    relationalOperator (first :: rest) = none := by
  simp only [marks, List.mem_cons, not_or] at h
  simp [relationalOperator_cons, h]

theorem logicalOperator_eq_none (h : first ∉ marks) :
    logicalOperator (first :: rest) = none := by
  simp only [marks, List.mem_cons, not_or] at h
  simp [logicalOperator_cons, h]

theorem assignmentOperator_eq_none (h : first ∉ marks) :
    assignmentOperator (first :: rest) = none := by
  simp only [marks, List.mem_cons, not_or] at h
  simp [assignmentOperator_cons, isCompound, h]

end NoMark

/-! ### What follows a word after a blank -/

/-- The matcher finds in a text what it finds in the part before a blank. -/
def StopsAtBlanks (matcher : Matcher) : Prop :=
  ∀ word rest, Isolated rest → matcher (word ++ rest) = matcher word

section Append

variable {word rest : List Char} {c : Char}

/-- Behind a word stands a given character exactly when it is a character of the word. -/
theorem getElem?_append_of_isolated (h : Isolated rest) (hc : isBlank c = false) (i : Nat)
    (hi : i ≤ word.length) : (word ++ rest)[i]? = some c ↔ word[i]? = some c := by
  rcases Nat.lt_or_eq_of_le hi with hlt | rfl
  · rw [List.getElem?_append_left hlt]
  -- right behind the word there is nothing or a blank
  · rw [List.getElem?_append_right (Nat.le_refl _), Nat.sub_self,
      List.getElem?_eq_none (Nat.le_refl _), ← List.head?_eq_getElem?]
    simp only [reduceCtorEq, iff_false]
    intro hrest
    simp [h c hrest] at hc

theorem head?_append_of_isolated (h : Isolated rest) (hc : isBlank c = false) :
    (word ++ rest).head? = some c ↔ word.head? = some c := by
  simpa only [List.head?_eq_getElem?] using getElem?_append_of_isolated h hc 0 (Nat.zero_le _)

/-- A run of characters ends before the first character of another kind. -/
theorem takeWhile_eq_nil {p : Char → Bool} (h : ∀ c ∈ rest.head?, p c = false) :
    rest.takeWhile p = [] := by
  cases rest with
  | nil => rfl
  | cons first rest => simp [h first rfl]

/-- A run of characters that are not blank ends with the word. -/
theorem takeWhile_append_of_isolated {p : Char → Bool} (h : Isolated rest)
    (hp : ∀ c, isBlank c = true → p c = false) :
    (word ++ rest).takeWhile p = word.takeWhile p := by
  rw [List.takeWhile_append, takeWhile_eq_nil fun c hc => hp c (h c hc), List.append_nil]
  split
  · rename_i hall
    exact (List.Sublist.eq_of_length (List.takeWhile_sublist p) hall).symm
  · rfl

theorem digitRun_append (h : Isolated rest) : digitRun (word ++ rest) = digitRun word := by
  rw [digitRun, takeWhile_append_of_isolated h fun _ => isDigit_eq_false_of_isBlank, digitRun]

end Append

/-- A matcher that takes nothing from a blank on stops at blanks if it does behind a first
character. -/
theorem stopsAtBlanks_of_cons {matcher : Matcher} (hnil : matcher [] = none)
    (hblank : ∀ first rest, isBlank first = true → matcher (first :: rest) = none)
    (hcons : ∀ first word rest, Isolated rest →
      matcher (first :: (word ++ rest)) = matcher (first :: word)) :
    matcher.StopsAtBlanks := by
  intro word rest h
  cases word with
  | cons first word => exact hcons first word rest h
  | nil =>
    cases rest with
    | nil => rfl
    | cons first rest => rw [List.nil_append, hblank first rest (h first rfl), hnil]

theorem char_stopsAtBlanks {c : Char} (hc : c ∈ marks) : (char c).StopsAtBlanks :=
  stopsAtBlanks_of_cons rfl
    (fun _ _ hblank => char_eq_none hc (not_mem_marks_of_isBlank hblank)) fun _ _ _ _ => rfl

theorem arithmeticOperator_stopsAtBlanks : arithmeticOperator.StopsAtBlanks := by
  refine stopsAtBlanks_of_cons rfl
    (fun _ _ hblank => arithmeticOperator_eq_none (not_mem_marks_of_isBlank hblank)) ?_
  intro first word rest h
  have hdouble : ((first = '+' ∨ first = '-') ∧ (word ++ rest).head? = some first) ↔
      (first = '+' ∨ first = '-') ∧ word.head? = some first := by
    refine and_congr_right fun hfirst => head?_append_of_isolated h ?_
    rcases hfirst with rfl | rfl <;> rfl
  simp only [arithmeticOperator_cons, hdouble]

theorem relationalOperator_stopsAtBlanks : relationalOperator.StopsAtBlanks := by
  refine stopsAtBlanks_of_cons rfl
    (fun _ _ hblank => relationalOperator_eq_none (not_mem_marks_of_isBlank hblank)) ?_
  intro first word rest h
  have hequals : (word ++ rest).head? = some '=' ↔ word.head? = some '=' :=
    head?_append_of_isolated h rfl
  simp only [relationalOperator_cons, hequals]

theorem logicalOperator_stopsAtBlanks : logicalOperator.StopsAtBlanks := by
  refine stopsAtBlanks_of_cons rfl
    (fun _ _ hblank => logicalOperator_eq_none (not_mem_marks_of_isBlank hblank)) ?_
  intro first word rest h
  have hequals : (word ++ rest).head? = some '=' ↔ word.head? = some '=' :=
    head?_append_of_isolated h rfl
  have hdouble : ((first = '&' ∨ first = '|') ∧ (word ++ rest).head? = some first) ↔
      (first = '&' ∨ first = '|') ∧ word.head? = some first := by
    refine and_congr_right fun hfirst => head?_append_of_isolated h ?_
    rcases hfirst with rfl | rfl <;> rfl
  simp only [logicalOperator_cons, hdouble, ne_eq, hequals]

theorem assignmentOperator_stopsAtBlanks : assignmentOperator.StopsAtBlanks := by
  refine stopsAtBlanks_of_cons rfl
    (fun _ _ hblank => assignmentOperator_eq_none (not_mem_marks_of_isBlank hblank)) ?_
  intro first word rest h
  have hequals : (word ++ rest).head? = some '=' ↔ word.head? = some '=' :=
    head?_append_of_isolated h rfl
  -- the character after next counts only where the next one belongs to the word
  have hafter : ∀ c, word.head? = some c →
      ((word ++ rest)[1]? = some '=' ↔ word[1]? = some '=') := by
    intro c hhead
    refine getElem?_append_of_isolated h rfl 1 (List.length_pos_iff.mpr ?_)
    rintro rfl
    simp at hhead
  have hshift : ((first = '<' ∨ first = '>') ∧ (word ++ rest).head? = some first ∧
      (word ++ rest)[1]? = some '=') ↔
        (first = '<' ∨ first = '>') ∧ word.head? = some first ∧ word[1]? = some '=' := by
    refine and_congr_right fun hfirst => ?_
    rw [head?_append_of_isolated h (by rcases hfirst with rfl | rfl <;> rfl)]
    exact and_congr_right fun hhead => hafter first hhead
  have hcompound : (word.head? = some '=' ∧ (word ++ rest)[1]? ≠ some '=') ↔
      word.head? = some '=' ∧ word[1]? ≠ some '=' :=
    and_congr_right fun hhead => not_congr (hafter '=' hhead)
  simp only [assignmentOperator_cons, hshift, hequals, hcompound]

/-- Nothing but a letter or an underscore starts a name. -/
theorem identifier_eq_none {first : Char} {rest : List Char} (h : isNameStart first = false) :
    identifier (first :: rest) = none := by
  simp [identifier, h]

theorem identifier_stopsAtBlanks : identifier.StopsAtBlanks := by
  refine stopsAtBlanks_of_cons rfl (fun first rest hblank => ?_) fun first word rest h => ?_
  · refine identifier_eq_none ?_
    cases hstart : isNameStart first with
    | false => rfl
    | true =>
      exact (isNamePart_of_isNameStart hstart).symm.trans (isNamePart_eq_false_of_isBlank hblank)
  · rw [identifier, takeWhile_append_of_isolated h fun _ => isNamePart_eq_false_of_isBlank,
      identifier]

theorem keyword_stopsAtBlanks : keyword.StopsAtBlanks := by
  intro word rest h
  -- the name is the same, and its characters all stand in the word
  rw [keyword, keyword, identifier_stopsAtBlanks word rest h]
  cases hname : identifier word with
  | none => rfl
  | some length =>
    have hle := (identifier_bounded word length hname).2
    simp only [Option.filter_some, List.take_append_of_le_length hle]

theorem integer_stopsAtBlanks : integer.StopsAtBlanks := by
  intro word rest h
  -- a point behind the digits would be a character of the word
  have hpoint : ((word ++ rest).drop (digitRun word)).head? = some '.' ↔
      (word.drop (digitRun word)).head? = some '.' := by
    rw [List.drop_append_of_le_length (digitRun_le word)]
    exact head?_append_of_isolated h rfl
  simp only [integer, digitRun_append h, ne_eq, hpoint]

theorem float_stopsAtBlanks : float.StopsAtBlanks := by
  intro word rest h
  simp only [float, digitRun_append h, List.drop_append_of_le_length (digitRun_le word)]
  cases word.drop (digitRun word) with
  -- the word is all digits, and no point is blank
  | nil =>
    cases rest with
    | nil => rfl
    | cons first rest =>
      have hpoint : first ≠ '.' := by
        rintro rfl
        exact absurd (h '.' rfl) (by decide)
      simp [hpoint]
  | cons first others =>
    by_cases hpoint : first = '.'
    · simp [hpoint, digitRun_append h]
    · simp [hpoint]

theorem string_stopsAtBlanks : string.StopsAtBlanks := by
  refine stopsAtBlanks_of_cons rfl (fun first rest hblank => ?_) fun first word rest h => ?_
  · have hquote : first ≠ '"' := by
      rintro rfl
      exact absurd hblank (by decide)
    simp [string, hquote]
  · by_cases hquote : first = '"'
    · have hbody : (word ++ rest).takeWhile isStringPart = word.takeWhile isStringPart :=
        takeWhile_append_of_isolated h fun _ => isStringPart_eq_false_of_isBlank
      have hclosing : ((word ++ rest).drop (word.takeWhile isStringPart).length).head? = some '"' ↔
          (word.drop (word.takeWhile isStringPart).length).head? = some '"' := by
        rw [List.drop_append_of_le_length (List.takeWhile_sublist _).length_le]
        exact head?_append_of_isolated h rfl
      simp only [hquote, string, hbody, hclosing]
    · simp [string, hquote]

end Matcher

/-- All classifiers stop at blanks. -/
theorem classifiers_stopAtBlanks {classifier : Classifier} (h : classifier ∈ classifiers) :
    classifier.2.StopsAtBlanks := by
  simp only [classifiers, List.mem_cons, List.not_mem_nil, or_false] at h
  rcases h with rfl | rfl | rfl | rfl | rfl | rfl | rfl | rfl | rfl | rfl | rfl | rfl | rfl | rfl
  · exact Matcher.keyword_stopsAtBlanks
  · exact Matcher.char_stopsAtBlanks (by decide)
  · exact Matcher.char_stopsAtBlanks (by decide)
  · exact Matcher.char_stopsAtBlanks (by decide)
  · exact Matcher.char_stopsAtBlanks (by decide)
  · exact Matcher.char_stopsAtBlanks (by decide)
  · exact Matcher.assignmentOperator_stopsAtBlanks
  · exact Matcher.arithmeticOperator_stopsAtBlanks
  · exact Matcher.relationalOperator_stopsAtBlanks
  · exact Matcher.logicalOperator_stopsAtBlanks
  · exact Matcher.identifier_stopsAtBlanks
  · exact Matcher.integer_stopsAtBlanks
  · exact Matcher.float_stopsAtBlanks
  · exact Matcher.string_stopsAtBlanks

/-- The first match is the same in two texts if every matcher finds the same in both. -/
theorem classifyWith_congr {table : List Classifier} {first second : List Char}
    (h : ∀ classifier ∈ table, classifier.2 first = classifier.2 second) :
    classifyWith table first = classifyWith table second := by
  induction table with
  | nil => rfl
  | cons classifier table ih =>
    have htail := ih fun other hmem => h other (List.mem_cons_of_mem _ hmem)
    simp only [classifyWith] at htail
    rw [classifyWith, classifyWith, List.findSome?_cons, List.findSome?_cons, htail,
      h classifier List.mem_cons_self]

/-- What follows a word after a blank does not change the match. -/
theorem classify_append {word rest : List Char} (h : Isolated rest) :
    classify (word ++ rest) = classify word :=
  classifyWith_congr fun _ hmem => classifiers_stopAtBlanks hmem word rest h

/-- A blank character is skipped. -/
theorem classify_blank {first : Char} {rest : List Char} (h : isBlank first = true) :
    classify (first :: rest) = none := by
  have hisolated : Isolated (first :: rest) := fun c hc => Option.some.inj hc ▸ h
  -- the blank stands behind the empty word, and nothing matches that one
  have hempty : classify ([] ++ first :: rest) = classify [] := classify_append hisolated
  exact hempty.trans (by decide)

end CFrontEnd
