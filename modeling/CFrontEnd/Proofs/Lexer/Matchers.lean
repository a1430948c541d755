import CFrontEnd.Token.Piece

/-!
# The Lengths of Matches

A matcher is bounded if its matches take at least one character and no more than there are. All
fourteen classifiers are bounded, so a token is never empty and never reaches past the end of the
text. Lengths are counted in characters; the bytes of a token follow from its characters.

## Main results

* `classify_bounds`: the length of a match is positive and at most the length of the text.
* `Piece.scanWith_of_match`: the first token of a text is as long as the match.
-/

namespace CFrontEnd

namespace Matcher

/-- A match takes at least one character and no more than there are. -/
def Bounded (matcher : Matcher) : Prop :=
  ∀ text length, matcher text = some length → 0 < length ∧ length ≤ text.length

theorem digitRun_le (text : List Char) : digitRun text ≤ text.length :=
  (List.takeWhile_sublist _).length_le

theorem char_bounded (c : Char) : (char c).Bounded := by
  intro text length h
  cases text with
  | nil => simp [char] at h
  | cons first rest =>
    simp only [char, Option.ite_none_right_eq_some, Option.some.injEq] at h
    simp [← h.2]

theorem identifier_bounded : identifier.Bounded := by
  intro text length h
  cases text with
  | nil => simp [identifier] at h
  | cons first rest =>
    simp only [identifier, Option.ite_none_right_eq_some, Option.some.injEq] at h
    have hpart : (rest.takeWhile isNamePart).length ≤ rest.length :=
      (List.takeWhile_sublist _).length_le
    rw [← h.2, List.length_cons]
    omega

theorem keyword_bounded : keyword.Bounded := by
  intro text length h
  -- a reserved word is matched as a name first
  exact identifier_bounded text length (Option.filter_eq_some_iff.mp h).1

theorem assignmentOperator_bounded : assignmentOperator.Bounded := by
  intro text length h
  -- each pattern names all the characters that it takes
  unfold assignmentOperator at h
  split at h <;> simp_all <;> omega

theorem arithmeticOperator_bounded : arithmeticOperator.Bounded := by
  intro text length h
  unfold arithmeticOperator at h
  split at h <;> simp_all <;> omega

theorem relationalOperator_bounded : relationalOperator.Bounded := by
  intro text length h
  unfold relationalOperator at h
  split at h <;> simp_all <;> omega

theorem logicalOperator_bounded : logicalOperator.Bounded := by
  intro text length h
  unfold logicalOperator at h
  split at h <;> simp_all <;> omega

theorem integer_bounded : integer.Bounded := by
  intro text length h
  simp only [integer, Option.ite_none_right_eq_some, Option.some.injEq] at h
  obtain ⟨⟨hpos, -⟩, rfl⟩ := h
  exact ⟨hpos, digitRun_le text⟩

theorem float_bounded : float.Bounded := by
  intro text length h
  have hwhole := digitRun_le text
  simp only [float] at h
  split at h
  · rename_i rest hdrop
    -- the point and the fraction are what the whole part leaves
    have hleft : text.length - digitRun text = rest.length + 1 := by
      rw [← List.length_drop, hdrop, List.length_cons]
    have hfraction := digitRun_le rest
    simp only [Option.ite_none_right_eq_some, Option.some.injEq] at h
    omega
  · simp only [Option.ite_none_right_eq_some, Option.some.injEq] at h
    omega

theorem string_bounded : string.Bounded := by
  intro text length h
  simp only [string] at h
  split at h
  · rename_i rest
    simp only [Option.ite_none_right_eq_some, Option.some.injEq] at h
    obtain ⟨⟨-, hquote⟩, rfl⟩ := h
    -- the closing quote stands after the body, so the body is not all there is
    have hbody : (rest.takeWhile isStringPart).length < rest.length := by
      refine Nat.lt_of_not_le fun hle => ?_
      rw [List.drop_eq_nil_of_le hle] at hquote
      simp at hquote
    rw [List.length_cons]
    omega
  · simp at h

end Matcher

/-- All classifiers are bounded. -/
theorem classifiers_bounded {classifier : Classifier} (h : classifier ∈ classifiers) :
    classifier.2.Bounded := by
  -- in the order of the table
  simp only [classifiers, List.mem_cons, List.not_mem_nil, or_false] at h
  rcases h with rfl | rfl | rfl | rfl | rfl | rfl | rfl | rfl | rfl | rfl | rfl | rfl | rfl | rfl
  · exact Matcher.keyword_bounded
  · exact Matcher.char_bounded _
  · exact Matcher.char_bounded _
  · exact Matcher.char_bounded _
  · exact Matcher.char_bounded _
  · exact Matcher.char_bounded _
  · exact Matcher.assignmentOperator_bounded
  · exact Matcher.arithmeticOperator_bounded
  · exact Matcher.relationalOperator_bounded
  · exact Matcher.logicalOperator_bounded
  · exact Matcher.identifier_bounded
  · exact Matcher.integer_bounded
  · exact Matcher.float_bounded
  · exact Matcher.string_bounded

/-- A token takes at least one character and no more than there are. -/
theorem classify_bounds {text : List Char} {kind : TokenKind} {length : Nat}
    (h : classify text = some (kind, length)) : 0 < length ∧ length ≤ text.length := by
  obtain ⟨classifier, hmem, hmatch⟩ := List.exists_of_findSome?_eq_some h
  obtain ⟨taken, htaken, heq⟩ := Option.map_eq_some_iff.mp hmatch
  obtain ⟨-, rfl⟩ := Prod.mk.inj heq
  exact classifiers_bounded hmem text taken htaken

/-- The first token of a text is as long as the match, and the scan goes on behind it. -/
theorem Piece.scanWith_of_match {offset : Nat} {text : List Char} {kind : TokenKind}
    {length : Nat} (h : classify text = some (kind, length)) :
    scanWith classifiers offset text =
      .token
          { kind
            lexeme := String.ofList (text.take length)
            span := { start := offset, stop := offset + Text.byteLength (text.take length) } } ::
        scanWith classifiers (offset + Text.byteLength (text.take length)) (text.drop length) := by
  obtain ⟨hpos, hle⟩ := classify_bounds h
  -- the scan takes the first character of a token whatever the length of the match is
  obtain ⟨length, rfl⟩ := Nat.exists_eq_add_one_of_ne_zero (Nat.ne_of_gt hpos)
  cases text with
  | nil => simp at hle
  | cons first rest =>
    rw [scanWith, show classifyWith classifiers (first :: rest) = _ from h]
    simp

/-- Where nothing matches, the first character of a text is passed over. -/
theorem Piece.scanWith_of_none {offset : Nat} {first : Char} {rest : List Char}
    (h : classify (first :: rest) = none) :
    scanWith classifiers offset (first :: rest) =
      .skipped offset first :: scanWith classifiers (offset + first.utf8Size) rest := by
  rw [scanWith, show classifyWith classifiers (first :: rest) = none from h]

end CFrontEnd
