import CFrontEnd.Text.Position
import CFrontEnd.Token

/-!
# Slices

A text in UTF-8 can be cut at a byte offset only where a character ends, and not past its end. A
slice that asks for any other cut has no answer. Slices are the only way in which the bytes of a
text are taken apart, so where every slice has an answer, nothing can go wrong.

## Main definitions

* `Text.cut?`: the two parts of a text at a byte offset.
* `Text.slice?`: the part of a text between two byte offsets.
* `Text.floorBoundary?`: the last place at or before an offset where a text can be cut.

## Main results

* `Text.cut?_eq_some_iff`: a text is cut between two characters.
* `Text.slice?_eq_some_iff`: a slice is a part of the text that starts and ends at its offsets.
* `Text.upto?_floorBoundary?`: cutting at the last place before an offset always succeeds.
* `Token.stringBody?_eq_slice?`: the body of a string token is a slice of its text.
-/

namespace CFrontEnd

namespace Text

/-- The two parts of a text at a byte offset, if a character ends there. -/
def cut? : Nat → List Char → Option (List Char × List Char)
  | 0, text => some ([], text)
  | _ + 1, [] => none
  | offset + 1, c :: text =>
    if c.utf8Size ≤ offset + 1 then
      (cut? (offset + 1 - c.utf8Size) text).map fun parts => (c :: parts.1, parts.2)
    else none

/-- The part of a text before a byte offset. -/
def upto? (offset : Nat) (text : List Char) : Option (List Char) :=
  (cut? offset text).map Prod.fst

/-- The part of a text from a byte offset on. -/
def from? (offset : Nat) (text : List Char) : Option (List Char) :=
  (cut? offset text).map Prod.snd

/-- The part of a text between two byte offsets, of which the second is not the smaller one. -/
def slice? (start stop : Nat) (text : List Char) : Option (List Char) :=
  if start ≤ stop then (from? start text).bind (upto? (stop - start)) else none

/-- The last place at or before an offset where a text can be cut, found by going back one byte at
a time. Going back from the start of the text has no answer. -/
def floorBoundary? (text : List Char) : Nat → Option Nat
  | 0 => if (cut? 0 text).isSome then some 0 else none
  | offset + 1 =>
    if (cut? (offset + 1) text).isSome then some (offset + 1) else floorBoundary? text offset

variable {offset start stop : Nat} {text before part after : List Char}

/-- A text is cut between two characters. -/
theorem cut?_eq_some_iff :
    cut? offset text = some (before, after) ↔
      text = before ++ after ∧ byteLength before = offset := by
  fun_induction cut? offset text generalizing before after with
  | case1 text =>
    -- no character takes no bytes
    cases before with
    | nil => simp
    | cons c before =>
      have hsize := c.utf8Size_pos
      simp only [Option.some.injEq, Prod.mk.injEq, byteLength_cons]
      constructor
      · rintro ⟨hnil, -⟩
        simp at hnil
      · rintro ⟨-, hlength⟩
        omega
  | case2 offset =>
    simp only [reduceCtorEq, false_iff, not_and]
    intro hnil hlength
    obtain ⟨rfl, rfl⟩ := List.append_eq_nil_iff.mp hnil.symm
    simp at hlength
  | case3 offset c text hsize ih =>
    cases before with
    | nil => simp
    | cons d before =>
      simp only [Option.map_eq_some_iff, Prod.exists, Prod.mk.injEq, List.cons.injEq, ih,
        List.cons_append, byteLength_cons]
      constructor
      · rintro ⟨_, _, ⟨rfl, hlength⟩, ⟨rfl, rfl⟩, rfl⟩
        exact ⟨⟨rfl, rfl⟩, by omega⟩
      · rintro ⟨⟨rfl, rfl⟩, hlength⟩
        exact ⟨_, _, ⟨rfl, by omega⟩, ⟨rfl, rfl⟩, rfl⟩
  | case4 offset c text hsize =>
    simp only [reduceCtorEq, false_iff, not_and]
    intro htext hlength
    cases before with
    | nil => simp at hlength
    | cons d before =>
      obtain ⟨rfl, -⟩ := List.cons.inj htext
      rw [byteLength_cons] at hlength
      omega

theorem cut?_append (before after : List Char) :
    cut? (byteLength before) (before ++ after) = some (before, after) :=
  cut?_eq_some_iff.mpr ⟨rfl, rfl⟩

@[simp]
theorem upto?_append (before after : List Char) :
    upto? (byteLength before) (before ++ after) = some before := by
  rw [upto?, cut?_append, Option.map_some]

@[simp]
theorem from?_append (before after : List Char) :
    from? (byteLength before) (before ++ after) = some after := by
  rw [from?, cut?_append, Option.map_some]

theorem upto?_eq_some_iff :
    upto? offset text = some before ↔
      ∃ after, text = before ++ after ∧ byteLength before = offset := by
  simp [upto?, cut?_eq_some_iff]

theorem from?_eq_some_iff :
    from? offset text = some after ↔
      ∃ before, text = before ++ after ∧ byteLength before = offset := by
  simp [from?, cut?_eq_some_iff]

/-- A slice is a part of the text that starts and ends at its offsets. -/
theorem slice?_eq_some_iff :
    slice? start stop text = some part ↔
      ∃ before after, text = before ++ part ++ after ∧ byteLength before = start ∧
        byteLength (before ++ part) = stop := by
  simp only [slice?, Option.ite_none_right_eq_some, Option.bind_eq_some_iff, from?_eq_some_iff,
    upto?_eq_some_iff, byteLength_append]
  constructor
  · rintro ⟨hle, _, ⟨before, rfl, hbefore⟩, after, rfl, hpart⟩
    exact ⟨before, after, by simp, hbefore, by omega⟩
  · rintro ⟨before, after, rfl, hbefore, hpart⟩
    exact ⟨by omega, part ++ after, ⟨before, by simp, hbefore⟩, after, rfl, by omega⟩

/-- Where a text cannot be cut, the whole characters before end one byte earlier, too. -/
theorem uptoOffset_succ_of_cut?_eq_none (h : cut? (offset + 1) text = none) :
    uptoOffset (offset + 1) text = uptoOffset offset text := by
  induction text generalizing offset with
  | nil => rfl
  | cons c text ih =>
    by_cases hle : c.utf8Size ≤ offset
    · have hnone : cut? (offset - c.utf8Size + 1) text = none := by
        rw [cut?, if_pos (by omega), Option.map_eq_none_iff] at h
        rwa [← Nat.sub_add_comm hle]
      rw [uptoOffset, if_pos (by omega), uptoOffset, if_pos hle, Nat.sub_add_comm hle, ih hnone]
    · -- the character ends later, since it does not end at the offset
      have hlt : ¬c.utf8Size ≤ offset + 1 := by
        intro hsize
        rw [cut?, if_pos hsize, show offset + 1 - c.utf8Size = 0 by omega, cut?] at h
        simp at h
      rw [uptoOffset, if_neg hlt, uptoOffset, if_neg hle]

/-- A place where a text can be cut is the end of the whole characters before it. -/
theorem uptoOffset_append (before after : List Char) :
    uptoOffset (byteLength before) (before ++ after) = before := by
  induction before with
  | nil =>
    cases after with
    | nil => rfl
    | cons c after =>
      have hsize := c.utf8Size_pos
      rw [List.nil_append, byteLength_nil, uptoOffset, if_neg (by omega)]
  | cons c before ih =>
    rw [List.cons_append, byteLength_cons, uptoOffset, if_pos (by omega), Nat.add_sub_cancel_left,
      ih]

/-- The characters up to an offset past the end are all characters. -/
theorem uptoOffset_of_le (h : byteLength text ≤ offset) : uptoOffset offset text = text := by
  induction text generalizing offset with
  | nil => rfl
  | cons c text ih =>
    rw [byteLength_cons] at h
    rw [uptoOffset, if_pos (by omega), ih (by omega)]

/-- The last place before an offset where a text can be cut is the end of the whole characters
before it. -/
theorem floorBoundary?_eq (text : List Char) (offset : Nat) :
    floorBoundary? text offset = some (byteLength (uptoOffset offset text)) := by
  have hfound : ∀ offset, (cut? offset text).isSome →
      offset = byteLength (uptoOffset offset text) := by
    intro offset hsome
    obtain ⟨⟨before, after⟩, hcut⟩ := Option.isSome_iff_exists.mp hsome
    obtain ⟨rfl, rfl⟩ := cut?_eq_some_iff.mp hcut
    rw [uptoOffset_append]
  fun_induction floorBoundary? text offset with
  | case1 hsome => rw [← hfound 0 hsome]
  | case2 hnone => simp [cut?] at hnone
  | case3 offset hsome => rw [← hfound _ hsome]
  | case4 offset hnone ih =>
    rw [ih, uptoOffset_succ_of_cut?_eq_none (by simpa using hnone)]

/-- Cutting at the last place before an offset always succeeds. -/
theorem upto?_floorBoundary? (text : List Char) (offset : Nat) :
    (floorBoundary? text offset).bind (upto? · text) = some (uptoOffset offset text) := by
  have hcut := upto?_append (uptoOffset offset text) (fromOffset offset text)
  rw [uptoOffset_append_fromOffset] at hcut
  rw [floorBoundary?_eq, Option.bind_some, hcut]

/-- A text of one byte is one character. -/
theorem byteLength_eq_one_iff : byteLength text = 1 ↔ ∃ c, text = [c] ∧ c.utf8Size = 1 := by
  constructor
  · intro h
    cases text with
    | nil => simp at h
    | cons c text =>
      have hsize := c.utf8Size_pos
      cases text with
      | nil => exact ⟨c, rfl, by simpa using h⟩
      | cons d text =>
        have hother := d.utf8Size_pos
        simp only [byteLength_cons] at h
        omega
  · rintro ⟨c, rfl, hsize⟩
    simpa using hsize

end Text

open Text

/-- The body of a string token is the slice of its text without the first and the last byte. -/
theorem Token.stringBody?_eq_slice? (token : Token) :
    token.stringBody? =
      (slice? 1 (byteLength token.lexeme.toList - 1) token.lexeme.toList).map String.ofList := by
  refine Option.ext fun body => ?_
  rw [stringBody?_eq_some_iff, Option.map_eq_some_iff]
  simp only [slice?_eq_some_iff, isSingleByte, beq_iff_eq]
  constructor
  · rintro ⟨first, last, hfirst, hlast, hlexeme⟩
    refine ⟨body.toList, ⟨[first], [last], by simp [hlexeme], by simpa using hfirst, ?_⟩,
      String.ofList_toList⟩
    simp only [hlexeme, byteLength_cons, byteLength_append, byteLength_nil]
    omega
  · rintro ⟨part, ⟨before, after, hlexeme, hbefore, hstop⟩, rfl⟩
    -- what is left in front and behind takes one byte each
    have hafter : byteLength after = 1 := by
      simp only [hlexeme, byteLength_append] at hstop
      omega
    obtain ⟨first, rfl, hfirst⟩ := byteLength_eq_one_iff.mp hbefore
    obtain ⟨last, rfl, hlast⟩ := byteLength_eq_one_iff.mp hafter
    exact ⟨first, last, hfirst, hlast, by simpa using hlexeme⟩

end CFrontEnd
