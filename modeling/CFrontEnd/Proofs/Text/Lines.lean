import CFrontEnd.Proofs.Text.Slices
import Mathlib.Data.List.Induction

/-!
# Lines

A text is split into lines at its line feeds. Every text is a number of full lines, each with its
line feed, and the part of one more line; the place after it is counted from these. The search for
the last line feed in the bytes finds the same place, and every slice on the way has an answer.

## Main definitions

* `Text.fullLines`: lines with their line feeds.
* `Position.after`: the place after a text, counted.
* `Position.upto`: the part of a text before a position.
* `Position.ofOffset?`: the position of a byte offset, found by slices of the text.

## Main results

* `Text.exists_fullLines`: a text is full lines and a part of a line.
* `Position.advance_fullLines`: the place after full lines and a part of a line.
* `Position.advance_eq_after`: the place after a text is the one that is counted.
* `Position.getElem?_splitOn_advance`: the line of the place after some of a text, and what stands
  in front of that place.
* `Position.ofOffset?_eq`: the slices that look for a place have answers, and find it.
-/

namespace CFrontEnd

namespace Text

/-- Lines with their line feeds. -/
def fullLines (lines : List (List Char)) : List Char :=
  lines.flatMap (· ++ ['\n'])

variable {lines : List (List Char)} {line text : List Char}

@[simp]
theorem fullLines_nil : fullLines [] = [] := rfl

@[simp]
theorem fullLines_cons : fullLines (line :: lines) = line ++ '\n' :: fullLines lines := by
  simp [fullLines]

@[simp]
theorem fullLines_concat : fullLines (lines ++ [line]) = fullLines lines ++ line ++ ['\n'] := by
  simp [fullLines]

/-- A text is full lines and a part of a line. -/
theorem exists_fullLines (text : List Char) :
    ∃ lines line, text = fullLines lines ++ line ∧ '\n' ∉ line ∧ ∀ full ∈ lines, '\n' ∉ full := by
  -- on the end of the text, where the part of a line grows until a line feed closes it
  induction text using List.reverseRecOn with
  | nil => exact ⟨[], [], rfl, by simp, by simp⟩
  | append_singleton text c ih =>
    obtain ⟨lines, line, rfl, hline, hlines⟩ := ih
    by_cases hbreak : c = '\n'
    · subst hbreak
      refine ⟨lines ++ [line], [], by simp, by simp, fun full hfull => ?_⟩
      rcases List.mem_append.mp hfull with hmem | hmem
      · exact hlines full hmem
      · exact List.mem_singleton.mp hmem ▸ hline
    · exact ⟨lines, line ++ [c], by simp, by simp [hline, Ne.symm hbreak], hlines⟩

/-- The lines of a text are its full lines and the lines of what follows them. -/
theorem splitOn_fullLines_append (hlines : ∀ full ∈ lines, '\n' ∉ full) (text : List Char) :
    (fullLines lines ++ text).splitOn '\n' = lines ++ text.splitOn '\n' := by
  induction lines with
  | nil => rfl
  | cons line lines ih =>
    have hline : ∀ c ∈ line, (c == '\n') = false := fun c hc =>
      beq_eq_false_iff_ne.mpr (ne_of_mem_of_not_mem hc (hlines line List.mem_cons_self))
    rw [fullLines_cons, List.append_assoc, List.cons_append, List.splitOn_eq_splitOnP,
      List.splitOnP_append_cons_of_forall_mem hline '\n' rfl]
    exact congrArg (line :: ·) (ih fun full hfull => hlines full (List.mem_cons_of_mem _ hfull))

/-- The first line of a text ends before the first line feed. -/
theorem head?_splitOn (text : List Char) :
    (text.splitOn '\n').head? = some (text.takeWhile (· ≠ '\n')) := by
  induction text with
  | nil => rfl
  | cons c text ih =>
    rw [List.splitOn_eq_splitOnP] at ih ⊢
    rw [List.splitOnP_cons_eq_if_modifyHead]
    by_cases hbreak : c = '\n'
    · simp [hbreak]
    · obtain ⟨line, hline⟩ := List.head?_eq_some_iff.mp ih
      simp [hbreak, hline]

/-- The byte offset of the last occurrence of a character. -/
def rfind? (c : Char) : List Char → Option Nat
  | [] => none
  | d :: text =>
    match rfind? c text with
    | some offset => some (d.utf8Size + offset)
    | none => if d = c then some 0 else none

theorem rfind?_eq_none {c : Char} (h : c ∉ text) : rfind? c text = none := by
  induction text with
  | nil => rfl
  | cons d text ih =>
    rw [rfind?, ih (List.not_mem_of_not_mem_cons h), if_neg (List.ne_of_not_mem_cons h).symm]

/-- The last occurrence of a character is the one that is followed by none. -/
theorem rfind?_append {c : Char} (h : c ∉ text) (before : List Char) :
    rfind? c (before ++ c :: text) = some (byteLength before) := by
  induction before with
  | nil => rw [List.nil_append, rfind?, rfind?_eq_none h, if_pos rfl, byteLength_nil]
  | cons d before ih => rw [List.cons_append, rfind?, ih, byteLength_cons]

/-- The part of a line starts after the last line feed. -/
theorem rfind?_fullLines_append (hline : '\n' ∉ line) :
    (rfind? '\n' (fullLines lines ++ line)).elim 0 (· + 1) = byteLength (fullLines lines) := by
  induction lines using List.reverseRecOn with
  | nil => simp [rfind?_eq_none hline]
  | append_singleton lines full ih =>
    rw [fullLines_concat, List.append_assoc, List.singleton_append, rfind?_append hline,
      Option.elim_some, byteLength_append _ ['\n']]
    rfl

/-- The characters behind the last line feed are the part of a line. -/
theorem takeWhile_reverse_fullLines_append (hline : '\n' ∉ line) :
    (fullLines lines ++ line).reverse.takeWhile (· ≠ '\n') = line.reverse := by
  have hfree : ∀ c ∈ line.reverse, decide (c ≠ '\n') = true := fun c hc =>
    decide_eq_true (ne_of_mem_of_not_mem (List.mem_reverse.mp hc) hline)
  have hlast : (fullLines lines).reverse.takeWhile (· ≠ '\n') = [] := by
    induction lines using List.reverseRecOn with
    | nil => rfl
    | append_singleton lines full => simp
  rw [List.reverse_append, List.takeWhile_append_of_pos hfree, hlast, List.append_nil]

theorem count_fullLines (hlines : ∀ full ∈ lines, '\n' ∉ full) :
    (fullLines lines).count '\n' = lines.length := by
  induction lines with
  | nil => rfl
  | cons line lines ih =>
    rw [fullLines_cons, List.count_append, List.count_cons_self,
      List.count_eq_zero.mpr (hlines line List.mem_cons_self),
      ih fun full hfull => hlines full (List.mem_cons_of_mem _ hfull), List.length_cons,
      Nat.zero_add]

end Text

open Text

namespace Position

variable {lines : List (List Char)} {line : List Char}

/-- Without a line feed, every character takes a column. -/
theorem advance_of_not_mem (h : '\n' ∉ line) (position : Position) :
    position.advance line = { position with column := position.column + line.length } := by
  induction line generalizing position with
  | nil => rfl
  | cons c line ih =>
    have hnext : position.next c = { position with column := position.column + 1 } :=
      if_neg (List.ne_of_not_mem_cons h).symm
    rw [advance, List.foldl_cons, hnext, ← advance, ih (List.not_mem_of_not_mem_cons h),
      List.length_cons, Nat.add_right_comm, Nat.add_assoc]

theorem advance_fullLines (hlines : ∀ full ∈ lines, '\n' ∉ full) (n : Nat) :
    advance { line := n, column := 1 } (fullLines lines) =
      { line := n + lines.length, column := 1 } := by
  induction lines generalizing n with
  | nil => rfl
  | cons line lines ih =>
    rw [fullLines_cons, advance_append, advance_of_not_mem (hlines line List.mem_cons_self),
      advance, List.foldl_cons, ← advance, next, if_pos rfl,
      ih fun full hfull => hlines full (List.mem_cons_of_mem _ hfull), List.length_cons,
      Nat.add_right_comm, Nat.add_assoc]

/-- The place after full lines and a part of a line. -/
theorem advance_fullLines_append (hlines : ∀ full ∈ lines, '\n' ∉ full) (hline : '\n' ∉ line) :
    start.advance (fullLines lines ++ line) =
      { line := lines.length + 1, column := line.length + 1 } := by
  rw [advance_append, start, advance_fullLines hlines, advance_of_not_mem hline, Nat.add_comm,
    Nat.add_comm 1]

/-- The place after a text, counted: one line more than there are line feeds, and one column more
than there are characters behind the last of them. -/
def after (text : List Char) : Position :=
  { line := text.count '\n' + 1
    column := (text.reverse.takeWhile (· ≠ '\n')).length + 1 }

/-- The place after a text is the one that is counted. -/
theorem advance_eq_after (text : List Char) : start.advance text = after text := by
  obtain ⟨lines, line, rfl, hline, hlines⟩ := exists_fullLines text
  rw [advance_fullLines_append hlines hline, after, List.count_append, count_fullLines hlines,
    List.count_eq_zero.mpr hline, Nat.add_zero, takeWhile_reverse_fullLines_append hline,
    List.length_reverse]

/-- The place after a text is in its last line, behind the last character. -/
theorem exists_splitOn_eq (text : List Char) :
    ∃ lines line, text.splitOn '\n' = lines ++ [line] ∧
      start.advance text = { line := lines.length + 1, column := line.length + 1 } := by
  obtain ⟨lines, line, rfl, hline, hlines⟩ := exists_fullLines text
  have hlast : line.splitOn '\n' = [line] :=
    List.splitOnP_eq_singleton fun c hc => beq_eq_false_iff_ne.mpr (ne_of_mem_of_not_mem hc hline)
  exact ⟨lines, line, by rw [splitOn_fullLines_append hlines, hlast],
    advance_fullLines_append hlines hline⟩

/-- The part of a text before a position: the lines above it, and the characters of its line that
stand before its column. -/
def upto (position : Position) (text : List Char) : List Char :=
  fullLines ((text.splitOn '\n').take (position.line - 1)) ++
    ((text.splitOn '\n')[position.line - 1]?.getD []).take (position.column - 1)

/-- After some of a text, its line goes on with what comes next, up to a line feed. -/
theorem getElem?_splitOn_advance (before after : List Char) :
    ∃ line, ((before ++ after).splitOn '\n')[(start.advance before).line - 1]? = some line ∧
      (start.advance before).column - 1 ≤ line.length ∧
      line.drop ((start.advance before).column - 1) = after.takeWhile (· ≠ '\n') ∧
      (start.advance before).upto (before ++ after) = before := by
  obtain ⟨lines, line, rfl, hline, hlines⟩ := exists_fullLines before
  have hfree : ∀ c ∈ line, decide (c ≠ '\n') = true := fun c hc =>
    decide_eq_true (ne_of_mem_of_not_mem hc hline)
  -- the part of a line and what comes next are one line
  obtain ⟨tail, htail⟩ := List.head?_eq_some_iff.mp (head?_splitOn (line ++ after))
  have hsplit : (fullLines lines ++ line ++ after).splitOn '\n' =
      lines ++ (line ++ after.takeWhile (· ≠ '\n')) :: tail := by
    rw [List.append_assoc, splitOn_fullLines_append hlines, htail,
      List.takeWhile_append_of_pos hfree]
  rw [upto, advance_fullLines_append hlines hline, hsplit]
  exact ⟨line ++ after.takeWhile (· ≠ '\n'), by simp, by simp, by simp, by simp⟩

/-- The position of a byte offset: the last place at or before the offset where a character ends,
the line feeds before it, and the characters since the last of them. Each slice of the text may
have no answer. -/
def ofOffset? (text : List Char) (offset : Nat) : Option Position := do
  let boundary ← floorBoundary? text (min offset (byteLength text))
  let before ← upto? boundary text
  let line ← from? ((rfind? '\n' before).elim 0 (· + 1)) before
  some { line := before.count '\n' + 1, column := line.length + 1 }

/-- The slices that look for a place have answers, and find it. -/
theorem ofOffset?_eq (text : List Char) (offset : Nat) :
    ofOffset? text offset = some (ofOffset text offset) := by
  -- an offset past the end is taken for the end
  have hmin : uptoOffset (min offset (byteLength text)) text = uptoOffset offset text := by
    rcases Nat.le_total offset (byteLength text) with hle | hle
    · rw [Nat.min_eq_left hle]
    · rw [Nat.min_eq_right hle, uptoOffset_of_le hle, uptoOffset_of_le (Nat.le_refl _)]
  have hbefore := upto?_floorBoundary? text (min offset (byteLength text))
  rw [hmin] at hbefore
  obtain ⟨boundary, hboundary, hcut⟩ := Option.bind_eq_some_iff.mp hbefore
  obtain ⟨lines, line, hlines⟩ := exists_fullLines (uptoOffset offset text)
  obtain ⟨htext, hline, hlines⟩ := hlines
  have hstart : (rfind? '\n' (fullLines lines ++ line)).elim 0 (· + 1) =
      byteLength (fullLines lines) := rfind?_fullLines_append hline
  simp only [ofOffset?, hboundary, hcut, htext, hstart, from?_append, Option.bind_eq_bind,
    Option.bind_some, List.count_append, count_fullLines hlines, List.count_eq_zero.mpr hline,
    ofOffset, advance_fullLines_append hlines hline, Nat.add_zero]

end Position

end CFrontEnd
