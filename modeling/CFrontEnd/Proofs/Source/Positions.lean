import CFrontEnd.Proofs.Text.Lines
import CFrontEnd.Source
import Mathlib.Data.Prod.Lex
import Mathlib.Order.Bounds.Basic

/-!
# Offsets and Places

The place of a byte offset is the place after the text in front of the last boundary between two
characters that the offset has reached. So a larger offset never has an earlier place, and its
place is a later one exactly if a boundary lies between the two offsets; past the end all offsets
have one place. At a boundary the place leads back to the offset, through the lines of the text.

## Main definitions

* `Text.IsBoundary`: an offset at the start of a text or behind one of its characters.
* `Position.key`: positions in the order of their lines, and within a line of their columns.
* `Source.PositionsExact`: how the offsets and the places of a source go together.

## Main results

* `Text.isGreatest_boundary`: the whole characters up to an offset end at its last boundary.
* `Position.key_ofOffset_lt_iff`: when a larger offset has a later place.
* `positions_exact`: places are exact for all offsets, and are inverted at the boundaries.
-/

namespace CFrontEnd

open Text

/-! ### Boundaries -/

namespace Text

/-- The offset is at the start of the text or behind one of its characters. -/
def IsBoundary (text : List Char) (offset : Nat) : Prop :=
  ∃ before after, text = before ++ after ∧ byteLength before = offset

theorem byteLength_mono {first second : List Char} (h : first <+: second) :
    byteLength first ≤ byteLength second := by
  obtain ⟨more, rfl⟩ := h
  rw [byteLength_append]
  exact Nat.le_add_right ..

/-- A larger offset has the same whole characters before it, and perhaps more. -/
theorem uptoOffset_mono {first second : Nat} (h : first ≤ second) (text : List Char) :
    uptoOffset first text <+: uptoOffset second text := by
  induction text generalizing first second with
  | nil => exact List.nil_prefix
  | cons c text ih =>
    by_cases hsize : c.utf8Size ≤ first
    · rw [uptoOffset, if_pos hsize, uptoOffset, if_pos (hsize.trans h)]
      exact List.cons_prefix_cons.mpr ⟨rfl, ih (Nat.sub_le_sub_right h _)⟩
    · rw [uptoOffset, if_neg hsize]
      exact List.nil_prefix

variable {text : List Char} {offset boundary : Nat}

theorem isBoundary_uptoOffset (offset : Nat) (text : List Char) :
    IsBoundary text (byteLength (uptoOffset offset text)) :=
  ⟨_, _, (uptoOffset_append_fromOffset offset text).symm, rfl⟩

/-- No boundary that an offset has reached lies behind the whole characters up to the offset. -/
theorem IsBoundary.le_byteLength_uptoOffset (h : IsBoundary text boundary)
    (hle : boundary ≤ offset) : boundary ≤ byteLength (uptoOffset offset text) := by
  obtain ⟨before, after, rfl, rfl⟩ := h
  have hprefix := byteLength_mono (uptoOffset_mono hle (before ++ after))
  rwa [uptoOffset_append] at hprefix

/-- The whole characters up to an offset end at the last boundary that it has reached. -/
theorem isGreatest_boundary (offset : Nat) (text : List Char) :
    IsGreatest {b | IsBoundary text b ∧ b ≤ min offset (byteLength text)}
      (byteLength (uptoOffset offset text)) := by
  have htext : byteLength (uptoOffset offset text) ≤ byteLength text :=
    byteLength_mono ⟨_, uptoOffset_append_fromOffset offset text⟩
  refine ⟨⟨isBoundary_uptoOffset offset text,
    Nat.le_min.mpr ⟨byteLength_uptoOffset_le offset text, htext⟩⟩, fun boundary ⟨hb, hle⟩ => ?_⟩
  exact hb.le_byteLength_uptoOffset (hle.trans (Nat.min_le_left ..))

end Text

/-! ### The order of places -/

namespace Position

/-- Positions are compared by their lines, and within a line by their columns. -/
def key (position : Position) : ℕ ×ₗ ℕ :=
  toLex (position.line, position.column)

theorem key_lt_next (position : Position) (c : Char) : position.key < (position.next c).key := by
  rw [key, key, Prod.Lex.toLex_lt_toLex, next]
  split
  · exact .inl (Nat.lt_succ_self _)
  · exact .inr ⟨rfl, Nat.lt_succ_self _⟩

theorem key_le_advance (position : Position) (text : List Char) :
    position.key ≤ (position.advance text).key := by
  induction text generalizing position with
  | nil => exact le_refl _
  | cons c text ih => exact (position.key_lt_next c).le.trans (ih _)

theorem key_lt_advance (position : Position) {text : List Char} (h : text ≠ []) :
    position.key < (position.advance text).key := by
  obtain ⟨c, rest, rfl⟩ := List.exists_cons_of_ne_nil h
  exact (position.key_lt_next c).trans_le (key_le_advance _ rest)

variable {text : List Char} {first second : Nat}

/-- A larger offset is reached from the place of a smaller one. -/
theorem exists_advance_ofOffset (h : first ≤ second) (text : List Char) :
    ∃ more, uptoOffset second text = uptoOffset first text ++ more ∧
      ofOffset text second = (ofOffset text first).advance more := by
  obtain ⟨more, hmore⟩ := uptoOffset_mono h text
  exact ⟨more, hmore.symm, by rw [ofOffset, ofOffset, ← hmore, advance_append]⟩

theorem key_ofOffset_le (h : first ≤ second) :
    (ofOffset text first).key ≤ (ofOffset text second).key := by
  obtain ⟨more, -, hplace⟩ := exists_advance_ofOffset h text
  rw [hplace]
  exact key_le_advance _ _

/-- A larger offset has a later place exactly if it has reached another boundary. -/
theorem key_ofOffset_lt_iff (h : first ≤ second) :
    (ofOffset text first).key < (ofOffset text second).key ↔
      ∃ boundary, IsBoundary text boundary ∧ first < boundary ∧ boundary ≤ second := by
  obtain ⟨more, hmore, hplace⟩ := exists_advance_ofOffset h text
  constructor
  · intro hlt
    refine ⟨byteLength (uptoOffset second text), isBoundary_uptoOffset .., ?_,
      byteLength_uptoOffset_le ..⟩
    by_contra hle
    -- the characters up to the second offset would all end before the first one
    have hback := (isBoundary_uptoOffset second text).le_byteLength_uptoOffset (Nat.not_lt.mp hle)
    rw [hmore, byteLength_append] at hback
    obtain rfl : more = [] := by
      cases more with
      | nil => rfl
      | cons c more =>
        have hsize := c.utf8Size_pos
        rw [byteLength_cons] at hback
        omega
    rw [hplace] at hlt
    exact lt_irrefl _ hlt
  · rintro ⟨boundary, hboundary, hlt, hle⟩
    rw [hplace]
    refine key_lt_advance _ ?_
    -- without more characters, the boundary would not lie behind the first offset
    rintro rfl
    have hback := hboundary.le_byteLength_uptoOffset hle
    have hbytes := byteLength_uptoOffset_le first text
    rw [hmore, List.append_nil] at hback
    omega

end Position

/-! ### Places of a source -/

namespace Source

/-- The offsets and the places of a source go together. -/
structure PositionsExact (source : Source) : Prop where
  /-- The search for the place of an offset ends, all its slices exist, and it finds the place. -/
  found : ∀ offset,
    Position.ofOffset? source.content.toList offset = some (source.position offset)
  /-- The place is the one after the text before the last boundary that the offset has reached. -/
  floored : ∀ offset, ∃ before rest, source.content.toList = before ++ rest ∧
    IsGreatest {b | IsBoundary source.content.toList b ∧ b ≤ min offset source.content.utf8ByteSize}
      (byteLength before) ∧
    source.position offset = .after before
  /-- A larger offset has no earlier place, and a later one exactly if a boundary is between. -/
  ordered : ∀ first second, first ≤ second →
    (source.position first).key ≤ (source.position second).key ∧
      ((source.position first).key < (source.position second).key ↔
        ∃ b, IsBoundary source.content.toList b ∧ first < b ∧ b ≤ second)
  /-- Past the end, the place is the one after the whole text. -/
  ended : ∀ offset, source.content.utf8ByteSize ≤ offset →
    source.position offset = .after source.content.toList
  /-- The line of the place of a boundary exists and has the characters before the column. These
  and the lines above take as many bytes as there are up to the boundary. -/
  inverted : ∀ b, IsBoundary source.content.toList b →
    ∃ line, (source.content.toList.splitOn '\n')[(source.position b).line - 1]? = some line ∧
      (source.position b).column - 1 ≤ line.length ∧
      byteLength ((source.position b).upto source.content.toList) = b

theorem position_eq_after (source : Source) (offset : Nat) :
    source.position offset = .after (uptoOffset offset source.content.toList) :=
  Position.advance_eq_after _

/-- Places are exact for all offsets, within characters and past the end too, and at the boundaries
they lead back to the offsets. -/
theorem positions_exact (source : Source) : source.PositionsExact where
  found := Position.ofOffset?_eq source.content.toList
  floored := by
    intro offset
    refine ⟨_, _, (uptoOffset_append_fromOffset offset _).symm, ?_, position_eq_after source offset⟩
    rw [← byteLength_toList]
    exact isGreatest_boundary offset _
  ordered := fun _ _ h => ⟨Position.key_ofOffset_le h, Position.key_ofOffset_lt_iff h⟩
  ended := by
    intro offset hle
    rw [← byteLength_toList] at hle
    rw [position_eq_after, uptoOffset_of_le hle]
  inverted := by
    rintro b ⟨before, after, htext, rfl⟩
    -- the place of the boundary is the one after the characters before it
    have hplace : source.position (byteLength before) = Position.start.advance before := by
      rw [position, Position.ofOffset, htext, uptoOffset_append]
    obtain ⟨line, hline, hcolumn, -, hupto⟩ := Position.getElem?_splitOn_advance before after
    rw [hplace, htext]
    exact ⟨line, hline, hcolumn, by rw [hupto]⟩

end Source

end CFrontEnd
