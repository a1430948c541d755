/-!
# Byte Offsets, Lines and Columns

A text is a list of characters; offsets into it count the bytes of its UTF-8 form. A position
counts lines and, within a line, characters, both from one. Only the line feed ends a line.

* `byteLength_append`: lengths in bytes add up.
* `byteLength_toList`: the bytes of a string are the bytes of its characters.
* `uptoOffset_append_fromOffset`: an offset cuts the text in two without loss.
* `byteLength_uptoOffset_le`: the first part ends at or before the offset.
-/

namespace CFrontEnd

namespace Text

/-- The number of bytes of the text in UTF-8. -/
def byteLength : List Char → Nat
  | [] => 0
  | c :: text => c.utf8Size + byteLength text

/-- The characters that lie whole within the first `offset` bytes. An offset inside a character
counts as the offset where that character starts. -/
def uptoOffset : Nat → List Char → List Char
  | _, [] => []
  | offset, c :: text =>
    if c.utf8Size ≤ offset then c :: uptoOffset (offset - c.utf8Size) text else []

/-- The characters after those of `uptoOffset`. -/
def fromOffset : Nat → List Char → List Char
  | _, [] => []
  | offset, c :: text =>
    if c.utf8Size ≤ offset then fromOffset (offset - c.utf8Size) text else c :: text

@[simp]
theorem byteLength_nil : byteLength [] = 0 := rfl

@[simp]
theorem byteLength_cons (c : Char) (text : List Char) :
    byteLength (c :: text) = c.utf8Size + byteLength text := rfl

/-- Lengths in bytes add up. -/
@[simp]
theorem byteLength_append (first second : List Char) :
    byteLength (first ++ second) = byteLength first + byteLength second := by
  induction first with
  | nil => simp
  | cons c first ih => simp [ih, Nat.add_assoc]

/-- The characters of a text of single bytes are its bytes. -/
theorem byteLength_of_ascii {text : List Char} (h : ∀ c ∈ text, c.utf8Size = 1) :
    byteLength text = text.length := by
  induction text with
  | nil => rfl
  | cons c text ih =>
    rw [byteLength_cons, h c List.mem_cons_self, ih fun d hd => h d (List.mem_cons_of_mem _ hd),
      List.length_cons, Nat.add_comm]

/-- The bytes of a string are the bytes of its characters. -/
theorem byteLength_toList (text : String) : byteLength text.toList = text.utf8ByteSize := by
  have hlist : ∀ chars : List Char, byteLength chars = (String.ofList chars).utf8ByteSize := by
    intro chars
    induction chars with
    | nil => rfl
    | cons c chars ih =>
      have hcons : String.ofList (c :: chars) = String.singleton c ++ String.ofList chars := by
        rw [String.singleton_eq_ofList, ← String.ofList_append]
        rfl
      rw [byteLength_cons, ih, hcons, String.utf8ByteSize_append, String.utf8ByteSize_singleton]
  rw [hlist, String.ofList_toList]

/-- Cutting a text at an offset loses nothing. -/
theorem uptoOffset_append_fromOffset (offset : Nat) (text : List Char) :
    uptoOffset offset text ++ fromOffset offset text = text := by
  induction text generalizing offset with
  | nil => rfl
  | cons c text ih =>
    by_cases h : c.utf8Size ≤ offset
    · simp [uptoOffset, fromOffset, h, ih]
    · simp [uptoOffset, fromOffset, h]

/-- The characters up to an offset take at most that many bytes. -/
theorem byteLength_uptoOffset_le (offset : Nat) (text : List Char) :
    byteLength (uptoOffset offset text) ≤ offset := by
  induction text generalizing offset with
  | nil => simp [uptoOffset]
  | cons c text ih =>
    by_cases h : c.utf8Size ≤ offset
    · have := ih (offset - c.utf8Size)
      simp only [uptoOffset, h, ↓reduceIte, byteLength_cons]
      omega
    · simp [uptoOffset, h]

end Text

/-- A place in a text, for a reader: line and column, both counted from one. -/
structure Position where
  /-- The number of the line. -/
  line : Nat
  /-- The number of the character within its line. -/
  column : Nat
deriving DecidableEq, Repr

namespace Position

/-- The place of the first character of a text. -/
def start : Position :=
  { line := 1, column := 1 }

/-- The place after a character: a line feed starts a line, any other character takes a column. -/
def next (position : Position) (c : Char) : Position :=
  if c = '\n' then { line := position.line + 1, column := 1 }
  else { position with column := position.column + 1 }

/-- The place after a whole text that starts at `position`. -/
def advance (position : Position) (text : List Char) : Position :=
  text.foldl next position

/-- The place of a byte offset. Offsets inside a character give the place of that character,
offsets past the end the place just after the last character. -/
def ofOffset (text : List Char) (offset : Nat) : Position :=
  start.advance (Text.uptoOffset offset text)

/-- Advancing over two texts in turn is advancing over both. -/
theorem advance_append (position : Position) (first second : List Char) :
    position.advance (first ++ second) = (position.advance first).advance second := by
  simp [advance]

end Position

end CFrontEnd
