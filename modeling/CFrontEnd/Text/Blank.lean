/-!
# Blank Characters

The characters with the Unicode property White_Space, and the removal of blank text at both
ends of a text. The zero-width characters U+180E, U+200B and U+FEFF are not blank.

* `isBlank_of_isWhitespace`: ASCII white space is blank.
* `isBlank_head_trimStart`: no blank character is left at the front.
* `trimStart_append_leading`: the blank text removed at the front and what is left give the text.
-/

namespace CFrontEnd.Text

/-- The character has the property White_Space. -/
def isBlank (c : Char) : Bool :=
  let n := c.toNat
  (9 ≤ n && n ≤ 13) || n == 0x20 || n == 0x85 || n == 0xA0 || n == 0x1680 ||
    (0x2000 ≤ n && n ≤ 0x200A) || n == 0x2028 || n == 0x2029 || n == 0x202F || n == 0x205F ||
    n == 0x3000

/-- The longest blank text at the front. -/
def leadingBlank (text : List Char) : List Char :=
  text.takeWhile isBlank

/-- The text without the blank text at its front. -/
def trimStart (text : List Char) : List Char :=
  text.dropWhile isBlank

/-- The text without the blank text at its end. -/
def trimEnd (text : List Char) : List Char :=
  (text.reverse.dropWhile isBlank).reverse

/-- The text without the blank text at its ends. -/
def trim (text : List Char) : List Char :=
  trimEnd (trimStart text)

/-- ASCII white space is blank. -/
theorem isBlank_of_isWhitespace {c : Char} (h : c.isWhitespace = true) : isBlank c = true := by
  simp only [Char.isWhitespace, Bool.or_eq_true, decide_eq_true_eq] at h
  rcases h with ((rfl | rfl) | rfl) | rfl <;> decide

/-- No blank character is left at the front. -/
theorem isBlank_head_trimStart {text : List Char} {c : Char}
    (h : (trimStart text).head? = some c) : isBlank c = false := by
  have hfirst := List.head?_dropWhile_not isBlank text
  rw [show text.dropWhile isBlank = trimStart text from rfl, h] at hfirst
  simpa using hfirst

/-- The blank text removed at the front and what is left give the text. -/
theorem trimStart_append_leading (text : List Char) :
    leadingBlank text ++ trimStart text = text :=
  List.takeWhile_append_dropWhile

end CFrontEnd.Text
