import CFrontEnd.Proofs.Lexer.Lexemes
import CFrontEnd.Proofs.Lexer.Words
import CFrontEnd.Proofs.Text.Slices
import Mathlib.Data.List.Forall2

/-!
# Cutting a Text by Bytes

A text can be cut into pieces by counting bytes alone: matchers say how many bytes a token takes,
and the cursor is a byte offset from which the rest of the text is sliced. A slice out of range or
inside a character has no answer and stops the scan, and there is no answer where the cursor stays.
It never comes to that. Each byte matcher takes the bytes of the characters that the matcher of its
kind takes, so the cursor always stands between two characters, moves on, and the scan ends with the
pieces of the text.

## Main definitions

* `ByteMatcher`: the number of bytes that a class of tokens takes, found by slices of the text.
* `scanBytes?`: the pieces of a text from a byte offset on.

## Main results

* `byteClassifiers_agree`: every byte matcher measures its matcher.
* `scanBytes?_eq`: the scan by bytes ends, every slice on the way has an answer, and it finds the
  pieces of the text.
-/

namespace CFrontEnd

open Text

/-- The number of bytes at the front of a text that a class of tokens takes, if it takes any. No
answer at all stands for a slice of the text that does not exist. -/
abbrev ByteMatcher := List Char → Option (Option Nat)

namespace ByteMatcher

/-- The number of bytes of the longest run of such characters at the front. -/
def runBytes (p : Char → Bool) : List Char → Nat
  | [] => 0
  | c :: text => if p c then c.utf8Size + runBytes p text else 0

/-- A matcher that slices nothing and whose matches are ASCII: their characters are their bytes. -/
def ofMatcher (matcher : Matcher) : ByteMatcher := fun text => some (matcher text)

/-- A name, reserved or not. -/
def identifier : ByteMatcher
  | [] => some none
  | first :: rest =>
    some (if Matcher.isNameStart first then
      some (first.utf8Size + runBytes Matcher.isNamePart rest) else none)

/-- A name that is a reserved word. -/
def keyword : ByteMatcher := fun text => do
  match ← identifier text with
  | none => some none
  | some length =>
    let word ← upto? length text
    some (if keywords.contains (String.ofList word) then some length else none)

/-- `&&`, `||`, or a `!` that no `=` follows. -/
def logicalOperator : ByteMatcher
  | '&' :: '&' :: _ => some (some 2)
  | '|' :: '|' :: _ => some (some 2)
  | '!' :: rest => do
    let after ← from? 1 ('!' :: rest)
    some (if after.head? = some '=' then none else some 1)
  | _ => some none

/-- Digits that no point follows. -/
def integer : ByteMatcher := fun text =>
  let length := runBytes Char.isDigit text
  if 0 < length then do
    let after ← from? length text
    some (if after.head? = some '.' then none else some length)
  else some none

/-- Digits with a point before, among or after them, or digits alone. -/
def float : ByteMatcher := fun text => do
  let whole := runBytes Char.isDigit text
  let after ← from? whole text
  if after.head? = some '.' then
    let rest ← from? (whole + 1) text
    let fraction := runBytes Char.isDigit rest
    some (if 0 < whole ∨ 0 < fraction then some (whole + 1 + fraction) else none)
  else some (if 0 < whole then some whole else none)

/-- Letters, digits and underscores, at least one, between double quotes. -/
def string : ByteMatcher
  | '"' :: rest =>
    let body := runBytes Matcher.isStringPart rest
    if 0 < body then do
      let after ← from? body rest
      some (if after.head? = some '"' then some (body + 2) else none)
    else some none
  | _ => some none

/-- The byte matcher has an answer for every text: the bytes of the characters that the matcher
takes. -/
def Measures (bytes : ByteMatcher) (matcher : Matcher) : Prop :=
  ∀ text, bytes text = some ((matcher text).map fun length => byteLength (text.take length))

/-! ### Each byte matcher measures its matcher -/

variable {text : List Char} {length : Nat}

/-- A text can be sliced behind some of its characters. -/
theorem upto?_take (length : Nat) (text : List Char) :
    upto? (byteLength (text.take length)) text = some (text.take length) := by
  have hcut := upto?_append (text.take length) (text.drop length)
  rwa [List.take_append_drop] at hcut

theorem from?_take (length : Nat) (text : List Char) :
    from? (byteLength (text.take length)) text = some (text.drop length) := by
  have hcut := from?_append (text.take length) (text.drop length)
  rwa [List.take_append_drop] at hcut

theorem runBytes_eq (p : Char → Bool) (text : List Char) :
    runBytes p text = byteLength (text.takeWhile p) := by
  induction text with
  | nil => rfl
  | cons c text ih =>
    rw [runBytes, List.takeWhile_cons]
    split
    · rw [byteLength_cons, ih]
    · rfl

theorem utf8Size_of_isDigit {c : Char} (h : c.isDigit = true) : c.utf8Size = 1 := by
  have hall : digitCharacters.all (fun d => d.utf8Size == 1) = true := by decide
  simpa using List.all_eq_true.mp hall c (mem_digitCharacters h)

/-- Digits are counted in bytes as well as in characters. -/
theorem byteLength_takeWhile_isDigit (text : List Char) :
    byteLength (text.takeWhile Char.isDigit) = Matcher.digitRun text :=
  byteLength_of_ascii fun _ hc => utf8Size_of_isDigit (Matcher.of_mem_takeWhile hc)

theorem runBytes_isDigit (text : List Char) :
    runBytes Char.isDigit text = Matcher.digitRun text := by
  rw [runBytes_eq, byteLength_takeWhile_isDigit]

theorem byteLength_take_digitRun (text : List Char) :
    byteLength (text.take (Matcher.digitRun text)) = Matcher.digitRun text := by
  rw [Matcher.digitRun, Matcher.take_takeWhile, byteLength_takeWhile_isDigit, Matcher.digitRun]

theorem from?_digitRun (text : List Char) :
    from? (Matcher.digitRun text) text = some (text.drop (Matcher.digitRun text)) := by
  have hafter := from?_take (Matcher.digitRun text) text
  rwa [byteLength_take_digitRun] at hafter

/-- The fixed spellings of a kind are ASCII. -/
theorem byteLength_of_spells {kind : TokenKind} (hkind : kind.spellings ≠ [])
    (h : kind.Spells text) : byteLength text = text.length := by
  have hascii : ∀ spelling ∈ kind.spellings,
      byteLength spelling.toList = spelling.toList.length := by
    cases kind <;> decide
  simpa using hascii _ ((TokenKind.spells_iff_mem_spellings hkind).mp h)

theorem ofMatcher_measures {kind : TokenKind} {matcher : Matcher} (hkind : kind.spellings ≠ [])
    (hbounded : matcher.Bounded)
    (hspells : ∀ {text length}, matcher text = some length → kind.Spells (text.take length)) :
    Measures (ofMatcher matcher) matcher := by
  intro text
  cases hmatch : matcher text with
  | none => rw [ofMatcher, hmatch, Option.map_none]
  | some length =>
    rw [ofMatcher, hmatch, Option.map_some, byteLength_of_spells hkind (hspells hmatch),
      List.length_take, Nat.min_eq_left (hbounded text length hmatch).2]

theorem char_measures {c : Char} (kind : TokenKind) (h : kind.spellings = [String.ofList [c]]) :
    Measures (ofMatcher (Matcher.char c)) (Matcher.char c) := by
  have hkind : kind.spellings ≠ [] := by simp [h]
  have hspells : kind.Spells [c] := (TokenKind.spells_iff_mem_spellings hkind).mpr (by simp [h])
  exact ofMatcher_measures hkind (Matcher.char_bounded c) (Matcher.spells_of_char hspells)

theorem identifier_measures : Measures identifier Matcher.identifier := by
  intro text
  cases text with
  | nil => rfl
  | cons first rest =>
    rw [identifier, Matcher.identifier, runBytes_eq]
    split
    · rw [Option.map_some, Nat.add_comm 1, List.take_succ_cons, Matcher.take_takeWhile,
        byteLength_cons]
    · rfl

theorem keyword_measures : Measures keyword Matcher.keyword := by
  intro text
  rw [keyword, identifier_measures text, Matcher.keyword]
  cases Matcher.identifier text with
  | none => rfl
  | some length =>
    simp only [Option.map_some, Option.bind_eq_bind, Option.bind_some, upto?_take,
      Option.filter_some]
    split <;> rfl

theorem logicalOperator_measures : Measures logicalOperator Matcher.logicalOperator := by
  intro text
  unfold logicalOperator
  split
  · rfl
  · rfl
  · rename_i rest
    -- the exclamation mark is a single byte
    have hafter : from? 1 ('!' :: rest) = some rest := from?_append ['!'] rest
    rw [hafter, Matcher.logicalOperator_cons]
    by_cases hsign : rest.head? = some '='
    · simp [hsign]
    · simp [hsign, show '!'.utf8Size = 1 from rfl]
  · unfold Matcher.logicalOperator
    split <;> simp_all

theorem integer_measures : Measures integer Matcher.integer := by
  intro text
  simp only [integer, Matcher.integer, runBytes_isDigit, from?_digitRun, Option.bind_eq_bind,
    Option.bind_some, List.head?_drop]
  by_cases hpos : 0 < Matcher.digitRun text
  · by_cases hpoint : text[Matcher.digitRun text]? = some '.'
    · simp [hpos, hpoint]
    · simp [hpos, hpoint, byteLength_take_digitRun]
  · simp [hpos]

theorem float_measures : Measures float Matcher.float := by
  intro text
  have hdigits := byteLength_take_digitRun text
  simp only [float, Matcher.float, runBytes_isDigit, from?_digitRun, Option.bind_eq_bind,
    Option.bind_some]
  by_cases hpoint : (text.drop (Matcher.digitRun text)).head? = some '.'
  · obtain ⟨rest, hrest⟩ := List.head?_eq_some_iff.mp hpoint
    have hdrop : text.drop (Matcher.digitRun text + 1) = rest := by
      rw [← List.drop_drop, hrest, List.drop_one, List.tail_cons]
    -- the digits and the point are single bytes
    have hbytes : byteLength (text.take (Matcher.digitRun text + 1)) =
        Matcher.digitRun text + 1 := by
      rw [List.take_add, hrest, byteLength_append, hdigits]
      rfl
    have hafter := from?_take (Matcher.digitRun text + 1) text
    rw [hbytes, hdrop] at hafter
    have hfraction : byteLength (text.take (Matcher.digitRun text + 1 + Matcher.digitRun rest)) =
        Matcher.digitRun text + 1 + Matcher.digitRun rest := by
      rw [List.take_add, hdrop, byteLength_append, hbytes, byteLength_take_digitRun]
    rw [if_pos hpoint, hafter, hrest, Option.bind_some]
    by_cases hsome : 0 < Matcher.digitRun text ∨ 0 < Matcher.digitRun rest
    · simp only [if_pos hsome, Option.map_some, hfraction]
    · simp only [if_neg hsome, Option.map_none]
  · have hmatch : ∀ rest, text.drop (Matcher.digitRun text) = '.' :: rest → False := by
      intro rest hrest
      exact hpoint (by rw [hrest, List.head?_cons])
    simp only [if_neg hpoint]
    by_cases hpos : 0 < Matcher.digitRun text
    · simp only [if_pos hpos, Option.map_some, hdigits]
    · simp only [if_neg hpos, Option.map_none]

theorem string_measures : Measures string Matcher.string := by
  intro text
  unfold string
  split
  · rename_i rest
    have hafter := from?_take (rest.takeWhile Matcher.isStringPart).length rest
    rw [Matcher.take_takeWhile] at hafter
    have hbody : 0 < byteLength (rest.takeWhile Matcher.isStringPart) ↔
        0 < (rest.takeWhile Matcher.isStringPart).length := by
      cases rest.takeWhile Matcher.isStringPart with
      | nil => rfl
      | cons c body => simp [Nat.add_pos_left c.utf8Size_pos]
    simp only [Matcher.string, runBytes_eq, hbody, hafter, Option.bind_eq_bind, Option.bind_some]
    by_cases hpos : 0 < (rest.takeWhile Matcher.isStringPart).length
    · by_cases hquote :
          (rest.drop (rest.takeWhile Matcher.isStringPart).length).head? = some '"'
      · obtain ⟨after, hrest⟩ := List.head?_eq_some_iff.mp hquote
        -- the quotes are single bytes
        have hbytes : byteLength
            (('"' :: rest).take ((rest.takeWhile Matcher.isStringPart).length + 2)) =
              byteLength (rest.takeWhile Matcher.isStringPart) + 2 := by
          rw [List.take_succ_cons, List.take_add, hrest, Matcher.take_takeWhile, byteLength_cons,
            byteLength_append, Nat.add_comm]
          rfl
        rw [if_pos hpos, if_pos hquote, if_pos ⟨hpos, hquote⟩, Option.map_some, hbytes]
      · rw [if_pos hpos, if_neg hquote, if_neg (hquote ·.2), Option.map_none]
    · rw [if_neg hpos, if_neg (hpos ·.1), Option.map_none]
  · unfold Matcher.string
    split <;> simp_all

end ByteMatcher

/-- The byte matchers of the language, in order of priority. -/
def byteClassifiers : List (TokenKind × ByteMatcher) :=
  [(.keyword, ByteMatcher.keyword),
    (.openBrace, .ofMatcher (Matcher.char '\x7b')),
    (.closeBrace, .ofMatcher (Matcher.char '\x7d')),
    (.openParen, .ofMatcher (Matcher.char '(')),
    (.closeParen, .ofMatcher (Matcher.char ')')),
    (.semicolon, .ofMatcher (Matcher.char ';')),
    (.assignmentOperator, .ofMatcher Matcher.assignmentOperator),
    (.arithmeticOperator, .ofMatcher Matcher.arithmeticOperator),
    (.relationalOperator, .ofMatcher Matcher.relationalOperator),
    (.logicalOperator, ByteMatcher.logicalOperator),
    (.identifier, ByteMatcher.identifier),
    (.integer, ByteMatcher.integer),
    (.float, ByteMatcher.float),
    (.string, ByteMatcher.string)]

/-- The kind and the number of bytes of the first match in a table of byte matchers. The matchers
behind it are not asked. -/
def classifyBytes? : List (TokenKind × ByteMatcher) → List Char → Option (Option (TokenKind × Nat))
  | [], _ => some none
  | (kind, matcher) :: table, text => do
    match ← matcher text with
    | some length => some (some (kind, length))
    | none => classifyBytes? table text

/-- The piece of a text at a byte offset. -/
def pieceAt? (text : List Char) (offset : Nat) : Option Piece := do
  let rest ← from? offset text
  match ← classifyBytes? byteClassifiers rest with
  | some (kind, length) =>
    let lexeme ← upto? length rest
    some (.token
      { kind
        lexeme := String.ofList lexeme
        span := { start := offset, stop := offset + length } })
  | none => rest.head?.map (.skipped offset)

/-- The pieces of a text from a byte offset on, one after the other up to the end. A piece without
a byte would be found again and again, so the scan has no answer there. -/
def scanBytes? (text : List Char) (offset : Nat) : Option (List Piece) :=
  if offset < byteLength text then do
    let piece ← pieceAt? text offset
    if offset < piece.span.stop then
      let pieces ← scanBytes? text piece.span.stop
      some (piece :: pieces)
    else none
  else some []
termination_by byteLength text - offset

/-- The byte matcher is for the same kind, and it measures the matcher. -/
def Agrees (bytes : TokenKind × ByteMatcher) (classifier : Classifier) : Prop :=
  bytes.1 = classifier.1 ∧ bytes.2.Measures classifier.2

/-- Every byte matcher measures its matcher. -/
theorem byteClassifiers_agree : List.Forall₂ Agrees byteClassifiers classifiers := by
  -- in the order of the table
  refine .cons ⟨rfl, ?_⟩ <| .cons ⟨rfl, ?_⟩ <| .cons ⟨rfl, ?_⟩ <| .cons ⟨rfl, ?_⟩ <|
    .cons ⟨rfl, ?_⟩ <| .cons ⟨rfl, ?_⟩ <| .cons ⟨rfl, ?_⟩ <| .cons ⟨rfl, ?_⟩ <|
    .cons ⟨rfl, ?_⟩ <| .cons ⟨rfl, ?_⟩ <| .cons ⟨rfl, ?_⟩ <| .cons ⟨rfl, ?_⟩ <|
    .cons ⟨rfl, ?_⟩ <| .cons ⟨rfl, ?_⟩ .nil
  · exact ByteMatcher.keyword_measures
  · exact ByteMatcher.char_measures .openBrace rfl
  · exact ByteMatcher.char_measures .closeBrace rfl
  · exact ByteMatcher.char_measures .openParen rfl
  · exact ByteMatcher.char_measures .closeParen rfl
  · exact ByteMatcher.char_measures .semicolon rfl
  · exact ByteMatcher.ofMatcher_measures (by decide) Matcher.assignmentOperator_bounded
      Matcher.spells_of_assignmentOperator
  · exact ByteMatcher.ofMatcher_measures (by decide) Matcher.arithmeticOperator_bounded
      Matcher.spells_of_arithmeticOperator
  · exact ByteMatcher.ofMatcher_measures (by decide) Matcher.relationalOperator_bounded
      Matcher.spells_of_relationalOperator
  · exact ByteMatcher.logicalOperator_measures
  · exact ByteMatcher.identifier_measures
  · exact ByteMatcher.integer_measures
  · exact ByteMatcher.float_measures
  · exact ByteMatcher.string_measures

/-- A table of byte matchers finds what the table of their matchers finds. -/
theorem classifyBytes?_eq {table : List (TokenKind × ByteMatcher)} {classifiers : List Classifier}
    (h : List.Forall₂ Agrees table classifiers) (text : List Char) :
    classifyBytes? table text = some ((classifyWith classifiers text).map fun found =>
      (found.1, byteLength (text.take found.2))) := by
  induction h with
  | nil => rfl
  | @cons bytes classifier _ _ hfirst _ ih =>
    obtain ⟨kind, bytes⟩ := bytes
    obtain ⟨other, matcher⟩ := classifier
    obtain rfl : kind = other := hfirst.1
    have hbytes : bytes text = some ((matcher text).map fun length =>
        byteLength (text.take length)) := hfirst.2 text
    cases hmatch : matcher text with
    | none =>
      rw [classifyBytes?, hbytes, hmatch, classifyWith,
        List.findSome?_cons_of_isNone (by simp [hmatch])]
      exact ih
    | some length =>
      rw [classifyBytes?, hbytes, hmatch, classifyWith, List.findSome?_cons]
      simp [hmatch]

/-- A scan by bytes that starts between two characters finds the pieces of the rest. -/
theorem scanBytes?_of_cuts {offset : Nat} {before rest : List Char} {pieces : List Piece}
    (h : Piece.Cuts offset rest pieces) (hbefore : byteLength before = offset) :
    scanBytes? (before ++ rest) offset = some pieces := by
  induction h generalizing before with
  | done =>
    rw [scanBytes?, if_neg (by simp [hbefore])]
  | @token offset kind lexeme rest pieces hne hmatch hcuts ih =>
    have hpiece : pieceAt? (before ++ (lexeme ++ rest)) offset = some (.token
        { kind
          lexeme := String.ofList lexeme
          span := { start := offset, stop := offset + byteLength lexeme } }) := by
      rw [pieceAt?, ← hbefore, from?_append, Option.bind_eq_bind, Option.bind_some,
        classifyBytes?_eq byteClassifiers_agree, show classifyWith classifiers _ = _ from hmatch]
      simp
    have hlater : scanBytes? ((before ++ lexeme) ++ rest) (offset + byteLength lexeme) =
        some pieces := ih (by rw [byteLength_append, hbefore])
    have hmoved : 0 < byteLength lexeme := by
      obtain ⟨first, others, rfl⟩ := List.exists_cons_of_ne_nil hne
      have hsize := first.utf8Size_pos
      rw [byteLength_cons]
      omega
    have hpos : offset < byteLength (before ++ (lexeme ++ rest)) := by
      simp only [byteLength_append]
      omega
    rw [List.append_assoc] at hlater
    rw [scanBytes?, if_pos hpos, hpiece]
    simp [Piece.span, hmoved, hlater]
  | @skipped offset first rest pieces hmatch hcuts ih =>
    have hpiece : pieceAt? (before ++ first :: rest) offset = some (.skipped offset first) := by
      rw [pieceAt?, ← hbefore, from?_append, Option.bind_eq_bind, Option.bind_some,
        classifyBytes?_eq byteClassifiers_agree, show classifyWith classifiers _ = _ from hmatch]
      rfl
    have hlater : scanBytes? ((before ++ [first]) ++ rest) (offset + first.utf8Size) =
        some pieces := ih (by simp [hbefore])
    have hmoved := first.utf8Size_pos
    have hpos : offset < byteLength (before ++ first :: rest) := by
      simp only [byteLength_append, byteLength_cons]
      omega
    rw [List.append_assoc, List.singleton_append] at hlater
    rw [scanBytes?, if_pos hpos, hpiece]
    simp [Piece.span, hmoved, hlater]

/-- The scan by bytes ends, every slice on the way has an answer, and it finds the pieces of the
text. -/
theorem scanBytes?_eq (text : List Char) : scanBytes? text 0 = some (Piece.scan text) :=
  scanBytes?_of_cuts (Piece.cuts_scan text) byteLength_nil

end CFrontEnd
