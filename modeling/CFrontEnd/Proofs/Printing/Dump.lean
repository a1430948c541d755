import CFrontEnd.Proofs.Printing.Unambiguous
import CFrontEnd.Proofs.Text.Lines
import CFrontEnd.Proofs.Tree.Same

/-!
# The Lines of a Dump

The dump of a program has one line for each function, between a first and a last line: a rendered
function never has a line feed in it. The lines give the text of the program, so the dump determines
the program just as the text does.

## Main definitions

* `Text.linesOf`: the lines of a text.

## Main results

* `Program.linesOf_dump`: the lines of a dump.
* `Program.dump_injOn`: programs over printable leaves are told apart by their dumps.
* `render_unambiguous`: texts and dumps determine what the front end can produce.
-/

namespace CFrontEnd

open Text

/-! ### Line feeds -/

theorem IsWord.newline_not_mem {text : List Char} (h : IsWord text) : '\n' ∉ text :=
  fun hmem => (h _ hmem).2.2 rfl

theorem newline_not_mem_afterItem {items : List String} (h : ∀ item ∈ items, '\n' ∉ item.toList) :
    '\n' ∉ afterItem items := by
  induction items with
  | nil => decide
  | cons item items ih =>
    obtain ⟨hfirst, hrest⟩ := List.forall_mem_cons.mp h
    simp [afterItem, hfirst, ih hrest]

theorem newline_not_mem_bracketed {items : List String} (h : ∀ item ∈ items, '\n' ∉ item.toList) :
    '\n' ∉ (bracketed items).toList := by
  cases items with
  | nil => decide
  | cons item items =>
    obtain ⟨hfirst, hrest⟩ := List.forall_mem_cons.mp h
    simp [toList_bracketed_cons, hfirst, newline_not_mem_afterItem hrest]

theorem Expr.newline_not_mem_render : (x : Expr) → x.Over .printable → '\n' ∉ x.render.toList
  | .constant literal, h => by
    simp [(Literal.isWord_render h).newline_not_mem]
  | .variable name, h => by
    simp [(isWord_of_isIdentifier h).newline_not_mem]
  | .unary operator operand, h => by
    simp [operator.isWord_spelling.newline_not_mem, operand.newline_not_mem_render h]
  | .binary operator left right, h => by
    simp [operator.isWord_spelling.newline_not_mem, left.newline_not_mem_render h.1,
      right.newline_not_mem_render h.2]

mutual

theorem Stmt.newline_not_mem_render : (x : Stmt) → x.Over .printable → '\n' ∉ x.render.toList
  | .assignment operator target value, h => by
    simp [operator.isWord_spelling.newline_not_mem, (isWord_of_isIdentifier h.1).newline_not_mem,
      value.newline_not_mem_render h.2]
  | .declaration typeName name none, h => by
    simp [(isWord_of_mem_typeNames h.1).newline_not_mem,
      (isWord_of_isIdentifier h.2).newline_not_mem]
  | .declaration typeName name (some value), h => by
    simp [(isWord_of_mem_typeNames h.1).newline_not_mem,
      (isWord_of_isIdentifier h.2.1).newline_not_mem, value.newline_not_mem_render h.2.2]
  | .ret value, h => by
    simp [value.newline_not_mem_render h]
  | .ifThen condition body, h => by
    have hbody := newline_not_mem_bracketed (Stmt.newline_not_mem_renderAll body h.2)
    simp [condition.newline_not_mem_render h.1, hbody]
  | .ifElse condition body elseBody, h => by
    have hbody := newline_not_mem_bracketed (Stmt.newline_not_mem_renderAll body h.2.1)
    have helse := newline_not_mem_bracketed (Stmt.newline_not_mem_renderAll elseBody h.2.2)
    simp [condition.newline_not_mem_render h.1, hbody, helse]

theorem Stmt.newline_not_mem_renderAll : (xs : List Stmt) → Stmt.AllOver .printable xs →
    ∀ item ∈ Stmt.renderAll xs, '\n' ∉ item.toList
  | [], _ => List.forall_mem_nil _
  | x :: xs, h => List.forall_mem_cons.mpr
      ⟨x.newline_not_mem_render h.1, Stmt.newline_not_mem_renderAll xs h.2⟩

end

theorem Argument.newline_not_mem_render {x : Argument} (h : x.Over .printable) :
    '\n' ∉ x.render.toList := by
  simp [render_eq, (isWord_of_mem_typeNames h.1).newline_not_mem,
    (isWord_of_isIdentifier h.2).newline_not_mem]

theorem FunctionDef.newline_not_mem_render {x : FunctionDef} (h : x.Over .printable) :
    '\n' ∉ x.render.toList := by
  obtain ⟨htype, hname, harguments, hbody⟩ := h
  have hlist : '\n' ∉ (bracketed (x.arguments.map Argument.render)).toList :=
    newline_not_mem_bracketed
      (List.forall_mem_map.mpr fun y hy => Argument.newline_not_mem_render (harguments y hy))
  have hstatements := newline_not_mem_bracketed (Stmt.newline_not_mem_renderAll x.body hbody)
  simp [render_eq, (isWord_of_mem_typeNames htype).newline_not_mem,
    (isWord_of_isIdentifier hname).newline_not_mem, hlist, hstatements]

/-! ### Lines -/

/-- The lines of a text, without their line feeds. A line feed at the end of the text does not start
another line. -/
def Text.linesOf (text : String) : List String :=
  let pieces := (text.toList.splitOn '\n').map String.ofList
  if pieces.getLast? = some "" then pieces.dropLast else pieces

/-- Full lines are the lines of their text. -/
theorem Text.linesOf_fullLines {text : String} {lines : List String}
    (htext : text.toList = fullLines (lines.map String.toList))
    (hlines : ∀ line ∈ lines, '\n' ∉ line.toList) : linesOf text = lines := by
  have hsplit : text.toList.splitOn '\n' = lines.map String.toList ++ [[]] := by
    have hpieces := splitOn_fullLines_append (List.forall_mem_map.mpr hlines) []
    rwa [List.append_nil, ← htext] at hpieces
  have hpieces : (text.toList.splitOn '\n').map String.ofList = lines ++ [""] := by
    rw [hsplit, List.map_append, List.map_map]
    simp [Function.comp_def]
  -- the empty piece behind the last line feed is no line
  simp [linesOf, hpieces]

namespace Program

/-- The lines of a dump: one for each function, behind two blanks, between the first and the last
line. -/
theorem linesOf_dump {p : Program} (h : p.Over .printable) :
    linesOf p.dump =
      "(Program" :: ((p.functions.map FunctionDef.render).map ("  " ++ ·) ++ [")"]) := by
  refine linesOf_fullLines ?_ ?_
  · simp [dump, fullLines, String.toList_join, List.flatMap_map]
  · simp only [List.forall_mem_cons, List.forall_mem_append, List.forall_mem_map]
    refine ⟨by decide, fun function hmem => ?_, by decide, List.forall_mem_nil _⟩
    simpa using FunctionDef.newline_not_mem_render (h function hmem)

/-- Programs over printable leaves are told apart by their dumps. -/
theorem dump_injOn {p q : Program} (hp : p.Over .printable) (hq : q.Over .printable)
    (h : p.dump = q.dump) : p = q := by
  have hlines := congrArg linesOf h
  rw [linesOf_dump hp, linesOf_dump hq] at hlines
  have hfunctions : p.functions.map FunctionDef.render = q.functions.map FunctionDef.render := by
    have hinner := List.append_cancel_right (List.cons.inj hlines).2
    refine List.map_injective_iff.mpr (fun line line' heq => ?_) hinner
    exact (String.append_right_inj "  ").mp heq
  exact render_injOn hp hq (by rw [render, render, hfunctions])

end Program

/-- Programs over printable leaves are the same exactly if they have the same text, and exactly if
they have the same dump. The dump has a line for each function and two more; without the two blanks
in front, these lines are the items of the text. What two sources compile to is the same dump only
if they are read as the same program. -/
theorem render_unambiguous :
    (∀ p q : Program, p.Over .printable → q.Over .printable →
      (p.same q = true ↔ p.render = q.render) ∧ (p.same q = true ↔ p.dump = q.dump)) ∧
    (∀ p : Program, p.Over .printable → (linesOf p.dump).length = p.functions.length + 2 ∧
      ∃ inner : List String, linesOf p.dump = "(Program" :: (inner.map ("  " ++ ·) ++ [")"]) ∧
        p.render = "(Program [" ++ String.intercalate ", " inner ++ "])") ∧
    ∀ (first second : Source) (text : String), first.compile Program.dump = .ok text →
      second.compile Program.dump = .ok text →
        ∃ p, parseSource first.content = .ok p ∧ parseSource second.content = .ok p := by
  refine ⟨fun p q hp hq => ?_, fun p hp => ?_, fun first second text hfirst hsecond => ?_⟩
  · rw [Program.same_iff hp hq]
    exact ⟨⟨fun h => h ▸ rfl, Program.render_injOn hp hq⟩,
      ⟨fun h => h ▸ rfl, Program.dump_injOn hp hq⟩⟩
  · have hlines := Program.linesOf_dump hp
    have hopen : "(Program [" = "(Program " ++ "[" := by decide
    have hclose : "])" = "]" ++ ")" := by decide
    refine ⟨by simp [hlines], p.functions.map FunctionDef.render, hlines, ?_⟩
    simp only [Program.render, bracketed, hopen, hclose, String.append_assoc]
  · obtain ⟨p, hp, hpdump⟩ := Source.compile_eq_ok_iff.mp hfirst
    obtain ⟨q, hq, hqdump⟩ := Source.compile_eq_ok_iff.mp hsecond
    obtain rfl := Program.dump_injOn (Program.over_printable_of_parseSource hp)
      (Program.over_printable_of_parseSource hq) (hpdump.trans hqdump.symm)
    exact ⟨p, hp, hq⟩

/-- A function that returns the integer one or the double one, and two sources of a function that
returns a variable. -/
theorem render_unambiguous_one :
    let program (value : Literal) : Program :=
      ⟨[{ returnType := "int", name := "f", arguments := [], body := [.ret (.constant value)] }]⟩
    let integer := program (.int 1)
    let double := program (.float (.number false (1023 * Binary64.binadeSize) (by decide)))
    let returned : Program :=
      ⟨[{ returnType := "int", name := "f", arguments := [], body := [.ret (.variable "a")] }]⟩
    let first := Source.ofText "int f()\x7breturn a;\x7d"
    let second := Source.ofText "int f()\x7breturn(a);\x7d"
    (integer.Over .printable ∧ double.Over .printable ∧ integer.render ≠ double.render ∧
      integer.dump ≠ double.dump ∧ (linesOf integer.dump).length = 3) ∧
    first.compile Program.dump = .ok returned.dump ∧
      second.compile Program.dump = .ok returned.dump ∧
        ∃ p, parseSource first.content = .ok p ∧ parseSource second.content = .ok p := by
  intro program integer double returned first second
  have hname : IsIdentifier "f".toList := ⟨'f', [], by decide, by decide, by simp⟩
  have htype : "int" ∈ typeNames := by decide
  have hprogram : ∀ value, Leaves.printable.literal value → (program value).Over .printable :=
    fun value hvalue => List.forall_mem_singleton.mpr
      ⟨htype, hname, List.forall_mem_nil _, hvalue, trivial⟩
  have hinteger : integer.Over .printable := hprogram _ trivial
  have hdouble : double.Over .printable := hprogram _ ⟨_, _, rfl⟩
  -- both sources are the program with the variable
  have hlex : lex first.content =
      [⟨.keyword, "int", ⟨0, 3⟩⟩, ⟨.identifier, "f", ⟨4, 5⟩⟩, ⟨.openParen, "(", ⟨5, 6⟩⟩,
        ⟨.closeParen, ")", ⟨6, 7⟩⟩, ⟨.openBrace, "\x7b", ⟨7, 8⟩⟩, ⟨.keyword, "return", ⟨8, 14⟩⟩,
        ⟨.identifier, "a", ⟨15, 16⟩⟩, ⟨.semicolon, ";", ⟨16, 17⟩⟩,
        ⟨.closeBrace, "\x7d", ⟨17, 18⟩⟩] := by decide +kernel
  have hlex' : lex second.content =
      [⟨.keyword, "int", ⟨0, 3⟩⟩, ⟨.identifier, "f", ⟨4, 5⟩⟩, ⟨.openParen, "(", ⟨5, 6⟩⟩,
        ⟨.closeParen, ")", ⟨6, 7⟩⟩, ⟨.openBrace, "\x7b", ⟨7, 8⟩⟩, ⟨.keyword, "return", ⟨8, 14⟩⟩,
        ⟨.openParen, "(", ⟨14, 15⟩⟩, ⟨.identifier, "a", ⟨15, 16⟩⟩, ⟨.closeParen, ")", ⟨16, 17⟩⟩,
        ⟨.semicolon, ";", ⟨17, 18⟩⟩, ⟨.closeBrace, "\x7d", ⟨18, 19⟩⟩] := by decide +kernel
  have hparse : parseSource first.content = .ok returned := by
    rw [parseSource_eq, hlex]
    cbv
  have hparse' : parseSource second.content = .ok returned := by
    rw [parseSource_eq, hlex']
    cbv
  have hfirst : first.compile Program.dump = .ok returned.dump :=
    Source.compile_eq_ok_iff.mpr ⟨_, hparse, rfl⟩
  have hsecond : second.compile Program.dump = .ok returned.dump :=
    Source.compile_eq_ok_iff.mpr ⟨_, hparse', rfl⟩
  obtain ⟨hsame, hlines, hsources⟩ := render_unambiguous
  obtain ⟨hrender, hdump⟩ := hsame integer double hinteger hdouble
  have hdiffer : integer.same double ≠ true := by decide
  exact ⟨⟨hinteger, hdouble, hdiffer ∘ hrender.mpr, hdiffer ∘ hdump.mpr,
    (hlines integer hinteger).1⟩, hfirst, hsecond, hsources first second _ hfirst hsecond⟩

end CFrontEnd
