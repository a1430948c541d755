import CFrontEnd.Proofs.Decimal.ReadBack
import CFrontEnd.Proofs.Tree.Leaves

/-!
# Rendered Trees Are Unambiguous

The text of a tree determines the tree. More is true, and is what the induction needs: at the front
of a longer text, the text of a tree ends at one place only, so that a tree is found together with
what follows it. Names, operators and literals have no blank and no closing parenthesis in them,
and one of these two stands behind each of them; trees and lists end with the bracket that closes
them.

## Main definitions

* `Unambiguous`: the text of an item determines the item, wherever the text ends.

## Main results

* `Literal.render_injOn`: printable literals are told apart by their texts.
* `Expr.unambiguous`, `Stmt.unambiguous`, `FunctionDef.unambiguous`: trees over printable leaves
  are found together with what follows them.
* `Program.render_injOn`: programs over printable leaves are told apart by their texts.
-/

namespace CFrontEnd

open Matcher

/-! ### Words -/

/-- The text has no blank, no closing parenthesis and no line feed. -/
def IsWord (text : List Char) : Prop :=
  ∀ c ∈ text, c ≠ ' ' ∧ c ≠ ')' ∧ c ≠ '\n'

/-- A word in front of the text ends there. -/
def EndsWord (text : List Char) : Prop :=
  ∀ c ∈ text.head?, c = ' ' ∨ c = ')'

theorem endsWord_blank (text : List Char) : EndsWord (" ".toList ++ text) := by
  simp [EndsWord]

theorem endsWord_close (text : List Char) : EndsWord (")".toList ++ text) := by
  simp [EndsWord]

/-- A word is what stands before the first blank or closing parenthesis. -/
theorem IsWord.append_inj {first second s t : List Char} (hfirst : IsWord first)
    (hsecond : IsWord second) (hs : EndsWord s) (ht : EndsWord t)
    (h : first ++ s = second ++ t) : first = second ∧ s = t := by
  have htake : ∀ {word rest}, IsWord word → EndsWord rest →
      (word ++ rest).takeWhile (fun c => c != ' ' && c != ')') = word := by
    intro word rest hword hrest
    refine takeWhile_run (fun c hc => ?_) rest fun c hc => ?_
    · simp [(hword c hc).1, (hword c hc).2.1]
    · rcases hrest c hc with rfl | rfl <;> rfl
  obtain rfl : first = second := by rw [← htake hfirst hs, h, htake hsecond ht]
  exact ⟨rfl, List.append_cancel_left h⟩

theorem isWord_of_isStringPart {text : List Char}
    (h : ∀ c ∈ text, Matcher.isStringPart c = true) : IsWord text := by
  have hmarks : Matcher.isStringPart ' ' = false ∧ Matcher.isStringPart ')' = false ∧
      Matcher.isStringPart '\n' = false := by decide +kernel
  obtain ⟨hblank, hclose, hline⟩ := hmarks
  refine fun c hc => ⟨?_, ?_, ?_⟩ <;> rintro rfl
  · exact Bool.eq_false_iff.mp hblank (h _ hc)
  · exact Bool.eq_false_iff.mp hclose (h _ hc)
  · exact Bool.eq_false_iff.mp hline (h _ hc)

theorem isWord_of_isIdentifier {text : List Char} (h : IsIdentifier text) : IsWord text := by
  obtain ⟨first, rest, rfl, hfirst, hrest⟩ := h
  refine isWord_of_isStringPart (List.forall_mem_cons.mpr ⟨?_, fun c hc => ?_⟩)
  · exact isStringPart_of_isNamePart (isNamePart_of_isNameStart hfirst)
  · exact isStringPart_of_isNamePart (hrest c hc)

theorem isWord_of_mem_typeNames {typeName : String} (h : typeName ∈ typeNames) :
    IsWord typeName.toList := by
  have hall : typeNames.all (fun name => name.toList.all fun c =>
      c != ' ' && c != ')' && c != '\n') = true := by decide
  have hname := List.all_eq_true.mp hall typeName h
  exact fun c hc => by simpa [and_assoc] using List.all_eq_true.mp hname c hc

/-- A type and a name, with a blank between them, are found together. -/
theorem typeName_name_inj {typeName name typeName' name' : String} {s t : List Char}
    (htype : typeName ∈ typeNames) (hname : IsIdentifier name.toList)
    (htype' : typeName' ∈ typeNames) (hname' : IsIdentifier name'.toList) (hs : EndsWord s)
    (ht : EndsWord t)
    (h : typeName.toList ++ (" ".toList ++ (name.toList ++ s)) =
      typeName'.toList ++ (" ".toList ++ (name'.toList ++ t))) :
    typeName = typeName' ∧ name = name' ∧ s = t := by
  obtain ⟨htypes, hrest⟩ := (isWord_of_mem_typeNames htype).append_inj
    (isWord_of_mem_typeNames htype') (endsWord_blank _) (endsWord_blank _) h
  obtain ⟨hnames, hst⟩ := (isWord_of_isIdentifier hname).append_inj
    (isWord_of_isIdentifier hname') hs ht (List.append_cancel_left hrest)
  exact ⟨String.toList_injective htypes, String.toList_injective hnames, hst⟩

theorem UnaryOp.isWord_spelling (operator : UnaryOp) : IsWord operator.spelling.toList := by
  cases operator <;> simp [IsWord, spelling]

theorem BinaryOp.isWord_spelling (operator : BinaryOp) : IsWord operator.spelling.toList := by
  cases operator <;> simp [IsWord, spelling]

theorem AssignOp.isWord_spelling (operator : AssignOp) : IsWord operator.spelling.toList := by
  cases operator <;> simp [IsWord, spelling]

theorem UnaryOp.spelling_injective : Function.Injective UnaryOp.spelling := by
  intro first second h
  cases first <;> cases second <;> simp_all [spelling]

theorem BinaryOp.spelling_injective : Function.Injective BinaryOp.spelling := by
  intro first second h
  cases first <;> cases second <;> simp_all [spelling]

theorem AssignOp.spelling_injective : Function.Injective AssignOp.spelling := by
  intro first second h
  cases first <;> cases second <;> simp_all [spelling]

/-! ### Literals -/

/-- The text of a number without a sign is `inf`, or it has digits and signs only, and a point or an
exponent among them. -/
theorem text_shape {value : Binary64} (h : Leaves.printable.literal (.float value)) :
    value.text.toList = "inf".toList ∨ ('.' ∈ value.text.toList ∨ 'e' ∈ value.text.toList) ∧
      ∀ c ∈ value.text.toList, Binary64.IsNumeric c := by
  obtain ⟨rank, bounded, rfl⟩ := h
  have htext := Binary64.toList_text_number false rank bounded
  simp only [Bool.false_eq_true, ↓reduceIte, List.nil_append] at htext
  rw [htext]
  exact Binary64.rankText_shape rank

theorem isWord_of_isNumeric {text : List Char} (h : ∀ c ∈ text, Binary64.IsNumeric c) :
    IsWord text := by
  intro c hc
  refine ⟨?_, ?_, ?_⟩ <;> rintro rfl <;> simpa [Binary64.IsNumeric] using h _ hc

/-- No literal has a blank or a closing parenthesis in its text. -/
theorem Literal.isWord_render {literal : Literal} (h : Leaves.printable.literal literal) :
    IsWord literal.render.toList := by
  cases literal with
  | int value =>
    refine isWord_of_isNumeric fun c hc => ?_
    exact (Numeral.isDigit_or_eq_of_mem_toString hc).imp_right fun hsign => .inr (.inr hsign)
  | float value =>
    rcases text_shape h with hinf | ⟨-, hnumeric⟩
    · rw [render, hinf]
      simp [IsWord]
    · exact isWord_of_isNumeric hnumeric
  | string body =>
    have hbody := isWord_of_isStringPart h
    intro c hc
    simp only [render, String.toList_append, List.mem_append] at hc
    rcases hc with (hquote | hmem) | hquote
    · obtain rfl : c = '"' := by simpa using hquote
      decide
    · exact hbody c hmem
    · obtain rfl : c = '"' := by simpa using hquote
      decide

/-- A number is told from an integer by its point, its exponent or its letters. -/
theorem render_int_ne_float (m : Int64) {x : Binary64} (h : Leaves.printable.literal (.float x)) :
    (Literal.int m).render ≠ (Literal.float x).render := by
  intro heq
  have htext : toString m.toInt = x.text := heq
  have hmark : ∀ c ∈ x.text.toList, c.isDigit = true ∨ c = '-' := fun c hc =>
    Numeral.isDigit_or_eq_of_mem_toString (htext ▸ hc)
  rcases text_shape h with hinf | ⟨hpoint | hexponent, -⟩
  · simpa using hmark 'i' (by simp [hinf])
  · simpa using hmark '.' hpoint
  · simpa using hmark 'e' hexponent

theorem quote_mem_render (body : String) : '"' ∈ (Literal.string body).render.toList := by
  simp [Literal.render]

/-- A string is told from a number by its quotes. -/
theorem render_int_ne_string (m : Int64) (body : String) :
    (Literal.int m).render ≠ (Literal.string body).render := by
  intro heq
  have hquote := Numeral.isDigit_or_eq_of_mem_toString (n := m.toInt) (heq ▸ quote_mem_render body)
  simp at hquote

theorem render_float_ne_string {x : Binary64} (h : Leaves.printable.literal (.float x))
    (body : String) : (Literal.float x).render ≠ (Literal.string body).render := by
  intro heq
  have hquote := quote_mem_render body
  rw [← heq, Literal.render] at hquote
  rcases text_shape h with hinf | ⟨-, hnumeric⟩
  · simp [hinf] at hquote
  · simpa [Binary64.IsNumeric] using hnumeric _ hquote

/-- Literals are told apart by their texts. -/
theorem Literal.render_injOn {first second : Literal} (hfirst : Leaves.printable.literal first)
    (hsecond : Leaves.printable.literal second) (h : first.render = second.render) :
    first = second := by
  match first, second, hfirst, hsecond, h with
  | .int m, .int n, _, _, h =>
    have hread := Numeral.integer?_toString m.toInt
    rw [show toString m.toInt = toString n.toInt from h, Numeral.integer?_toString] at hread
    exact congrArg Literal.int (Int64.toInt_inj.mp (Option.some.inj hread)).symm
  | .float x, .float y, _, _, h => exact congrArg Literal.float (Binary64.text_injective h)
  | .string body, .string body', _, _, h =>
    have hlist : '"' :: (body.toList ++ ['"']) = '"' :: (body'.toList ++ ['"']) := by
      simpa [render] using congrArg String.toList h
    have hbody := List.append_cancel_right (List.cons.inj hlist).2
    exact congrArg Literal.string (String.toList_injective hbody)
  | .int m, .float x, _, hx, h => exact absurd h (render_int_ne_float m hx)
  | .float x, .int m, hx, _, h => exact absurd h.symm (render_int_ne_float m hx)
  | .int m, .string body, _, _, h => exact absurd h (render_int_ne_string m body)
  | .string body, .int m, _, _, h => exact absurd h.symm (render_int_ne_string m body)
  | .float x, .string body, hx, _, h => exact absurd h (render_float_ne_string hx body)
  | .string body, .float x, _, hx, h => exact absurd h.symm (render_float_ne_string hx body)

/-! ### Items in brackets -/

section Items

variable {α : Type}

/-- At the front of any text, the text of the item is the text of no other good item, and it ends at
one place. -/
def Unambiguous (good : α → Prop) (text : α → String) (item : α) : Prop :=
  ∀ other, good other → ∀ s t, (text item).toList ++ s = (text other).toList ++ t →
    item = other ∧ s = t

/-- The rest of a list in brackets, behind an item. -/
def afterItem : List String → List Char
  | [] => [']']
  | item :: items => ", ".toList ++ (item.toList ++ afterItem items)

theorem toList_intercalate_append (item : String) (items : List String) :
    (String.intercalate ", " (item :: items)).toList ++ [']'] = item.toList ++ afterItem items := by
  induction items generalizing item with
  | nil => simp [afterItem]
  | cons next items ih =>
    rw [String.intercalate_cons_cons, afterItem, ← ih next]
    simp only [String.toList_append, List.append_assoc]

theorem toList_bracketed_nil : (bracketed []).toList = ['[', ']'] := by
  decide

theorem toList_bracketed_cons (item : String) (items : List String) :
    (bracketed (item :: items)).toList = '[' :: (item.toList ++ afterItem items) := by
  rw [← toList_intercalate_append, bracketed, String.toList_append, String.toList_append]
  rfl

variable {good : α → Prop} {text : α → String} {xs ys : List α} {s t : List Char}

theorem Unambiguous.afterItem (hxs : ∀ x ∈ xs, Unambiguous good text x) (hys : ∀ y ∈ ys, good y)
    (h : afterItem (xs.map text) ++ s = afterItem (ys.map text) ++ t) : xs = ys ∧ s = t := by
  induction xs generalizing ys with
  | nil =>
    cases ys with
    | nil => exact ⟨rfl, List.append_cancel_left h⟩
    | cons y ys => simp [CFrontEnd.afterItem] at h
  | cons x xs ih =>
    cases ys with
    | nil => simp [CFrontEnd.afterItem] at h
    | cons y ys =>
      obtain ⟨hfirst, hmore⟩ := List.forall_mem_cons.mp hxs
      obtain ⟨hgood, hothers⟩ := List.forall_mem_cons.mp hys
      simp only [List.map_cons, CFrontEnd.afterItem, List.append_assoc] at h
      obtain ⟨rfl, hrest⟩ := hfirst y hgood _ _ (List.append_cancel_left h)
      obtain ⟨rfl, hst⟩ := ih hmore hothers hrest
      exact ⟨rfl, hst⟩

/-- Items in brackets are found together with what follows them, if none of them starts with a
closing bracket. -/
theorem Unambiguous.bracketed (hopen : ∀ x, (text x).toList.head? = some '(')
    (hxs : ∀ x ∈ xs, Unambiguous good text x) (hys : ∀ y ∈ ys, good y)
    (h : (bracketed (xs.map text)).toList ++ s = (bracketed (ys.map text)).toList ++ t) :
    xs = ys ∧ s = t := by
  cases xs with
  | nil =>
    cases ys with
    | nil => exact ⟨rfl, List.append_cancel_left h⟩
    | cons y ys =>
      obtain ⟨rest, hrest⟩ := List.head?_eq_some_iff.mp (hopen y)
      simp [toList_bracketed_nil, toList_bracketed_cons, hrest] at h
  | cons x xs =>
    cases ys with
    | nil =>
      obtain ⟨rest, hrest⟩ := List.head?_eq_some_iff.mp (hopen x)
      simp [toList_bracketed_nil, toList_bracketed_cons, hrest] at h
    | cons y ys =>
      obtain ⟨hfirst, hmore⟩ := List.forall_mem_cons.mp hxs
      obtain ⟨hgood, hothers⟩ := List.forall_mem_cons.mp hys
      simp only [List.map_cons, toList_bracketed_cons, List.cons_append, List.append_assoc] at h
      obtain ⟨rfl, hrest⟩ := hfirst y hgood _ _ (List.cons.inj h).2
      obtain ⟨rfl, hst⟩ := Unambiguous.afterItem hmore hothers hrest
      exact ⟨rfl, hst⟩

end Items

/-! ### Trees -/

/-- An expression is found together with what follows it. -/
theorem Expr.unambiguous : (x : Expr) → x.Over .printable →
    Unambiguous (Expr.Over .printable) Expr.render x
  | .constant literal, hx, y, hy, s, t, h => by
    cases y with
    | constant literal' =>
      simp only [render_constant, String.toList_append, List.append_assoc] at h
      obtain ⟨hliteral, hrest⟩ := (Literal.isWord_render hx).append_inj (Literal.isWord_render hy)
        (endsWord_close _) (endsWord_close _) (List.append_cancel_left h)
      obtain rfl := Literal.render_injOn hx hy (String.toList_injective hliteral)
      exact ⟨rfl, List.append_cancel_left hrest⟩
    | _ => simp at h
  | .variable name, hx, y, hy, s, t, h => by
    cases y with
    | «variable» name' =>
      simp only [render_variable, String.toList_append, List.append_assoc] at h
      obtain ⟨hname, hrest⟩ := (isWord_of_isIdentifier hx).append_inj (isWord_of_isIdentifier hy)
        (endsWord_close _) (endsWord_close _) (List.append_cancel_left h)
      obtain rfl := String.toList_injective hname
      exact ⟨rfl, List.append_cancel_left hrest⟩
    | _ => simp at h
  | .unary operator operand, hx, y, hy, s, t, h => by
    cases y with
    | unary operator' operand' =>
      simp only [render_unary, String.toList_append, List.append_assoc] at h
      obtain ⟨hoperator, hrest⟩ := operator.isWord_spelling.append_inj operator'.isWord_spelling
        (endsWord_blank _) (endsWord_blank _) (List.append_cancel_left h)
      obtain rfl := UnaryOp.spelling_injective (String.toList_injective hoperator)
      obtain ⟨rfl, hclose⟩ := operand.unambiguous hx operand' hy _ _ (List.append_cancel_left hrest)
      exact ⟨rfl, List.append_cancel_left hclose⟩
    | _ => simp at h
  | .binary operator left right, hx, y, hy, s, t, h => by
    cases y with
    | binary operator' left' right' =>
      simp only [render_binary, String.toList_append, List.append_assoc] at h
      obtain ⟨hoperator, hrest⟩ := operator.isWord_spelling.append_inj operator'.isWord_spelling
        (endsWord_blank _) (endsWord_blank _) (List.append_cancel_left h)
      obtain rfl := BinaryOp.spelling_injective (String.toList_injective hoperator)
      obtain ⟨rfl, hright⟩ := left.unambiguous hx.1 left' hy.1 _ _ (List.append_cancel_left hrest)
      obtain ⟨rfl, hclose⟩ :=
        right.unambiguous hx.2 right' hy.2 _ _ (List.append_cancel_left hright)
      exact ⟨rfl, List.append_cancel_left hclose⟩
    | _ => simp at h

theorem Stmt.head?_render (x : Stmt) : x.render.toList.head? = some '(' := by
  cases x with
  | declaration typeName name initializer => cases initializer <;> simp
  | _ => simp

namespace Stmt

variable {typeName name : String} {value condition : Expr} {body elseBody : List Stmt}

theorem unambiguous_assignment {operator : AssignOp} (hname : IsIdentifier name.toList)
    (hvalue : value.Over .printable) :
    Unambiguous (Stmt.Over .printable) render (.assignment operator name value) := by
  intro y hy s t h
  cases y with
  | assignment operator' name' value' =>
    simp only [render_assignment, String.toList_append, List.append_assoc] at h
    obtain ⟨hoperator, hrest⟩ := operator.isWord_spelling.append_inj operator'.isWord_spelling
      (endsWord_blank _) (endsWord_blank _) (List.append_cancel_left h)
    obtain ⟨hname, hafter⟩ := (isWord_of_isIdentifier hname).append_inj
      (isWord_of_isIdentifier hy.1) (endsWord_blank _) (endsWord_blank _)
      (List.append_cancel_left hrest)
    obtain rfl := AssignOp.spelling_injective (String.toList_injective hoperator)
    obtain rfl := String.toList_injective hname
    obtain ⟨rfl, hclose⟩ :=
      value.unambiguous hvalue value' hy.2 _ _ (List.append_cancel_left hafter)
    exact ⟨rfl, List.append_cancel_left hclose⟩
  | declaration _ _ initializer => cases initializer <;> simp at h
  | _ => simp at h

theorem unambiguous_declaration (htype : typeName ∈ typeNames) (hname : IsIdentifier name.toList) :
    Unambiguous (Stmt.Over .printable) render (.declaration typeName name none) := by
  intro y hy s t h
  cases y with
  | declaration typeName' name' initializer =>
    cases initializer with
    | none =>
      simp only [render_declaration, String.toList_append, List.append_assoc] at h
      obtain ⟨rfl, rfl, hclose⟩ := typeName_name_inj htype hname hy.1 hy.2 (endsWord_close _)
        (endsWord_close _) (List.append_cancel_left h)
      exact ⟨rfl, List.append_cancel_left hclose⟩
    | some value' =>
      simp only [render_declaration, render_initialized, String.toList_append,
        List.append_assoc] at h
      -- the initializer of the other one starts where this one ends
      obtain ⟨-, -, hclose⟩ := typeName_name_inj htype hname hy.1 hy.2.1 (endsWord_close _)
        (endsWord_blank _) (List.append_cancel_left h)
      simp at hclose
  | _ => simp at h

theorem unambiguous_initialized (htype : typeName ∈ typeNames) (hname : IsIdentifier name.toList)
    (hvalue : value.Over .printable) :
    Unambiguous (Stmt.Over .printable) render (.declaration typeName name (some value)) := by
  intro y hy s t h
  cases y with
  | declaration typeName' name' initializer =>
    cases initializer with
    | none =>
      simp only [render_declaration, render_initialized, String.toList_append,
        List.append_assoc] at h
      obtain ⟨-, -, hclose⟩ := typeName_name_inj htype hname hy.1 hy.2 (endsWord_blank _)
        (endsWord_close _) (List.append_cancel_left h)
      simp at hclose
    | some value' =>
      simp only [render_initialized, String.toList_append, List.append_assoc] at h
      obtain ⟨rfl, rfl, hafter⟩ := typeName_name_inj htype hname hy.1 hy.2.1 (endsWord_blank _)
        (endsWord_blank _) (List.append_cancel_left h)
      obtain ⟨rfl, hclose⟩ :=
        value.unambiguous hvalue value' hy.2.2 _ _ (List.append_cancel_left hafter)
      exact ⟨rfl, List.append_cancel_left hclose⟩
  | _ => simp at h

theorem unambiguous_ret (hvalue : value.Over .printable) :
    Unambiguous (Stmt.Over .printable) render (.ret value) := by
  intro y hy s t h
  cases y with
  | ret value' =>
    simp only [render_ret, String.toList_append, List.append_assoc] at h
    obtain ⟨rfl, hclose⟩ := value.unambiguous hvalue value' hy _ _ (List.append_cancel_left h)
    exact ⟨rfl, List.append_cancel_left hclose⟩
  | declaration _ _ initializer => cases initializer <;> simp at h
  | _ => simp at h

theorem unambiguous_ifThen (hcondition : condition.Over .printable)
    (hbody : ∀ x ∈ body, Unambiguous (Stmt.Over .printable) render x) :
    Unambiguous (Stmt.Over .printable) render (.ifThen condition body) := by
  intro y hy s t h
  cases y with
  | ifThen condition' body' =>
    simp only [render_ifThen, renderAll_eq_map, String.toList_append, List.append_assoc] at h
    obtain ⟨rfl, hrest⟩ :=
      condition.unambiguous hcondition condition' hy.1 _ _ (List.append_cancel_left h)
    obtain ⟨rfl, hclose⟩ := Unambiguous.bracketed head?_render hbody (allOver_iff.mp hy.2)
      (List.append_cancel_left hrest)
    exact ⟨rfl, List.append_cancel_left hclose⟩
  | ifElse condition' body' elseBody' =>
    simp only [render_ifThen, render_ifElse, renderAll_eq_map, String.toList_append,
      List.append_assoc] at h
    obtain ⟨-, hrest⟩ :=
      condition.unambiguous hcondition condition' hy.1 _ _ (List.append_cancel_left h)
    -- the `else` of the other one starts where this one ends
    obtain ⟨-, hclose⟩ := Unambiguous.bracketed head?_render hbody (allOver_iff.mp hy.2.1)
      (List.append_cancel_left hrest)
    simp at hclose
  | declaration _ _ initializer => cases initializer <;> simp at h
  | _ => simp at h

theorem unambiguous_ifElse (hcondition : condition.Over .printable)
    (hbody : ∀ x ∈ body, Unambiguous (Stmt.Over .printable) render x)
    (helse : ∀ x ∈ elseBody, Unambiguous (Stmt.Over .printable) render x) :
    Unambiguous (Stmt.Over .printable) render (.ifElse condition body elseBody) := by
  intro y hy s t h
  cases y with
  | ifThen condition' body' =>
    simp only [render_ifThen, render_ifElse, renderAll_eq_map, String.toList_append,
      List.append_assoc] at h
    obtain ⟨-, hrest⟩ :=
      condition.unambiguous hcondition condition' hy.1 _ _ (List.append_cancel_left h)
    obtain ⟨-, hclose⟩ := Unambiguous.bracketed head?_render hbody (allOver_iff.mp hy.2)
      (List.append_cancel_left hrest)
    simp at hclose
  | ifElse condition' body' elseBody' =>
    simp only [render_ifElse, renderAll_eq_map, String.toList_append, List.append_assoc] at h
    obtain ⟨rfl, hrest⟩ :=
      condition.unambiguous hcondition condition' hy.1 _ _ (List.append_cancel_left h)
    obtain ⟨rfl, hafter⟩ := Unambiguous.bracketed head?_render hbody (allOver_iff.mp hy.2.1)
      (List.append_cancel_left hrest)
    obtain ⟨rfl, hclose⟩ := Unambiguous.bracketed head?_render helse (allOver_iff.mp hy.2.2)
      (List.append_cancel_left hafter)
    exact ⟨rfl, List.append_cancel_left hclose⟩
  | declaration _ _ initializer => cases initializer <;> simp at h
  | _ => simp at h

mutual

/-- A statement is found together with what follows it. -/
theorem unambiguous : (x : Stmt) → x.Over .printable →
    Unambiguous (Stmt.Over .printable) render x
  | .assignment .., hx => unambiguous_assignment hx.1 hx.2
  | .declaration _ _ none, hx => unambiguous_declaration hx.1 hx.2
  | .declaration _ _ (some _), hx => unambiguous_initialized hx.1 hx.2.1 hx.2.2
  | .ret _, hx => unambiguous_ret hx
  | .ifThen _ body, hx => unambiguous_ifThen hx.1 (unambiguous_of_mem body hx.2)
  | .ifElse _ body elseBody, hx =>
    unambiguous_ifElse hx.1 (unambiguous_of_mem body hx.2.1) (unambiguous_of_mem elseBody hx.2.2)

/-- Each of the statements is found together with what follows it. -/
theorem unambiguous_of_mem : (xs : List Stmt) → AllOver .printable xs →
    ∀ x ∈ xs, Unambiguous (Stmt.Over .printable) render x
  | [], _ => List.forall_mem_nil _
  | x :: xs, h => List.forall_mem_cons.mpr ⟨unambiguous x h.1, unambiguous_of_mem xs h.2⟩

end

end Stmt

theorem Argument.head?_render (x : Argument) : x.render.toList.head? = some '(' := by
  simp [render_eq]

theorem FunctionDef.head?_render (x : FunctionDef) : x.render.toList.head? = some '(' := by
  simp [render_eq]

theorem Argument.unambiguous {x : Argument} (hx : x.Over .printable) :
    Unambiguous (Argument.Over .printable) Argument.render x := by
  intro y hy s t h
  obtain ⟨typeName, name⟩ := x
  obtain ⟨typeName', name'⟩ := y
  simp only [render_eq, String.toList_append, List.append_assoc] at h
  obtain ⟨rfl, rfl, hclose⟩ := typeName_name_inj hx.1 hx.2 hy.1 hy.2 (endsWord_close _)
    (endsWord_close _) (List.append_cancel_left h)
  exact ⟨rfl, List.append_cancel_left hclose⟩

theorem FunctionDef.unambiguous {x : FunctionDef} (hx : x.Over .printable) :
    Unambiguous (FunctionDef.Over .printable) FunctionDef.render x := by
  intro y hy s t h
  obtain ⟨returnType, name, arguments, body⟩ := x
  obtain ⟨returnType', name', arguments', body'⟩ := y
  obtain ⟨htype, hname, harguments, hbody⟩ := hx
  obtain ⟨htype', hname', harguments', hbody'⟩ := hy
  have hopen : " (".toList = " ".toList ++ ['('] := by simp
  simp only [render_eq, Stmt.renderAll_eq_map, String.toList_append, List.append_assoc, hopen] at h
  obtain ⟨rfl, rfl, hrest⟩ := typeName_name_inj htype hname htype' hname' (endsWord_blank _)
    (endsWord_blank _) (List.append_cancel_left h)
  obtain ⟨rfl, hafter⟩ := Unambiguous.bracketed Argument.head?_render
    (fun x hx => Argument.unambiguous (harguments x hx)) harguments'
    (List.append_cancel_left (List.append_cancel_left hrest))
  obtain ⟨rfl, hclose⟩ := Unambiguous.bracketed Stmt.head?_render
    (Stmt.unambiguous_of_mem body hbody) (Stmt.allOver_iff.mp hbody')
    (List.append_cancel_left hafter)
  exact ⟨rfl, List.append_cancel_left hclose⟩

/-- Programs over printable leaves are told apart by their texts. -/
theorem Program.render_injOn {p q : Program} (hp : p.Over .printable) (hq : q.Over .printable)
    (h : p.render = q.render) : p = q := by
  obtain ⟨functions⟩ := p
  obtain ⟨functions'⟩ := q
  have hlist := congrArg String.toList h
  simp only [render, String.toList_append, List.append_assoc] at hlist
  obtain ⟨rfl, -⟩ := Unambiguous.bracketed FunctionDef.head?_render
    (fun x hx => FunctionDef.unambiguous (hp x hx)) hq (List.append_cancel_left hlist)
  rfl

end CFrontEnd
