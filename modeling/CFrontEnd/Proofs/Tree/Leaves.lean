import CFrontEnd.Compilation
import CFrontEnd.Proofs.Decimal.Numerals
import CFrontEnd.Proofs.Lexer.Lexemes
import CFrontEnd.Proofs.Parser.Acceptance

/-!
# Leaves of a Tree

The leaves of a tree are its types, its other names and its literals. A phrase has one token for
each leaf of its tree, so what is known of the tokens of a text is known of the leaves of the tree
that is read from it, at every depth.

## Main definitions

* `Leaves`: a condition on leaves.
* `Program.Over`: all leaves of the program meet the condition.
* `Leaves.source`: the leaves that a text can spell.
* `Leaves.printable`: leaves that are told apart by their texts.

## Main results

* `Grammar.Derives.over`: the leaves of a phrase are those of its tokens.
* `yields_source_of_mem_lex`: the leaves that the tokens of a text make can be spelled.
* `Program.over_printable_of_parseSource`: what is read from a text has printable leaves.
-/

namespace CFrontEnd

open Grammar CFrontEnd.Parser

/-! ### Conditions on leaves -/

/-- A condition on the leaves of a tree. -/
structure Leaves where
  /-- The condition on the types of functions, parameters and variables. -/
  typeName : String → Prop
  /-- The condition on the names of functions, parameters and variables. -/
  name : String → Prop
  /-- The condition on literals. -/
  literal : Literal → Prop

variable (leaves : Leaves)

/-- All leaves of the expression meet the condition. -/
def Expr.Over : Expr → Prop
  | .constant literal => leaves.literal literal
  | .variable name => leaves.name name
  | .unary _ operand => operand.Over
  | .binary _ left right => left.Over ∧ right.Over

mutual

/-- All leaves of the statement meet the condition. -/
def Stmt.Over : Stmt → Prop
  | .assignment _ target value => leaves.name target ∧ value.Over leaves
  | .declaration typeName name none => leaves.typeName typeName ∧ leaves.name name
  | .declaration typeName name (some initializer) =>
    leaves.typeName typeName ∧ leaves.name name ∧ initializer.Over leaves
  | .ret value => value.Over leaves
  | .ifThen condition body => condition.Over leaves ∧ Stmt.AllOver body
  | .ifElse condition body elseBody =>
    condition.Over leaves ∧ Stmt.AllOver body ∧ Stmt.AllOver elseBody

/-- All leaves of the statements meet the condition. -/
def Stmt.AllOver : List Stmt → Prop
  | [] => True
  | statement :: statements => statement.Over ∧ Stmt.AllOver statements

end

/-- The leaves of statements are those of each of them. -/
theorem Stmt.allOver_iff {leaves : Leaves} {statements : List Stmt} :
    Stmt.AllOver leaves statements ↔ ∀ statement ∈ statements, statement.Over leaves := by
  induction statements with
  | nil => simp [Stmt.AllOver]
  | cons statement statements ih => simp [Stmt.AllOver, ih]

/-- The type and the name of the parameter meet the condition. -/
def Argument.Over (argument : Argument) : Prop :=
  leaves.typeName argument.typeName ∧ leaves.name argument.name

/-- All leaves of the function meet the condition. -/
def FunctionDef.Over (function : FunctionDef) : Prop :=
  leaves.typeName function.returnType ∧ leaves.name function.name ∧
    (∀ argument ∈ function.arguments, argument.Over leaves) ∧ Stmt.AllOver leaves function.body

/-- All leaves of the program meet the condition. -/
def Program.Over (program : Program) : Prop :=
  ∀ function ∈ program.functions, function.Over leaves

/-- All leaves of a tree of the nonterminal meet the condition. -/
def Grammar.Nonterminal.Over : (symbol : Nonterminal) → symbol.Tree → Prop
  | program => Program.Over leaves
  | functions => fun functions => ∀ function ∈ functions, function.Over leaves
  | function => FunctionDef.Over leaves
  | arguments => fun arguments => ∀ argument ∈ arguments, argument.Over leaves
  | block | stmts => Stmt.AllOver leaves
  | stmt | conditional => Stmt.Over leaves
  | operations _ => fun operations => ∀ operation ∈ operations, operation.2.Over leaves
  | level _ | unary | primary => Expr.Over leaves

/-! ### Leaves of a phrase -/

/-- The leaf that the token can stand for meets the condition. -/
structure Token.Yields (token : Token) : Prop where
  typeName : token.isTypeName = true → leaves.typeName token.lexeme
  name : token.kind = .identifier → leaves.name token.lexeme
  int : ∀ value, token.kind = .integer → token.value = some (.int value) →
    leaves.literal (.int value)
  float : ∀ value, token.kind = .float → token.value = some (.float value) →
    leaves.literal (.float value)
  string : ∀ body, token.kind = .string → token.stringBody? = some body →
    leaves.literal (.string body)

variable {leaves}

/-- The leaves of a chain of operations are those of its operands. -/
theorem Grammar.over_chain {left : Expr} {operations : List (BinaryOp × Expr)}
    (hleft : left.Over leaves) (hright : ∀ operation ∈ operations, operation.2.Over leaves) :
    (chain left operations).Over leaves := by
  induction operations generalizing left with
  | nil => exact hleft
  | cons operation operations ih =>
    obtain ⟨hfirst, hrest⟩ := List.forall_mem_cons.mp hright
    exact ih ⟨hleft, hfirst⟩ hrest

/-- The leaves of a phrase are those of its tokens. -/
theorem Grammar.Derives.over {symbol : Nonterminal} {tokens : List Token} {tree : symbol.Tree}
    (h : Derives symbol tokens tree) (hleaves : ∀ token ∈ tokens, token.Yields leaves) :
    symbol.Over leaves tree := by
  induction h with
  | program _ ih => exact ih hleaves
  | noFunction | noArgument | noOperation => exact List.forall_mem_nil _
  | noStmt => trivial
  | functions _ _ ihfirst ihrest =>
    obtain ⟨hfirst, hrest⟩ := List.forall_mem_append.mp hleaves
    exact List.forall_mem_cons.mpr ⟨ihfirst hfirst, ihrest hrest⟩
  | function htype hname _ _ _ _ ihparameters ihbody =>
    simp only [List.forall_mem_cons, List.forall_mem_append] at hleaves
    obtain ⟨htypeLeaf, hnameLeaf, -, hparameters, -, hbody⟩ := hleaves
    exact ⟨htypeLeaf.typeName htype, hnameLeaf.name hname, ihparameters hparameters,
      ihbody hbody⟩
  | arguments htype hname _ ih =>
    simp only [List.forall_mem_cons] at hleaves
    obtain ⟨htypeLeaf, hnameLeaf, hrest⟩ := hleaves
    exact List.forall_mem_cons.mpr
      ⟨⟨htypeLeaf.typeName htype, hnameLeaf.name hname⟩, ih hrest⟩
  | block _ _ _ ih =>
    simp only [List.forall_mem_cons, List.forall_mem_append] at hleaves
    exact ih hleaves.2.1
  | stmts _ _ ihfirst ihrest =>
    obtain ⟨hfirst, hrest⟩ := List.forall_mem_append.mp hleaves
    exact ⟨ihfirst hfirst, ihrest hrest⟩
  | ret _ _ _ ih =>
    simp only [List.forall_mem_cons, List.forall_mem_append] at hleaves
    exact ih hleaves.2.1
  | assignment hname _ _ _ ih =>
    simp only [List.forall_mem_cons, List.forall_mem_append] at hleaves
    obtain ⟨hnameLeaf, -, hvalue, -⟩ := hleaves
    exact ⟨hnameLeaf.name hname, ih hvalue⟩
  | declaration htype hname _ =>
    simp only [List.forall_mem_cons] at hleaves
    exact ⟨hleaves.1.typeName htype, hleaves.2.1.name hname⟩
  | initialized htype hname _ _ _ ih =>
    simp only [List.forall_mem_cons, List.forall_mem_append] at hleaves
    obtain ⟨htypeLeaf, hnameLeaf, -, hvalue, -⟩ := hleaves
    exact ⟨htypeLeaf.typeName htype, hnameLeaf.name hname, ih hvalue⟩
  | conditional _ ih => exact ih hleaves
  | ifThen _ _ _ _ _ ihcondition ihbody =>
    simp only [List.forall_mem_cons, List.forall_mem_append] at hleaves
    obtain ⟨-, -, hcondition, -, hbody⟩ := hleaves
    exact ⟨ihcondition hcondition, ihbody hbody⟩
  | ifElse _ _ _ _ _ _ _ ihcondition ihbody ihrest =>
    simp only [List.forall_mem_cons, List.forall_mem_append] at hleaves
    obtain ⟨-, -, hcondition, -, hbody, -, hrest⟩ := hleaves
    exact ⟨ihcondition hcondition, ihbody hbody, ihrest hrest⟩
  | elseIf _ _ _ _ _ _ _ ihcondition ihbody ihrest =>
    simp only [List.forall_mem_cons, List.forall_mem_append] at hleaves
    obtain ⟨-, -, hcondition, -, hbody, -, hrest⟩ := hleaves
    exact ⟨ihcondition hcondition, ihbody hbody, ihrest hrest, trivial⟩
  | level _ _ _ ihleft ihoperations =>
    obtain ⟨hleft, hoperations⟩ := List.forall_mem_append.mp hleaves
    exact over_chain (ihleft hleft) (ihoperations hoperations)
  | tightest _ ih => exact ih hleaves
  | operations _ _ _ _ ihoperand ihrest =>
    simp only [List.forall_mem_cons, List.forall_mem_append] at hleaves
    obtain ⟨-, hoperand, hrest⟩ := hleaves
    exact List.forall_mem_cons.mpr ⟨ihoperand hoperand, ihrest hrest⟩
  | unary _ _ ih => exact ih (List.forall_mem_cons.mp hleaves).2
  | primary _ ih => exact ih hleaves
  | integer hkind hvalue => exact (List.forall_mem_singleton.mp hleaves).int _ hkind hvalue
  | float hkind hvalue => exact (List.forall_mem_singleton.mp hleaves).float _ hkind hvalue
  | string hkind hbody => exact (List.forall_mem_singleton.mp hleaves).string _ hkind hbody
  | name hkind => exact (List.forall_mem_singleton.mp hleaves).name hkind
  | parentheses _ _ _ ih =>
    simp only [List.forall_mem_cons, List.forall_mem_append] at hleaves
    exact ih hleaves.2.1

/-- The leaves of a parsed program are those of the tokens. -/
theorem Program.over_of_parse {tokens : List Token} {program : Program}
    (h : parse tokens = .ok program) (hleaves : ∀ token ∈ tokens, token.Yields leaves) :
    program.Over leaves := by
  have hrule : Parser.program tokens = .ok (program, []) := Parser.complete_eq_ok_iff.mp h
  obtain ⟨used, hused, hderives⟩ := program_sound tokens program [] hrule
  rw [List.append_nil] at hused
  exact hderives.over (hused ▸ hleaves)

/-! ### Leaves of a text -/

/-- The leaves that a text can spell: the reserved words for types, names that are not reserved,
numbers without a sign, and strings of letters, digits and underscores, at least one. -/
def Leaves.source : Leaves where
  typeName typeName := typeName ∈ typeNames
  name name := IsIdentifier name.toList ∧ name ∉ keywords
  literal
    | .int value => 0 ≤ value.toInt
    | .float value => ∃ rank bounded, value = .number false rank bounded
    | .string body => body.toList ≠ [] ∧ ∀ c ∈ body.toList, Matcher.isStringPart c = true

/-- Leaves that are told apart by their texts: reserved words for types, names, integers, numbers
without a sign, and strings of letters, digits and underscores. -/
def Leaves.printable : Leaves where
  typeName typeName := typeName ∈ typeNames
  name name := IsIdentifier name.toList
  literal
    | .int _ => True
    | .float value => ∃ rank bounded, value = .number false rank bounded
    | .string body => ∀ c ∈ body.toList, Matcher.isStringPart c = true

/-- Digits without a sign are no negative integer. -/
theorem Numeral.toInt_nonneg_of_int64? {digits : List Char} {value : Int64}
    (hdigits : AllDigits digits) (h : int64? digits = some value) : 0 ≤ value.toInt := by
  obtain ⟨n, hn, hrange⟩ := Option.bind_eq_some_iff.mp h
  obtain ⟨⟨hleast, hgreatest⟩, rfl⟩ :=
    Option.ite_none_right_eq_some.mp hrange |>.imp_right Option.some.inj
  have hvalue : (Int64.ofInt n).toInt = n :=
    Int64.toInt_ofInt_of_le hleast (Int.lt_of_le_sub_one hgreatest)
  rw [integer?_digits hdigits] at hn
  obtain ⟨m, -, rfl⟩ := Option.map_eq_some_iff.mp hn
  rw [hvalue]
  exact Int.natCast_nonneg m

/-- Digits around a point are no negative double, and no word. -/
theorem Numeral.exists_rank_of_binary64? {whole fraction : List Char} {value : Binary64}
    (hwhole : AllDigits whole) (h : binary64? (whole ++ '.' :: fraction) = some value) :
    ∃ rank bounded, value = .number false rank bounded := by
  obtain ⟨first, rest, htext, hfirst⟩ : ∃ first rest,
      whole ++ '.' :: fraction = first :: rest ∧ (first.isDigit = true ∨ first = '.') := by
    cases whole with
    | nil => exact ⟨_, _, rfl, .inr rfl⟩
    | cons first rest => exact ⟨_, _, rfl, .inl (hwhole first List.mem_cons_self)⟩
  have hread : binary64? (first :: rest) = (decimal? (first :: rest)).map (.ofDecimal false) :=
    binary64?_eq_of_digit false hfirst
  rw [htext, hread] at h
  obtain ⟨decimal, -, rfl⟩ := Option.map_eq_some_iff.mp h
  exact ⟨_, _, rfl⟩

/-- The tokens of a text spell what a text can spell. -/
theorem yields_source_of_mem_lex {text : String} {token : Token} (h : token ∈ lex text) :
    token.Yields .source := by
  have hspells := spells_of_mem_lex h
  refine ⟨fun htype => ?_, fun hkind => ?_, fun value hkind hvalue => ?_,
    fun value hkind hvalue => ?_, fun body hkind hbody => ?_⟩
  · simp only [Token.isTypeName, Bool.and_eq_true, List.contains_iff_mem] at htype
    exact htype.2
  · rw [hkind] at hspells
    exact ⟨hspells.1, by simpa using hspells.2⟩
  · rw [hkind] at hspells
    rw [Token.value, hkind] at hvalue
    obtain ⟨number, hread, hnumber⟩ := Option.map_eq_some_iff.mp hvalue
    exact Number.int.inj hnumber ▸ Numeral.toInt_nonneg_of_int64? hspells.2 hread
  · rw [hkind] at hspells
    obtain ⟨whole, fraction, hlexeme, hwhole, -, -⟩ := hspells
    rw [Token.value, hkind] at hvalue
    obtain ⟨number, hread, hnumber⟩ := Option.map_eq_some_iff.mp hvalue
    rw [hlexeme] at hread
    exact Number.float.inj hnumber ▸ Numeral.exists_rank_of_binary64? hwhole hread
  · rw [hkind] at hspells
    obtain ⟨inner, hlexeme, hne, hparts⟩ := hspells
    obtain ⟨first, last, -, -, hcut⟩ := Token.stringBody?_eq_some_iff.mp hbody
    have hinner : body.toList = inner := by
      have hrest := (List.cons.inj (hcut.symm.trans hlexeme)).2
      exact (List.append_inj' hrest rfl).1
    exact ⟨hinner ▸ hne, hinner ▸ hparts⟩

/-- What is read from a text has printable leaves. -/
theorem Program.over_printable_of_parseSource {text : String} {program : Program}
    (h : parseSource text = .ok program) : program.Over .printable := by
  refine over_of_parse h fun token hmem => ?_
  have hsource := yields_source_of_mem_lex hmem
  exact ⟨hsource.typeName, fun hkind => (hsource.name hkind).1, fun _ _ _ => trivial, hsource.float,
    fun body hkind hbody => (hsource.string body hkind hbody).2⟩

end CFrontEnd
