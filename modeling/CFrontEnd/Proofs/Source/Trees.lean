import CFrontEnd.Proofs.Printing.RoundTrip
import CFrontEnd.Proofs.Tree.Leaves
import CFrontEnd.Proofs.Tree.Traversal

/-!
# Trees of a Text

The parser copies types, names and literals out of the tokens, whatever these are, and looks at none
of them again. In the tree of a text they are well formed all the same, at every address: each of
them is the text or the value of one token, and the tokens of a text have texts of their kinds.

## Main definitions

* `Node.Shows`: what a node itself shows meets a condition on leaves.
* `Leaves.wellFormed`: the leaves that a tree of a text can have.

## Main results

* `Node.over_iff_shows`: the leaves of a tree are those that its nodes show.
* `parsed_wellFormed`: the trees of texts are well formed at every address.
-/

namespace CFrontEnd

open Grammar

/-! ### Leaves by address -/

namespace Node

section Leaves

variable (leaves : Leaves)

/-- All leaves of the tree below the node meet the condition. -/
def Over : Node → Prop
  | .program p => p.Over leaves
  | .function f => f.Over leaves
  | .stmt s => s.Over leaves
  | .expr e => e.Over leaves

/-- The leaves that the node shows itself, and not by a node below it, meet the condition. The
parameters of a function are no nodes, so the function shows them. -/
def Shows : Node → Prop
  | .function f =>
    leaves.typeName f.returnType ∧ leaves.name f.name ∧
      ∀ argument ∈ f.arguments, leaves.typeName argument.typeName ∧ leaves.name argument.name
  | .stmt (.declaration typeName name _) => leaves.typeName typeName ∧ leaves.name name
  | .stmt (.assignment _ target _) => leaves.name target
  | .expr (.constant literal) => leaves.literal literal
  | .expr (.variable name) => leaves.name name
  | .program _ | .stmt (.ret _) | .stmt (.ifThen ..) | .stmt (.ifElse ..)
  | .expr (.unary ..) | .expr (.binary ..) => True

variable {leaves}

/-- The leaves of a tree are those that its root shows and those of the trees below. -/
theorem over_iff (node : Node) :
    node.Over leaves ↔ node.Shows leaves ∧ ∀ child ∈ node.children, child.Over leaves := by
  match node with
  | .program p => simp [Over, Shows, children, Program.Over]
  | .function f =>
    simp [Over, Shows, children, FunctionDef.Over, Argument.Over, Stmt.allOver_iff, and_assoc]
  | .stmt (.ifThen ..) | .stmt (.ifElse ..) =>
    simp [Over, Shows, children, Stmt.Over, Stmt.allOver_iff, or_imp, forall_and]
  | .stmt (.assignment ..) | .stmt (.ret _) | .stmt (.declaration _ _ none)
  | .stmt (.declaration _ _ (some _)) =>
    simp [Over, Shows, children, Stmt.Over, and_assoc]
  | .expr (.constant _) | .expr (.variable _) | .expr (.unary ..) | .expr (.binary ..) =>
    simp [Over, Shows, children, Expr.Over]

/-- The leaves of a tree are those that the nodes at its addresses show. -/
theorem over_iff_shows (node : Node) :
    node.Over leaves ↔ ∀ address found, node.at? address = some found → found.Shows leaves := by
  constructor
  · intro hover address
    -- every step of the address leads to a tree with some of the leaves
    induction address generalizing node with
    | nil =>
      intro found hfound
      obtain rfl := Option.some.inj hfound
      exact (node.over_iff.mp hover).1
    | cons i address ih =>
      intro found hfound
      obtain ⟨child, hchild, hfound⟩ := Option.bind_eq_some_iff.mp hfound
      exact ih child ((node.over_iff.mp hover).2 child (List.mem_of_getElem? hchild)) found hfound
  · induction node using children_induct with
    | step node ih =>
      intro hshows
      refine node.over_iff.mpr ⟨hshows [] node rfl, fun child hmem => ih child hmem ?_⟩
      intro address found hfound
      obtain ⟨i, hi⟩ := List.mem_iff_getElem?.mp hmem
      refine hshows (i :: address) found ?_
      rw [at?, hi]
      exact hfound

end Leaves

end Node

/-! ### Leaves of a text -/

/-- The leaves that a tree of a text can have: types by their reserved words; names that start with
an ASCII letter or an underscore, go on with ASCII letters, digits and underscores, and are not
reserved; integers of at most 63 bits; floats without a sign, and infinity; strings of letters,
digits and underscores, at least one. -/
def Leaves.wellFormed : Leaves where
  typeName typeName := typeName ∈ typeNames
  name name := IsIdentifier name.toList ∧ name ∉ keywords
  literal
    | .int value => 0 ≤ value.toInt ∧ value.toInt ≤ 2 ^ 63 - 1
    | .float value => value ≠ .nan ∧ ∀ rank bounded, value ≠ .number true rank bounded
    | .string body => body ≠ "" ∧ ∀ c ∈ body.toList, Text.isAlphanumeric c = true ∨ c = '_'

/-- The tokens of a text stand for well-formed leaves. -/
theorem yields_wellFormed_of_mem_lex {text : String} {token : Token} (h : token ∈ lex text) :
    token.Yields .wellFormed := by
  have hsource := yields_source_of_mem_lex h
  refine ⟨hsource.typeName, hsource.name, ?int, ?float, ?string⟩
  case int =>
    intro value hkind hvalue
    exact ⟨hsource.int value hkind hvalue, value.toInt_le⟩
  case float =>
    intro value hkind hvalue
    obtain ⟨rank, bounded, rfl⟩ := hsource.float value hkind hvalue
    simp [Leaves.wellFormed]
  case string =>
    intro body hkind hbody
    obtain ⟨hne, hparts⟩ := hsource.string body hkind hbody
    refine ⟨fun hempty => hne (by rw [hempty]; rfl), fun c hc => ?_⟩
    simpa [Matcher.isStringPart] using hparts c hc

/-! ### Infinite literals -/

/-- Infinity can be written down with digits on both sides of a point. -/
theorem exists_spellsFloat_infinite :
    ∃ spelling, SpellsFloat spelling (.ofRank false Binary64.infiniteRank) := by
  have hdigits : ∀ c ∈ List.replicate 331 '9', c.isDigit = true := fun c hc =>
    List.eq_of_mem_replicate hc ▸ rfl
  refine ⟨String.ofList (List.replicate 331 '9' ++ ['.', '0']), ?_, List.replicate 331 '9', ['0'],
    String.toList_ofList, by decide, by decide, hdigits, List.all_eq_true.mp (by decide)⟩
  rw [String.toList_ofList]
  decide +kernel

/-- Trees that are read from texts are well formed at every address, and some of them have an
infinite literal. -/
theorem parsed_wellFormed :
    (∀ text program, parseSource text = .ok program →
        ∀ address node, (Node.program program).at? address = some node → node.Shows .wellFormed) ∧
      ∃ text program, parseSource text = .ok program ∧ ∃ address,
        (Node.program program).at? address =
          some (.expr (.constant (.float (.ofRank false Binary64.infiniteRank)))) := by
  refine ⟨fun text program hparse => ?wellFormed, ?infinite⟩
  case wellFormed =>
    refine (Node.over_iff_shows (.program program)).mp ?_
    exact Program.over_of_parse hparse fun _ => yields_wellFormed_of_mem_lex
  case infinite =>
    let program : Program := ⟨[{
      returnType := "double"
      name := "f"
      arguments := []
      body := [.ret (.constant (.float (.ofRank false Binary64.infiniteRank)))] }]⟩
    have hwell : program.WellFormed := by
      have hf : IsName "f" := ⟨by decide, 'f', [], by decide, by decide, by simp⟩
      refine List.forall_mem_singleton.mpr ⟨by decide, hf, List.forall_mem_nil _, ?_, trivial⟩
      exact exists_spellsFloat_infinite
    obtain ⟨text, words, hlayout, hspaced⟩ := Program.exists_printed hwell
    have hwords : (lex text).map Token.word = words := lex_spaced hspaced (hlayout.lexes hwell)
    have hparse : EntryPoint.program.parse (lex text) = .ok program :=
      EntryPoint.parse_of_derives (hlayout.derives hwell trivial hwords)
    exact ⟨text, program, hparse, [0, 0, 0], rfl⟩

/-- The integer of an assignment that stands in the body of an `if`. -/
theorem parsed_wellFormed_nested :
    ∃ program, parseSource "int f(char a)\x7bif(a)\x7bx=7;\x7d\x7d" = .ok program ∧
      (Node.program program).at? [0, 0, 1, 0] = some (.expr (.constant (.int 7))) ∧
      (Node.expr (.constant (.int 7))).Shows .wellFormed := by
  let assigned : Stmt := .assignment .assign "x" (.constant (.int 7))
  let program : Program := ⟨[{
    returnType := "int"
    name := "f"
    arguments := [{ typeName := "char", name := "a" }]
    body := [.ifThen (.variable "a") [assigned]] }]⟩
  -- the assignment, the `if` around it, and the function around both
  let assignment : List Token :=
    [⟨.identifier, "x", ⟨20, 21⟩⟩, ⟨.assignmentOperator, "=", ⟨21, 22⟩⟩,
      ⟨.integer, "7", ⟨22, 23⟩⟩, ⟨.semicolon, ";", ⟨23, 24⟩⟩]
  let conditional : List Token :=
    ⟨.keyword, "if", ⟨14, 16⟩⟩ :: ⟨.openParen, "(", ⟨16, 17⟩⟩ :: ([⟨.identifier, "a", ⟨17, 18⟩⟩] ++
      ⟨.closeParen, ")", ⟨18, 19⟩⟩ :: ⟨.openBrace, "\x7b", ⟨19, 20⟩⟩ :: (assignment ++
        [⟨.closeBrace, "\x7d", ⟨24, 25⟩⟩]))
  let function : List Token :=
    ⟨.keyword, "int", ⟨0, 3⟩⟩ :: ⟨.identifier, "f", ⟨4, 5⟩⟩ :: ⟨.openParen, "(", ⟨5, 6⟩⟩ ::
      ([⟨.keyword, "char", ⟨6, 10⟩⟩, ⟨.identifier, "a", ⟨11, 12⟩⟩] ++
        ⟨.closeParen, ")", ⟨12, 13⟩⟩ :: ⟨.openBrace, "\x7b", ⟨13, 14⟩⟩ :: (conditional ++
          [⟨.closeBrace, "\x7d", ⟨25, 26⟩⟩]))
  have hlex : lex "int f(char a)\x7bif(a)\x7bx=7;\x7d\x7d" = function := by decide +kernel
  have hvalue : Derives .expr [⟨.integer, "7", ⟨22, 23⟩⟩] (.constant (.int 7)) :=
    .of_primary (by decide) (.integer rfl (by decide +kernel))
  have hcondition : Derives .expr [⟨.identifier, "a", ⟨17, 18⟩⟩] (.variable "a") :=
    .of_primary (by decide) (.name rfl)
  have hassignment : Derives .stmt assignment assigned :=
    .assignment rfl (by decide) hvalue rfl
  have hconditional : Derives .stmt conditional (.ifThen (.variable "a") [assigned]) :=
    .conditional (.ifThen (by decide) rfl hcondition rfl
      (.block rfl (.stmts hassignment .noStmt) rfl))
  have hfunctions : Derives .functions function program.functions :=
    .functions (.function (by decide) rfl rfl (.arguments (by decide) rfl .noArgument) rfl
      (.block rfl (.stmts hconditional .noStmt) rfl)) .noFunction
  have hderives : Derives EntryPoint.program.symbol function program := .program hfunctions
  have hparse : parseSource "int f(char a)\x7bif(a)\x7bx=7;\x7d\x7d" = .ok program := by
    rw [parseSource_eq, hlex]
    exact EntryPoint.parse_of_derives hderives
  have hfound : (Node.program program).at? [0, 0, 1, 0] =
      some (.expr (.constant (.int 7))) := rfl
  exact ⟨program, hparse, hfound, parsed_wellFormed.1 _ program hparse _ _ hfound⟩

end CFrontEnd
