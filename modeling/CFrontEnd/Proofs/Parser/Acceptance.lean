import CFrontEnd.Proofs.Parser.Completeness

/-!
# Acceptance

Tokens can be taken as a program, a function, a statement or an expression. Each way in accepts
exactly the phrases of its nonterminal, as a whole, and returns the tree of the phrase. The parser
is a function, so the grammar is unambiguous for these four nonterminals.

## Main results

* `parse_eq_ok_iff_derives`: a parse returns a tree exactly when the tokens form a phrase with that
  tree, and a phrase has one tree.
-/

namespace CFrontEnd

open Grammar CFrontEnd.Parser

/-- What a list of tokens can be taken as. -/
inductive EntryPoint where
  | program
  | function
  | stmt
  | expr

namespace EntryPoint

/-- The nonterminal of the phrases that are accepted. -/
abbrev symbol : EntryPoint → Nonterminal
  | program => .program
  | function => .function
  | stmt => .stmt
  | expr => .expr

/-- The parse of all tokens. -/
def parse : (entry : EntryPoint) → List Token → Except (Failure ParseError) entry.symbol.Tree
  | program => CFrontEnd.parse
  | function => parseFunction
  | stmt => parseStatement
  | expr => parseExpression

/-- The rule that a parse starts with. -/
def rule : (entry : EntryPoint) → List Token → Outcome entry.symbol.Tree
  | program => Parser.program
  | function => Parser.function
  | stmt => Parser.stmt
  | expr => Parser.expr

theorem parse_eq_complete (entry : EntryPoint) (tokens : List Token) :
    entry.parse tokens = complete (entry.rule tokens) := by
  cases entry with
  | function => exact parseFunction_eq tokens
  | program | stmt | expr => rfl

/-- A success of the rule is a phrase. -/
theorem rule_sound (entry : EntryPoint) (tokens : List Token) :
    Sound entry.symbol tokens (entry.rule tokens) :=
  match entry with
  | program => program_sound tokens
  | function => function_sound tokens
  | stmt => stmt_sound tokens
  | expr => expr_sound tokens

/-- A phrase is taken by the rule, and no token is left. -/
theorem rule_of_derives {entry : EntryPoint} {tokens : List Token} {tree : entry.symbol.Tree}
    (h : Derives entry.symbol tokens tree) : entry.rule tokens = .ok (tree, []) := by
  have hcomplete := complete_of_derives h
  -- the end of the tokens ends every expression and every statement
  match entry with
  | program => exact hcomplete
  | function =>
    have htake := hcomplete []
    rwa [List.append_nil] at htake
  | stmt =>
    have htake := hcomplete.2 [] (by simp [NoElse])
    rwa [List.append_nil] at htake
  | expr =>
    have htake := hcomplete (Nat.le_refl 1) [] (by simp [Ends])
    rwa [List.append_nil, ← expr_eq] at htake

/-- The tokens can be taken this way. -/
def Accepts (entry : EntryPoint) (tokens : List Token) : Prop :=
  ∃ tree, entry.parse tokens = .ok tree

end EntryPoint

/-- Only an outcome that leaves no token is a result. -/
theorem Parser.complete_eq_ok_iff {α : Type} {outcome : Outcome α} {value : α} :
    complete outcome = .ok value ↔ outcome = .ok (value, []) := by
  cases outcome with
  | error halt => simp [complete]
  | ok taken =>
    obtain ⟨found, rest⟩ := taken
    cases rest <;> simp [complete, finish]

/-- The tree that a parse returns is the tree of the tokens as a phrase. -/
theorem EntryPoint.derives_of_parse {entry : EntryPoint} {tokens : List Token}
    {tree : entry.symbol.Tree} (h : entry.parse tokens = .ok tree) :
    Derives entry.symbol tokens tree := by
  rw [parse_eq_complete, complete_eq_ok_iff] at h
  obtain ⟨used, hused, hderives⟩ := entry.rule_sound tokens tree [] h
  rwa [hused, List.append_nil]

/-- A phrase is parsed to its tree. -/
theorem EntryPoint.parse_of_derives {entry : EntryPoint} {tokens : List Token}
    {tree : entry.symbol.Tree} (h : Derives entry.symbol tokens tree) :
    entry.parse tokens = .ok tree := by
  rw [parse_eq_complete, complete_eq_ok_iff]
  exact rule_of_derives h

/-- A parse returns a tree exactly when the tokens, as a whole, are a phrase of the grammar with
that tree; and the tokens are a phrase with one tree at most. -/
theorem parse_eq_ok_iff_derives (entry : EntryPoint) (tokens : List Token) :
    (∀ tree, entry.parse tokens = .ok tree ↔ Derives entry.symbol tokens tree) ∧
      ∀ first second, Derives entry.symbol tokens first → Derives entry.symbol tokens second →
        first = second := by
  have hiff : ∀ tree, entry.parse tokens = .ok tree ↔ Derives entry.symbol tokens tree := by
    intro tree
    rw [EntryPoint.parse_eq_complete, complete_eq_ok_iff]
    constructor
    · intro h
      obtain ⟨used, hused, hderives⟩ := entry.rule_sound tokens tree [] h
      rwa [hused, List.append_nil]
    · exact EntryPoint.rule_of_derives
  -- two trees of one phrase are both what the parse returns
  refine ⟨hiff, fun first second hfirst hsecond => ?_⟩
  exact Except.ok.inj (((hiff first).mpr hfirst).symm.trans ((hiff second).mpr hsecond))

end CFrontEnd
