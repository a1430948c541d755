import CFrontEnd.Proofs.Parser.Acceptance
import CFrontEnd.Proofs.Tree.Preorder

/-!
# A Census of Tokens

Every node of a tree, but for the program itself, has one token that gives it away: a function the
parenthesis behind its name, a statement its first word, its assignment operator or the semicolon
behind a bare declaration, an expression its operator or the token that it is. So the nodes of a
program are counted, and the names of its variables listed, by a look at each token and its
neighbours.

Whether a token counts depends on its neighbours only, but these may belong to other phrases. A
phrase is therefore counted between the tokens in front of it and behind it.

## Main definitions

* `Place`: a token among the tokens of a list.
* `Place.census`: what the token at a place counts for.
* `tally`: what the tokens of a phrase count for, between other tokens.

## Main results

* `tally_of_derives`: the tokens of a phrase count for the nodes of its tree.
* `census_of_parse`: the counts and the variables of a program, read off its tokens.
-/

namespace CFrontEnd

open Grammar CFrontEnd.Parser

/-! ### Places -/

/-- A token among others. -/
structure Place where
  /-- The tokens in front of it, the nearest one first. -/
  before : List Token
  /-- The token. -/
  token : Token
  /-- The tokens behind it. -/
  after : List Token

/-- The places of some tokens behind others, in order. -/
def places (before : List Token) : List Token → List Place
  | [] => []
  | token :: after => { before, token, after } :: places (token :: before) after

/-- The kinds of literals and operators. -/
def TokenKind.makesExpression : TokenKind → Bool
  | .integer | .float | .string => true
  | .arithmeticOperator | .relationalOperator | .logicalOperator => true
  | _ => false

namespace Place

/-- A parenthesis that opens directly behind a name. -/
def opensParameters (place : Place) : Bool :=
  place.token.kind = .openParen && place.before.head?.any fun token => token.kind = .identifier

/-- A semicolon directly behind a type name and a name. -/
def endsDeclaration (place : Place) : Bool :=
  place.token.kind = .semicolon &&
    match place.before with
    | name :: typeName :: _ => name.kind = .identifier && typeName.isTypeName
    | _ => false

/-- A name that has no type name in front of it and no assignment operator behind it. -/
def isVariable (place : Place) : Bool :=
  place.token.kind = .identifier && !place.before.head?.any Token.isTypeName &&
    !place.after.head?.any fun token => token.kind = .assignmentOperator

/-- What the token at the place counts for. -/
def census (place : Place) : Census where
  functions := place.opensParameters.toNat
  statements := (place.token.isKeyword "return").toNat + (place.token.isKeyword "if").toNat +
    (place.token.kind = .assignmentOperator : Bool).toNat + place.endsDeclaration.toNat
  expressions := place.token.kind.makesExpression.toNat + place.isVariable.toNat
  names := if place.isVariable then [place.token.lexeme] else []

/-- A token counts once at most, and its kind says for what. -/
theorem census_eq (place : Place) :
    place.census =
      match place.token.kind with
      | .keyword =>
        if place.token.isKeyword "return" ∨ place.token.isKeyword "if" then .stmt else 0
      | .openParen => if place.opensParameters then .function else 0
      | .semicolon => if place.endsDeclaration then .stmt else 0
      | .assignmentOperator => .stmt
      | .identifier => if place.isVariable then .name place.token.lexeme else 0
      | .openBrace | .closeBrace | .closeParen => 0
      | _ => .expr := by
  -- every test asks for one kind, so it fails for all the others
  have hword (word : String) (h : place.token.kind ≠ .keyword) :
      place.token.isKeyword word = false := by simp [Token.isKeyword, Token.is, h]
  have hopens (h : place.token.kind ≠ .openParen) : place.opensParameters = false := by
    simp [opensParameters, h]
  have hends (h : place.token.kind ≠ .semicolon) : place.endsDeclaration = false := by
    simp [endsDeclaration, h]
  have hvariable (h : place.token.kind ≠ .identifier) : place.isVariable = false := by
    simp [isVariable, h]
  rw [census]
  cases hkind : place.token.kind <;>
    simp only [hword, hopens, hends, hvariable, hkind, ne_eq, reduceCtorEq, not_false_eq_true]
  case keyword =>
    by_cases hreturn : place.token.isKeyword "return" = true
    · have hif : place.token.isKeyword "if" = false :=
        isKeyword_eq_false_of_ne hreturn (by decide)
      simp only [hreturn, hif, true_or, ↓reduceIte]
      rfl
    · by_cases hif : place.token.isKeyword "if" = true
      · simp only [hreturn, hif, or_true, ↓reduceIte]
        rfl
      · simp only [hreturn, hif, or_self, ↓reduceIte]
        rfl
  case openParen => cases place.opensParameters <;> rfl
  case semicolon => cases place.endsDeclaration <;> rfl
  case identifier => cases place.isVariable <;> rfl
  all_goals rfl

end Place

/-- What some tokens count for, between the ones in front of them and the ones behind them. -/
def tally : List Token → List Token → List Token → Census
  | _, [], _ => 0
  | before, token :: rest, after =>
    Place.census { before, token, after := rest ++ after } + tally (token :: before) rest after

@[simp]
theorem tally_nil (before after : List Token) : tally before [] after = 0 := rfl

@[simp]
theorem tally_cons (before : List Token) (token : Token) (rest after : List Token) :
    tally before (token :: rest) after =
      Place.census { before, token, after := rest ++ after } +
        tally (token :: before) rest after := rfl

/-- Phrases next to each other are the neighbours of each other. -/
@[simp]
theorem tally_append (before first second after : List Token) :
    tally before (first ++ second) after =
      tally before first (second ++ after) + tally (first.reverse ++ before) second after := by
  induction first generalizing before with
  | nil => simp
  | cons token rest ih =>
    rw [List.cons_append, tally_cons, ih, tally_cons, List.append_assoc, List.reverse_cons,
      List.append_assoc, add_assoc]
    rfl

/-! ### Single tokens -/

/-- Neither a name nor a type name is the nearest token in front. -/
def Opens (before : List Token) : Prop :=
  ∀ token ∈ before.head?, token.kind ≠ .identifier ∧ token.isTypeName = false

/-- No assignment operator is the nearest token behind. -/
def Closes (after : List Token) : Prop :=
  ∀ token ∈ after.head?, token.kind ≠ .assignmentOperator

namespace Place

section Token

variable {before after : List Token} {token name typeName : Token}

theorem census_closing
    (h : token.kind = .openBrace ∨ token.kind = .closeBrace ∨ token.kind = .closeParen) :
    census { before, token, after } = 0 := by
  rw [census_eq]
  rcases h with h | h | h <;> simp [h]

theorem census_typeName (h : token.isTypeName = true) : census { before, token, after } = 0 := by
  simp [census_eq, kind_of_isTypeName h, isKeyword_eq_false_of_isTypeName h "return" (by decide),
    isKeyword_eq_false_of_isTypeName h "if" (by decide)]

theorem census_else (h : token.isKeyword "else" = true) : census { before, token, after } = 0 := by
  have hreturn : token.isKeyword "return" = false := isKeyword_eq_false_of_ne h (by decide)
  have hif : token.isKeyword "if" = false := isKeyword_eq_false_of_ne h (by decide)
  simp [census_eq, kind_of_isKeyword h, hreturn, hif]

/-- The first word of a statement. -/
theorem census_word (h : token.isKeyword "return" = true ∨ token.isKeyword "if" = true) :
    census { before, token, after } = .stmt := by
  have hkind : token.kind = .keyword := h.elim kind_of_isKeyword kind_of_isKeyword
  simp [census_eq, hkind, h]

theorem census_assignmentOperator (h : token.kind = .assignmentOperator) :
    census { before, token, after } = .stmt := by
  simp [census_eq, h]

/-- A literal or an operator. -/
theorem census_expr (h : token.kind.makesExpression = true) :
    census { before, token, after } = .expr := by
  rw [census_eq]
  cases hkind : token.kind <;> simp [hkind, TokenKind.makesExpression] at h ⊢

theorem census_variable (h : token.kind = .identifier) (hbefore : Opens before)
    (hafter : Closes after) : census { before, token, after } = .name token.lexeme := by
  have htype : before.head?.any Token.isTypeName = false :=
    (Option.any_eq_false ..).mpr fun found hfound => by simp [(hbefore found hfound).2]
  have hsign : (after.head?.any fun token => token.kind = .assignmentOperator) = false :=
    (Option.any_eq_false ..).mpr fun found hfound => by simp [hafter found hfound]
  simp [census_eq, isVariable, h, htype, hsign]

/-- The name of a function, a parameter or a variable that is declared. -/
theorem census_declared (h : token.kind = .identifier) (htype : typeName.isTypeName = true) :
    census { before := typeName :: before, token, after } = 0 := by
  simp [census_eq, isVariable, h, htype]

/-- The name of a variable that is assigned. -/
theorem census_target {sign : Token} (h : token.kind = .identifier)
    (hsign : sign.kind = .assignmentOperator) :
    census { before, token, after := sign :: after } = 0 := by
  simp [census_eq, isVariable, h, hsign]

theorem census_openParen (h : token.kind = .openParen) (hbefore : Opens before) :
    census { before, token, after } = 0 := by
  have hname : (before.head?.any fun token => token.kind = .identifier) = false :=
    (Option.any_eq_false ..).mpr fun found hfound => by simp [(hbefore found hfound).1]
  simp [census_eq, opensParameters, h, hname]

theorem census_parameters (h : token.kind = .openParen) (hname : name.kind = .identifier) :
    census { before := name :: before, token, after } = .function := by
  simp [census_eq, opensParameters, h, hname]

theorem census_semicolon (h : token.kind = .semicolon)
    (hends : endsDeclaration { before, token, after } = false) :
    census { before, token, after } = 0 := by
  simp [census_eq, h, hends]

theorem census_declaration (h : token.kind = .semicolon) (hname : name.kind = .identifier)
    (htype : typeName.isTypeName = true) :
    census { before := name :: typeName :: before, token, after } = .stmt := by
  simp [census_eq, endsDeclaration, h, hname, htype]

end Token

end Place

/-! ### Expressions -/

/-- The nonterminals of expressions and of parts of them. -/
def Grammar.Nonterminal.IsExpr : Nonterminal → Prop
  | .level _ | .operations _ | .unary | .primary => True
  | _ => False

/-- The tokens of operators make expressions. -/
theorem TokenKind.makesExpression_of_isOperator {kind : TokenKind} (h : kind.isOperator = true) :
    kind.makesExpression = true := by
  cases kind <;> simp [isOperator] at h <;> rfl

/-- The kinds of the tokens of expressions. -/
def TokenKind.inExpression (kind : TokenKind) : Prop :=
  kind.makesExpression = true ∨ kind = .identifier ∨ kind = .openParen ∨ kind = .closeParen

/-- An expression has operators, literals, names and parentheses. -/
theorem Grammar.Derives.inExpression {symbol : Nonterminal} {tokens : List Token}
    {tree : symbol.Tree} (h : Derives symbol tokens tree) (hsymbol : symbol.IsExpr) :
    ∀ token ∈ tokens, token.kind.inExpression := by
  induction h with
  | level _ _ _ ihleft ihoperations =>
    exact List.forall_mem_append.mpr ⟨ihleft trivial, ihoperations trivial⟩
  | tightest _ ih => exact ih trivial
  | noOperation => exact List.forall_mem_nil _
  | operations hsign _ _ _ ihoperand ihrest =>
    have hkind := TokenKind.makesExpression_of_isOperator (BinaryOp.isOperator_of_is hsign)
    exact List.forall_mem_cons.mpr
      ⟨.inl hkind, List.forall_mem_append.mpr ⟨ihoperand trivial, ihrest trivial⟩⟩
  | unary hsign _ ih =>
    have hkind := TokenKind.makesExpression_of_isOperator (UnaryOp.isOperator_of_is hsign)
    exact List.forall_mem_cons.mpr ⟨.inl hkind, ih trivial⟩
  | primary _ ih => exact ih trivial
  | integer hkind | float hkind | string hkind =>
    exact List.forall_mem_singleton.mpr (.inl (by rw [hkind]; rfl))
  | name hkind => exact List.forall_mem_singleton.mpr (.inr (.inl hkind))
  | parentheses hopening _ hclosing ih =>
    simp only [List.forall_mem_cons, List.forall_mem_append]
    exact ⟨.inr (.inr (.inl hopening)), ih trivial, .inr (.inr (.inr hclosing)),
      List.forall_mem_nil _⟩
  | _ => exact hsymbol.elim

/-- An expression has a token. -/
theorem Grammar.Derives.ne_nil {symbol : Nonterminal} {tokens : List Token}
    {tree : symbol.Tree} (h : Derives symbol tokens tree) (hsymbol : symbol.IsExpr)
    (hoperations : ∀ n, symbol ≠ .operations n) : tokens ≠ [] := by
  induction h with
  | level _ _ _ ihleft _ => exact List.append_ne_nil_of_left_ne_nil (ihleft trivial nofun) _
  | tightest _ ih => exact ih trivial nofun
  | noOperation => exact absurd rfl (hoperations _)
  | primary _ ih => exact ih trivial nofun
  | operations | unary | integer | float | string | name | parentheses =>
    exact List.cons_ne_nil _ _
  | _ => exact hsymbol.elim

theorem TokenKind.inExpression.ne_assignmentOperator {kind : TokenKind} (h : kind.inExpression) :
    kind ≠ .assignmentOperator := by
  rintro rfl
  simp [inExpression, makesExpression] at h

/-- No token of an expression is a type name. -/
theorem Token.isTypeName_of_inExpression {token : Token} (h : token.kind.inExpression) :
    token.isTypeName = false := by
  have hkind : token.kind ≠ .keyword := fun hkind => by
    simp [hkind, TokenKind.inExpression, TokenKind.makesExpression] at h
  simp [Token.isTypeName, hkind]

section Neighbours

variable {before after tokens : List Token}

theorem opens_cons {token : Token} (hname : token.kind ≠ .identifier)
    (htype : token.isTypeName = false) : Opens (token :: before) :=
  fun _ htoken => Option.some.inj htoken ▸ ⟨hname, htype⟩

/-- A reserved word that is no type name. -/
theorem opens_word {token : Token} {word : String} (h : token.isKeyword word = true)
    (hword : word ∉ typeNames) : Opens (token :: before) := by
  have hlexeme : token.lexeme = word := by
    simp only [Token.isKeyword, Token.is, Bool.and_eq_true, beq_iff_eq] at h
    exact h.2
  refine opens_cons (by simp [kind_of_isKeyword h]) ?_
  simp [Token.isTypeName, hlexeme, hword]

/-- A token whose kind is neither that of names nor that of reserved words. -/
theorem opens_kind {token : Token} (hname : token.kind ≠ .identifier)
    (hword : token.kind ≠ .keyword) : Opens (token :: before) :=
  opens_cons hname (by simp [Token.isTypeName, hword])

theorem opens_operator {token : Token} (h : token.kind.makesExpression = true) :
    Opens (token :: before) := by
  refine opens_kind (fun hkind => ?_) fun hkind => ?_ <;>
    simp [hkind, TokenKind.makesExpression] at h

theorem opens_sign {token : Token} (h : token.kind = .assignmentOperator) :
    Opens (token :: before) :=
  opens_kind (by simp [h]) (by simp [h])

theorem closes_cons {token : Token} (h : token.kind ≠ .assignmentOperator) :
    Closes (token :: after) :=
  fun _ htoken => Option.some.inj htoken ▸ h

/-- Behind an expression there is more of an expression, or what follows it. -/
theorem Closes.append (h : Closes after) (htokens : ∀ token ∈ tokens, token.kind.inExpression) :
    Closes (tokens ++ after) := by
  cases tokens with
  | nil => exact h
  | cons first rest =>
    intro token htoken
    obtain rfl := Option.some.inj htoken
    exact (htokens first List.mem_cons_self).ne_assignmentOperator

/-- A semicolon behind an expression ends no declaration without an initializer. -/
theorem Place.endsDeclaration_expr {semicolon : Token}
    (htokens : ∀ token ∈ tokens, token.kind.inExpression) (hne : tokens ≠ [])
    (hbefore : Opens before) :
    endsDeclaration { before := tokens.reverse ++ before, token := semicolon, after } = false := by
  obtain ⟨others, last, rfl⟩ := (List.eq_nil_or_concat tokens).resolve_left hne
  -- the next but one token in front of the semicolon is of the expression or right before it
  have hsecond : ∀ token ∈ (others.reverse ++ before).head?, token.isTypeName = false := by
    intro token htoken
    rw [List.head?_append, List.head?_reverse] at htoken
    cases hothers : others.getLast? with
    | none =>
      rw [hothers] at htoken
      exact (hbefore token htoken).2
    | some found =>
      rw [hothers] at htoken
      obtain rfl := Option.some.inj htoken
      have hmem : found ∈ others := List.mem_of_getLast? hothers
      exact Token.isTypeName_of_inExpression (htokens found (by simp [hmem]))
  rw [List.concat_eq_append, List.reverse_append, List.reverse_singleton, List.singleton_append,
    List.cons_append]
  cases hbehind : others.reverse ++ before with
  | nil => simp [endsDeclaration]
  | cons second more =>
    rw [hbehind] at hsecond
    simp [endsDeclaration, hsecond second rfl]

end Neighbours

/-! ### Phrases -/

/-- What a tree of the nonterminal counts for. -/
def Grammar.Nonterminal.census : (symbol : Nonterminal) → symbol.Tree → Census
  | program => fun tree => .of tree.preorder
  | functions => fun trees => .of (trees.flatMap FunctionDef.preorder)
  | function => fun tree => .of tree.preorder
  | arguments => fun _ => 0
  | block | stmts => fun trees => .of (Stmt.preorderAll trees)
  | stmt | conditional => fun tree => .of tree.preorder
  | operations _ => fun operations =>
    (operations.map fun operation => .expr + .of operation.2.preorder).sum
  | level _ | unary | primary => fun tree => .of tree.preorder

/-- The neighbours do not change what a phrase of the nonterminal counts for. Only those of an
expression could. -/
def Grammar.Nonterminal.Fits (before after : List Token) : Nonterminal → Prop
  | .level _ | .unary | .primary => Opens before ∧ Closes after
  | .operations _ => Closes after
  | _ => True

/-- The nodes of a chain are those of its operands, and its operators. -/
theorem Grammar.census_chain (left : Expr) (operations : List (BinaryOp × Expr)) :
    Census.of (chain left operations).preorder =
      Census.of left.preorder +
        (operations.map fun operation => Census.expr + .of operation.2.preorder).sum := by
  induction operations generalizing left with
  | nil => simp [chain]
  | cons operation operations ih =>
    have hfirst : Census.of (Expr.binary operation.1 left operation.2).preorder =
        Census.of left.preorder + (Census.expr + .of operation.2.preorder) := by
      rw [Expr.preorder, Census.of_cons, Census.of_append, Node.own, ← add_assoc, Census.expr_add,
        add_assoc]
      simp
    rw [chain, List.foldl_cons, ← chain, ih, hfirst, List.map_cons, List.sum_cons, add_assoc]

section Parts

variable {before after inner : List Token} {value : Expr}
  (htally : ∀ before after, Nonterminal.Fits before after .expr →
    tally before inner after = .of value.preorder)

include htally

/-- An expression and a semicolon count for the expression. -/
theorem tally_semicolon {semicolon : Token} (hvalue : Derives .expr inner value)
    (hbefore : Opens before) (hsemicolon : semicolon.kind = .semicolon) :
    tally before (inner ++ [semicolon]) after = .of value.preorder := by
  have hcloses : Closes ([semicolon] ++ after) := closes_cons (by simp [hsemicolon])
  have hends : Place.endsDeclaration
      { before := inner.reverse ++ before, token := semicolon, after := [] ++ after } = false :=
    Place.endsDeclaration_expr (hvalue.inExpression trivial) (hvalue.ne_nil trivial nofun) hbefore
  rw [tally_append, htally _ _ ⟨hbefore, hcloses⟩, tally_cons,
    Place.census_semicolon hsemicolon hends]
  simp

/-- An expression in parentheses counts for the expression, unless the first parenthesis stands
behind a name. -/
theorem tally_enclosed {opening closing : Token} (hopening : opening.kind = .openParen)
    (hclosing : closing.kind = .closeParen) (hbefore : Opens before) (rest : List Token) :
    tally before (opening :: (inner ++ closing :: rest)) after =
      .of value.preorder + tally (closing :: (inner.reverse ++ opening :: before)) rest after := by
  have hopens : Opens (opening :: before) :=
    opens_kind (by simp [hopening]) (by simp [hopening])
  have hcloses : Closes (closing :: rest ++ after) := closes_cons (by simp [hclosing])
  rw [tally_cons, Place.census_openParen hopening hbefore, zero_add, tally_append,
    htally _ _ ⟨hopens, hcloses⟩, tally_cons, Place.census_closing (.inr (.inr hclosing)),
    zero_add]

/-- An `if` and its condition count for a statement and the condition. -/
theorem tally_condition {word opening closing : Token} (hword : word.isKeyword "if" = true)
    (hopening : opening.kind = .openParen) (hclosing : closing.kind = .closeParen)
    (rest : List Token) :
    tally before (word :: opening :: (inner ++ closing :: rest)) after =
      .stmt + (.of value.preorder +
        tally (closing :: (inner.reverse ++ opening :: word :: before)) rest after) := by
  rw [tally_cons, Place.census_word (.inr hword),
    tally_enclosed htally hopening hclosing (opens_word hword (by decide))]

end Parts

/-- The tokens of a phrase count for the nodes of its tree, whatever its neighbours are. -/
theorem tally_of_derives {symbol : Nonterminal} {tokens : List Token} {tree : symbol.Tree}
    (h : Derives symbol tokens tree) (before after : List Token)
    (hfits : symbol.Fits before after) : tally before tokens after = symbol.census tree := by
  -- along the phrase; the parts of a phrase are neighbours, so the claim is for all neighbours
  induction h generalizing before after with
  | program _ ih =>
    rw [ih before after trivial]
    simp [Nonterminal.census, Program.preorder, Node.own]
  | noFunction | noArgument | noStmt | noOperation => rfl
  | functions _ _ ihfirst ihrest =>
    rw [tally_append, ihfirst _ _ trivial, ihrest _ _ trivial]
    simp [Nonterminal.census]
  | function htype hname hopening _ hclosing _ ihparameters ihbody =>
    simp only [tally_cons, tally_append, Place.census_typeName htype,
      Place.census_declared hname htype, Place.census_parameters hopening hname,
      Place.census_closing (.inr (.inr hclosing)), ihparameters _ _ trivial, ihbody _ _ trivial]
    simp [Nonterminal.census, FunctionDef.preorder, Node.own]
  | arguments htype hname _ ih =>
    simp only [tally_cons, Place.census_typeName htype, Place.census_declared hname htype,
      ih _ _ trivial]
    rfl
  | block hopening _ hclosing ih =>
    simp only [tally_cons, tally_append, tally_nil, Place.census_closing (.inl hopening),
      Place.census_closing (.inr (.inl hclosing)), ih _ _ trivial]
    simp [Nonterminal.census]
  | stmts _ _ ihfirst ihrest =>
    rw [tally_append, ihfirst _ _ trivial, ihrest _ _ trivial]
    simp [Nonterminal.census, Stmt.preorderAll]
  | ret hword hvalue hsemicolon ih =>
    rw [tally_cons, Place.census_word (.inl hword),
      tally_semicolon ih hvalue (opens_word hword (by decide)) hsemicolon]
    simp [Nonterminal.census, Stmt.preorder, Node.own]
  | assignment hname hsign hvalue hsemicolon ih =>
    have hkind := Token.kind_of_is hsign
    -- the operator behind the name is what counts, and what keeps the name from counting
    rw [tally_cons, tally_cons, List.cons_append, Place.census_target hname hkind,
      Place.census_assignmentOperator hkind,
      tally_semicolon ih hvalue (opens_sign hkind) hsemicolon]
    simp [Nonterminal.census, Stmt.preorder, Node.own]
  | declaration htype hname hsemicolon =>
    simp only [tally_cons, tally_nil, Place.census_typeName htype,
      Place.census_declared hname htype, Place.census_declaration hsemicolon hname htype]
    simp [Nonterminal.census, Stmt.preorder, Node.own]
  | initialized htype hname hsign hvalue hsemicolon ih =>
    have hkind := Token.kind_of_is hsign
    rw [tally_cons, tally_cons, tally_cons, Place.census_typeName htype,
      Place.census_declared hname htype, Place.census_assignmentOperator hkind,
      tally_semicolon ih hvalue (opens_sign hkind) hsemicolon]
    simp [Nonterminal.census, Stmt.preorder, Node.own]
  | conditional _ ih => exact ih before after trivial
  | ifThen hword hopening _ hclosing _ ih ihbody =>
    rw [tally_condition ih hword hopening hclosing, ihbody _ _ trivial]
    simp [Nonterminal.census, Stmt.preorder, Node.own]
  | ifElse hword hopening _ hclosing _ helse _ ih ihbody ihelse =>
    rw [tally_condition ih hword hopening hclosing, tally_append, ihbody _ _ trivial, tally_cons,
      Place.census_else helse, ihelse _ _ trivial]
    simp [Nonterminal.census, Stmt.preorder, Node.own]
  | elseIf hword hopening _ hclosing _ helse _ ih ihbody ihelse =>
    rw [tally_condition ih hword hopening hclosing, tally_append, ihbody _ _ trivial, tally_cons,
      Place.census_else helse, ihelse _ _ trivial]
    simp [Nonterminal.census, Stmt.preorder, Stmt.preorderAll, Node.own]
  | level _ _ hoperations ihleft ihoperations =>
    -- the operators stand behind the first operand, but their nodes come in front of it
    have hcloses := hfits.2.append (hoperations.inExpression trivial)
    rw [tally_append, ihleft _ _ ⟨hfits.1, hcloses⟩, ihoperations _ _ hfits.2]
    exact (census_chain ..).symm
  | tightest _ ih => exact ih before after hfits
  | operations hsign _ _ hrest ihoperand ihrest =>
    have hkind := TokenKind.makesExpression_of_isOperator (BinaryOp.isOperator_of_is hsign)
    have hafter : Closes after := hfits
    have hcloses := hafter.append (hrest.inExpression trivial)
    rw [tally_cons, Place.census_expr hkind, tally_append,
      ihoperand _ _ ⟨opens_operator hkind, hcloses⟩, ihrest _ _ hafter]
    simp [Nonterminal.census, add_assoc]
  | unary hsign _ ih =>
    have hkind := TokenKind.makesExpression_of_isOperator (UnaryOp.isOperator_of_is hsign)
    rw [tally_cons, Place.census_expr hkind, ih _ _ ⟨opens_operator hkind, hfits.2⟩]
    simp [Nonterminal.census, Expr.preorder, Node.own]
  | primary _ ih => exact ih before after hfits
  | integer hkind | float hkind | string hkind =>
    rw [tally_cons, Place.census_expr (by rw [hkind]; rfl)]
    simp [Nonterminal.census, Expr.preorder, Node.own]
  | name hkind =>
    rw [tally_cons, List.nil_append, Place.census_variable hkind hfits.1 hfits.2]
    simp [Nonterminal.census, Expr.preorder, Node.own]
  | parentheses hopening _ hclosing ih =>
    rw [tally_enclosed ih hopening hclosing hfits.1]
    simp [Nonterminal.census]

/-! ### Whole programs -/

theorem countP_cons_toNat {α : Type} (test : α → Bool) (first : α) (rest : List α) :
    (first :: rest).countP test = (test first).toNat + rest.countP test := by
  rw [List.countP_cons, Nat.add_comm]
  cases test first <;> rfl

/-- What all tokens of a list count for, kind by kind. -/
theorem tally_eq_countP (before tokens : List Token) :
    tally before tokens [] =
      { functions := (places before tokens).countP Place.opensParameters
        statements := tokens.countP (·.isKeyword "return") + tokens.countP (·.isKeyword "if") +
          tokens.countP (·.kind = .assignmentOperator) +
          (places before tokens).countP Place.endsDeclaration
        expressions := tokens.countP (·.kind.makesExpression) +
          (places before tokens).countP Place.isVariable
        names := ((places before tokens).filter Place.isVariable).map (·.token.lexeme) } := by
  induction tokens generalizing before with
  | nil => rfl
  | cons token rest ih =>
    rw [tally_cons, ih, List.append_nil, places]
    simp only [countP_cons_toNat]
    ext1
    case functions => rfl
    case statements =>
      simp only [Census.statements_add, Place.census]
      omega
    case expressions =>
      simp only [Census.expressions_add, Place.census]
      omega
    case names =>
      simp only [Census.names_add, Place.census, List.filter_cons]
      split <;> simp

/-- The nodes of a program are counted, and the names of the variables in its expressions are
listed, by a look at each token and its neighbours. -/
theorem census_of_parse (tokens : List Token) (program : Program)
    (h : parse tokens = .ok program) :
    Node.counts (.program program) =
        { functions := (places [] tokens).countP Place.opensParameters
          statements := tokens.countP (·.isKeyword "return") + tokens.countP (·.isKeyword "if") +
            tokens.countP (·.kind = .assignmentOperator) +
            (places [] tokens).countP Place.endsDeclaration
          expressions := tokens.countP (·.kind.makesExpression) +
            (places [] tokens).countP Place.isVariable } ∧
      Node.variables (.program program) =
        ((places [] tokens).filter Place.isVariable).map (·.token.lexeme) := by
  have hderives : Derives .program tokens program := EntryPoint.program.derives_of_parse h
  have hcensus : tally [] tokens [] = Census.of program.preorder :=
    tally_of_derives hderives [] [] trivial
  rw [Node.counts_eq_census, Node.variables_eq_census, Node.preorder, ← hcensus, tally_eq_countP]
  exact ⟨rfl, rfl⟩

/-- A declaration and an assignment: the minus and its operand are the expressions. -/
theorem census_of_parse_negated :
    let token (kind : TokenKind) (lexeme : String) : Token := ⟨kind, lexeme, ⟨0, 1⟩⟩
    let tokens := [token .keyword "int", token .identifier "f", token .openParen "(",
      token .closeParen ")", token .openBrace "\x7b", token .keyword "int", token .identifier "a",
      token .semicolon ";", token .identifier "a", token .assignmentOperator "=",
      token .arithmeticOperator "-", token .identifier "b", token .semicolon ";",
      token .closeBrace "\x7d"]
    let program : Program :=
      { functions :=
          [{ returnType := "int"
             name := "f"
             arguments := []
             body := [.declaration "int" "a" none,
               .assignment .assign "a" (.unary .minus (.variable "b"))] }] }
    parse tokens = .ok program ∧
      Node.counts (.program program) = { functions := 1, statements := 2, expressions := 2 } ∧
      Node.variables (.program program) = ["b"] := by
  intro token tokens program
  have hparse : parse tokens = .ok program := by cbv
  obtain ⟨hcounts, hnames⟩ := census_of_parse tokens program hparse
  refine ⟨hparse, hcounts.trans ?_, hnames.trans ?_⟩
  · decide
  · decide

end CFrontEnd
