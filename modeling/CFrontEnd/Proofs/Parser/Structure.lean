import Mathlib.Algebra.BigOperators.Group.List.Basic
import CFrontEnd.Proofs.Source.Aborts

/-!
# Structural Tokens

Semicolons, parentheses and braces hold a program together: with one of them taken out or put in,
tokens that were accepted no longer are. For brackets this is a matter of counting, since the
pending parts owe exactly the brackets that are still to be closed. For semicolons it is a matter
of what stands behind them. A semicolon ends a statement, so behind it stands another statement or
a closing brace, and none of these goes on with a statement that has not ended yet.

## Main definitions

* `Pending.Takes`: what a token can do to the pending parts.
* `Pending.owed`: the brackets that the pending parts owe.
* `Pending.Sequential`: what ends a statement is pending only in front of more statements.

## Main results

* `Pending.owed_of_takes`, `Pending.sequential_of_takes`: what one token does to brackets and order.
* `EntryPoint.Accepts.sum_eq_zero`: accepted tokens open as many brackets as they close.
* `EntryPoint.not_accepts_eraseIdx`: not both are accepted, tokens with a structural token and the
  same tokens without it.
* `structure_guarded`: no structural token is dropped or added without a report.
-/

namespace CFrontEnd

/-- The kinds of the tokens that end statements and enclose blocks, parameters and expressions. -/
def TokenKind.structural : List TokenKind :=
  [.semicolon, .openParen, .closeParen, .openBrace, .closeBrace]

namespace Pending

/-! ### What a token can do -/

/-- What the first token of a statement can make of the parts behind the statement. -/
inductive Starts (token : Token) (stack : List Pending) : List Pending → Prop where
  | ret (h : token.isKeyword "return" = true) :
    Starts token stack (level 1 ++ .mark .semicolon :: stack)
  | branches (h : token.isKeyword "if" = true) : Starts token stack (branches ++ stack)
  | declaration (h : token.isTypeName = true) :
    Starts token stack (.mark .name :: .initializer :: stack)
  | assignment (h : token.kind = .identifier) :
    Starts token stack (.assignOp :: (level 1 ++ .mark .semicolon :: stack))

/-- What a token can make of the pending parts, by the part that takes it. -/
inductive Takes (token : Token) : List Pending → List Pending → Prop where
  | function (h : token.isTypeName = true) : Takes token [] signature
  | mark {m : Mark} {stack : List Pending} (h : token.kind = m.kind) :
    Takes token (.mark m :: stack) stack
  | typeName {stack : List Pending} (h : token.isTypeName = true) :
    Takes token (.typeName :: stack) stack
  | assignOp {stack : List Pending} (h : token.kind = .assignmentOperator) :
    Takes token (.assignOp :: stack) stack
  | sign {stack : List Pending} (h : token.kind.isOperator = true) :
    Takes token (.operand :: stack) (.operand :: stack)
  | literal {stack : List Pending} (h : token.IsLiteral) : Takes token (.operand :: stack) stack
  | name {stack : List Pending} (h : token.kind = .identifier) :
    Takes token (.operand :: stack) stack
  | enclosed {stack : List Pending} (h : token.kind = .openParen) :
    Takes token (.operand :: stack) (level 1 ++ .mark .closeParen :: stack)
  | operation {n : Nat} {stack : List Pending} (h : token.kind.isOperator = true) :
    Takes token (.operations n :: stack) (level (n + 1) ++ .operations n :: stack)
  /-- The token starts no further operation. -/
  | noOperation {n : Nat} {stack next : List Pending} (h : Takes token stack next) :
    Takes token (.operations n :: stack) next
  | stmt {stack next : List Pending} (h : Starts token stack next) :
    Takes token (.stmt :: stack) next
  | stmts {stack next : List Pending} (h : Starts token (.stmts :: stack) next) :
    Takes token (.stmts :: stack) next
  | noStmts {stack : List Pending} (h : token.kind = .closeBrace) :
    Takes token (.stmts :: stack) stack
  | initializer {stack : List Pending} (h : token.kind = .assignmentOperator) :
    Takes token (.initializer :: stack) (level 1 ++ .mark .semicolon :: stack)
  | noInitializer {stack : List Pending} (h : token.kind = .semicolon) :
    Takes token (.initializer :: stack) stack
  | alternative {stack : List Pending} (h : token.isKeyword "else" = true) :
    Takes token (.alternative :: stack) (.elseBody :: stack)
  /-- The token starts no `else`. -/
  | noAlternative {stack next : List Pending} (h : Takes token stack next) :
    Takes token (.alternative :: stack) next
  | elseBranches {stack : List Pending} (h : token.isKeyword "if" = true) :
    Takes token (.elseBody :: stack) (Pending.branches ++ stack)
  | elseBlock {stack : List Pending} (h : token.kind = .openBrace) :
    Takes token (.elseBody :: stack) (.stmts :: stack)
  | argument {stack : List Pending} (h : token.isTypeName = true) :
    Takes token (.arguments :: stack) (.mark .name :: .arguments :: stack)
  | noArgument {stack : List Pending} (h : token.kind = .closeParen) :
    Takes token (.arguments :: stack) stack

section Takes

variable {program : Bool} {stack next : List Pending} {token : Token}

theorem eq_of_mem_level {n : Nat} {part : Pending} (h : part ∈ level n) :
    part = .operand ∨ ∃ k, part = .operations k := by
  refine (List.mem_cons.mp h).imp_right fun hpart => ?_
  obtain ⟨k, -, rfl⟩ := List.mem_map.mp hpart
  exact ⟨k, rfl⟩

theorem starts_of_afterStmt (h : afterStmt stack token = .ok next) : Starts token stack next := by
  unfold afterStmt at h
  split at h
  · next hreturn => exact Except.ok.inj h ▸ .ret hreturn
  split at h
  · next hif => exact Except.ok.inj h ▸ .branches hif
  split at h
  · next htype => exact Except.ok.inj h ▸ .declaration htype
  split at h
  · next hname => exact Except.ok.inj h ▸ .assignment hname
  · simp [refuse] at h

theorem takes_of_afterOperand (h : afterOperand stack token = .ok next) :
    Takes token (.operand :: stack) next := by
  unfold afterOperand at h
  split at h
  · next hsign =>
    obtain ⟨operator, hoperator⟩ := Option.isSome_iff_exists.mp hsign
    have hkind := UnaryOp.isOperator_of_is (UnaryOp.ofToken?_eq_some_iff.mp hoperator)
    exact Except.ok.inj h ▸ .sign hkind
  split at h
  case h_4 hkind => exact Except.ok.inj h ▸ .name hkind
  case h_5 hkind => exact Except.ok.inj h ▸ .enclosed hkind
  case h_6 => simp [refuse] at h
  -- a literal is taken only with its value
  all_goals
    next hkind =>
    cases hliteral : token.literal with
    | error failure => simp [hliteral, Except.map] at h
    | ok literal =>
      obtain rfl : stack = next := by simpa [hliteral, Except.map] using h
      exact .literal (by simp [Token.IsLiteral, Token.IsNumber, hkind])

/-- Whatever the stack does with a token is one of the things that a token can do. -/
theorem takes_of_advance (h : advance program stack token = .ok next) :
    Takes token stack next := by
  induction stack with
  | nil =>
    rw [advance] at h
    split at h
    · split at h
      · next htype => exact Except.ok.inj h ▸ .function htype
      · simp [refuse] at h
    · simp [refuse] at h
  | cons part stack ih =>
    cases part with
    | operand => exact takes_of_afterOperand h
    | stmt => exact .stmt (starts_of_afterStmt h)
    | stmts =>
      rw [advance] at h
      split at h
      · next hbrace => exact Except.ok.inj h ▸ .noStmts hbrace
      · exact .stmts (starts_of_afterStmt h)
    | operations n =>
      rw [advance] at h
      split at h
      · next hsign =>
        obtain ⟨operator, hoperator⟩ := Option.isSome_iff_exists.mp hsign
        have hspells := (BinaryOp.among?_ofLevel_eq_some_iff.mp hoperator).1
        exact Except.ok.inj h ▸ .operation (BinaryOp.isOperator_of_is hspells)
      · exact .noOperation (ih h)
    | alternative =>
      rw [advance] at h
      split at h
      · next helse => exact Except.ok.inj h ▸ .alternative helse
      · exact .noAlternative (ih h)
    | mark m =>
      rw [advance] at h
      split at h
      · next hkind => exact Except.ok.inj h ▸ .mark hkind
      · simp [refuse] at h
    | typeName =>
      rw [advance] at h
      split at h
      · next htype => exact Except.ok.inj h ▸ .typeName htype
      · simp [refuse] at h
    | assignOp =>
      rw [advance] at h
      split at h
      · next hsign =>
        obtain ⟨operator, hoperator⟩ := Option.isSome_iff_exists.mp hsign
        have hspells := AssignOp.ofToken?_eq_some_iff.mp hoperator
        exact Except.ok.inj h ▸ .assignOp (Token.kind_of_is hspells)
      · simp [refuse] at h
    | initializer =>
      rw [advance] at h
      split at h
      · next hsemicolon => exact Except.ok.inj h ▸ .noInitializer hsemicolon
      split at h
      · next hequals => exact Except.ok.inj h ▸ .initializer (Token.kind_of_is hequals)
      · simp [refuse] at h
    | elseBody =>
      rw [advance] at h
      split at h
      · next hif => exact Except.ok.inj h ▸ .elseBranches hif
      split at h
      · next hbrace => exact Except.ok.inj h ▸ .elseBlock hbrace
      · simp [refuse] at h
    | arguments =>
      rw [advance] at h
      split at h
      · next hparen => exact Except.ok.inj h ▸ .noArgument hparen
      split at h
      · next htype => exact Except.ok.inj h ▸ .argument htype
      · simp [refuse] at h

theorem run_cons_eq_ok_iff {last : List Pending} {rest : List Token} :
    run program stack (token :: rest) = .ok last ↔
      ∃ next, advance program stack token = .ok next ∧ run program next rest = .ok last := by
  rw [run]
  cases advance program stack token <;> simp

/-- A string is taken only if it can be cut. -/
theorem stringBody?_isSome_of_advance (h : advance program stack token = .ok next)
    (hstring : token.kind = .string) : token.stringBody?.isSome = true := by
  have hadvance := advance_literal program (.inr hstring) stack
  rw [h] at hadvance
  cases hoperand : operand? stack with
  | none =>
    rw [hoperand] at hadvance
    obtain ⟨expected, hrefuse⟩ := hadvance
    simp [refuse] at hrefuse
  | some after =>
    rw [hoperand] at hadvance
    by_contra hbody
    rw [Token.literal_eq_abort_iff.mpr ⟨hstring, by simpa using hbody⟩] at hadvance
    simp [Except.map] at hadvance

end Takes

end Pending

/-! ### Brackets -/

/-- The two kinds of brackets. -/
inductive BracketKind where
  | paren
  | brace

namespace BracketKind

/-- What a token of a kind adds to the number of open brackets. -/
def net : BracketKind → TokenKind → Int
  | paren, .openParen | brace, .openBrace => 1
  | paren, .closeParen | brace, .closeBrace => -1
  | _, _ => 0

/-- The number of brackets that tokens open, less the number of those that they close. -/
def sum (bracket : BracketKind) (tokens : List Token) : Int :=
  (tokens.map fun token => bracket.net token.kind).sum

@[simp]
theorem sum_nil (bracket : BracketKind) : bracket.sum [] = 0 := rfl

@[simp]
theorem sum_cons (bracket : BracketKind) (token : Token) (tokens : List Token) :
    bracket.sum (token :: tokens) = bracket.net token.kind + bracket.sum tokens := by
  simp [sum]

@[simp]
theorem sum_append (bracket : BracketKind) (first second : List Token) :
    bracket.sum (first ++ second) = bracket.sum first + bracket.sum second := by
  simp [sum]

theorem net_of_isOperator (bracket : BracketKind) {kind : TokenKind}
    (h : kind.isOperator = true) : bracket.net kind = 0 := by
  cases kind <;> cases bracket <;> first | rfl | simp [TokenKind.isOperator] at h

theorem net_of_isLiteral (bracket : BracketKind) {token : Token} (h : token.IsLiteral) :
    bracket.net token.kind = 0 := by
  rcases h with (h | h) | h <;> rw [h] <;> cases bracket <;> rfl

/-- A structural token that is no semicolon opens or closes a bracket. -/
theorem exists_net_ne_zero {kind : TokenKind} (h : kind ∈ TokenKind.structural)
    (hsemicolon : kind ≠ .semicolon) : ∃ bracket : BracketKind, bracket.net kind ≠ 0 := by
  simp only [TokenKind.structural, List.mem_cons, List.not_mem_nil, or_false] at h
  rcases h with rfl | rfl | rfl | rfl | rfl
  · exact absurd rfl hsemicolon
  · exact ⟨paren, by decide⟩
  · exact ⟨paren, by decide⟩
  · exact ⟨brace, by decide⟩
  · exact ⟨brace, by decide⟩

end BracketKind

namespace Pending

section Brackets

variable {program : Bool} {stack next : List Pending} {token : Token}

/-- The brackets that a part opens, less those that it closes. -/
def net (bracket : BracketKind) : Pending → Int
  | .mark m => bracket.net m.kind
  | .stmts => bracket.net .closeBrace
  | .arguments => bracket.net .closeParen
  | _ => 0

/-- The brackets that the parts open, less those that they close. -/
def owed (bracket : BracketKind) (stack : List Pending) : Int :=
  (stack.map (net bracket)).sum

@[simp]
theorem owed_nil (bracket : BracketKind) : owed bracket [] = 0 := rfl

@[simp]
theorem owed_cons (bracket : BracketKind) (part : Pending) (stack : List Pending) :
    owed bracket (part :: stack) = part.net bracket + owed bracket stack := by
  simp [owed]

@[simp]
theorem owed_append (bracket : BracketKind) (parts stack : List Pending) :
    owed bracket (parts ++ stack) = owed bracket parts + owed bracket stack := by
  simp [owed]

/-- An expression closes what it opens. -/
@[simp]
theorem owed_level (bracket : BracketKind) (n : Nat) : owed bracket (level n) = 0 := by
  refine List.sum_eq_zero fun value hvalue => ?_
  obtain ⟨part, hpart, rfl⟩ := List.mem_map.mp hvalue
  rcases eq_of_mem_level hpart with rfl | ⟨k, rfl⟩ <;> rfl

@[simp]
theorem owed_branches (bracket : BracketKind) : owed bracket branches = 0 := by
  cases bracket <;> decide

@[simp]
theorem owed_signature (bracket : BracketKind) : owed bracket signature = 0 := by
  cases bracket <;> decide

theorem owed_of_starts (bracket : BracketKind) (h : Starts token stack next) :
    owed bracket stack = bracket.net token.kind + owed bracket next := by
  cases h with
  | ret h | branches h =>
    cases bracket <;> simp [net, BracketKind.net, Parser.kind_of_isKeyword h, Mark.kind]
  | declaration h =>
    cases bracket <;> simp [net, BracketKind.net, Parser.kind_of_isTypeName h, Mark.kind]
  | assignment h =>
    cases bracket <;> simp [net, BracketKind.net, h, Mark.kind]

/-- A token pays for the brackets that the parts owe less than before. -/
theorem owed_of_takes (bracket : BracketKind) (h : Takes token stack next) :
    owed bracket stack = bracket.net token.kind + owed bracket next := by
  induction h with
  | function h | typeName h | argument h =>
    cases bracket <;> simp [net, BracketKind.net, Parser.kind_of_isTypeName h, Mark.kind]
  | alternative h | elseBranches h =>
    cases bracket <;> simp [net, BracketKind.net, Parser.kind_of_isKeyword h]
  | sign h | operation h => simp [net, bracket.net_of_isOperator h]
  | literal h => simp [net, bracket.net_of_isLiteral h]
  | noOperation _ ih | noAlternative _ ih => simpa [net] using ih
  | stmt h => simpa [net] using owed_of_starts bracket h
  | stmts h => exact owed_of_starts bracket h
  | mark h => simp [net, h]
  | assignOp h | name h | enclosed h | noStmts h | initializer h | noInitializer h | elseBlock h
  | noArgument h => cases bracket <;> simp [net, BracketKind.net, h, Mark.kind]

theorem owed_of_run (bracket : BracketKind) {used : List Token}
    (h : run program stack used = .ok next) :
    owed bracket stack = bracket.sum used + owed bracket next := by
  rw [← List.append_nil used]
  refine run_induct (motive := fun stack tokens =>
    owed bracket stack = bracket.sum tokens + owed bracket next) h (by simp) ?_
  intro stack token after tokens hadvance htail
  rw [owed_of_takes bracket (takes_of_advance hadvance), htail, BracketKind.sum_cons, add_assoc]

/-- Where nothing is missing, no bracket is. -/
theorem owed_of_missing? (bracket : BracketKind) (h : missing? stack = none) :
    owed bracket stack = 0 := by
  fun_induction missing? stack with
  | case1 => rfl
  -- the parts that may be left out
  | case11 _ stack ih | case12 stack ih => simpa [net] using ih h
  | _ => simp at h

end Brackets

/-! ### Semicolons -/

/-- Statements end with the part: it is a semicolon, or what ends with one. -/
def endsStmt : Pending → Bool
  | .mark .semicolon | .initializer | .stmt => true
  | _ => false

/-- More statements are to come, or nothing. -/
def AtStmts (stack : List Pending) : Prop :=
  ∀ part ∈ stack.head?, part = .stmts

/-- Where a statement ends, more statements are to come, or nothing. -/
def Sequential : List Pending → Prop
  | [] => True
  | part :: stack => (part.endsStmt = true → AtStmts stack) ∧ Sequential stack

/-- A semicolon is taken: it ends the statement at hand, and parts that may be left out are left
out. -/
inductive SemicolonEnds : List Pending → List Pending → Prop where
  | mark {stack : List Pending} : SemicolonEnds (.mark .semicolon :: stack) stack
  | initializer {stack : List Pending} : SemicolonEnds (.initializer :: stack) stack
  | operations {n : Nat} {stack next : List Pending} (h : SemicolonEnds stack next) :
    SemicolonEnds (.operations n :: stack) next
  | alternative {stack next : List Pending} (h : SemicolonEnds stack next) :
    SemicolonEnds (.alternative :: stack) next

/-- The token goes on with a statement that has not ended yet. -/
def Continues (token : Token) : Prop :=
  token.kind = .semicolon ∨ token.kind.isOperator = true ∨ token.kind = .assignmentOperator ∨
    token.isKeyword "else" = true

section Semicolons

variable {program : Bool} {stack next other : List Pending} {token : Token}

@[simp]
theorem atStmts_nil : AtStmts [] := by
  simp [AtStmts]

@[simp]
theorem atStmts_cons {part : Pending} : AtStmts (part :: stack) ↔ part = .stmts := by
  simp [AtStmts]

@[simp]
theorem sequential_nil : Sequential [] := trivial

@[simp]
theorem sequential_cons {part : Pending} :
    Sequential (part :: stack) ↔ (part.endsStmt = true → AtStmts stack) ∧ Sequential stack :=
  Iff.rfl

/-- Parts that end no statement do not matter. -/
theorem sequential_append {parts : List Pending} (h : ∀ part ∈ parts, part.endsStmt = false) :
    Sequential (parts ++ stack) ↔ Sequential stack := by
  induction parts with
  | nil => rfl
  | cons part parts ih =>
    rw [List.forall_mem_cons] at h
    simp [h.1, ih h.2]

@[simp]
theorem sequential_level_append (n : Nat) : Sequential (level n ++ stack) ↔ Sequential stack := by
  refine sequential_append fun part hpart => ?_
  rcases eq_of_mem_level hpart with rfl | ⟨k, rfl⟩ <;> rfl

@[simp]
theorem sequential_branches_append : Sequential (branches ++ stack) ↔ Sequential stack :=
  sequential_append (by decide)

theorem sequential_of_starts (h : Starts token stack next) (hstmts : AtStmts stack)
    (hsequential : Sequential stack) : Sequential next := by
  cases h <;> simp [endsStmt, hstmts, hsequential]

/-- A token keeps the order of the parts. -/
theorem sequential_of_takes (h : Takes token stack next) (hsequential : Sequential stack) :
    Sequential next := by
  induction h with
  | function => simp [signature, block, endsStmt]
  | noOperation _ ih | noAlternative _ ih => exact ih hsequential.2
  | stmt h => exact sequential_of_starts h (hsequential.1 rfl) hsequential.2
  | stmts h => exact sequential_of_starts h (atStmts_cons.mpr rfl) hsequential
  | operation | initializer => simpa [endsStmt] using hsequential
  | enclosed | elseBlock | argument | elseBranches | alternative => simp [endsStmt, hsequential.2]
  | sign => exact hsequential
  -- the other parts only go away
  | _ => exact hsequential.2

theorem sequential_of_run {used : List Token} (h : run program stack used = .ok next)
    (hsequential : Sequential stack) : Sequential next := by
  induction used generalizing stack with
  | nil => exact Except.ok.inj h ▸ hsequential
  | cons token used ih =>
    obtain ⟨after, hadvance, hrun⟩ := run_cons_eq_ok_iff.mp h
    exact ih hrun (sequential_of_takes (takes_of_advance hadvance) hsequential)

theorem semicolonEnds_of_takes (hkind : token.kind = .semicolon) (h : Takes token stack next) :
    SemicolonEnds stack next := by
  induction h with
  | @mark m _ h =>
    cases m with
    | semicolon => exact .mark
    | _ => simp [h, Mark.kind] at hkind
  | noInitializer => exact .initializer
  | noOperation _ ih => exact .operations ih
  | noAlternative _ ih => exact .alternative ih
  | sign h | operation h => simp [hkind, TokenKind.isOperator] at h
  | literal h => simp [hkind, Token.IsLiteral, Token.IsNumber] at h
  | function h | typeName h | argument h => simp [Parser.kind_of_isTypeName h] at hkind
  | alternative h | elseBranches h => simp [Parser.kind_of_isKeyword h] at hkind
  | stmt h | stmts h =>
    cases h with
    | ret h | branches h => simp [Parser.kind_of_isKeyword h] at hkind
    | declaration h => simp [Parser.kind_of_isTypeName h] at hkind
    | assignment h => simp [h] at hkind
  | assignOp h | name h | enclosed h | noStmts h | initializer h | elseBlock h | noArgument h =>
    simp [h] at hkind

/-- What could have been taken in place of a semicolon goes on with the statement. -/
theorem continues_of_semicolonEnds (h : SemicolonEnds stack next)
    (htakes : Takes token stack other) : Continues token := by
  induction h with
  | mark =>
    cases htakes with
    | mark h => exact .inl h
  | initializer =>
    cases htakes with
    | initializer h => exact .inr (.inr (.inl h))
    | noInitializer h => exact .inl h
  | operations _ ih =>
    cases htakes with
    | operation h => exact .inr (.inl h)
    | noOperation h => exact ih h
  | alternative _ ih =>
    cases htakes with
    | alternative h => exact .inr (.inr (.inr h))
    | noAlternative h => exact ih h

/-- Behind a semicolon stand more statements, or nothing. -/
theorem atStmts_of_semicolonEnds (h : SemicolonEnds stack next) (hsequential : Sequential stack) :
    AtStmts next := by
  induction h with
  | mark | initializer => exact hsequential.1 rfl
  | operations _ ih | alternative _ ih => exact ih hsequential.2

/-- Where a semicolon ends a statement, something is missing. -/
theorem missing?_of_semicolonEnds (h : SemicolonEnds stack next) : missing? stack ≠ none := by
  induction h with
  | mark | initializer => simp [missing?]
  | operations _ ih | alternative _ ih => exact ih

theorem not_continues_of_isTypeName (h : token.isTypeName = true) : ¬Continues token := by
  simp [Continues, Parser.kind_of_isTypeName h, TokenKind.isOperator,
    Parser.isKeyword_eq_false_of_isTypeName h "else" (by decide)]

theorem not_continues_of_isKeyword {word : String} (h : token.isKeyword word = true)
    (hword : word ≠ "else") : ¬Continues token := by
  simp [Continues, Parser.kind_of_isKeyword h, TokenKind.isOperator,
    Parser.isKeyword_eq_false_of_ne h hword]

/-- No statement starts with a token that goes on with another one. -/
theorem not_continues_of_takes (h : Takes token stack next) (hstmts : AtStmts stack) :
    ¬Continues token := by
  cases stack with
  | nil =>
    cases h with
    | function htype => exact not_continues_of_isTypeName htype
  | cons part stack =>
    obtain rfl := atStmts_cons.mp hstmts
    cases h with
    | noStmts hkind => simp [Continues, hkind, TokenKind.isOperator, Token.isKeyword, Token.is]
    | stmts hstarts =>
      cases hstarts with
      | ret hword | branches hword => exact not_continues_of_isKeyword hword (by decide)
      | declaration htype => exact not_continues_of_isTypeName htype
      | assignment hkind =>
        simp [Continues, hkind, TokenKind.isOperator, Token.isKeyword, Token.is]

/-- Tokens that go on behind a semicolon do not go on without it to the end. -/
theorem missing?_of_run_without {last : List Pending} {rest : List Token}
    (hkind : token.kind = .semicolon) (hsequential : Sequential stack)
    (hsemicolon : advance program stack token = .ok next)
    (hwith : run program next rest = .ok other) (hwithout : run program stack rest = .ok last) :
    missing? last ≠ none := by
  have hends := semicolonEnds_of_takes hkind (takes_of_advance hsemicolon)
  cases rest with
  | nil =>
    obtain rfl := Except.ok.inj hwithout
    exact missing?_of_semicolonEnds hends
  | cons first rest =>
    obtain ⟨_, hbehind, -⟩ := run_cons_eq_ok_iff.mp hwith
    obtain ⟨_, hinstead, -⟩ := run_cons_eq_ok_iff.mp hwithout
    -- the same token starts a statement and goes on with the one before
    have hstmts := atStmts_of_semicolonEnds hends hsequential
    exact absurd (continues_of_semicolonEnds hends (takes_of_advance hinstead))
      (not_continues_of_takes (takes_of_advance hbehind) hstmts)

end Semicolons

end Pending

/-! ### Tokens with one more or one less -/

namespace EntryPoint

open Pending

variable {entry : EntryPoint} {tokens : List Token}

/-- The tokens are accepted exactly when the stack allows each of them and then misses none. -/
theorem accepts_iff_run :
    entry.Accepts tokens ↔
      ∃ last, run entry.repeats entry.parts tokens = .ok last ∧ missing? last = none := by
  have hverdict : ∀ {last}, run entry.repeats entry.parts tokens = .ok last →
      (entry.Accepts tokens ↔ missing? last = none) := by
    intro last hrun
    rw [accepts_iff_verdict, verdict, ← List.append_nil tokens, verdict_append_of_run hrun,
      Pending.verdict]
    cases missing? last <;> simp
  constructor
  · intro h
    obtain ⟨last, hrun⟩ := viable_iff_run.mp h.viable
    exact ⟨last, hrun, (hverdict hrun).mp h⟩
  · rintro ⟨last, hrun, hmissing⟩
    exact (hverdict hrun).mpr hmissing

@[simp]
theorem owed_parts (bracket : BracketKind) (entry : EntryPoint) :
    owed bracket entry.parts = 0 := by
  cases entry <;> simp [parts, net]

theorem sequential_parts (entry : EntryPoint) : Sequential entry.parts := by
  cases entry with
  | program => exact sequential_nil
  | function => simp [parts, signature, block, endsStmt]
  | stmt => simp [parts]
  | expr =>
    rw [parts, ← List.append_nil (level 1)]
    exact (sequential_level_append 1).mpr sequential_nil

/-- Accepted tokens close the brackets that they open. -/
theorem Accepts.sum_eq_zero (h : entry.Accepts tokens) (bracket : BracketKind) :
    bracket.sum tokens = 0 := by
  obtain ⟨last, hrun, hmissing⟩ := accepts_iff_run.mp h
  have howed := owed_of_run bracket hrun
  rw [owed_parts, owed_of_missing? bracket hmissing, add_zero] at howed
  exact howed.symm

/-- A semicolon is never optional. -/
theorem not_accepts_without_semicolon {before after : List Token} {token : Token}
    (hkind : token.kind = .semicolon) (hwith : entry.Accepts (before ++ token :: after)) :
    ¬entry.Accepts (before ++ after) := by
  intro hwithout
  obtain ⟨stack, hbefore⟩ := viable_iff_run.mp hwith.viable.of_append
  obtain ⟨other, hother, -⟩ := accepts_iff_run.mp hwith
  obtain ⟨last, hlast, hmissing⟩ := accepts_iff_run.mp hwithout
  rw [run_append_of_run hbefore] at hother hlast
  obtain ⟨next, hsemicolon, hafter⟩ := run_cons_eq_ok_iff.mp hother
  exact missing?_of_run_without hkind (sequential_of_run hbefore entry.sequential_parts) hsemicolon
    hafter hlast hmissing

/-- Tokens with a structural token and the same tokens without it are not both accepted. -/
theorem not_accepts_eraseIdx {i : Nat} (hi : i < tokens.length)
    (hkind : tokens[i].kind ∈ TokenKind.structural) (h : entry.Accepts tokens) :
    ¬entry.Accepts (tokens.eraseIdx i) := by
  have hsplit : tokens.take i ++ tokens[i] :: tokens.drop (i + 1) = tokens := by
    rw [← List.drop_eq_getElem_cons hi, List.take_append_drop]
  rw [List.eraseIdx_eq_take_drop_succ]
  rw [← hsplit] at h
  by_cases hsemicolon : tokens[i].kind = .semicolon
  · exact not_accepts_without_semicolon hsemicolon h
  · intro hwithout
    obtain ⟨bracket, hnet⟩ := BracketKind.exists_net_ne_zero hkind hsemicolon
    have hsum := h.sum_eq_zero bracket
    have herased := hwithout.sum_eq_zero bracket
    rw [BracketKind.sum_append, BracketKind.sum_cons] at hsum
    rw [BracketKind.sum_append] at herased
    omega

/-- Accepted strings can be cut, because their bodies are values in the tree. -/
theorem Accepts.sliceable (h : entry.Accepts tokens) : Sliceable tokens := by
  obtain ⟨last, hrun, -⟩ := accepts_iff_run.mp h
  rw [← List.append_nil tokens]
  refine run_induct (motive := fun _ tokens => Sliceable tokens) hrun (by simp [Sliceable]) ?_
  intro stack token after rest hadvance hrest
  rw [Sliceable, List.forall_mem_cons]
  exact ⟨stringBody?_isSome_of_advance hadvance, hrest⟩

/-- Where every string token can be cut, tokens are accepted or reported. -/
theorem exists_error_of_not_accepts (hslice : Sliceable tokens) (h : ¬entry.Accepts tokens) :
    ∃ error, entry.parse tokens = .error (.error error) := by
  cases hparse : entry.parse tokens with
  | ok tree => exact absurd ⟨tree, hparse⟩ h
  | error failure =>
    cases failure with
    | abort => exact absurd hparse (entry.parse_ne_abort hslice)
    | error error => exact ⟨error, rfl⟩

end EntryPoint

/-- No structural token is dropped or added without a report. Of tokens that an entry point accepts,
any one semicolon, parenthesis or brace may be taken out, or a further one put in at any place: the
parse of the other tokens ends with an error. -/
theorem structure_guarded (entry : EntryPoint) {tokens : List Token}
    (h : entry.Accepts tokens) :
    (∀ (i : Nat) (hi : i < tokens.length), tokens[i].kind ∈ TokenKind.structural →
        ∃ error, entry.parse (tokens.eraseIdx i) = .error (.error error)) ∧
      ∀ i ≤ tokens.length, ∀ token : Token, token.kind ∈ TokenKind.structural →
        ∃ error, entry.parse (tokens.insertIdx i token) = .error (.error error) := by
  constructor
  · intro i hi hkind
    refine EntryPoint.exists_error_of_not_accepts ?_ (EntryPoint.not_accepts_eraseIdx hi hkind h)
    exact fun token hmem => h.sliceable token (List.mem_of_mem_eraseIdx hmem)
  · intro i hi token hkind
    refine EntryPoint.exists_error_of_not_accepts ?_ fun hinserted => ?_
    · intro other hmem hstring
      rcases (List.mem_insertIdx hi).mp hmem with rfl | hmem
      · simp [hstring, TokenKind.structural] at hkind
      · exact h.sliceable other hmem hstring
    -- without the token that was put in, the tokens are as before
    · have hlength : i < (tokens.insertIdx i token).length := by
        rw [List.length_insertIdx_of_le_length hi]
        omega
      refine EntryPoint.not_accepts_eraseIdx hlength ?_ hinserted ?_
      · rwa [List.getElem_insertIdx_self]
      · rwa [List.eraseIdx_insertIdx_self]

/-- A function without its semicolon, and the same function with a second one. -/
theorem structure_guarded_return :
    let tokens := [Pending.sample .keyword "int", Pending.sample .identifier "f",
      Pending.sample .openParen "(", Pending.sample .closeParen ")",
      Pending.sample .openBrace "\x7b", Pending.sample .keyword "return",
      Pending.sample .identifier "x", Pending.sample .semicolon ";",
      Pending.sample .closeBrace "\x7d"]
    EntryPoint.program.Accepts tokens ∧
      (∃ error, parse (tokens.eraseIdx 7) = .error (.error error)) ∧
      ∃ error, parse (tokens.insertIdx 7 (Pending.sample .semicolon ";")) =
        .error (.error error) := by
  intro tokens
  have hrun : Pending.run EntryPoint.program.repeats EntryPoint.program.parts tokens = .ok [] := by
    rfl
  have haccepts : EntryPoint.program.Accepts tokens :=
    EntryPoint.accepts_iff_run.mpr ⟨[], hrun, rfl⟩
  obtain ⟨hdropped, hadded⟩ := structure_guarded .program haccepts
  exact ⟨haccepts, hdropped 7 (by decide) (by decide), hadded 7 (by decide) _ (by decide)⟩

end CFrontEnd
