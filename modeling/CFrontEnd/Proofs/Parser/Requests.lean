import CFrontEnd.Proofs.Parser.Lookahead

/-!
# Requests at a Cursor

A parser is asked at a cursor in its tokens, but what it answers has nothing to do with the tokens
in front of the cursor. A request is therefore a reply to the tokens behind the cursor, together
with the tokens that are left, and the cursor moves by as many tokens as were taken.

## Main definitions

* `Request.respond`: the reply to a request before some tokens, and the tokens that are left.

## Main results

* `Cursor.answer_eq_respond`: the answer at a cursor is the reply to the tokens behind it.
* `answer_lookahead`: an answer depends on the tokens from the cursor to where it stops, and on
  those only.
-/

namespace CFrontEnd

open Grammar CFrontEnd.Parser

/-- The reply to the outcome of a rule, and the tokens that it leaves. -/
def Outcome.respond {α : Type} (outcome : Outcome α) (reply : α → Reply) : Reply × List Token :=
  match outcome with
  | .ok (value, rest) => (reply value, rest)
  | .error halt => (.failed halt.failure, halt.rest)

/-- The reply to a request before some tokens, and the tokens that are left. -/
def Request.respond : Request → List Token → Reply × List Token
  | .peek, tokens => (.token tokens.head?, tokens)
  | .advance, tokens => (.token tokens.head?, tokens.tail)
  | .eat kind, tokens =>
    match mark kind tokens with
    | .ok (found, rest) => (.token (some found), rest)
    | .error _ => (.token none, tokens)
  | .expect kind, tokens => (mark kind tokens).respond fun found => .token (some found)
  | .atEnd, tokens => (.atEnd tokens.head?.isNone, tokens)
  | .finish, tokens =>
    match Parser.finish tokens with
    | .ok () => (.finished, tokens)
    | .error halt => (.failed halt.failure, tokens)
  | .program, tokens => (Parser.program tokens).respond .program
  | .function, tokens => (Parser.function tokens).respond .function
  | .stmt, tokens => (Parser.stmt tokens).respond .stmt
  | .block, tokens => (Parser.block tokens).respond .block
  | .expr, tokens => (Parser.expr tokens).respond .expr

/-- A rule leaves a suffix of the tokens. -/
theorem Outcome.respond_suffix {α : Type} {tokens : List Token} {bound : Nat}
    (result : TakeResult tokens bound α) (reply : α → Reply) :
    ((ofTaken result).respond reply).2 <:+ tokens := by
  cases result with
  | ok taken => exact taken.suffix
  | error stopped => exact stopped.suffix

/-- A request leaves a suffix of the tokens. -/
theorem Request.respond_suffix (request : Request) (tokens : List Token) :
    (request.respond tokens).2 <:+ tokens := by
  cases request with
  | peek | atEnd => exact List.suffix_refl _
  | advance => exact List.tail_suffix _
  | eat kind =>
    rw [respond, ← ofTaken_takeKind]
    cases takeKind kind tokens with
    | ok taken => exact taken.suffix
    | error _ => exact List.suffix_refl _
  | expect kind =>
    rw [respond, ← ofTaken_takeKind]
    exact Outcome.respond_suffix ..
  | finish =>
    rw [respond]
    cases Parser.finish tokens <;> exact List.suffix_refl _
  | program | function | stmt | block | expr => exact Outcome.respond_suffix ..

namespace Cursor

/-- A cursor that takes no token stays where it is. -/
theorem leaving_rest (cursor : Cursor) :
    cursor.leaving cursor.rest (List.suffix_refl _) = cursor := by
  obtain ⟨tokens, position⟩ := cursor
  simp [leaving]

theorem settle_eq_respond {α : Type} {bound : Nat} (cursor : Cursor) (reply : α → Reply)
    (result : TakeResult cursor.rest bound α) :
    cursor.settle reply result =
      (((Outcome.ofTaken result).respond reply).1,
        cursor.leaving ((Outcome.ofTaken result).respond reply).2
          (Outcome.respond_suffix result reply)) := by
  cases result <;> rfl

/-- The answer at a cursor is the reply to the tokens behind it. -/
theorem answer_eq_respond (cursor : Cursor) (request : Request) :
    cursor.answer request =
      ((request.respond cursor.rest).1,
        cursor.leaving (request.respond cursor.rest).2 (request.respond_suffix _)) := by
  have hpeek : cursor.rest.head? = cursor.peek? := by
    rw [rest, peek?, List.head?_drop]
  cases request with
  | peek => simp [answer, answerLogged, Request.respond, hpeek, leaving_rest]
  | advance =>
    simp only [answer, answerLogged, Request.respond, hpeek, leaving, List.length_tail]
    cases hfound : cursor.peek? with
    | none =>
      rw [hfound, List.head?_eq_none_iff] at hpeek
      simp [hpeek]
    | some found =>
      rw [hfound] at hpeek
      have hpos : 0 < cursor.rest.length := List.length_pos_of_mem (List.mem_of_head? hpeek)
      have hone : cursor.rest.length - (cursor.rest.length - 1) = 1 := by omega
      simp [hone]
  | eat kind =>
    simp only [answer, answerLogged, Request.respond, ← ofTaken_takeKind, leaving]
    cases takeKind kind cursor.rest with
    | ok taken => rfl
    | error stopped => simp
  | expect kind =>
    simp only [answer, answerLogged, Logged.value_pure, settle_eq_respond, Request.respond,
      ofTaken_takeKind]
  | atEnd =>
    -- all tokens are consumed exactly when there is no next one
    have hend : decide (cursor.tokens.length ≤ cursor.position) = cursor.peek?.isNone := by
      rw [peek?, ← Bool.coe_iff_coe, decide_eq_true_eq, Option.isNone_iff_eq_none,
        List.getElem?_eq_none_iff]
    simp [answer, answerLogged, Request.respond, hpeek, leaving_rest, hend]
  | finish =>
    simp only [answer, answerLogged, Request.respond, leaving]
    cases Parser.finish cursor.rest <;> simp
  | function =>
    rw [answer, answerLogged, Logged.value_bind, value_takeFunctionLogged]
    exact settle_eq_respond ..
  | program | stmt | block | expr => exact settle_eq_respond ..

end Cursor

/-! ### What a reply depends on -/

/-- The reply is given with one token of lookahead: before any tokens that start as the ones that
are left, it is the same. -/
def Request.Foresees (request : Request) (tokens : List Token) : Prop :=
  ∃ used left reply, tokens = used ++ left ∧
    ∀ after, after.head? = left.head? → request.respond (used ++ after) = (reply, after)

theorem foresees_of_decides {α : Type} {rule : List Token → Outcome α} {request : Request}
    {reply : α → Reply} {tokens : List Token} (h : Decides rule tokens)
    (hrespond : ∀ tokens, request.respond tokens = (rule tokens).respond reply) :
    request.Foresees tokens := by
  obtain ⟨used, left, result, rfl, hleft⟩ := h
  cases result with
  | ok value =>
    refine ⟨used, left, reply value, rfl, fun after hafter => ?_⟩
    rw [hrespond, hleft after hafter]
    rfl
  | error failure =>
    refine ⟨used, left, .failed failure, rfl, fun after hafter => ?_⟩
    rw [hrespond, hleft after hafter]
    rfl

/-- A request that takes no token looks at the next one only. -/
theorem foresees_of_head? {request : Request} {tokens : List Token} (reply : Reply)
    (h : ∀ others, others.head? = tokens.head? → request.respond others = (reply, others)) :
    request.Foresees tokens :=
  ⟨[], tokens, reply, rfl, h⟩

/-- Every request is answered with one token of lookahead. -/
theorem Request.foresees (request : Request) (tokens : List Token) : request.Foresees tokens := by
  cases request with
  | peek => exact foresees_of_head? _ fun others hhead => by rw [respond, hhead]
  | advance =>
    cases tokens with
    | nil =>
      refine foresees_of_head? (.token none) fun others hhead => ?_
      obtain rfl := List.head?_eq_none_iff.mp hhead
      rfl
    | cons token rest => exact ⟨[token], rest, .token (some token), rfl, fun _ _ => rfl⟩
  | eat kind =>
    cases tokens with
    | nil =>
      refine foresees_of_head? (.token none) fun others hhead => ?_
      obtain rfl := List.head?_eq_none_iff.mp hhead
      rfl
    | cons token rest =>
      by_cases hkind : token.kind = kind
      · refine ⟨[token], rest, .token (some token), rfl, fun after _ => ?_⟩
        rw [respond, List.singleton_append, mark_cons hkind]
      · refine foresees_of_head? (.token none) fun others hhead => ?_
        obtain ⟨more, rfl⟩ := List.head?_eq_some_iff.mp hhead
        rw [respond, mark_cons_of_ne hkind]
  | expect kind => exact foresees_of_decides (mark_decides kind tokens) fun _ => rfl
  | atEnd => exact foresees_of_head? _ fun others hhead => by rw [respond, hhead]
  | finish =>
    cases tokens with
    | nil =>
      refine foresees_of_head? .finished fun others hhead => ?_
      obtain rfl := List.head?_eq_none_iff.mp hhead
      rfl
    | cons token rest =>
      refine foresees_of_head? (.failed (.error (.unexpected .endOfInput (token :: rest))))
        fun others hhead => ?_
      obtain ⟨more, rfl⟩ := List.head?_eq_some_iff.mp hhead
      rfl
  | program => exact foresees_of_decides (program_decides tokens) fun _ => rfl
  | function => exact foresees_of_decides (function_decides tokens) fun _ => rfl
  | stmt => exact foresees_of_decides (stmt_decides tokens) fun _ => rfl
  | block => exact foresees_of_decides (block_decides tokens) fun _ => rfl
  | expr => exact foresees_of_decides (expr_decides tokens) fun _ => rfl

/-- A function or a block ends on a token that is taken, so nothing behind it changes the reply. -/
theorem Request.respond_append {request : Request} {tokens rest : List Token} {reply : Reply}
    (hrequest : request = .function ∨ request = .block)
    (hreply : ∀ failure, reply ≠ .failed failure) (h : request.respond tokens = (reply, rest)) :
    ∃ used, tokens = used ++ rest ∧ ∀ after, request.respond (used ++ after) = (reply, after) := by
  rcases hrequest with rfl | rfl
  · rw [respond] at h
    cases houtcome : Parser.function tokens with
    | error halt => exact absurd (congrArg Prod.fst (houtcome ▸ h)).symm (hreply _)
    | ok taken =>
      rw [houtcome] at h
      obtain ⟨rfl, rfl⟩ := Prod.mk.inj h
      obtain ⟨used, hused, hafter⟩ := function_append houtcome
      exact ⟨used, hused, fun after => by rw [respond, hafter]; rfl⟩
  · rw [respond] at h
    cases houtcome : Parser.block tokens with
    | error halt => exact absurd (congrArg Prod.fst (houtcome ▸ h)).symm (hreply _)
    | ok taken =>
      rw [houtcome] at h
      obtain ⟨rfl, rfl⟩ := Prod.mk.inj h
      obtain ⟨used, hused, hafter⟩ := block_append houtcome
      exact ⟨used, hused, fun after => by rw [respond, hafter]; rfl⟩

/-! ### Back to cursors -/

section Cursor

variable {tokens other used left : List Token} {position : Nat}

/-- A reply at a cursor moves it behind the tokens that were taken. -/
theorem answer_of_respond {request : Request} {reply : Reply}
    (hrest : tokens.drop position = used ++ left)
    (hreply : request.respond (used ++ left) = (reply, left)) :
    Cursor.answer ⟨tokens, position⟩ request = (reply, ⟨tokens, position + used.length⟩) := by
  have hcursor : Cursor.rest ⟨tokens, position⟩ = used ++ left := hrest
  rw [Cursor.answer_eq_respond]
  simp only [Cursor.leaving, hcursor, hreply, List.length_append, Nat.add_sub_cancel]

/-- Tokens that agree with others from a cursor on start with the same ones there. -/
theorem drop_eq_append_of_agree (hrest : tokens.drop position = used ++ left)
    (hagree : ∀ i, position ≤ i → i < position + used.length → tokens[i]? = other[i]?) :
    other.drop position = used ++ other.drop (position + used.length) := by
  have htake : (other.drop position).take used.length = used := by
    refine List.ext_getElem? fun i => ?_
    by_cases hi : i < used.length
    · rw [List.getElem?_take_of_lt hi, List.getElem?_drop, ← hagree _ (by omega) (by omega),
        ← List.getElem?_drop, hrest, List.getElem?_append_left hi]
    · rw [List.getElem?_eq_none (by rw [List.length_take]; omega),
        List.getElem?_eq_none (by omega)]
  calc other.drop position
      = (other.drop position).take used.length ++ (other.drop position).drop used.length :=
        (List.take_append_drop ..).symm
    _ = used ++ other.drop (position + used.length) := by rw [htake, List.drop_drop]

theorem head?_eq_getElem? (hrest : tokens.drop position = used ++ left) :
    left.head? = tokens[position + used.length]? := by
  rw [← List.getElem?_drop, hrest, List.getElem?_append_right (Nat.le_refl _), Nat.sub_self,
    List.head?_eq_getElem?]

end Cursor

/-- The answer to a request at a cursor depends on the tokens from the cursor to where it stops, the
next one included, and on no others; the answer that is a function or a block does not depend on
that next one either. The tokens in front of the cursor only shift it. -/
theorem answer_lookahead (request : Request) (tokens : List Token) (position : Nat) :
    ∃ reply stop, Cursor.answer ⟨tokens, position⟩ request = (reply, ⟨tokens, stop⟩) ∧
      (∀ other : List Token, (∀ i, position ≤ i → i ≤ stop → tokens[i]? = other[i]?) →
        Cursor.answer ⟨other, position⟩ request = (reply, ⟨other, stop⟩)) ∧
      (request = .function ∨ request = .block → (∀ failure, reply ≠ .failed failure) →
        ∀ other : List Token, (∀ i, position ≤ i → i < stop → tokens[i]? = other[i]?) →
          Cursor.answer ⟨other, position⟩ request = (reply, ⟨other, stop⟩)) ∧
      ∃ taken, stop = position + taken ∧
        Cursor.answer (.start (tokens.drop position)) request =
          (reply, ⟨tokens.drop position, taken⟩) := by
  obtain ⟨used, left, reply, hrest, hleft⟩ := request.foresees (tokens.drop position)
  refine ⟨reply, position + used.length, answer_of_respond hrest (hleft left rfl), ?_, ?_,
    used.length, rfl, ?_⟩
  · intro other hagree
    have hother := drop_eq_append_of_agree hrest fun i hi hlt => hagree i hi (Nat.le_of_lt hlt)
    refine answer_of_respond hother (hleft _ ?_)
    rw [List.head?_drop, head?_eq_getElem? hrest, hagree _ (Nat.le_add_right ..) (Nat.le_refl _)]
  · intro hrequest hreply other hagree
    obtain ⟨used', hused, hafter⟩ := Request.respond_append hrequest hreply (hleft left rfl)
    obtain rfl := List.append_cancel_right hused
    exact answer_of_respond (drop_eq_append_of_agree hrest hagree) (hafter _)
  · have hstart : Cursor.answer ⟨tokens.drop position, 0⟩ request =
        (reply, ⟨tokens.drop position, 0 + used.length⟩) :=
      answer_of_respond hrest (hleft left rfl)
    rwa [Nat.zero_add] at hstart

/-- A `return` statement behind a cursor, with other tokens in front of it and behind the closing
brace; and a function with other tokens right behind it. -/
theorem answer_lookahead_return :
    let token (kind : TokenKind) (lexeme : String) : Token := ⟨kind, lexeme, ⟨0, 1⟩⟩
    let body := [token .keyword "return", token .integer "1", token .semicolon ";",
      token .closeBrace "\x7d"]
    let definition := [token .keyword "int", token .identifier "f", token .openParen "(",
      token .closeParen ")", token .openBrace "\x7b"] ++ body
    let first := token .identifier "a" :: (body ++ [token .identifier "b"])
    let second := token .semicolon ";" :: body
    let tree : Stmt := .ret (.constant (.int 1))
    (∀ i, 1 ≤ i → i ≤ 4 → first[i]? = second[i]?) ∧
      Cursor.answer ⟨second, 1⟩ .stmt = (.stmt tree, ⟨second, 4⟩) ∧
      (∀ i, 0 ≤ i → i < 9 → (definition ++ first)[i]? = (definition ++ second)[i]?) ∧
      Cursor.answer ⟨definition ++ second, 0⟩ .function =
        (.function { returnType := "int", name := "f", arguments := [], body := [tree] },
          ⟨definition ++ second, 9⟩) := by
  intro token body definition first second tree
  -- the phrases of the grammar say what the parser takes
  have hvalue : Derives .expr [token .integer "1"] (.constant (.int 1)) :=
    .of_primary (by decide) (.integer rfl (by decide))
  let returned := [token .keyword "return", token .integer "1", token .semicolon ";"]
  let after := [token .closeBrace "\x7d", token .identifier "b"]
  have hret : Derives .stmt returned tree := .ret rfl hvalue rfl
  have hblock : Derives .block (token .openBrace "\x7b" :: body) [tree] :=
    .block rfl (.stmts hret .noStmt) rfl
  have hdefinition : Derives .function
      (token .keyword "int" :: token .identifier "f" :: token .openParen "(" ::
        ([] ++ token .closeParen ")" :: token .openBrace "\x7b" :: body))
      { returnType := "int", name := "f", arguments := [], body := [tree] } :=
    .function rfl rfl rfl .noArgument rfl hblock
  have hstmt : Cursor.answer ⟨first, 1⟩ .stmt = (.stmt tree, ⟨first, 4⟩) := by
    have hnoElse : NoElse after := by simp [after, NoElse, token, Token.isKeyword, Token.is]
    have hreply : Request.respond .stmt (returned ++ after) = (.stmt tree, after) := by
      rw [Request.respond, (complete_of_derives hret).2 after hnoElse]
      rfl
    exact answer_of_respond rfl hreply
  have hfunction : Cursor.answer ⟨definition ++ first, 0⟩ .function =
      (.function { returnType := "int", name := "f", arguments := [], body := [tree] },
        ⟨definition ++ first, 9⟩) := by
    have hreply : Request.respond .function (definition ++ first) =
        (.function { returnType := "int", name := "f", arguments := [], body := [tree] },
          first) := by
      have htaken : Parser.function (definition ++ first) = .ok (_, first) :=
        complete_of_derives hdefinition first
      rw [Request.respond, htaken]
      rfl
    exact answer_of_respond rfl hreply
  have hagree : ∀ i, 1 ≤ i → i ≤ 4 → first[i]? = second[i]? := fun i hlow hhigh => by
    interval_cases i <;> rfl
  have hshared : ∀ i, 0 ≤ i → i < 9 → (definition ++ first)[i]? = (definition ++ second)[i]? :=
    fun i _ hlt => by
      have hlength : i < definition.length := hlt
      rw [List.getElem?_append_left hlength, List.getElem?_append_left hlength]
  obtain ⟨reply, stop, hanswer, hsame, -⟩ := answer_lookahead .stmt first 1
  obtain ⟨rfl, hcursor⟩ := Prod.mk.inj (hanswer.symm.trans hstmt)
  obtain rfl : stop = 4 := congrArg Cursor.position hcursor
  obtain ⟨reply, stop, hanswer, -, hsameFunction, -⟩ :=
    answer_lookahead .function (definition ++ first) 0
  obtain ⟨rfl, hcursor⟩ := Prod.mk.inj (hanswer.symm.trans hfunction)
  obtain rfl : stop = 9 := congrArg Cursor.position hcursor
  exact ⟨hagree, hsame second hagree, hshared,
    hsameFunction (.inl rfl) (by simp) _ hshared⟩

end CFrontEnd
