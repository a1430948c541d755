import CFrontEnd.Proofs.Parser.Requests
import CFrontEnd.Proofs.Parser.Rounds
import CFrontEnd.Proofs.Parser.Viability

/-!
# The Cursor of a Session

Whatever is asked of a parser, and in whatever order, its cursor moves forward only, behind tokens
that were taken, and stays within the tokens. A request that fails leaves it at the token that the
failure is about, so a session can go on from there.

## Main definitions

* `Halt.Located`: the failure is about the first token that is left.
* `Orderly`: what a request may do to a cursor in some tokens, given its reply.
* `Cursor.Keeps`: all answers of a session meet a condition.

## Main results

* `Pending.located_of_verdict`: a stack stops at the token that it refuses.
* `answer_orderly`: one answer is orderly.
* `session_orderly`: all answers of a session are, and all loops of the parser end.
-/

namespace CFrontEnd

open CFrontEnd.Parser

/-! ### The place of a failure -/

/-- The failure is about the first token that is left, or about the end if there is none. -/
def Halt.Located (halt : Halt) : Prop :=
  match halt.rest with
  | [] => ∃ expected, halt.failure = .error (.unexpectedEnd expected)
  | token :: _ => Pending.AtFault token halt.failure

theorem Halt.located_unexpected (expected : Expected) (tokens : List Token) :
    (Halt.unexpected expected tokens).Located := by
  cases tokens with
  | nil => exact ⟨expected, rfl⟩
  | cons token rest => exact .inl ⟨expected, rfl⟩

/-- A stack stops at the token that it refuses, or at the end. -/
theorem Pending.located_of_verdict {program : Bool} {stack : List Pending} {tokens : List Token}
    {halt : Halt} (h : verdict program stack tokens = .error halt) : halt.Located := by
  induction tokens generalizing stack with
  | nil =>
    rw [verdict] at h
    split at h
    · simp at h
    · obtain rfl := Except.error.inj h
      exact Halt.located_unexpected _ []
  | cons token rest ih =>
    cases hadvance : advance program stack token with
    | ok next =>
      rw [verdict_cons_of_ok hadvance] at h
      exact ih h
    | error failure =>
      rw [verdict_cons_of_error hadvance] at h
      obtain rfl := Except.error.inj h
      exact atFault_of_advance hadvance

/-- A rule that finds its parts one after the other stops where they do. -/
theorem Parser.Follows.located {α : Type} {parts : List Pending} {tokens : List Token}
    {outcome : Outcome α} {halt : Halt} (h : Follows parts outcome tokens)
    (herror : outcome = .error halt) : halt.Located := by
  subst herror
  exact Pending.located_of_verdict (h false [])

theorem Parser.program_located {tokens : List Token} {halt : Halt}
    (h : program tokens = .error halt) : halt.Located := by
  have hverdict := program_verdict tokens
  rw [program_eq] at h
  split at h
  · simp at h
  · next found hhalt =>
    obtain rfl := Except.error.inj h
    rw [hhalt] at hverdict
    exact Pending.located_of_verdict hverdict

/-! ### Replies -/

/-- There is no token to give, or the request failed. -/
def Reply.Fails (reply : Reply) : Prop :=
  reply = .token none ∨ ∃ failure, reply = .failed failure

namespace Request

/-- The request takes one token, or fails. -/
def TakesOne (request : Request) : Prop :=
  request = .advance ∨ ∃ kind, request = .eat kind ∨ request = .expect kind

variable {request : Request} (tokens : List Token)

/-- Looking at the next token, or for the end, takes no token. -/
theorem respond_looking (h : request = .peek ∨ request = .atEnd ∨ request = .finish) :
    (request.respond tokens).2 = tokens := by
  rcases h with rfl | rfl | rfl
  · rfl
  · rfl
  · rw [respond]
    split <;> rfl

/-- One token is taken, or the request fails and takes none. -/
theorem respond_takesOne (h : request.TakesOne) :
    (∃ token rest, tokens = token :: rest ∧
        request.respond tokens = (.token (some token), rest)) ∨
      (request.respond tokens).1.Fails ∧ (request.respond tokens).2 = tokens := by
  cases tokens with
  | nil =>
    refine .inr ?_
    rcases h with rfl | ⟨kind, rfl | rfl⟩
    · exact ⟨.inl rfl, rfl⟩
    · exact ⟨.inl rfl, rfl⟩
    · exact ⟨.inr ⟨_, rfl⟩, rfl⟩
  | cons token rest =>
    rcases h with rfl | ⟨kind, hrequest⟩
    · exact .inl ⟨token, rest, rfl, rfl⟩
    by_cases hkind : token.kind = kind
    · refine .inl ⟨token, rest, rfl, ?_⟩
      rcases hrequest with rfl | rfl <;> rw [respond, mark_cons hkind]
      rfl
    · refine .inr ?_
      rcases hrequest with rfl | rfl <;> rw [respond, mark_cons_of_ne hkind]
      · exact ⟨.inl rfl, rfl⟩
      · exact ⟨.inr ⟨_, rfl⟩, rfl⟩

/-- A rule that fails does so at the first token that it leaves. -/
theorem located_of_rule {α : Type} {outcome : Outcome α} {reply : α → Reply}
    {failure : Failure ParseError} (hreply : ∀ value, reply value ≠ .failed failure)
    (hlocated : ∀ halt, outcome = .error halt → halt.Located)
    (h : (outcome.respond reply).1 = .failed failure) :
    Halt.Located { failure, rest := (outcome.respond reply).2 } := by
  cases outcome with
  | ok taken => exact absurd h (hreply taken.1)
  | error halt =>
    obtain rfl : halt.failure = failure := Reply.failed.inj h
    exact hlocated halt rfl

/-- A request that fails does so at the first token that is left. -/
theorem respond_located (request : Request) {failure : Failure ParseError}
    (h : (request.respond tokens).1 = .failed failure) :
    Halt.Located { failure, rest := (request.respond tokens).2 } := by
  cases request with
  | peek => simp [respond] at h
  | advance => simp [respond] at h
  | atEnd => simp [respond] at h
  | eat kind =>
    rw [respond] at h
    split at h <;> simp at h
  | expect kind =>
    refine located_of_rule (by simp) (fun halt herror => ?_) h
    rw [mark, demand.eq_def] at herror
    split at herror
    · obtain rfl := Except.error.inj herror
      exact Halt.located_unexpected _ []
    · split at herror
      · simp at herror
      · obtain rfl := Except.error.inj herror
        exact Halt.located_unexpected _ _
  | finish =>
    cases tokens with
    | nil => simp [respond, Parser.finish] at h
    | cons token rest =>
      obtain rfl := Reply.failed.inj h
      exact Halt.located_unexpected .endOfInput (token :: rest)
  | program => exact located_of_rule (by simp) (fun _ => program_located) h
  | function => exact located_of_rule (by simp) (fun _ => (function_follows tokens).located) h
  | stmt => exact located_of_rule (by simp) (fun _ => (stmt_follows tokens).located) h
  | block => exact located_of_rule (by simp) (fun _ => (block_follows tokens).located) h
  | expr => exact located_of_rule (by simp) (fun _ => (expr_follows tokens).located) h

/-- The request takes a function, a statement, a block or an expression, or fails. -/
def TakesPhrase (request : Request) : Prop :=
  request = .function ∨ request = .stmt ∨ request = .block ∨ request = .expr

theorem length_lt_of_rule {α : Type} {bound : Nat} {result : TakeResult tokens bound α}
    {reply : α → Reply} (h : ¬((Outcome.ofTaken result).respond reply).1.Fails) :
    ((Outcome.ofTaken result).respond reply).2.length < bound := by
  cases result with
  | ok taken => exact taken.shorter
  | error stopped => exact absurd (.inr ⟨stopped.failure, rfl⟩) h

/-- A phrase has at least one token. -/
theorem respond_takesPhrase (hrequest : request.TakesPhrase)
    (h : ¬(request.respond tokens).1.Fails) :
    (request.respond tokens).2.length < tokens.length := by
  rcases hrequest with rfl | rfl | rfl | rfl <;> exact length_lt_of_rule tokens h

/-- A program has all the tokens. -/
theorem respond_program (h : ¬(Request.program.respond tokens).1.Fails) :
    (Request.program.respond tokens).2 = [] := by
  rw [respond, Parser.program_eq] at h ⊢
  split at h
  · rfl
  · exact absurd (.inr ⟨_, rfl⟩) h

end Request

/-! ### Cursors -/

/-- What a request may do to a cursor in some tokens, given its reply. -/
structure Orderly (tokens : List Token) (request : Request) (before : Cursor) (reply : Reply)
    (after : Cursor) : Prop where
  /-- The tokens stay. -/
  tokens_eq : after.tokens = tokens
  /-- The cursor does not move back, and stays within the tokens. -/
  forward : before.position ≤ after.position ∧ after.position ≤ tokens.length
  /-- Looking at the next token or for the end moves nothing. -/
  looking : request = .peek ∨ request = .atEnd ∨ request = .finish → after = before
  /-- A token that is given is the next one and is behind the cursor then; without one, nothing
  moves. -/
  taking : request.TakesOne →
    (∃ token, reply = .token (some token) ∧ before.peek? = some token ∧
        after.position = before.position + 1) ∨
      reply.Fails ∧ after = before
  /-- A phrase moves the cursor. -/
  phrase : request.TakesPhrase → ¬reply.Fails → before.position < after.position
  /-- A program ends at the end. -/
  whole : request = .program → ¬reply.Fails → after.position = tokens.length
  /-- An error is about the token at the cursor, or about the end if that is where it stands. -/
  fault : ∀ failure, reply = .failed failure → ∃ error, failure = .error error ∧
    ((∃ expected, error = .unexpectedEnd expected) ↔ after.position = tokens.length) ∧
    ∀ token, after.peek? = some token → error.Reports token

/-- A failure at the first token that is left is an error about the token at that index, or about
the end. -/
theorem error_of_located {tokens left : List Token} {failure : Failure ParseError} {stop : Nat}
    (hslice : Sliceable tokens) (hlocated : Halt.Located { failure, rest := left })
    (hleft : tokens.drop stop = left) (hstop : stop ≤ tokens.length) :
    ∃ error, failure = .error error ∧
      ((∃ expected, error = .unexpectedEnd expected) ↔ stop = tokens.length) ∧
      ∀ token, tokens[stop]? = some token → error.Reports token := by
  have hhead : tokens[stop]? = left.head? := by rw [← hleft, List.head?_drop]
  have hlength : tokens.length = stop + left.length := by
    rw [← hleft, List.length_drop]
    omega
  cases left with
  | nil =>
    obtain ⟨expected, rfl⟩ := hlocated
    exact ⟨_, rfl, iff_of_true ⟨expected, rfl⟩ hlength.symm, fun token htoken => by
      simp [hhead] at htoken⟩
  | cons token rest =>
    have hmem : token ∈ tokens := List.mem_of_mem_drop (i := stop) (by simp [hleft])
    obtain ⟨error, rfl, hreports⟩ := reports_of_atFault hlocated (hslice token hmem)
    refine ⟨error, rfl, iff_of_false ?_ (by rw [hlength]; simp), fun found hfound => ?_⟩
    · rintro ⟨expected, rfl⟩
      simp [ParseError.Reports] at hreports
    · obtain rfl := Option.some.inj (hhead.symm.trans hfound)
      exact hreports

/-- One answer is orderly, if all string tokens can be cut. -/
theorem answer_orderly {before : Cursor} (hslice : Sliceable before.tokens)
    (hbefore : before.position ≤ before.tokens.length) (request : Request) :
    Orderly before.tokens request before (before.answer request).1
      (before.answer request).2 := by
  obtain ⟨tokens, position⟩ := before
  change position ≤ tokens.length at hbefore
  -- the request takes some of the tokens from the cursor on, and its reply is about the others
  obtain ⟨used, left, reply, hrest, hleft⟩ := request.foresees (tokens.drop position)
  have hreply : request.respond (used ++ left) = (reply, left) := hleft left rfl
  have hlength : tokens.length = position + used.length + left.length := by
    have hdrop := congrArg List.length hrest
    rw [List.length_drop, List.length_append] at hdrop
    omega
  have hstop : position + used.length ≤ tokens.length := by omega
  rw [answer_of_respond hrest hreply]
  exact
    { tokens_eq := rfl
      forward := ⟨Nat.le_add_right .., hstop⟩
      looking := fun hrequest => by
        have hsame := Request.respond_looking (used ++ left) hrequest
        rw [hreply] at hsame
        obtain rfl := List.self_eq_append_left.mp hsame
        rfl
      taking := fun hrequest => by
        rcases Request.respond_takesOne (used ++ left) hrequest with
          ⟨token, rest, htokens, htaken⟩ | ⟨hfails, hsame⟩
        · obtain ⟨rfl, rfl⟩ := Prod.mk.inj (hreply.symm.trans htaken)
          have hone : used ++ left = [token] ++ left := htokens
          obtain rfl := List.append_cancel_right hone
          have hpeek : tokens[position]? = some token := by
            rw [← List.head?_drop, hrest]
            rfl
          exact .inl ⟨token, rfl, hpeek, rfl⟩
        · rw [hreply] at hfails hsame
          obtain rfl := List.self_eq_append_left.mp hsame
          exact .inr ⟨hfails, rfl⟩
      phrase := fun hrequest hfails => by
        have hshorter := Request.respond_takesPhrase (used ++ left) hrequest
        rw [hreply, List.length_append] at hshorter
        exact Nat.lt_add_of_pos_right (Nat.pos_of_lt_add_left (hshorter hfails))
      whole := fun hrequest hfails => by
        have hall := Request.respond_program (used ++ left)
        rw [← hrequest, hreply] at hall
        obtain rfl : left = [] := hall hfails
        exact hlength.symm
      fault := fun failure hfailure => by
        have hlocated : Halt.Located { failure, rest := (request.respond (used ++ left)).2 } :=
          Request.respond_located _ request (by rw [hreply]; exact hfailure)
        rw [hreply] at hlocated
        refine error_of_located hslice hlocated ?_ hstop
        rw [← List.drop_drop, hrest, List.drop_left] }

/-! ### Sessions -/

/-- Every request of a session is answered, and every answer meets the condition. -/
inductive Cursor.Keeps (condition : Request → Cursor → Reply → Cursor → Prop) :
    Cursor → List Request → List (Reply × Cursor) → Prop
  | done {cursor : Cursor} : Keeps condition cursor [] []
  | answered {before after : Cursor} {request : Request} {requests : List Request} {reply : Reply}
      {answers : List (Reply × Cursor)} (first : condition request before reply after)
      (others : Keeps condition after requests answers) :
      Keeps condition before (request :: requests) ((reply, after) :: answers)

/-- A session goes on after every answer, unless it stops without a report. -/
theorem Cursor.run_cons {cursor after : Cursor} {request : Request} {reply : Reply}
    (h : cursor.answer request = (reply, after)) (hreply : reply ≠ .failed .abort)
    (requests : List Request) :
    cursor.run (request :: requests) = (reply, after) :: after.run requests := by
  simp only [answer] at h
  simp only [run, runLogged, Logged.value_bind, h]
  rfl

/-- All answers of a session are orderly. -/
theorem keeps_run (cursor : Cursor) (hslice : Sliceable cursor.tokens)
    (hcursor : cursor.position ≤ cursor.tokens.length) (requests : List Request) :
    cursor.Keeps (Orderly cursor.tokens) requests (cursor.run requests) := by
  induction requests generalizing cursor with
  | nil => exact .done
  | cons request requests ih =>
    have hfirst := answer_orderly hslice hcursor request
    obtain ⟨⟨reply, after⟩, hanswer⟩ : ∃ answered, cursor.answer request = answered := ⟨_, rfl⟩
    rw [hanswer] at hfirst
    -- a failure has a report, so the session goes on behind it
    have hreply : reply ≠ .failed .abort := fun habort => by
      obtain ⟨error, herror, -⟩ := hfirst.fault _ habort
      simp at herror
    have hothers : after.Keeps (Orderly after.tokens) requests (after.run requests) := by
      refine ih after ?_ ?_
      · rw [hfirst.tokens_eq]
        exact hslice
      · rw [hfirst.tokens_eq]
        exact hfirst.forward.2
    rw [hfirst.tokens_eq] at hothers
    rw [Cursor.run_cons hanswer hreply]
    exact .answered hfirst hothers

/-- However a parser is used, failures included, all its answers are orderly: the cursor moves
forward only, by one token for each token that is given and by some for each phrase, stays within
the tokens, and is at the fault after a failure. And all loops of the parser end. -/
theorem session_orderly (tokens : List Token) (hslice : Sliceable tokens)
    (requests : List Request) :
    (Cursor.start tokens).Keeps (Orderly tokens) requests ((Cursor.start tokens).run requests) ∧
      ∀ rest, LoopsEnd rest :=
  ⟨keeps_run (.start tokens) hslice (Nat.zero_le _) requests, loopsEnd⟩

/-- A session that goes on behind two failures. -/
theorem session_orderly_goesOn :
    let tokens := [Pending.sample .keyword "return", Pending.sample .string "\"a\"",
      Pending.sample .semicolon ";", Pending.sample .identifier "b"]
    let requests := [.expect .identifier, .stmt, .function, .advance, .expr, .finish]
    let first := Pending.sample .keyword "return"
    let last := Pending.sample .identifier "b"
    Sliceable tokens ∧
      (Cursor.start tokens).run requests =
        [(.failed (.error (.unexpected (.kind .identifier) [first])), ⟨tokens, 0⟩),
          (.stmt (.ret (.constant (.string "a"))), ⟨tokens, 3⟩),
          (.failed (.error (.unexpected .typeName [last])), ⟨tokens, 3⟩),
          (.token (some last), ⟨tokens, 4⟩),
          (.failed (.error (.unexpectedEnd .expression)), ⟨tokens, 4⟩), (.finished, ⟨tokens, 4⟩)] ∧
      (Cursor.start tokens).Keeps (Orderly tokens) requests
        ((Cursor.start tokens).run requests) := by
  intro tokens requests first last
  have hslice : Sliceable tokens := by
    intro token hmem hstring
    simp only [tokens, List.mem_cons, List.not_mem_nil, or_false] at hmem
    rcases hmem with rfl | rfl | rfl | rfl
    · simp [Pending.sample] at hstring
    · decide
    · simp [Pending.sample] at hstring
    · simp [Pending.sample] at hstring
  refine ⟨hslice, ?_, (session_orderly tokens hslice requests).1⟩
  have hexpect : Cursor.answer ⟨tokens, 0⟩ (.expect .identifier) =
      (.failed (.error (.unexpected (.kind .identifier) [first])), ⟨tokens, 0⟩) := by cbv
  -- the statement is a phrase, so its rule takes it in front of what is no `else`
  let used := [first, Pending.sample .string "\"a\"", Pending.sample .semicolon ";"]
  have hderives : Grammar.Derives .stmt used (.ret (.constant (.string "a"))) :=
    .ret (by decide) (.of_primary (by decide) (.string rfl (by decide))) rfl
  have hnoElse : NoElse [last] := by
    rintro token ⟨⟩
    decide
  have hreply : Request.respond .stmt (used ++ [last]) =
      (.stmt (.ret (.constant (.string "a"))), [last]) := by
    rw [Request.respond, (complete_of_derives hderives).2 _ hnoElse]
    rfl
  have hrest : tokens.drop 0 = used ++ [last] := rfl
  have hstmt : Cursor.answer ⟨tokens, 0⟩ .stmt =
      (.stmt (.ret (.constant (.string "a"))), ⟨tokens, 3⟩) := answer_of_respond hrest hreply
  rw [Cursor.start, Cursor.run_cons hexpect (by simp), Cursor.run_cons hstmt (by simp)]
  cbv

end CFrontEnd
