import CFrontEnd.Proofs.Files.Effects
import CFrontEnd.Proofs.Parser.Requests
import CFrontEnd.Proofs.Source.Concatenation
import CFrontEnd.Proofs.Tree.Traversal

/-!
# Events and Results

What is reported while a program is parsed and compiled agrees with the result. Every function is
reported when it is complete, so a parse that fails has reported the functions of the longest part
of the tokens before the failure that is a program, and no others. The program itself is reported
only if all tokens are one, its nodes are counted only then, and an output is reported only if it
was written.

## Main definitions

* `Program.functionEvents`: the reports on the functions of a program.
* `Program.IsLongest`: the program of the longest part at the front of some tokens that is one.

## Main results

* `Parser.runProgram_split`: a parse takes functions up to the end or to what is no function.
* `isLongest_of_parse`: what a failed parse has reported.
* `events_match`: the reports of the parser, of a compilation and of a compilation of files.
-/

namespace CFrontEnd

open Grammar CFrontEnd.Parser

/-! ### Where the parse of a program stops -/

/-- The functions that are complete are a phrase at the front of the tokens. Behind it the tokens
end, or something stands there that is no function. -/
theorem Parser.runProgram_split (tokens : List Token) :
    ∃ used left, tokens = used ++ left ∧
      Derives .functions used (runProgram tokens).value.functions ∧
      match (runProgram tokens).value.halt with
      | none => left = []
      | some halt => function left = .error halt := by
  induction tokens using runProgram_induction with
  | nil =>
    rw [runProgram]
    exact ⟨[], [], rfl, .noFunction, rfl⟩
  | halted token rest stopped h =>
    rw [runProgram_of_error h]
    refine ⟨[], token :: rest, rfl, .noFunction, ?_⟩
    rw [function, h]
    rfl
  | cons token rest taken h ih =>
    have hfunction : function (token :: rest) = .ok (taken.value, taken.rest) := by
      rw [function, h, Outcome.ofTaken_ok]
    obtain ⟨first, hfirst, hderives⟩ := function_sound _ _ _ hfunction
    obtain ⟨used, left, hrest, hused, hleft⟩ := ih
    rw [runProgram_of_ok h, ProgramRun.halt_cons]
    exact ⟨first ++ used, left, by rw [hfirst, hrest, List.append_assoc],
      .functions hderives hused, hleft⟩

/-- The program is that of the longest part at the front of the tokens that is a program and has at
most `stop` tokens, and this part is no other program. -/
def Program.IsLongest (program : Program) (tokens : List Token) (stop : Nat) : Prop :=
  ∃ k, IsGreatest {k | k ≤ stop ∧ EntryPoint.program.Accepts (tokens.take k)} k ∧
    ∀ other, parse (tokens.take k) = .ok other ↔ other = program

section Longest

variable {used left : List Token} {functions : List FunctionDef} {halt : Halt}

theorem parse_of_derives_functions (h : Derives .functions used functions) :
    parse used = .ok { functions } := by
  have hderives : Derives EntryPoint.program.symbol used { functions } := .program h
  exact EntryPoint.parse_of_derives hderives

/-- Behind the functions stands what is no function, so no longer part of the tokens is a
program. -/
theorem length_le_of_accepts (hused : Derives .functions used functions)
    (hhalt : function left = .error halt) {k : Nat} (hle : k ≤ (used ++ left).length)
    (haccepts : EntryPoint.program.Accepts ((used ++ left).take k)) : k ≤ used.length := by
  by_contra hlt
  obtain ⟨tree, htree⟩ := haccepts
  have htake : (used ++ left).take k = used ++ left.take (k - used.length) := by
    rw [List.take_append, List.take_of_length_le (by omega)]
  have hsplit := parse_append_of_ok (parse_of_derives_functions hused) (left.take (k - used.length))
  rw [htake, show EntryPoint.program.parse _ = _ from hsplit] at htree
  cases hothers : parse (left.take (k - used.length)) with
  | error failure => simp [hothers, Except.map] at htree
  | ok others =>
    -- the first of the other functions is found in front of any tokens
    obtain ⟨token, rest, hcons⟩ : ∃ token rest, left.take (k - used.length) = token :: rest := by
      refine List.exists_cons_of_ne_nil (List.ne_nil_of_length_pos ?_)
      rw [List.length_append] at hle
      rw [List.length_take]
      omega
    have hprogram : program (token :: rest) = .ok (others, []) :=
      complete_eq_ok_iff.mp (hcons ▸ hothers)
    rw [program_cons] at hprogram
    obtain ⟨tree, behind, hfunction, -⟩ := Outcome.andThen_eq_ok_iff.mp hprogram
    obtain ⟨first, hfirst, hafter⟩ := function_append hfunction
    have hleft : left = first ++ (behind ++ left.drop (k - used.length)) := by
      rw [← List.append_assoc, ← hfirst, ← hcons, List.take_append_drop]
    rw [hleft, hafter] at hhalt
    simp at hhalt

/-- The functions in front of what is no function are the longest program that ends before any place
from there on. -/
theorem isLongest_of_function (hused : Derives .functions used functions)
    (hhalt : function left = .error halt) {stop : Nat} (hbefore : used.length ≤ stop)
    (hstop : stop ≤ (used ++ left).length) :
    Program.IsLongest { functions } (used ++ left) stop := by
  have hprogram : parse used = .ok { functions } := parse_of_derives_functions hused
  have htake : (used ++ left).take used.length = used := List.take_left
  refine ⟨used.length, ⟨⟨hbefore, ?accepted⟩, ?greatest⟩, ?program⟩
  case accepted =>
    rw [htake]
    exact ⟨_, hprogram⟩
  case greatest =>
    rintro k ⟨hle, haccepts⟩
    exact length_le_of_accepts hused hhalt (hle.trans hstop) haccepts
  case program =>
    intro other
    rw [htake, hprogram, Except.ok.injEq, eq_comm]

end Longest

/-! ### The reports of a parse -/

/-- The reports on the functions of a program, in order. -/
def Program.functionEvents (program : Program) : List Event :=
  program.functions.map fun function =>
    .parsedFunction function.name function.arguments.length function.body.length

/-- A parse that succeeds has reported all functions and the program. -/
theorem parseEvents_of_ok {tokens : List Token} {program : Program}
    (h : parse tokens = .ok program) :
    parseEvents tokens = program.functionEvents ++ [.parsedProgram program.functions.length] := by
  have houtcome : Parser.program tokens = .ok (program, []) := complete_eq_ok_iff.mp h
  rw [program_eq] at houtcome
  split at houtcome
  · next hhalt =>
    obtain ⟨rfl, -⟩ := Prod.mk.inj (Except.ok.inj houtcome)
    rw [parseEvents_eq, hhalt]
    rfl
  · simp at houtcome

/-- A parse that fails has reported the functions of the longest part before the failure that is a
program. -/
theorem isLongest_of_parse {tokens : List Token} {failure : Failure ParseError}
    (h : parse tokens = .error failure) :
    ∃ (cursor : Cursor) (tree : Program),
      (Cursor.start tokens).answer .program = (.failed failure, cursor) ∧
        tree.IsLongest tokens cursor.position ∧ parseEvents tokens = tree.functionEvents := by
  obtain ⟨used, left, htokens, hused, hstop⟩ := runProgram_split tokens
  cases hhalt : (runProgram tokens).value.halt with
  | none => simp [parse_eq, program_eq, hhalt, complete, finish] at h
  | some halt =>
    rw [hhalt] at hstop
    obtain rfl : halt.failure = failure := by
      simpa [parse_eq, program_eq, hhalt, complete] using h
    -- the function behind the complete ones stops within what is left of the tokens
    obtain ⟨more, hmore⟩ : halt.rest <:+ left := by
      have hsuffix := Outcome.respond_suffix (takeFunction left) Reply.function
      rwa [show Outcome.ofTaken (takeFunction left) = .error halt from hstop] at hsuffix
    have hrest : tokens.drop 0 = (used ++ more) ++ halt.rest := by
      rw [List.drop_zero, htokens, ← hmore, List.append_assoc]
    have hreply : Request.program.respond ((used ++ more) ++ halt.rest) =
        (.failed halt.failure, halt.rest) := by
      rw [← hrest, List.drop_zero, Request.respond, program_eq, hhalt]
      rfl
    refine ⟨_, { functions := (runProgram tokens).value.functions }, answer_of_respond hrest hreply,
      ?longest, ?events⟩
    case longest =>
      have hbefore : used.length ≤ 0 + (used ++ more).length := by simp
      have hwithin : 0 + (used ++ more).length ≤ (used ++ left).length := by
        simp [← hmore]
      have hlongest := isLongest_of_function hused hstop hbefore hwithin
      rwa [← htokens] at hlongest
    case events =>
      rw [parseEvents_eq, hhalt, List.append_nil]
      rfl

/-! ### The reports of a compilation -/

/-- The report is on an output that was written. -/
def Event.IsOutput (event : Event) : Prop :=
  ∃ input output, event = .wroteOutput input output

variable {event : Event}

theorem not_isOutput_of_mem_lexEvents {text : String} (h : event ∈ lexEvents text) :
    ¬event.IsOutput := by
  rintro ⟨input, output, rfl⟩
  rcases List.mem_append.mp h with hskipped | hsummary
  · obtain ⟨piece, -, hpiece⟩ := List.mem_filterMap.mp hskipped
    cases piece <;> simp [Piece.event?] at hpiece
  · simp at hsummary

theorem not_isOutput_of_mem_parseEvents {tokens : List Token} (h : event ∈ parseEvents tokens) :
    ¬event.IsOutput := by
  rintro ⟨input, output, rfl⟩
  rw [parseEvents_eq] at h
  rcases List.mem_append.mp h with hfunctions | hprogram
  · obtain ⟨function, -, hfunction⟩ := List.mem_map.mp hfunctions
    simp [FunctionDef.event] at hfunction
  · split at hprogram <;> simp at hprogram

namespace Source

variable {source : Source}

/-- The reports of a compilation that succeeds. -/
theorem compileEvents_of_ok {program : Program} (h : parseSource source.content = .ok program) :
    source.compileEvents = lexEvents source.content ++ parseEvents (lex source.content) ++
      [.parsedSource source.name
        { functions := (Node.program program).preorder.countP (·.nodeClass = .function)
          statements := (Node.program program).preorder.countP (·.nodeClass = .stmt)
          expressions := (Node.program program).preorder.countP (·.nodeClass = .expr) }] := by
  rw [compileEvents_eq, h, parseSourceEvents_eq]
  simp only [Node.counts_eq_countP]

/-- The reports of a compilation that fails. -/
theorem compileEvents_of_error {failure : Failure ParseError}
    (h : parseSource source.content = .error failure) :
    source.compileEvents = lexEvents source.content ++ parseEvents (lex source.content) := by
  rw [compileEvents_eq, h, parseSourceEvents_eq, List.append_nil]

theorem not_isOutput_of_mem_compileEvents (h : event ∈ source.compileEvents) :
    ¬event.IsOutput := by
  have hstages : event ∈ lexEvents source.content ++ parseEvents (lex source.content) →
      ¬event.IsOutput := fun hmem =>
    (List.mem_append.mp hmem).elim not_isOutput_of_mem_lexEvents not_isOutput_of_mem_parseEvents
  cases hparse : parseSource source.content with
  | ok program =>
    rw [compileEvents_of_ok hparse] at h
    rcases List.mem_append.mp h with hmem | hcounts
    · exact hstages hmem
    · rw [List.mem_singleton.mp hcounts]
      simp [Event.IsOutput]
  | error failure =>
    rw [compileEvents_of_error hparse] at h
    exact hstages h

end Source

/-- No output is reported before it is written. -/
theorem FileSystem.not_isOutput_of_mem_renderFileEvents {fs : FileSystem} {input : String}
    {emit : Emit} (h : event ∈ fs.renderFileEvents input emit) : ¬event.IsOutput := by
  rw [renderFileEvents_eq] at h
  split at h
  · simp at h
  · next text _ =>
    cases emit with
    | tokens =>
      rw [Source.events_renderLogged_tokens] at h
      exact not_isOutput_of_mem_lexEvents h
    | tree =>
      rw [Source.events_renderLogged_tree] at h
      exact (Source.named input text).not_isOutput_of_mem_compileEvents h

/-- The reports agree with the result. A parse that succeeds has reported the functions of the
program, in order, and then the program. A parse that fails has reported the functions of the
longest part of the tokens before the failure that is a program, and nothing else. A compilation
reports the cut into tokens, then the parse, and only if it succeeds how many nodes the tree has. A
compilation of a file reports an output after all that, exactly if it gives one. -/
theorem events_match :
    (∀ tokens program, parse tokens = .ok program →
        parseEvents tokens =
          program.functionEvents ++ [.parsedProgram program.functions.length]) ∧
      (∀ tokens failure, parse tokens = .error failure →
        ∃ (cursor : Cursor) (program : Program),
          (Cursor.start tokens).answer .program = (.failed failure, cursor) ∧
            program.IsLongest tokens cursor.position ∧
            parseEvents tokens = program.functionEvents) ∧
      (∀ (source : Source) (generator : Generator),
        (∀ text, source.compile generator = .ok text →
            ∃ program, parseSource source.content = .ok program ∧ generator program = text ∧
              source.compileEvents =
                lexEvents source.content ++ parseEvents (lex source.content) ++
                  [.parsedSource source.name
                    { functions := (Node.program program).preorder.countP (·.nodeClass = .function)
                      statements := (Node.program program).preorder.countP (·.nodeClass = .stmt)
                      expressions :=
                        (Node.program program).preorder.countP (·.nodeClass = .expr) }]) ∧
          ∀ failure, source.compile generator = .error failure →
            source.compileEvents =
              lexEvents source.content ++ parseEvents (lex source.content)) ∧
      ∀ (fs : FileSystem) (input : String) (output : Option String) (emit : Emit),
        (∀ text, fs.readText input = .ok text →
            fs.renderFileEvents input .tree = (Source.named input text).compileEvents) ∧
          (∀ path, (fs.compileFile input output emit).1 = .ok path →
            fs.compileFileEvents input output emit =
              fs.renderFileEvents input emit ++ [.wroteOutput input path]) ∧
          (∀ failure, (fs.compileFile input output emit).1 = .error failure →
            fs.compileFileEvents input output emit = fs.renderFileEvents input emit) ∧
          ∀ event ∈ fs.renderFileEvents input emit, ¬event.IsOutput := by
  refine ⟨fun _ _ => parseEvents_of_ok, fun _ _ => isLongest_of_parse,
    fun source generator => ⟨?compiled, ?failed⟩,
    fun fs input output emit => ⟨?tree, ?written, ?unwritten, ?others⟩⟩
  case compiled =>
    intro text hcompile
    obtain ⟨program, hparse, htext⟩ := Source.compile_eq_ok_iff.mp hcompile
    exact ⟨program, hparse, htext, Source.compileEvents_of_ok hparse⟩
  case failed =>
    intro failure hcompile
    cases hparse : parseSource source.content with
    | ok program => simp [Source.compile_eq, hparse] at hcompile
    | error found => exact Source.compileEvents_of_error hparse
  case tree =>
    intro text hread
    simp only [FileSystem.renderFileEvents_eq, hread, Source.events_renderLogged_tree]
  case written =>
    intro path hresult
    rw [FileSystem.compileFileEvents_eq, hresult]
  case unwritten =>
    intro failure hresult
    rw [FileSystem.compileFileEvents_eq, hresult, List.append_nil]
  case others => exact fun _ => FileSystem.not_isOutput_of_mem_renderFileEvents

/-- A text whose second function breaks off, and a file with a function that is compiled. -/
theorem events_match_midway :
    let source := Source.ofText "int f(int a)\x7ba=1;\x7d int g()\x7breturn"
    let fs : FileSystem :=
      { working := ["w"], entries := [(["w", "a.c"], .file "int f()\x7b\x7d".toUTF8)] }
    (∃ program : Program, program.IsLongest (lex source.content) 18 ∧
        program.functionEvents = [.parsedFunction "f" 1 1]) ∧
      source.compileEvents = [.lexedSource 18 33, .parsedFunction "f" 1 1] ∧
      fs.compileFileEvents "a.c" none .tree =
        [.lexedSource 6 9, .parsedFunction "f" 0 0, .parsedProgram 1,
          .parsedSource "a.c" { functions := 1, statements := 0, expressions := 0 },
          .wroteOutput "a.c" "a.s"] := by
  intro source fs
  obtain ⟨hparsed, hstopped, hcompiled, hfiles⟩ := events_match
  let used : List Token :=
    [⟨.keyword, "int", ⟨0, 3⟩⟩, ⟨.identifier, "f", ⟨4, 5⟩⟩, ⟨.openParen, "(", ⟨5, 6⟩⟩,
      ⟨.keyword, "int", ⟨6, 9⟩⟩, ⟨.identifier, "a", ⟨10, 11⟩⟩, ⟨.closeParen, ")", ⟨11, 12⟩⟩,
      ⟨.openBrace, "\x7b", ⟨12, 13⟩⟩, ⟨.identifier, "a", ⟨13, 14⟩⟩,
      ⟨.assignmentOperator, "=", ⟨14, 15⟩⟩, ⟨.integer, "1", ⟨15, 16⟩⟩, ⟨.semicolon, ";", ⟨16, 17⟩⟩,
      ⟨.closeBrace, "\x7d", ⟨17, 18⟩⟩]
  let left : List Token :=
    [⟨.keyword, "int", ⟨19, 22⟩⟩, ⟨.identifier, "g", ⟨23, 24⟩⟩, ⟨.openParen, "(", ⟨24, 25⟩⟩,
      ⟨.closeParen, ")", ⟨25, 26⟩⟩, ⟨.openBrace, "\x7b", ⟨26, 27⟩⟩, ⟨.keyword, "return", ⟨27, 33⟩⟩]
  let function : FunctionDef :=
    { returnType := "int"
      name := "f"
      arguments := [{ typeName := "int", name := "a" }]
      body := [.assignment .assign "a" (.constant (.int 1))] }
  have hlex : lex source.content = used ++ left := by decide +kernel
  -- the first function is a phrase, and the parse goes on behind it as at the start
  have hvalue : Derives .expr [⟨.integer, "1", ⟨15, 16⟩⟩] (.constant (.int 1)) :=
    .of_primary (by decide) (.integer rfl (by decide +kernel))
  have hused : Derives .function used function :=
    .function (by decide) rfl rfl (.arguments (by decide) rfl .noArgument) rfl
      (.block rfl (.stmts (.assignment rfl (by decide) hvalue rfl) .noStmt) rfl)
  have hleft : (runProgram left).value.functions = [] ∧ (runProgram left).value.halt =
      some { failure := .error (.unexpectedEnd .expression), rest := [] } := by
    constructor <;> cbv
  obtain ⟨hfunctions, hhalt⟩ := runProgram_append (complete_of_derives hused left)
  rw [hleft.1] at hfunctions
  rw [hleft.2] at hhalt
  have hevents : parseEvents (lex source.content) = [.parsedFunction "f" 1 1] := by
    rw [hlex, parseEvents_eq, hfunctions, hhalt]
    rfl
  have hprogram : program (lex source.content) =
      .error { failure := .error (.unexpectedEnd .expression), rest := [] } := by
    rw [hlex, program_eq, hhalt]
  have hparse : parse (lex source.content) = .error (.error (.unexpectedEnd .expression)) := by
    rw [parse_eq, hprogram]
    rfl
  refine ⟨?longest, ?failed, ?written⟩
  case longest =>
    obtain ⟨cursor, program, hanswer, hlongest, hfunctions⟩ := hstopped _ _ hparse
    have hreply : Request.respond .program (lex source.content ++ []) =
        (.failed (.error (.unexpectedEnd .expression)), []) := by
      rw [List.append_nil, Request.respond, hprogram]
      rfl
    have hposition : ((Cursor.start (lex source.content)).answer .program).2.position = 18 := by
      rw [Cursor.start, answer_of_respond (List.append_nil _).symm hreply, hlex]
      rfl
    rw [hanswer] at hposition
    exact ⟨program, hposition ▸ hlongest, hfunctions.symm.trans hevents⟩
  case failed =>
    have hcompile : source.compile Program.dump =
        .error (source.explain (.error (.unexpectedEnd .expression))) := by
      rw [Source.compile_eq, parseSource_eq, hparse]
    have hlexed : lexEvents source.content = [.lexedSource 18 33] := by decide +kernel
    rw [(hcompiled source Program.dump).2 _ hcompile, hlexed, hevents]
    rfl
  case written =>
    let file := Source.named "a.c" "int f()\x7b\x7d"
    let tree : Program :=
      { functions := [{ returnType := "int", name := "f", arguments := [], body := [] }] }
    have hlex : lex file.content =
        [⟨.keyword, "int", ⟨0, 3⟩⟩, ⟨.identifier, "f", ⟨4, 5⟩⟩, ⟨.openParen, "(", ⟨5, 6⟩⟩,
          ⟨.closeParen, ")", ⟨6, 7⟩⟩, ⟨.openBrace, "\x7b", ⟨7, 8⟩⟩,
          ⟨.closeBrace, "\x7d", ⟨8, 9⟩⟩] := by decide +kernel
    have hfile : parse (lex file.content) = .ok tree := by
      rw [hlex]
      cbv
    have hcompile : file.compile Program.dump = .ok tree.dump := by
      rw [Source.compile_eq, parseSource_eq, hfile]
    have hread : fs.readText "a.c" = .ok "int f()\x7b\x7d" :=
      FileSystem.decodeText_toUTF8 "int f()\x7b\x7d"
    have hrender : fs.renderFile "a.c" .tree = .ok tree.dump := by
      rw [FileSystem.renderFile_eq, hread]
      exact hcompile
    have houtput : outputOf "a.c" none = "a.s" := rfl
    have hopened : fs.opened "a.s" = .ok ["w", "a.s"] := rfl
    have hresult : (fs.compileFile "a.c" none .tree).1 = .ok "a.s" := by
      rw [FileSystem.compileFile_of_render hrender, houtput, hopened]
    obtain ⟨htree, hwritten, -, -⟩ := hfiles fs "a.c" none .tree
    have hlexed : lexEvents file.content = [.lexedSource 6 9] := by decide +kernel
    obtain ⟨program, hprogram, -, hreports⟩ := (hcompiled file Program.dump).1 _ hcompile
    obtain rfl : tree = program := Except.ok.inj (hfile.symm.trans hprogram)
    rw [hwritten _ hresult, htree _ hread, hreports, hparsed _ _ hfile, hlexed]
    rfl

end CFrontEnd
