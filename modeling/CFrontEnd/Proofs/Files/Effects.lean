import CFrontEnd.Files.Compile
import CFrontEnd.Proofs.Files.Components
import CFrontEnd.Proofs.Files.Resolution
import CFrontEnd.Proofs.Source.Diagnostics

/-!
# What a Compilation Does to the Files

A compilation reads its input, computes the result, opens the output and writes it, in this order.
The first of these that fails is reported, and nothing is changed. If none fails, the content of one
file is changed. It is the input itself exactly if the output is asked for where the input is;
beside the input this is so if the input has the extension `s`. In all other cases a second run does
what the first one did.

## Main definitions

* `FileSystem.CompileFails`: why a compilation of a file fails.
* `FileSystem.Written`: a file has a new content, and nothing else is changed.
* `FileSystem.Overwrites`: the file that is written is the input.
* `FileSystem.CompileEffect`: all that a compilation does to the files.

## Main results

* `FileSystem.location_outputPath_iff`: the output is the input itself if the extension is there.
* `compileFile_effect`: what a compilation does to any files.
-/

namespace CFrontEnd

namespace FileSystem

open OutputPath (IsParent IsFileName extension?)

variable {fs : FileSystem} {input path : String} {output : Option String} {emit : Emit}
  {location other : Location}

/-! ### The location of the output -/

/-- A path leads to a location exactly if it ends in a file name and what stands in front of the
name leads to a directory. -/
theorem names_append_iff {parent name : List Char} (hparent : IsParent parent)
    (hname : '/' ∉ name) :
    fs.Names (String.ofList (parent ++ name)) location ↔
      Path.check (String.ofList (parent ++ name)) = .ok () ∧ IsFileName name ∧
        Path.checkName (String.ofList name) = .ok () ∧
        ∃ directory, fs.enter (fs.origin (String.ofList (parent ++ name)))
            (Path.parts (String.ofList parent)).dropLast = .ok directory ∧
          location = directory ++ [String.ofList name] := by
  -- what is no file name stays in the directory that is reached, or goes above it
  have hplace : Path.staysInPlace (String.ofList name) = false ∧ String.ofList name ≠ ".." ↔
      IsFileName name := by
    have hchars : ∀ text : String, String.ofList name = text ↔ name = text.toList := fun text =>
      ⟨fun h => by rw [← h, String.toList_ofList], fun h => by rw [h, String.ofList_toList]⟩
    simp only [Path.staysInPlace, Bool.or_eq_false_iff, beq_eq_false_iff_ne, ne_eq, hchars]
    exact ⟨fun h => ⟨⟨hname, h.1.1, h.1.2⟩, h.2⟩, fun h => ⟨⟨h.ne_nil, h.ne_dot⟩, h.ne_dots⟩⟩
  simp only [Names, resolve, bind_eq_ok_iff, resolveParts_eq_name_iff,
    Path.parts_append hparent hname, List.getLast?_concat, List.dropLast_concat]
  constructor
  · rintro ⟨directory, last, ⟨_, hcheck, hlast, henter, hstays⟩, hlength, hlocation⟩
    obtain rfl := Option.some.inj hlast
    exact ⟨hcheck, hplace.mp hstays, hlength, directory, henter, hlocation⟩
  · rintro ⟨hcheck, hfile, hlength, directory, henter, hlocation⟩
    exact ⟨directory, _, ⟨(), hcheck, rfl, henter, hplace.mpr hfile⟩, hlength, hlocation⟩

/-- The output beside an input is the input itself exactly if the input has the extension. -/
theorem location_outputPath_iff (hinput : fs.Names input location)
    (houtput : fs.Names (outputPath input) other) :
    other = location ↔ extension? input.toList = some ['s'] := by
  obtain ⟨parent, name, hsplit, hparent, hslash⟩ := Path.exists_append input.toList
  obtain rfl : input = String.ofList (parent ++ name) := by
    rw [← hsplit, String.ofList_toList]
  obtain ⟨-, hname, -, directory, henter, rfl⟩ := (names_append_iff hparent hslash).mp hinput
  rw [outputPath, String.toList_ofList, OutputPath.withExtension_eq hparent hname] at houtput
  split at houtput
  · -- the directory above is no place for a file
    obtain ⟨-, hdots, -⟩ := (names_append_iff hparent (by simp)).mp houtput
    exact absurd rfl hdots.ne_dots
  rw [List.append_assoc] at houtput
  have hstem : '/' ∉ OutputPath.stem name ++ ['.', 's'] := by
    simpa using fun hmem => hslash (OutputPath.mem_of_mem_stem hmem)
  obtain ⟨-, -, -, found, hfound, rfl⟩ := (names_append_iff hparent hstem).mp houtput
  -- both names stand in the same directory
  have horigin : fs.origin (String.ofList (parent ++ (OutputPath.stem name ++ ['.', 's']))) =
      fs.origin (String.ofList (parent ++ name)) := by
    rw [origin, origin, Path.isAbsolute_append hparent hstem hslash]
  rw [horigin] at hfound
  obtain rfl : directory = found := Except.ok.inj (henter.symm.trans hfound)
  have hextension : extension? (parent ++ name) =
      (OutputPath.splitExtension? name).map Prod.snd := by
    rw [extension?, OutputPath.ofPath?_append hparent hname.toIsLast, if_neg hname.ne_dots,
      Option.bind_some]
  rw [String.toList_ofList, hextension,
    ← OutputPath.append_extension_eq_iff hname.ne_nil (by decide)]
  rw [List.append_right_inj, List.singleton_inj, String.ofList_inj]

/-! ### The stages of a compilation -/

/-- Why a compilation of a file fails: the input cannot be read, or it is no program where a tree
is asked for, or the output cannot be opened. -/
inductive CompileFails (fs : FileSystem) (input : String) (output : Option String) (emit : Emit) :
    CompileError → Prop
  /-- The input cannot be read. -/
  | read {cause : FileError} (hread : fs.readText input = .error cause) :
      CompileFails fs input output emit (.read input cause)
  /-- The input is read, and is no program. -/
  | parse {text : String} {error : ParseError} (htree : emit = .tree)
      (hread : fs.readText input = .ok text)
      (hparse : parseSource (Source.named input text).content = .error (.error error)) :
      CompileFails fs input output emit (.parse ((Source.named input text).diagnose error))
  /-- There is a result, and the output cannot be opened. -/
  | write {text : String} {cause : FileError} (hrender : fs.renderFile input emit = .ok text)
      (hopened : fs.opened (outputOf input output) = .error cause) :
      CompileFails fs input output emit (.write (outputOf input output) cause)

/-- The result for an input fails only where the input is read or parsed. -/
theorem renderFile_eq_error_iff {failure : Failure CompileError} :
    fs.renderFile input emit = .error failure ↔
      (∃ cause, fs.readText input = .error cause ∧ failure = .error (.read input cause)) ∨
        emit = .tree ∧ ∃ text error, fs.readText input = .ok text ∧
          parseSource (Source.named input text).content = .error (.error error) ∧
          failure = .error (.parse ((Source.named input text).diagnose error)) := by
  rw [renderFile_eq]
  cases hread : fs.readText input with
  | error cause => simp [eq_comm]
  | ok text =>
    cases emit with
    | tokens => simp
    | tree => simp [Source.compile_eq_error_iff]

/-- An input with a result is a path that leads to a location. -/
theorem names_of_renderFile {text : String} (h : fs.renderFile input emit = .ok text) :
    ∃ location, fs.Names input location := by
  cases hread : fs.readText input with
  | error cause => simp [renderFile_eq, hread] at h
  | ok content =>
    obtain ⟨bytes, hbytes, -⟩ := bind_eq_ok_iff.mp hread
    exact names_of_read hbytes

/-- If there is no result, this is what is reported. -/
theorem compileFile_of_render_error {failure : Failure CompileError}
    (h : fs.renderFile input emit = .error failure) (output : Option String) :
    fs.compileFile input output emit = (.error failure, fs) := by
  rw [compileFile_eq, h]

/-- If there is a result, what is left is to open the output and to store the result there. -/
theorem compileFile_of_render {text : String} (h : fs.renderFile input emit = .ok text)
    (output : Option String) :
    fs.compileFile input output emit =
      match fs.opened (outputOf input output) with
      | .error cause => (.error (.error (.write (outputOf input output) cause)), fs)
      | .ok location => (.ok (outputOf input output), fs.store location text.toUTF8) := by
  simp only [compileFile_eq, h, write_eq]
  cases fs.opened (outputOf input output) <;> rfl

/-- A compilation ends in one of three ways: there is no result, the output cannot be opened, or the
result is stored at the location of the output. -/
theorem compileFile_cases (fs : FileSystem) (input : String) (output : Option String)
    (emit : Emit) :
    (∃ failure, fs.renderFile input emit = .error failure ∧
        fs.compileFile input output emit = (.error failure, fs)) ∨
      ∃ text, fs.renderFile input emit = .ok text ∧
        ((∃ cause, fs.opened (outputOf input output) = .error cause ∧
            fs.compileFile input output emit =
              (.error (.error (.write (outputOf input output) cause)), fs)) ∨
          ∃ location, fs.opened (outputOf input output) = .ok location ∧
            fs.compileFile input output emit =
              (.ok (outputOf input output), fs.store location text.toUTF8)) := by
  cases hrender : fs.renderFile input emit with
  | error failure => exact .inl ⟨failure, rfl, compileFile_of_render_error hrender output⟩
  | ok text =>
    refine .inr ⟨text, rfl, ?_⟩
    rw [compileFile_of_render hrender]
    cases hopened : fs.opened (outputOf input output) with
    | error cause => exact .inl ⟨cause, rfl, rfl⟩
    | ok location => exact .inr ⟨location, rfl, rfl⟩

/-- A compilation fails with the first of its stages that fails, and with nothing else. -/
theorem compileFile_eq_error_iff {failure : Failure CompileError} :
    (fs.compileFile input output emit).1 = .error failure ↔
      ∃ error, failure = .error error ∧ fs.CompileFails input output emit error := by
  constructor
  · -- what is reported is the failure of the stage that the compilation came to
    intro hresult
    rcases compileFile_cases fs input output emit with ⟨other, hrender, hcompile⟩ |
      ⟨text, hrender, ⟨cause, hopened, hcompile⟩ | ⟨location, hopened, hcompile⟩⟩
    · obtain rfl : other = failure := by simpa [hcompile] using hresult
      rcases renderFile_eq_error_iff.mp hrender with ⟨cause, hread, rfl⟩ |
        ⟨htree, text, error, hread, hparse, rfl⟩
      · exact ⟨_, rfl, .read hread⟩
      · exact ⟨_, rfl, .parse htree hread hparse⟩
    · obtain rfl : .error (.write _ cause) = failure := by simpa [hcompile] using hresult
      exact ⟨_, rfl, .write hrender hopened⟩
    · simp [hcompile] at hresult
  · -- a stage that fails ends the compilation
    rintro ⟨_, rfl, hfails⟩
    cases hfails with
    | read hread =>
      rw [compileFile_of_render_error (renderFile_eq_error_iff.mpr (.inl ⟨_, hread, rfl⟩))]
    | parse htree hread hparse =>
      rw [compileFile_of_render_error
        (renderFile_eq_error_iff.mpr (.inr ⟨htree, _, _, hread, hparse, rfl⟩))]
    | write hrender hopened => rw [compileFile_of_render hrender, hopened]

/-- A file whose name is too long cannot be opened, though nothing else is wrong with its path. -/
theorem opened_of_longName {name : List Char} (hslash : '/' ∉ name) (hnul : '\x00' ∉ name)
    (hlong : Path.longestName < Text.byteLength name)
    (hle : Text.byteLength name ≤ Path.longestPath) :
    fs.opened (String.ofList name) = .error .nameTooLong := by
  have hne : ∀ text : String, Text.byteLength text.toList ≤ Path.longestName →
      String.ofList name ≠ text := by
    rintro text htext rfl
    rw [String.toList_ofList] at htext
    omega
  have hcheck : Path.check (String.ofList name) = .ok () := by
    simp [Path.check, hne "" (by decide), hnul, hle]
  -- the path is one part, which stands in the directory where the path starts
  have hparts : Path.parts (String.ofList name) = [String.ofList name] := by
    rw [Path.parts, String.toList_ofList, Path.splitSlashes_of_not_mem hslash, List.map_singleton]
  have hstays : Path.staysInPlace (String.ofList name) = false := by
    simp [Path.staysInPlace, hne "" (by decide), hne "." (by decide)]
  have hresolve : fs.resolve (String.ofList name) =
      .ok (.name (fs.origin (String.ofList name)) (String.ofList name)) :=
    bind_eq_ok_iff.mpr ⟨(), hcheck, resolveParts_eq_name_iff.mpr
      ⟨by rw [hparts]; rfl, by rw [hparts]; rfl, hstays, hne ".." (by decide)⟩⟩
  have hname : Path.checkName (String.ofList name) = .error .nameTooLong := by
    rw [Path.checkName, String.toList_ofList, if_pos hlong]
  rw [opened, resolveNew_eq_ok_iff.mpr hresolve]
  simp only [bind, Except.bind, lookup, hname]

/-! ### The effect of a compilation -/

/-- The file at a path has a new content, and nothing else is changed. -/
structure Written (before after : FileSystem) (path text : String) (location : Location) :
    Prop where
  /-- The path leads to the location. -/
  names : before.Names path location
  /-- There was no directory at the location. -/
  find_ne_directory : before.find? location ≠ some .directory
  /-- A file with the text is at the location now. -/
  find_eq : after.find? location = some (.file text.toUTF8)
  /-- Reading at the path gives the text. -/
  readText_eq : after.readText path = .ok text
  /-- What is at every other location is left as it was. -/
  find_other : ∀ other, other ≠ location → after.find? other = before.find? other
  /-- The directories are those there were before. -/
  directory_iff : ∀ other,
    after.find? other = some .directory ↔ before.find? other = some .directory
  /-- The directory where paths start is the same. -/
  working_eq : after.working = before.working
  /-- Every path leads where it led before. -/
  names_iff : ∀ path other, after.Names path other ↔ before.Names path other

/-- The file that is written is the input. -/
def Overwrites (fs : FileSystem) (input : String) (result : Compiled String) : Prop :=
  ∃ path location, result = .ok path ∧ fs.Names path location ∧ fs.Names input location

/-- What a compilation does to the files. -/
structure CompileEffect (before : FileSystem) (input : String) (output : Option String)
    (emit : Emit) (result : Compiled String) (after : FileSystem) : Prop where
  /-- A compilation that succeeds has written the result, and gives the path of the output. -/
  written : ∀ path, result = .ok path → path = outputOf input output ∧
    ∃ text location, before.renderFile input emit = .ok text ∧
      before.Written after path text location
  /-- A compilation that fails changes nothing. -/
  unchanged : ∀ failure, result = .error failure → after = before
  /-- A compilation fails with the first of its stages that fails, and with nothing else. -/
  error_iff : ∀ failure, result = .error failure ↔
    ∃ error, failure = .error error ∧ before.CompileFails input output emit error
  /-- What keeps the result from being made is reported, wherever the output would go. -/
  render_error : ∀ failure, before.renderFile input emit = .error failure →
    result = .error failure
  /-- No list of tokens is refused by the parser. -/
  parse_tree : ∀ diagnostic, result = .error (.error (.parse diagnostic)) → emit = .tree
  /-- The output cannot be opened where something is missing, where a directory is, where one is
  needed, or where the path exceeds a bound of the system. -/
  write_cause : ∀ path cause, result = .error (.error (.write path cause)) →
    cause ∈ [.notFound, .isDirectory, .notDirectory] ∨ Path.Exceeds path cause
  /-- With the output beside the input, a compilation that succeeds overwrites its input exactly if
  the extension is that of outputs. -/
  overwrites_iff : output = none → (before.Overwrites input result ↔
    (∃ path, result = .ok path) ∧ Path.fileExtension? input.toList = some ['s'])
  /-- If the input is still there, a second run has the same result and changes nothing. -/
  again : ¬before.Overwrites input result →
    after.compileFile input output emit = (result, after)

/-- What is read as text is what is written as text. -/
theorem decodeText_toUTF8 (text : String) : decodeText text.toUTF8 = .ok text := by
  have hvalid : text.toUTF8.IsValidUTF8 := text.isValidUTF8
  rw [decodeText, String.fromUTF8?, dif_pos hvalid]
  rfl

/-- A path that is opened is written, unless it leads to a device. -/
theorem written_store {text : String} (h : fs.opened path = .ok location)
    (hdevice : fs.find? location ≠ some .nullDevice) :
    fs.Written (fs.store location text.toUTF8) path text location := by
  obtain ⟨hnames, hdirectory⟩ := opened_eq_ok_iff.mp h
  rw [store_eq_put hdevice]
  have hfind := find_put_file text.toUTF8 hdirectory
  refine ⟨hnames, hdirectory, hfind, ?_, fun other hother => find_put_of_ne fs hother _,
    fun other => find_put_eq_directory_iff _ hdirectory, working_put fs location _,
    fun path other => names_put_iff _ hdirectory⟩
  -- the path still leads to the location, where the text is now
  have hread := read_of_names ((names_put_iff text.toUTF8 hdirectory).mpr hnames)
  rw [readText, hread, hfind]
  exact decodeText_toUTF8 text

/-- The result for an input is the same after a file is written that is not the input. -/
theorem renderFile_put {text : String} (content : ByteArray)
    (hrender : fs.renderFile input emit = .ok text) (hinput : ¬fs.Names input location)
    (hdirectory : fs.find? location ≠ some .directory) :
    (fs.put location (.file content)).renderFile input emit = .ok text := by
  obtain ⟨other, hnames⟩ := names_of_renderFile hrender
  have hother : other ≠ location := fun heq => hinput (heq ▸ hnames)
  -- the input is read at another location, which has what it had
  have hsame : (fs.put location (.file content)).readText input = fs.readText input := by
    rw [readText, readText, read_of_names hnames,
      read_of_names ((names_put_iff content hdirectory).mpr hnames), find_put_of_ne fs hother]
  rwa [renderFile_eq, hsame, ← renderFile_eq]

/-- A compilation that succeeds has written the result, and gives the path of the output. -/
theorem written_of_compileFile (h : fs.HasNoDevice)
    (hresult : (fs.compileFile input output emit).1 = .ok path) :
    path = outputOf input output ∧ ∃ text location, fs.renderFile input emit = .ok text ∧
      fs.Written (fs.compileFile input output emit).2 path text location := by
  rcases compileFile_cases fs input output emit with ⟨failure, -, hcompile⟩ |
    ⟨text, hrender, ⟨cause, -, hcompile⟩ | ⟨location, hopened, hcompile⟩⟩
  · simp [hcompile] at hresult
  · simp [hcompile] at hresult
  · obtain rfl : outputOf input output = path := by simpa [hcompile] using hresult
    rw [hcompile]
    exact ⟨rfl, text, location, hrender, written_store hopened (h location)⟩

/-- Beside the input, a compilation that succeeds overwrites its input exactly if the extension is
that of outputs. -/
theorem overwrites_beside_iff (h : fs.HasNoDevice) :
    fs.Overwrites input (fs.compileFile input none emit).1 ↔
      (∃ path, (fs.compileFile input none emit).1 = .ok path) ∧
        Path.fileExtension? input.toList = some ['s'] := by
  rw [← Path.extension?_eq_fileExtension?]
  constructor
  · rintro ⟨path, location, hresult, hpath, hinput⟩
    obtain rfl := (written_of_compileFile h hresult).1
    exact ⟨⟨_, hresult⟩, (location_outputPath_iff hinput hpath).mp rfl⟩
  · -- the input was read, so its path leads to a location, and the output goes there
    rintro ⟨⟨path, hresult⟩, hextension⟩
    obtain ⟨rfl, text, location, hrender, hwritten⟩ := written_of_compileFile h hresult
    obtain ⟨other, hinput⟩ := names_of_renderFile hrender
    obtain rfl := (location_outputPath_iff hinput hwritten.names).mpr hextension
    exact ⟨_, _, hresult, hwritten.names, hinput⟩

/-- If the input is still there, a second run has the same result and changes nothing. -/
theorem compileFile_again (h : fs.HasNoDevice)
    (hkept : ¬fs.Overwrites input (fs.compileFile input output emit).1) :
    (fs.compileFile input output emit).2.compileFile input output emit =
      fs.compileFile input output emit := by
  rcases compileFile_cases fs input output emit with ⟨failure, -, hcompile⟩ |
    ⟨text, hrender, ⟨cause, -, hcompile⟩ | ⟨location, hopened, hcompile⟩⟩
  · simp [hcompile]
  · simp [hcompile]
  · obtain ⟨hnames, hdirectory⟩ := opened_eq_ok_iff.mp hopened
    have hinput : ¬fs.Names input location := fun hinput =>
      hkept ⟨_, location, by rw [hcompile], hnames, hinput⟩
    -- the second run reads the same input, and puts the same file in its own place
    have hrender := renderFile_put text.toUTF8 hrender hinput hdirectory
    have hopened := (opened_put_iff text.toUTF8 hdirectory).mpr hopened
    have hdevice := h.put text.toUTF8 hdirectory location
    rw [hcompile, store_eq_put (h location), compileFile_of_render hrender, hopened]
    simp only [store_eq_put hdevice, put_put]

end FileSystem

open FileSystem in
/-- A compilation reads, renders, opens and writes, reports the first of these that fails, and
changes at most the content of one file. -/
theorem compileFile_effect (fs : FileSystem) (h : fs.HasNoDevice) (input : String)
    (output : Option String) (emit : Emit) :
    fs.CompileEffect input output emit (fs.compileFile input output emit).1
      (fs.compileFile input output emit).2 := by
  refine ⟨fun path => written_of_compileFile h, fun failure => compileFile_error,
    fun failure => compileFile_eq_error_iff,
    fun failure hrender => by rw [compileFile_of_render_error hrender], ?parse, ?write,
    ?beside, compileFile_again h⟩
  case parse =>
    intro diagnostic hresult
    obtain ⟨_, heq, hfails⟩ := compileFile_eq_error_iff.mp hresult
    cases hfails with
    | parse htree => exact htree
    | read | write => simp at heq
  case write =>
    intro path cause hresult
    obtain ⟨_, heq, hfails⟩ := compileFile_eq_error_iff.mp hresult
    cases hfails with
    | write hrender hopened =>
      obtain ⟨rfl, rfl⟩ : path = outputOf input output ∧ cause = _ := by simpa using heq
      exact cause_of_opened hopened
    | read | parse => simp at heq
  case beside =>
    rintro rfl
    exact overwrites_beside_iff h

/-- The input has the extension of outputs: its content is replaced by the list of its tokens. -/
theorem compileFile_effect_beside :
    let fs : FileSystem :=
      { working := ["w"], entries := [(["w", "a.s"], .file "1".toUTF8)] }
    let after := (fs.compileFile "a.s" none .tokens).2
    fs.Overwrites "a.s" (fs.compileFile "a.s" none .tokens).1 ∧
      after.readText "a.s" = .ok "Integer 1\n" := by
  intro fs after
  have hdevice : fs.HasNoDevice := FileSystem.hasNoDevice_of_entries (by simp [fs])
  have hread : fs.readText "a.s" = .ok "1" := FileSystem.decodeText_toUTF8 "1"
  have hlisting : (Source.named "a.s" "1").listing = "Integer 1\n" := by decide +kernel
  have hrender : fs.renderFile "a.s" .tokens = .ok "Integer 1\n" := by
    rw [FileSystem.renderFile_eq, hread]
    exact congrArg Except.ok hlisting
  have hopened : fs.opened (outputOf "a.s" none) = .ok ["w", "a.s"] := rfl
  have hresult : (fs.compileFile "a.s" none .tokens).1 = .ok "a.s" := by
    rw [FileSystem.compileFile_of_render hrender, hopened]
    rfl
  have heffect := compileFile_effect fs hdevice "a.s" none .tokens
  obtain ⟨-, text, location, htext, hwritten⟩ := heffect.written "a.s" hresult
  obtain rfl : text = "Integer 1\n" := Except.ok.inj (htext.symm.trans hrender)
  exact ⟨(heffect.overwrites_iff rfl).mpr ⟨⟨_, hresult⟩, by decide⟩, hwritten.readText_eq⟩

/-- An output that cannot be opened though nothing is missing and no directory is in the way: its
name is one byte too long. -/
theorem compileFile_longName :
    let fs : FileSystem :=
      { working := ["w"], entries := [(["w", "a.c"], .file "1".toUTF8)] }
    let output := String.ofList (List.replicate 256 'n')
    fs.HasNoDevice ∧
      ∃ cause, (fs.compileFile "a.c" (some output) .tokens).1 =
          .error (.error (.write output cause)) ∧
        cause ∉ [.notFound, .isDirectory, .notDirectory] := by
  intro fs output
  have hbytes : Text.byteLength (List.replicate 256 'n') = 256 := by
    rw [Text.byteLength_of_ascii fun c hmem => by rw [List.eq_of_mem_replicate hmem]; rfl,
      List.length_replicate]
  have hletters : ∀ c, c ≠ 'n' → c ∉ List.replicate 256 'n' := fun c hc hmem =>
    hc (List.eq_of_mem_replicate hmem)
  have hopened : fs.opened output = .error .nameTooLong :=
    FileSystem.opened_of_longName (hletters '/' (by decide)) (hletters '\x00' (by decide))
      (by rw [hbytes]; decide) (by rw [hbytes]; decide)
  have hread : fs.readText "a.c" = .ok "1" := FileSystem.decodeText_toUTF8 "1"
  have hrender : ∃ text, fs.renderFile "a.c" .tokens = .ok text :=
    ⟨_, by rw [FileSystem.renderFile_eq, hread]; rfl⟩
  obtain ⟨text, hrender⟩ := hrender
  refine ⟨FileSystem.hasNoDevice_of_entries (by simp [fs]), .nameTooLong, ?_, by simp⟩
  rw [FileSystem.compileFile_of_render hrender, outputOf, Option.getD_some, hopened]

end CFrontEnd
