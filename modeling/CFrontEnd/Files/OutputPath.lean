/-!
# Output Paths

The output of a compilation goes beside its input, under a name with the extension `s`. A path is
taken apart into the text before its file name, the file name, and a tail of slashes and `.`
components that name nothing. A path without a file name, such as `/`, `.` or one that ends in
`..`, stays as it is.

The stem of a file name ends before its last dot, unless that dot is the first character.

* `Parts.join_ofPath?`: the parts of a path, put together, give the path.
-/

namespace CFrontEnd.OutputPath

/-- A path with a file name, in three parts. -/
structure Parts where
  /-- The text before the file name, with the slash that ends it. -/
  parent : List Char
  /-- The file name. -/
  name : List Char
  /-- Slashes and `.` components after the file name. -/
  tail : List Char
deriving DecidableEq, Repr

/-- The tail of a path and what is before it, both with the last character first. -/
def splitTail : List Char → List Char × List Char
  | '/' :: rest =>
    let (tail, front) := splitTail rest
    ('/' :: tail, front)
  | '.' :: '/' :: rest =>
    let (tail, front) := splitTail rest
    ('.' :: '/' :: tail, front)
  | ['.'] => (['.'], [])
  | front => ([], front)

/-- The parts of a path; there are none if the path has no file name. -/
def Parts.ofPath? (path : List Char) : Option Parts :=
  let (tail, front) := splitTail path.reverse
  let name := (front.takeWhile (· != '/')).reverse
  if name = [] ∨ name = ['.', '.'] then none
  else some { parent := (front.dropWhile (· != '/')).reverse, name, tail := tail.reverse }

/-- The stem and the extension of a file name that has an extension. -/
def splitExtension? (name : List Char) : Option (List Char × List Char) :=
  match name.reverse.dropWhile (· != '.') with
  | _ :: stem@(_ :: _) => some (stem.reverse, (name.reverse.takeWhile (· != '.')).reverse)
  | _ => none

/-- The stem of a file name: all of it if it has no extension. -/
def stem (name : List Char) : List Char :=
  ((splitExtension? name).map Prod.fst).getD name

/-- The path without its extension, the dot left in place, if nothing follows the file name. -/
def cutExtension (path : List Char) : List Char :=
  match Parts.ofPath? path with
  | some { parent, name, tail := [] } =>
    match splitExtension? name with
    | some (stem, _) => parent ++ stem ++ ['.']
    | none => path
  | _ => path

/-- The path with what follows the stem of its file name replaced by an extension. -/
def replaceExtension (extension path : List Char) : List Char :=
  match Parts.ofPath? path with
  | some parts => parts.parent ++ stem parts.name ++ '.' :: extension
  | none => path

/-- The path with its extension exchanged: the old extension is cut off first, and then the new
one is put after the stem of what is left. -/
def withExtension (extension path : List Char) : List Char :=
  replaceExtension extension (cutExtension path)

/-- The tail of a path and what is before it make up the path. -/
theorem append_splitTail (reversed : List Char) :
    (splitTail reversed).1 ++ (splitTail reversed).2 = reversed := by
  fun_induction splitTail reversed <;> simp_all

/-- The parts of a path, put together, give the path. -/
theorem Parts.join_ofPath? {path : List Char} {parts : Parts} (h : ofPath? path = some parts) :
    parts.parent ++ parts.name ++ parts.tail = path := by
  unfold ofPath? at h
  simp only at h
  split at h
  · simp at h
  · obtain rfl := Option.some.inj h
    rw [← List.reverse_append, ← List.reverse_append, List.takeWhile_append_dropWhile,
      append_splitTail, List.reverse_reverse]

end CFrontEnd.OutputPath

namespace CFrontEnd

/-- The path of the output for an input path. -/
def outputPath (input : String) : String :=
  String.ofList (OutputPath.withExtension ['s'] input.toList)

end CFrontEnd
