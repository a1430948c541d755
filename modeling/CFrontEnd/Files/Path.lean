import CFrontEnd.Compilation

/-!
# Paths

A path is a text that names a file or a directory by the parts between its slashes. A path that
starts with a slash starts at the root, any other in the working directory. An empty part and `.`
stay in the directory that is reached, and `..` goes to its parent.

The system bounds the length of a path and of each name, both in bytes.

* `splitSlashes_ne_nil`: a text has at least one part.
* `intercalate_splitSlashes`: the parts with slashes between them give the text.
* `not_slash_mem_of_mem_splitSlashes`: no part has a slash.
-/

namespace CFrontEnd.Path

/-- The number of bytes that a name can have. -/
def longestName : Nat := 255

/-- The number of bytes that a path can have. -/
def longestPath : Nat := 4095

/-- The parts of a text between slashes. -/
def splitSlashes : List Char → List (List Char)
  | [] => [[]]
  | c :: rest =>
    if c = '/' then [] :: splitSlashes rest
    else
      match splitSlashes rest with
      | [] => [[c]]
      | part :: parts => (c :: part) :: parts

/-- The parts of a path between slashes. -/
def parts (path : String) : List String :=
  (splitSlashes path.toList).map String.ofList

/-- Parts of a path without those that are due to slashes at its end. -/
def dropTrailing (parts : List String) : List String :=
  (parts.reverse.dropWhile (· == "")).reverse

/-- The path starts at the root. -/
def isAbsolute (path : String) : Bool :=
  path.toList.head? == some '/'

/-- The part stays in the directory it is resolved in. -/
def staysInPlace (part : String) : Bool :=
  part == "" || part == "."

/-- Refuses a path that leads nowhere in any file system. -/
def check (path : String) : Except FileError Unit :=
  if path = "" then .error .notFound
  else if path.toList.contains '\x00' then .error .nulInPath
  else if longestPath < Text.byteLength path.toList then .error .nameTooLong
  else .ok ()

/-- Refuses a name that no directory can have. -/
def checkName (name : String) : Except FileError Unit :=
  if longestName < Text.byteLength name.toList then .error .nameTooLong
  else .ok ()

/-- A text has at least one part. -/
theorem splitSlashes_ne_nil (text : List Char) : splitSlashes text ≠ [] := by
  fun_cases splitSlashes text <;> simp

/-- The parts with slashes between them give the text. -/
theorem intercalate_splitSlashes (text : List Char) :
    ['/'].intercalate (splitSlashes text) = text := by
  induction text with
  | nil => rfl
  | cons c rest ih =>
    rw [splitSlashes]
    cases hsplit : splitSlashes rest with
    | nil => exact absurd hsplit (splitSlashes_ne_nil rest)
    | cons first others =>
      rw [hsplit] at ih
      by_cases hslash : c = '/'
      · simp [hslash, ← ih]
      · cases others <;> simp_all

/-- No part has a slash. -/
theorem not_slash_mem_of_mem_splitSlashes {text part : List Char}
    (h : part ∈ splitSlashes text) : '/' ∉ part := by
  induction text generalizing part with
  | nil => simp_all [splitSlashes]
  | cons c rest ih =>
    rw [splitSlashes] at h
    split at h
    · rcases List.mem_cons.mp h with rfl | hrest
      · simp
      · exact ih hrest
    · rename_i hslash
      split at h
      · rename_i hnil
        exact absurd hnil (splitSlashes_ne_nil rest)
      · rename_i first others hsplit
        rcases List.mem_cons.mp h with rfl | hothers
        · have hfirst : '/' ∉ first := ih (by rw [hsplit]; exact List.mem_cons_self)
          simp [hfirst, Ne.symm hslash]
        · exact ih (by rw [hsplit]; exact List.mem_cons_of_mem _ hothers)

end CFrontEnd.Path
