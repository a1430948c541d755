import CFrontEnd.Files.Path

/-!
# A File System

Files and directories below a root, and a working directory among them. A location is the list of
names that leads from the root to an entry; a path is resolved to a location. There are no links,
and the root is its own parent.

Only directories can be passed through: a path through a file fails with `notDirectory`, a path
through a missing name with `notFound`, and a name that is too long fails where it is looked up.

* `find_put_self`, `find_put_of_ne`: writing an entry changes the entry at that location only.
-/

namespace CFrontEnd

/-- The names that lead from the root to an entry. -/
abbrev Location := List String

/-- What a location holds. -/
inductive Entry where
  | file (content : ByteArray)
  | directory
  /-- Reads as an empty file, and drops what is written to it. -/
  | nullDevice

/-- The entries below the root. -/
structure FileSystem where
  /-- The directory where relative paths start. It exists, and so do the directories above it. -/
  working : Location
  /-- The other entries with their locations, at most one for each location. -/
  entries : List (Location × Entry)

namespace FileSystem

/-- The entry at a location. -/
def find? (fs : FileSystem) (location : Location) : Option Entry :=
  if location.isPrefixOf fs.working then some .directory
  else fs.entries.lookup location

/-- The file system with an entry at a location, in place of what was there. -/
def put (fs : FileSystem) (location : Location) (entry : Entry) : FileSystem :=
  { fs with
    entries := (location, entry) :: fs.entries.filter fun other => other.1 != location }

/-- What a directory has under a name. -/
def lookup (fs : FileSystem) (directory : Location) (name : String) :
    Except FileError (Option Entry) := do
  Path.checkName name
  return fs.find? (directory ++ [name])

/-- The directory where a path starts. -/
def origin (fs : FileSystem) (path : String) : Location :=
  if Path.isAbsolute path then [] else fs.working

/-- The directory that is reached from a directory by passing through parts of a path. -/
def enter (fs : FileSystem) (location : Location) : List String → Except FileError Location
  | [] => .ok location
  | part :: parts =>
    if Path.staysInPlace part then fs.enter location parts
    else if part = ".." then fs.enter location.dropLast parts
    else
      match fs.lookup location part with
      | .error cause => .error cause
      | .ok none => .error .notFound
      | .ok (some .directory) => fs.enter (location ++ [part]) parts
      | .ok (some _) => .error .notDirectory

/-- Where a path leads: to a directory, or to a name in a directory, which need not exist. -/
inductive Target where
  | directory (location : Location)
  | name (parent : Location) (name : String)

/-- Resolves parts of a path from a directory. All parts but the last are passed through. -/
def resolveParts (fs : FileSystem) (start : Location) (parts : List String) :
    Except FileError Target :=
  match parts.getLast? with
  | none => .ok (.directory start)
  | some last => do
    let parent ← fs.enter start parts.dropLast
    if Path.staysInPlace last then return .directory parent
    else if last = ".." then return .directory parent.dropLast
    else return .name parent last

/-- Resolves a path. -/
def resolve (fs : FileSystem) (path : String) : Except FileError Target := do
  Path.check path
  fs.resolveParts (fs.origin path) (Path.parts path)

/-- The bytes of the file at a path. -/
def read (fs : FileSystem) (path : String) : Except FileError ByteArray := do
  match ← fs.resolve path with
  | .directory _ => .error .isDirectory
  | .name parent name =>
    match ← fs.lookup parent name with
    | none => .error .notFound
    | some .directory => .error .isDirectory
    | some (.file content) => .ok content
    | some .nullDevice => .ok .empty

/-- The text that bytes hold in UTF-8. -/
def decodeText (content : ByteArray) : Except FileError String :=
  match String.fromUTF8? content with
  | some text => .ok text
  | none => .error .invalidText

/-- The text of the file at a path. -/
def readText (fs : FileSystem) (path : String) : Except FileError String := do
  decodeText (← fs.read path)

/-- The directory and the name where a path leads when a file is to be created there. Slashes
after a name ask for a directory, which is not created. -/
def resolveNew (fs : FileSystem) (path : String) : Except FileError (Location × String) := do
  Path.check path
  let parts := Path.parts path
  let named := Path.dropTrailing parts
  match ← fs.resolveParts (fs.origin path) named with
  | .directory _ => .error .isDirectory
  | .name parent name => if named = parts then .ok (parent, name) else .error .isDirectory

/-- Creates or overwrites the file at a path. -/
def write (fs : FileSystem) (path : String) (content : ByteArray) :
    Except FileError FileSystem := do
  let (parent, name) ← fs.resolveNew path
  match ← fs.lookup parent name with
  | some .directory => .error .isDirectory
  | some .nullDevice => .ok fs
  | _ => .ok (fs.put (parent ++ [name]) (.file content))

/-- Writing an entry leaves the working directory alone. -/
@[simp]
theorem working_put (fs : FileSystem) (location : Location) (entry : Entry) :
    (fs.put location entry).working = fs.working := rfl

/-- A written entry is found, unless the working directory is there or below. -/
theorem find_put_self (fs : FileSystem) {location : Location}
    (h : location.isPrefixOf fs.working = false) (entry : Entry) :
    (fs.put location entry).find? location = some entry := by
  simp [find?, put, h]

/-- Writing an entry changes the entry at that location only. -/
theorem find_put_of_ne (fs : FileSystem) {location other : Location} (h : other ≠ location)
    (entry : Entry) : (fs.put location entry).find? other = fs.find? other := by
  unfold find? put
  split
  · rfl
  · have hlookup : ∀ entries : List (Location × Entry),
        (entries.filter fun old => old.1 != location).lookup other = entries.lookup other := by
      intro entries
      induction entries with
      | nil => rfl
      | cons old rest ih =>
        obtain ⟨key, value⟩ := old
        by_cases hkey : key = location
        · subst hkey
          have hne : (other == key) = false := by simpa using h
          simp [List.lookup_cons, hne, ih]
        · by_cases hother : other = key
          · simp [hkey, hother]
          · have hne : (other == key) = false := by simpa using hother
            simp [hkey, List.lookup_cons, hne, ih]
    have hne : (other == location) = false := by simpa using h
    simp [List.lookup_cons, hne, hlookup]

end FileSystem

end CFrontEnd
