import CFrontEnd.Files.FileSystem

/-!
# Prepared File Systems

A file system to start from, with the operations that prepare it: directories are made along a
path, and what is in the working directory is listed.
-/

namespace CFrontEnd.FileSystem

/-- The names of the directories at the root of a usual system. -/
def rootDirectories : List String :=
  ["bin", "boot", "dev", "etc", "home", "lib", "media", "mnt", "opt", "proc", "root", "run", "sbin",
    "srv", "sys", "tmp", "usr", "var"]

/-- A usual system with an empty working directory that is made for temporary use. -/
def fresh : FileSystem :=
  { working := ["tmp", ".c-front-end"]
    entries :=
      (["dev", "null"], .nullDevice) :: rootDirectories.map fun name => ([name], .directory) }

/-- The entries below the working directory, with their locations from there. -/
def listing (fs : FileSystem) : List (Location × Entry) :=
  fs.entries.filterMap fun (location, entry) =>
    (fs.working.isPrefixOf? location).map fun below => (below, entry)

/-- Creates a directory where parts of a path lead, unless there is one. What leads to it has to be
there. -/
def makeDirectory (fs : FileSystem) (start : Location) (parts : List String) :
    Except FileError FileSystem := do
  match ← fs.resolveParts start (Path.dropTrailing parts) with
  | .directory _ => .ok fs
  | .name parent name =>
    match ← fs.lookup parent name with
    | none => .ok (fs.put (parent ++ [name]) .directory)
    | some .directory => .ok fs
    | some _ => .error .alreadyExists

/-- Creates a directory in a file system or, where something is missing that leads to it, in
`prepared`. -/
def makePrepared (fs : FileSystem) (prepared : Except FileError Unit × FileSystem)
    (start : Location) (parts : List String) : Except FileError Unit × FileSystem :=
  match fs.makeDirectory start parts, prepared with
  | .ok made, _ => (.ok (), made)
  | .error .notFound, (.ok (), above) =>
    match above.makeDirectory start parts with
    | .ok made => (.ok (), made)
    | .error cause => (.error cause, above)
  | .error .notFound, failed => failed
  | .error cause, _ => (.error cause, fs)

/-- Creates the directory where parts of a path lead, given with the last part first, and the
directories above it that are missing. What is created before a failure stays. -/
def makeAbove (fs : FileSystem) (start : Location) :
    List String → Except FileError Unit × FileSystem
  | [] => (.ok (), fs)
  | part :: above =>
    if Path.staysInPlace part then fs.makeAbove start above
    else fs.makePrepared (fs.makeAbove start above) start (part :: above).reverse

/-- Creates the directory at a path and the directories above it that are missing. The empty path
asks for none. A `.` at the end needs the directory before it. -/
def makeDirectories (fs : FileSystem) (path : String) : Except FileError Unit × FileSystem :=
  let start := fs.origin path
  let parts := Path.parts path
  let above := (parts.reverse.dropWhile Path.staysInPlace).drop 1
  if path = "" then (.ok (), fs)
  else
    match Path.check path with
    | .error cause => (.error cause, fs)
    | .ok () => fs.makePrepared (fs.makeAbove start above) start parts

end CFrontEnd.FileSystem
