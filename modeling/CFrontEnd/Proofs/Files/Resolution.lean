import CFrontEnd.Files.FileSystem

/-!
# Where Paths Lead

A path that is read or written leads to a location: a name in a directory. What is read at a path is
what stands at its location, and a write changes that location only. What is written there is a file
and no directory, so every path that led somewhere still leads there.

## Main definitions

* `Path.Exceeds`: a path exceeds a bound of the system, with the cause that is reported.
* `FileSystem.Names`: a path leads to a location.
* `FileSystem.opened`: the location of a path that is opened to be written.
* `FileSystem.store`: what a write leaves at a location.

## Main results

* `FileSystem.read_of_names`: what is read at a path is what stands at its location.
* `FileSystem.write_eq`: a write opens the path and stores the content at its location.
* `FileSystem.opened_eq_ok_iff`: a path is opened where it leads, unless there is a directory.
* `FileSystem.cause_of_opened`: why a path cannot be opened.
* `FileSystem.names_put_iff`: a written file leaves the paths where they lead.
-/

namespace CFrontEnd

/-- A computation in two steps succeeds exactly if both steps do. -/
theorem bind_eq_ok_iff {ε α β : Type} {first : Except ε α} {next : α → Except ε β} {value : β} :
    first >>= next = .ok value ↔ ∃ x, first = .ok x ∧ next x = .ok value := by
  cases first with
  | error cause => exact iff_of_false nofun nofun
  | ok x => exact ⟨fun h => ⟨x, rfl, h⟩, fun ⟨_, hx, h⟩ => Except.ok.inj hx ▸ h⟩

/-- A computation in two steps fails with the cause of the step that fails. -/
theorem bind_eq_error {ε α β : Type} {first : Except ε α} {next : α → Except ε β} {cause : ε}
    (h : first >>= next = .error cause) :
    first = .error cause ∨ ∃ x, first = .ok x ∧ next x = .error cause := by
  cases first with
  | error other => exact .inl (congrArg _ (Except.error.inj h))
  | ok x => exact .inr ⟨x, rfl, h⟩

namespace Path

/-- The path exceeds a bound of the system. An access fails with the cause, whatever files there
are. -/
inductive Exceeds (path : String) : FileError → Prop where
  /-- There is a NUL in the path. -/
  | nul (hmem : '\x00' ∈ path.toList) : Exceeds path .nulInPath
  /-- The path is too long. -/
  | path (hlong : longestPath < Text.byteLength path.toList) : Exceeds path .nameTooLong
  /-- A part of the path is too long. -/
  | part {name : String} (hmem : name ∈ parts path)
      (hlong : longestName < Text.byteLength name.toList) : Exceeds path .nameTooLong

/-- The slashes at the end of a path are no parts that are looked up. -/
theorem mem_of_mem_dropTrailing {parts : List String} {part : String}
    (h : part ∈ dropTrailing parts) : part ∈ parts :=
  List.mem_reverse.mp ((List.dropWhile_sublist _).subset (List.mem_reverse.mp h))

/-- Nothing is dropped behind a last part that is not empty. -/
theorem dropTrailing_eq_self {parts : List String} {last : String}
    (hlast : parts.getLast? = some last) (hne : last ≠ "") : dropTrailing parts = parts := by
  obtain ⟨front, rfl⟩ := List.getLast?_eq_some_iff.mp hlast
  simp [dropTrailing, hne]

end Path

namespace FileSystem

variable {fs : FileSystem} {path name : String} {location other start parent : Location}
  {parts : List String} {cause : FileError}

/-- There are files and directories only. -/
def HasNoDevice (fs : FileSystem) : Prop :=
  ∀ location, fs.find? location ≠ some .nullDevice

/-- There are files and directories only if there is no device among the entries. -/
theorem hasNoDevice_of_entries (h : ∀ entry ∈ fs.entries, entry.2 ≠ .nullDevice) :
    fs.HasNoDevice := by
  intro location hfind
  unfold find? at hfind
  split at hfind
  · simp at hfind
  · obtain ⟨before, after, hentries, -⟩ := List.lookup_eq_some_iff.mp hfind
    exact h (location, .nullDevice) (by simp [hentries]) rfl

/-- The path leads to the location: to a name that a directory can have. -/
def Names (fs : FileSystem) (path : String) (location : Location) : Prop :=
  ∃ parent name, fs.resolve path = .ok (.name parent name) ∧ Path.checkName name = .ok () ∧
    location = parent ++ [name]

/-- What is looked up under a name that a directory can have. -/
theorem lookup_eq (h : Path.checkName name = .ok ()) (directory : Location) :
    fs.lookup directory name = .ok (fs.find? (directory ++ [name])) := by
  rw [lookup, h]
  rfl

/-- Parts of a path lead to a name exactly if it is the last part, and the others lead to a
directory. -/
theorem resolveParts_eq_name_iff :
    fs.resolveParts start parts = .ok (.name parent name) ↔
      parts.getLast? = some name ∧ fs.enter start parts.dropLast = .ok parent ∧
        Path.staysInPlace name = false ∧ name ≠ ".." := by
  unfold resolveParts
  cases parts.getLast? with
  | none => simp
  | some last =>
    simp only [bind_eq_ok_iff, pure, Except.pure, Option.some.injEq]
    constructor
    · rintro ⟨found, henter, htarget⟩
      split at htarget
      · simp at htarget
      split at htarget
      · simp at htarget
      · next hstays habove =>
        obtain ⟨rfl, rfl⟩ := Target.name.inj (Except.ok.inj htarget)
        exact ⟨rfl, henter, by simpa using hstays, habove⟩
    · rintro ⟨rfl, henter, hstays, habove⟩
      exact ⟨parent, henter, by simp [hstays, habove]⟩

/-! ### Reading -/

/-- What is read at a path is what stands at its location. -/
theorem read_of_names (h : fs.Names path location) :
    fs.read path =
      match fs.find? location with
      | none => .error .notFound
      | some .directory => .error .isDirectory
      | some (.file content) => .ok content
      | some .nullDevice => .ok .empty := by
  obtain ⟨parent, name, hresolve, hname, rfl⟩ := h
  rcases hfind : fs.find? (parent ++ [name]) with _ | entry
  · simp [read, hresolve, lookup_eq hname, hfind, bind, Except.bind]
  · cases entry <;> simp [read, hresolve, lookup_eq hname, hfind, bind, Except.bind]

/-- A path that can be read leads to a location. -/
theorem names_of_read {content : ByteArray} (h : fs.read path = .ok content) :
    ∃ location, fs.Names path location := by
  obtain ⟨target, hresolve, htarget⟩ := bind_eq_ok_iff.mp h
  cases target with
  | directory location => simp at htarget
  | name parent name =>
    obtain ⟨found, hlookup, -⟩ := bind_eq_ok_iff.mp htarget
    obtain ⟨_, hname, -⟩ := bind_eq_ok_iff.mp hlookup
    exact ⟨_, parent, name, hresolve, hname, rfl⟩

/-! ### Writing -/

/-- The location where a path leads when it is opened to be written. There must be no directory. -/
def opened (fs : FileSystem) (path : String) : Except FileError Location := do
  let (parent, name) ← fs.resolveNew path
  match ← fs.lookup parent name with
  | some .directory => .error .isDirectory
  | _ => .ok (parent ++ [name])

/-- The file system with a content at a location: in a file, unless a device drops it. -/
def store (fs : FileSystem) (location : Location) (content : ByteArray) : FileSystem :=
  match fs.find? location with
  | some .nullDevice => fs
  | _ => fs.put location (.file content)

/-- What is stored where there is no device is put there. -/
theorem store_eq_put (h : fs.find? location ≠ some .nullDevice) (content : ByteArray) :
    fs.store location content = fs.put location (.file content) := by
  unfold store
  split
  · next hdevice => exact absurd hdevice h
  · rfl

/-- A write opens the path and stores the content at its location. -/
theorem write_eq (fs : FileSystem) (path : String) (content : ByteArray) :
    fs.write path content = (fs.opened path).map fun location => fs.store location content := by
  unfold write opened store
  -- both resolve the path and look at the entry; they differ in what they do with it
  rcases fs.resolveNew path with _ | ⟨parent, name⟩
  · rfl
  cases hname : Path.checkName name with
  | error cause =>
    simp only [lookup, hname, bind, Except.bind]
    rfl
  | ok =>
    simp only [lookup_eq hname, bind, Except.bind]
    rcases hentry : fs.find? (parent ++ [name]) with _ | entry
    · simp [hentry, Except.map]
    · cases entry <;> simp [hentry, Except.map]

/-- A path is new where it leads as any other path: no slash can follow the name. -/
theorem resolveNew_eq_ok_iff :
    fs.resolveNew path = .ok (parent, name) ↔ fs.resolve path = .ok (.name parent name) := by
  simp only [resolveNew, resolve, bind_eq_ok_iff]
  refine exists_congr fun _ => and_congr_right fun _ => ?_
  constructor
  · rintro ⟨target, hparts, htarget⟩
    cases target with
    | directory location => simp at htarget
    | name found last =>
      dsimp only at htarget
      split at htarget
      · next hnamed =>
        obtain ⟨rfl, rfl⟩ := Prod.mk.inj (Except.ok.inj htarget)
        rwa [hnamed] at hparts
      · simp at htarget
  · intro hparts
    -- the last part is a name, so no slash follows it
    obtain ⟨hlast, -, hstays, -⟩ := resolveParts_eq_name_iff.mp hparts
    have hne : name ≠ "" := by
      rintro rfl
      simp [Path.staysInPlace] at hstays
    have hnamed := Path.dropTrailing_eq_self hlast hne
    exact ⟨.name parent name, by rwa [hnamed], by simp [hnamed]⟩

/-- A path is opened where it leads, unless there is a directory. -/
theorem opened_eq_ok_iff :
    fs.opened path = .ok location ↔
      fs.Names path location ∧ fs.find? location ≠ some .directory := by
  simp only [opened, bind_eq_ok_iff, Prod.exists, resolveNew_eq_ok_iff]
  constructor
  · rintro ⟨parent, name, hresolve, entry, hlookup, hentry⟩
    obtain ⟨_, hname, hfind⟩ := bind_eq_ok_iff.mp hlookup
    obtain rfl := Except.ok.inj hfind
    split at hentry
    · simp at hentry
    · next hdirectory =>
      obtain rfl := Except.ok.inj hentry
      exact ⟨⟨parent, name, hresolve, hname, rfl⟩, hdirectory⟩
  · rintro ⟨⟨parent, name, hresolve, hname, rfl⟩, hdirectory⟩
    refine ⟨parent, name, hresolve, _, lookup_eq hname parent, ?_⟩
    split
    · next hfind => exact absurd hfind hdirectory
    · rfl

/-! ### Why a path cannot be opened -/

/-- A path is refused in any file system only if it is empty or exceeds a bound of the system. -/
theorem cause_of_check (h : Path.check path = .error cause) :
    cause = .notFound ∨ Path.Exceeds path cause := by
  unfold Path.check at h
  split at h
  · exact .inl (Except.error.inj h).symm
  split at h
  · next hnul =>
    obtain rfl := Except.error.inj h
    exact .inr (.nul (by simpa using hnul))
  split at h
  · next hlong =>
    obtain rfl := Except.error.inj h
    exact .inr (.path hlong)
  · simp at h

/-- A name cannot be looked up only if it is too long. -/
theorem cause_of_lookup (h : fs.lookup location name = .error cause) :
    cause = .nameTooLong ∧ Path.longestName < Text.byteLength name.toList := by
  rcases bind_eq_error h with hname | ⟨_, -, hfind⟩
  · unfold Path.checkName at hname
    split at hname
    · next hlong => exact ⟨(Except.error.inj hname).symm, hlong⟩
    · simp at hname
  · simp [pure, Except.pure] at hfind

/-- Directories cannot be passed through only where one is missing or a file stands in its place, or
where a name is too long. -/
theorem cause_of_enter (h : fs.enter start parts = .error cause) :
    cause = .notFound ∨ cause = .notDirectory ∨
      cause = .nameTooLong ∧ ∃ part ∈ parts, Path.longestName < Text.byteLength part.toList := by
  -- along the parts; what fails behind the first one is among the parts too
  induction parts generalizing start with
  | nil => simp [enter] at h
  | cons part rest ih =>
    have hrest : ∀ {start}, fs.enter start rest = .error cause →
        cause = .notFound ∨ cause = .notDirectory ∨ cause = .nameTooLong ∧
          ∃ long ∈ part :: rest, Path.longestName < Text.byteLength long.toList := by
      intro start h
      rcases ih h with hcause | hcause | ⟨hcause, long, hmem, hlong⟩
      · exact .inl hcause
      · exact .inr (.inl hcause)
      · exact .inr (.inr ⟨hcause, long, List.mem_cons_of_mem part hmem, hlong⟩)
    rw [enter] at h
    split at h
    · exact hrest h
    split at h
    · exact hrest h
    split at h
    · next found hlookup =>
      obtain rfl := Except.error.inj h
      obtain ⟨hcause, hlong⟩ := cause_of_lookup hlookup
      exact .inr (.inr ⟨hcause, part, List.mem_cons_self, hlong⟩)
    · exact .inl (Except.error.inj h).symm
    · exact hrest h
    · exact .inr (.inl (Except.error.inj h).symm)

/-- Parts of a path lead nowhere only where directories cannot be passed through. -/
theorem enter_of_resolveParts (h : fs.resolveParts start parts = .error cause) :
    fs.enter start parts.dropLast = .error cause := by
  unfold resolveParts at h
  split at h
  · simp at h
  · rcases bind_eq_error h with henter | ⟨parent, -, htarget⟩
    · exact henter
    · repeat' split at htarget
      all_goals simp [pure, Except.pure] at htarget

/-- A path cannot be opened only if something is missing on the way, a directory stands where a file
is needed, or a file where a directory is; or if the path exceeds a bound of the system. -/
theorem cause_of_opened (h : fs.opened path = .error cause) :
    cause ∈ [.notFound, .isDirectory, .notDirectory] ∨ Path.Exceeds path cause := by
  rcases bind_eq_error h with hnew | ⟨⟨parent, name⟩, hnew, hentry⟩
  · rcases bind_eq_error hnew with hcheck | ⟨_, -, hnew⟩
    · exact (cause_of_check hcheck).imp_left fun hcause => by simp [hcause]
    rcases bind_eq_error hnew with hparts | ⟨target, -, htarget⟩
    · rcases cause_of_enter (enter_of_resolveParts hparts) with rfl | rfl | ⟨rfl, part, hmem, hpart⟩
      · simp
      · simp
      · exact .inr (.part (Path.mem_of_mem_dropTrailing (List.dropLast_subset _ hmem)) hpart)
    -- the path leads to a directory, or has slashes behind a name
    · have hcause : cause = .isDirectory := by
        repeat' split at htarget
        all_goals simp_all
      simp [hcause]
  · rcases bind_eq_error hentry with hlookup | ⟨entry, -, hfound⟩
    · obtain ⟨rfl, hname⟩ := cause_of_lookup hlookup
      obtain ⟨_, -, hparts⟩ := bind_eq_ok_iff.mp (resolveNew_eq_ok_iff.mp hnew)
      have hmem := List.mem_of_getLast? (resolveParts_eq_name_iff.mp hparts).1
      exact .inr (.part hmem hname)
    · have hcause : cause = .isDirectory := by
        split at hfound <;> simp_all
      simp [hcause]

/-! ### A file that is written -/

/-- A file that is written twice is written. -/
theorem put_put (fs : FileSystem) (location : Location) (entry : Entry) :
    (fs.put location entry).put location entry = fs.put location entry := by
  simp [put]

/-- A location with no directory is not above the working directory. -/
theorem isPrefixOf_working_eq_false (h : fs.find? location ≠ some .directory) :
    location.isPrefixOf fs.working = false := by
  rw [Bool.eq_false_iff]
  exact fun hprefix => h (by rw [find?, if_pos hprefix])

/-- The directories alone decide what can be passed through. -/
theorem enter_congr {after : FileSystem}
    (hdirectories : ∀ location, after.find? location = some .directory ↔
      fs.find? location = some .directory) :
    after.enter start parts = .ok other ↔ fs.enter start parts = .ok other := by
  -- one direction for any two systems that have the same directories
  have hkept : ∀ {one two : FileSystem} {start : Location},
      (∀ location, one.find? location = some .directory ↔ two.find? location = some .directory) →
      one.enter start parts = .ok other → two.enter start parts = .ok other := by
    intro one two start hsame h
    induction parts generalizing start with
    | nil => exact h
    | cons part rest ih =>
      rw [enter] at h ⊢
      split at h
      · next hstays => rw [if_pos hstays, ih h]
      next hstays =>
      rw [if_neg hstays]
      split at h
      · next habove => rw [if_pos habove, ih h]
      next habove =>
      rw [if_neg habove]
      split at h
      -- only a directory lets the path pass, and this one is in both systems
      case h_3 hlookup =>
        obtain ⟨_, hname, hfind⟩ := bind_eq_ok_iff.mp hlookup
        have hfind : one.find? (start ++ [part]) = some .directory := Except.ok.inj hfind
        rw [lookup_eq hname, (hsame _).mp hfind]
        exact ih h
      all_goals simp at h
  exact ⟨hkept hdirectories, hkept fun location => (hdirectories location).symm⟩

section Put

variable (content : ByteArray) (hdirectory : fs.find? location ≠ some .directory)

include hdirectory

/-- The file that is written is found. -/
theorem find_put_file :
    (fs.put location (.file content)).find? location = some (.file content) :=
  find_put_self fs (isPrefixOf_working_eq_false hdirectory) _

/-- A written file leaves the directories where they are. -/
theorem find_put_eq_directory_iff :
    (fs.put location (.file content)).find? other = some .directory ↔
      fs.find? other = some .directory := by
  by_cases heq : other = location
  · subst heq
    simp [find_put_file content hdirectory, hdirectory]
  · rw [find_put_of_ne fs heq]

/-- A written file is no device. -/
theorem HasNoDevice.put (h : fs.HasNoDevice) :
    (fs.put location (.file content)).HasNoDevice := by
  intro other
  by_cases heq : other = location
  · subst heq
    simp [find_put_file content hdirectory]
  · rw [find_put_of_ne fs heq]
    exact h other

/-- A written file leaves the paths where they lead. -/
theorem names_put_iff :
    (fs.put location (.file content)).Names path other ↔ fs.Names path other := by
  -- a path is resolved by the directories above its last part
  have henter : ∀ start parts parent,
      (fs.put location (.file content)).enter start parts = .ok parent ↔
        fs.enter start parts = .ok parent :=
    fun _ _ _ => enter_congr fun _ => find_put_eq_directory_iff content hdirectory
  have horigin : (fs.put location (.file content)).origin path = fs.origin path := rfl
  simp only [Names, resolve, bind_eq_ok_iff, resolveParts_eq_name_iff, horigin, henter]

/-- A path can be opened after a file is written exactly if it could be opened before. -/
theorem opened_put_iff :
    (fs.put location (.file content)).opened path = .ok other ↔ fs.opened path = .ok other := by
  simp only [opened_eq_ok_iff, names_put_iff content hdirectory, ne_eq,
    find_put_eq_directory_iff content hdirectory]

end Put

end FileSystem

end CFrontEnd
