import CFrontEnd.Proofs.Files.OutputPath
import Mathlib.Data.List.Basic

/-!
# The Components of a Path

The components of a path say where it starts, which directories it passes through and what it leads
to. Repeated slashes make no component, and neither does a `.`, except at the start of a path. The
file name is the last component, if this is a name.

So a path with a file name is a text in front of the name, the name, and a tail that makes no
component. An output path is made from these three parts.

## Main definitions

* `Path.Component`, `Path.components`: the components of a path.
* `Path.fileName?`, `Path.fileStem?`, `Path.fileExtension?`: the file name of a path and its parts.
* `Path.IsCut`: a file name, its stem and its extension.
* `OutputPath.IsTail`: what may follow a component without another component.

## Main results

* `Path.components_append`, `Path.components_append_tail`: the last component of a path.
* `Path.exists_fileName`: a path has a file name, and is in three parts, or it has none.
* `Path.ofPath?_fileName`: an output path is made from the same three parts.
* `Path.extension?_eq_fileExtension?`: an output path exchanges the extension of the last component.
-/

namespace CFrontEnd

/-! ### Tails -/

namespace OutputPath

variable {front tail : List Char}

/-- Slashes, and `.` components behind slashes. -/
inductive IsTail : List Char → Prop where
  | nil : IsTail []
  | slash {tail : List Char} (h : IsTail tail) : IsTail (tail ++ ['/'])
  | dot {tail : List Char} (h : IsTail tail) : IsTail (tail ++ ['/', '.'])

/-- A tail is empty or starts with a slash. -/
theorem IsTail.eq_nil_or_cons (h : IsTail tail) : tail = [] ∨ ∃ rest, tail = '/' :: rest := by
  induction h with
  | nil => exact .inl rfl
  | slash _ ih | dot _ ih => rcases ih with rfl | ⟨rest, rfl⟩ <;> simp

/-- A tail belongs to the tail of a path. -/
theorem splitTail_append (h : IsTail tail) (reversed : List Char) :
    splitTail (tail.reverse ++ reversed) =
      (tail.reverse ++ (splitTail reversed).1, (splitTail reversed).2) := by
  induction h with
  | nil => rfl
  | slash _ ih | dot _ ih => simp [splitTail, ih]

/-- The parts of a path with more tail. -/
theorem ofPath?_append_tail (front : List Char) (h : IsTail tail) :
    Parts.ofPath? (front ++ tail) =
      (Parts.ofPath? front).map fun parts => { parts with tail := parts.tail ++ tail } := by
  simp only [Parts.ofPath?, List.reverse_append, splitTail_append h, List.reverse_reverse]
  split <;> simp

end OutputPath

/-! ### Components -/

namespace Path

open OutputPath

variable {parent name front rest tail : List Char}

/-- A component of a path. -/
inductive Component where
  /-- The path starts at the root. -/
  | root
  /-- The path says that it starts in the working directory. -/
  | here
  /-- To the directory above. -/
  | above
  /-- To what has this name. -/
  | name (name : List Char)
deriving DecidableEq, Repr

/-- The component that a part between slashes makes. -/
def Component.ofPart? (part : List Char) : Option Component :=
  if part = [] ∨ part = ['.'] then none
  else if part = ['.', '.'] then some .above
  else some (.name part)

/-- The component that says where a path starts. -/
def beginning (path : List Char) : List Component :=
  if path.head? = some '/' then [.root]
  else if (splitSlashes path).head? = some ['.'] then [.here]
  else []

/-- The components of a path. -/
def components (path : List Char) : List Component :=
  beginning path ++ (splitSlashes path).filterMap Component.ofPart?

/-- The file name of a path: its last component, if this is a name. -/
def fileName? (path : List Char) : Option (List Char) :=
  match (components path).getLast? with
  | some (.name name) => some name
  | _ => none

/-- The stem of the file name of a path. -/
def fileStem? (path : List Char) : Option (List Char) :=
  (fileName? path).map stem

/-- The extension of the file name of a path. -/
def fileExtension? (path : List Char) : Option (List Char) :=
  (fileName? path).bind fun name => (splitExtension? name).map Prod.snd

/-- A name is cut at its last dot, unless the name starts with it. -/
inductive IsCut : List Char → List Char → Option (List Char) → Prop where
  | whole {name : List Char} (h : '.' ∉ name.tail) : IsCut name name none
  | dot {stem extension : List Char} (hstem : stem ≠ []) (h : '.' ∉ extension) :
      IsCut (stem ++ '.' :: extension) stem (some extension)

/-- What starts with a slash does not change how a path begins. -/
theorem beginning_append (hfront : front ≠ []) (hrest : rest = [] ∨ ∃ more, rest = '/' :: more) :
    beginning (front ++ rest) = beginning front := by
  rcases hrest with rfl | ⟨more, rfl⟩
  · rw [List.append_nil]
  · rw [beginning, beginning, splitSlashes_append, List.head?_append_of_ne_nil _ hfront,
      List.head?_append_of_ne_nil _ (splitSlashes_ne_nil front)]

/-- The parts of a tail make no component. -/
theorem filterMap_append_tail (front : List Char) (h : IsTail tail) :
    (splitSlashes (front ++ tail)).filterMap Component.ofPart? =
      (splitSlashes front).filterMap Component.ofPart? := by
  induction h with
  | nil => rw [List.append_nil]
  | slash _ ih | dot _ ih =>
    rw [← List.append_assoc, splitSlashes_append, List.filterMap_append, ih]
    simp [splitSlashes, Component.ofPart?]

theorem components_append_tail (hfront : front ≠ []) (h : IsTail tail) :
    components (front ++ tail) = components front := by
  rw [components, components, filterMap_append_tail front h,
    beginning_append hfront h.eq_nil_or_cons]

/-- The last component is what stands behind the last slash. -/
theorem components_append (hparent : IsParent parent) (h : IsLast name) :
    components (parent ++ name) =
      components parent ++ [if name = ['.', '.'] then .above else .name name] := by
  have hpart : [name].filterMap Component.ofPart? =
      [if name = ['.', '.'] then Component.above else .name name] := by
    by_cases hdots : name = ['.', '.'] <;> simp [Component.ofPart?, h.ne_nil, h.ne_dot, hdots]
  rcases hparent with rfl | ⟨front, rfl⟩
  · -- a name alone starts in no special place
    have hhead : name.head? ≠ some '/' := fun hhead =>
      h.slash_not_mem (List.mem_of_head? hhead)
    have hbeginning : beginning name = [] := by
      simp [beginning, hhead, splitSlashes_of_not_mem h.slash_not_mem, h.ne_dot]
    rw [List.nil_append, components, splitSlashes_of_not_mem h.slash_not_mem, hbeginning, hpart]
    rfl
  · -- where a slash is in front of the name, the parts up to there decide how the path begins
    have hbeginning : beginning (front ++ '/' :: name) = beginning (front ++ ['/']) := by
      cases front with
      | nil => rfl
      | cons c front =>
        rw [beginning_append (List.cons_ne_nil c front) (.inr ⟨name, rfl⟩),
          beginning_append (List.cons_ne_nil c front) (.inr ⟨[], rfl⟩)]
    rw [List.append_assoc, List.singleton_append, components, components, hbeginning,
      splitSlashes_append, splitSlashes_append, splitSlashes_of_not_mem h.slash_not_mem,
      List.filterMap_append, List.filterMap_append, hpart]
    simp [splitSlashes, Component.ofPart?]

theorem components_dots (hparent : IsParent parent) :
    components (parent ++ ['.', '.']) = components parent ++ [.above] := by
  rw [components_append hparent ⟨by simp, by simp, by simp⟩, if_pos rfl]

/-- A path ends in a component that is no `.` component, with a tail behind it, or it is a tail or a
`.` component with a tail. -/
theorem exists_append_tail (path : List Char) :
    (∃ parent name tail, path = parent ++ name ++ tail ∧ IsParent parent ∧ IsLast name ∧
        IsTail tail) ∨
      ∃ start tail, path = start ++ tail ∧ (start = [] ∨ start = ['.']) ∧ IsTail tail := by
  -- on the length, since a part of the tail takes one or two characters from the end
  induction hlength : path.length using Nat.strongRecOn generalizing path with
  | _ length ih =>
    subst hlength
    obtain ⟨parent, last, rfl, hparent, hslash⟩ := exists_append path
    by_cases hlast : IsLast last
    · exact .inl ⟨parent, last, [], by simp, hparent, hlast, .nil⟩
    -- a last part that is no such component is of the tail, with the slash in front of it
    have hplace : last = [] ∨ last = ['.'] := by
      by_contra hne
      exact hlast ⟨hslash, fun h => hne (.inl h), fun h => hne (.inr h)⟩
    rcases hparent with rfl | ⟨front, rfl⟩
    · exact .inr ⟨last, [], by simp, hplace, .nil⟩
    have hgrow : ∀ {tail}, IsTail tail → IsTail (tail ++ '/' :: last) := by
      rcases hplace with rfl | rfl
      · exact .slash
      · exact .dot
    rcases ih front.length (by simp) front rfl with
      ⟨parent, name, tail, rfl, hparent, hname, htail⟩ | ⟨start, tail, rfl, hstart, htail⟩
    · exact .inl ⟨parent, name, _, by simp, hparent, hname, hgrow htail⟩
    · exact .inr ⟨start, _, by simp, hstart, hgrow htail⟩

/-! ### File names -/

theorem components_fileName (hparent : IsParent parent) (hname : IsFileName name)
    (htail : IsTail tail) :
    components (parent ++ name ++ tail) = components parent ++ [.name name] := by
  have hne : parent ++ name ≠ [] := by simp [hname.ne_nil]
  rw [components_append_tail hne htail, components_append hparent hname.toIsLast,
    if_neg hname.ne_dots]

/-- A path to the directory above has no file name. -/
theorem fileName?_dots (hparent : IsParent parent) : fileName? (parent ++ ['.', '.']) = none := by
  rw [fileName?, components_dots hparent, List.getLast?_concat]

theorem fileName?_append (hparent : IsParent parent) (hname : IsFileName name)
    (htail : IsTail tail) : fileName? (parent ++ name ++ tail) = some name := by
  rw [fileName?, components_fileName hparent hname htail, List.getLast?_concat]

/-- The parts of a path with a file name, which is in front of a tail. -/
theorem ofPath?_fileName (hparent : IsParent parent) (hname : IsFileName name)
    (htail : IsTail tail) :
    Parts.ofPath? (parent ++ name ++ tail) = some { parent, name, tail } := by
  rw [ofPath?_append_tail _ htail, ofPath?_append hparent hname.toIsLast, if_neg hname.ne_dots]
  rfl

/-- A path is a text in front of a file name, the name and a tail, or it has neither a file name nor
parts. -/
theorem exists_fileName (path : List Char) :
    (∃ parent name tail, path = parent ++ name ++ tail ∧ IsParent parent ∧ IsFileName name ∧
        IsTail tail) ∨
      fileName? path = none ∧ Parts.ofPath? path = none := by
  rcases exists_append_tail path with
    ⟨parent, name, tail, rfl, hparent, hname, htail⟩ | ⟨start, tail, rfl, hstart, htail⟩
  · by_cases hdots : name = ['.', '.']
    · subst hdots
      refine .inr ⟨?_, ?_⟩
      · rw [fileName?, components_append_tail (by simp) htail, components_dots hparent,
          List.getLast?_concat]
      · rw [ofPath?_append_tail _ htail, ofPath?_append hparent hname, if_pos rfl, Option.map_none]
    · exact .inl ⟨parent, name, tail, rfl, hparent, ⟨hname, hdots⟩, htail⟩
  · refine .inr ⟨?_, ?_⟩
    · -- nothing but the place where the path starts is a component
      have hcomponents : components (start ++ tail) = beginning (start ++ tail) := by
        rw [components, filterMap_append_tail start htail]
        rcases hstart with rfl | rfl <;> simp [splitSlashes, Component.ofPart?]
      rw [fileName?, hcomponents]
      fun_cases beginning (start ++ tail) <;> rfl
    · rw [ofPath?_append_tail _ htail]
      rcases hstart with rfl | rfl <;> rfl

/-- The stem and the extension of a name are what a cut at its last dot leaves. -/
theorem isCut_stem (name : List Char) :
    IsCut name (stem name) ((splitExtension? name).map Prod.snd) := by
  cases hsplit : splitExtension? name with
  | some parts =>
    obtain ⟨hname, hstem, hdot⟩ := eq_append_of_splitExtension? hsplit
    have hcut := IsCut.dot hstem hdot
    rw [← hname] at hcut
    simpa [stem, hsplit] using hcut
  | none =>
    have hdot : '.' ∉ name.tail := by
      intro hmem
      -- the last dot would be behind the first character, and the name would be split there
      obtain ⟨c, rest, rfl⟩ := List.exists_cons_of_ne_nil fun h : name = [] => by simp [h] at hmem
      rw [List.tail_cons] at hmem
      obtain ⟨last, front, hrest, hlast⟩ :=
        List.eq_append_cons_of_mem (List.mem_reverse.mpr hmem)
      have hname : c :: rest = (c :: front.reverse) ++ '.' :: last.reverse := by
        rw [← List.reverse_reverse rest, hrest]
        simp
      rw [hname, splitExtension?_append (by simp) (by simpa using hlast)] at hsplit
      simp at hsplit
    simpa [stem, hsplit] using IsCut.whole hdot

/-- The extension that an output path exchanges is that of the last component. -/
theorem extension?_eq_fileExtension? (path : List Char) :
    extension? path = fileExtension? path := by
  rcases exists_fileName path with
    ⟨parent, name, tail, rfl, hparent, hname, htail⟩ | ⟨hnone, hparts⟩
  · rw [extension?, fileExtension?, ofPath?_fileName hparent hname htail,
      fileName?_append hparent hname htail, Option.bind_some, Option.bind_some]
  · rw [extension?, fileExtension?, hnone, hparts, Option.bind_none, Option.bind_none]

end Path

end CFrontEnd
