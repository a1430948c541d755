import CFrontEnd.Files.OutputPath
import CFrontEnd.Files.Path
import Mathlib.Data.List.Induction

/-!
# The Path of an Output

A path that leads to a file is a text in front of a file name, and nothing follows the name. The
path of its output has the same text in front, and a name with the same stem. It is the path itself
exactly if the extension is already there. Only a name like `..c`, whose stem is a dot, leads to no
output file: cutting its extension leaves `..`.

## Main definitions

* `OutputPath.IsParent`, `OutputPath.IsFileName`: what stands in front of a file name, and file
  names.
* `OutputPath.extension?`: the extension of a path.

## Main results

* `OutputPath.withExtension_eq`: what exchanging the extension makes of a path.
* `OutputPath.append_extension_eq_iff`: the stem with an extension is the name itself exactly if
  this is the extension of the name.
* `Path.parts_append`: a file name is the last part of a path.
-/

namespace CFrontEnd

namespace OutputPath

/-- A text that may stand in front of a file name. -/
def IsParent (parent : List Char) : Prop :=
  parent = [] ∨ ∃ front, parent = front ++ ['/']

/-- A last component that is no `.` component: it has a character, and no slash. -/
structure IsLast (name : List Char) : Prop where
  /-- No slash is in the component. -/
  slash_not_mem : '/' ∉ name
  /-- The component is not empty. -/
  ne_nil : name ≠ []
  /-- The component does not name the directory in front of it. -/
  ne_dot : name ≠ ['.']

/-- A file name: a last component that does not name the directory above. -/
structure IsFileName (name : List Char) : Prop extends IsLast name where
  /-- The component does not name the directory above. -/
  ne_dots : name ≠ ['.', '.']

/-- The extension of the file name of a path. -/
def extension? (path : List Char) : Option (List Char) :=
  (Parts.ofPath? path).bind fun parts => (splitExtension? parts.name).map Prod.snd

variable {parent name stem extension : List Char}

/-- A text that ends neither with a slash nor with a `.` component has no tail. -/
theorem splitTail_eq_self {reversed : List Char} (hslash : ∀ rest, reversed ≠ '/' :: rest)
    (hdotSlash : ∀ rest, reversed ≠ '.' :: '/' :: rest) (hdot : reversed ≠ ['.']) :
    splitTail reversed = ([], reversed) := by
  unfold splitTail
  split
  · exact absurd rfl (hslash _)
  · exact absurd rfl (hdotSlash _)
  · exact absurd rfl hdot
  · rfl

/-- Nothing follows a last component. -/
theorem IsLast.splitTail_eq (h : IsLast name) :
    splitTail (name.reverse ++ parent.reverse) = ([], name.reverse ++ parent.reverse) := by
  have hslash : ∀ c ∈ name.reverse, c ≠ '/' := fun c hc =>
    ne_of_mem_of_not_mem (List.mem_reverse.mp hc) h.slash_not_mem
  have hnil : name.reverse ≠ [] := by simpa using h.ne_nil
  have hdot : name.reverse ≠ ['.'] := fun heq => h.ne_dot (by simpa using congrArg List.reverse heq)
  -- the last two characters decide, and those that are of the component are no slashes
  match hreverse : name.reverse with
  | [] => exact absurd hreverse hnil
  | [c] =>
    rw [hreverse] at hslash hdot
    exact splitTail_eq_self (by simp_all) (by simp_all) (by simp_all)
  | c :: d :: front =>
    rw [hreverse] at hslash
    exact splitTail_eq_self (by simp_all) (by simp_all) (by simp)

/-- The last component of a path is its file name, unless it names the directory above. -/
theorem ofPath?_append (hparent : IsParent parent) (h : IsLast name) :
    Parts.ofPath? (parent ++ name) =
      if name = ['.', '.'] then none else some { parent, name, tail := [] } := by
  have hfree : ∀ c ∈ name.reverse, (c != '/') = true := fun c hc =>
    bne_iff_ne.mpr (ne_of_mem_of_not_mem (List.mem_reverse.mp hc) h.slash_not_mem)
  have hstop : parent.reverse.takeWhile (· != '/') = [] ∧
      parent.reverse.dropWhile (· != '/') = parent.reverse := by
    rcases hparent with rfl | ⟨front, rfl⟩ <;> simp
  rw [Parts.ofPath?, List.reverse_append, h.splitTail_eq]
  simp only [List.takeWhile_append_of_pos hfree, List.dropWhile_append_of_pos hfree, hstop]
  simp [h.ne_nil]

/-! ### Stems and extensions -/

/-- A name is split at its last dot, if something stands in front of it. -/
theorem splitExtension?_append (hstem : stem ≠ []) (hextension : '.' ∉ extension) :
    splitExtension? (stem ++ '.' :: extension) = some (stem, extension) := by
  have hfree : ∀ c ∈ extension.reverse, (c != '.') = true := fun c hc =>
    bne_iff_ne.mpr (ne_of_mem_of_not_mem (List.mem_reverse.mp hc) hextension)
  have hreverse :
      (stem ++ '.' :: extension).reverse = extension.reverse ++ '.' :: stem.reverse := by simp
  rw [splitExtension?, hreverse, List.dropWhile_append_of_pos hfree,
    List.takeWhile_append_of_pos hfree]
  obtain ⟨c, front, hfront⟩ := List.exists_cons_of_ne_nil (List.reverse_ne_nil_iff.mpr hstem)
  have hstem : stem = (c :: front).reverse := by rw [← hfront, List.reverse_reverse]
  simp [hstem]

/-- A name that has an extension is its stem, which is not empty, a dot and the extension, in which
no dot is. -/
theorem eq_append_of_splitExtension? (h : splitExtension? name = some (stem, extension)) :
    name = stem ++ '.' :: extension ∧ stem ≠ [] ∧ '.' ∉ extension := by
  have hjoin : name.reverse.takeWhile (· != '.') ++ name.reverse.dropWhile (· != '.') =
      name.reverse := List.takeWhile_append_dropWhile
  have hhead := List.head?_dropWhile_not (· != '.') name.reverse
  have hfree : '.' ∉ name.reverse.takeWhile (· != '.') := fun hmem => by
    simpa using List.all_eq_true.mp List.all_takeWhile '.' hmem
  unfold splitExtension? at h
  -- the name, read from its end, is free of dots up to the rest that is the dot and the stem
  generalize name.reverse.takeWhile (· != '.') = last at h hjoin hfree
  generalize name.reverse.dropWhile (· != '.') = front at h hjoin hhead
  match front with
  | [] => simp at h
  | [_] => simp at h
  | dot :: c :: front =>
    obtain rfl : dot = '.' := by simpa using hhead
    obtain ⟨rfl, rfl⟩ := Prod.mk.inj (Option.some.inj h)
    refine ⟨?_, by simp, by simpa using hfree⟩
    rw [← List.reverse_reverse name, ← hjoin]
    simp

theorem stem_ne_nil (h : name ≠ []) : OutputPath.stem name ≠ [] := by
  cases hsplit : splitExtension? name with
  | none => simpa [OutputPath.stem, hsplit] using h
  | some parts =>
    simpa [OutputPath.stem, hsplit] using (eq_append_of_splitExtension? hsplit).2.1

/-- The stem of a name has no other characters than the name. -/
theorem mem_of_mem_stem {c : Char} (h : c ∈ OutputPath.stem name) : c ∈ name := by
  cases hsplit : splitExtension? name with
  | none => simpa [OutputPath.stem, hsplit] using h
  | some parts =>
    rw [(eq_append_of_splitExtension? hsplit).1]
    exact List.mem_append_left _ (by simpa [OutputPath.stem, hsplit] using h)

/-- The stem with an extension is the name itself exactly if this is the extension of the name. -/
theorem append_extension_eq_iff (hname : name ≠ []) (hextension : '.' ∉ extension) :
    OutputPath.stem name ++ '.' :: extension = name ↔
      (splitExtension? name).map Prod.snd = some extension := by
  constructor
  · intro h
    have hsplit := splitExtension?_append (stem_ne_nil hname) hextension
    rw [h] at hsplit
    rw [hsplit, Option.map_some]
  · intro h
    obtain ⟨⟨stem, found⟩, hsplit, rfl⟩ := Option.map_eq_some_iff.mp h
    have hstem : OutputPath.stem name = stem := by simp [OutputPath.stem, hsplit]
    rw [hstem, ← (eq_append_of_splitExtension? hsplit).1]

/-! ### Exchanging the extension -/

theorem replaceExtension_append (hparent : IsParent parent) (h : IsLast name) :
    replaceExtension extension (parent ++ name) =
      if name = ['.', '.'] then parent ++ name
      else parent ++ OutputPath.stem name ++ '.' :: extension := by
  rw [replaceExtension, ofPath?_append hparent h]
  by_cases hdots : name = ['.', '.'] <;> simp [hdots]

/-- What exchanging the extension makes of a path: the stem is kept, and so is what stands in front
of it. Where the stem is a dot, cutting the extension leaves the directory above. -/
theorem withExtension_eq (hparent : IsParent parent) (hname : IsFileName name) :
    withExtension extension (parent ++ name) =
      if OutputPath.stem name = ['.'] then parent ++ ['.', '.']
      else parent ++ OutputPath.stem name ++ '.' :: extension := by
  have hparts := ofPath?_append hparent hname.toIsLast
  rw [if_neg hname.ne_dots] at hparts
  cases hsplit : splitExtension? name with
  | none =>
    have hstem : OutputPath.stem name = name := by simp [OutputPath.stem, hsplit]
    have hcut : cutExtension (parent ++ name) = parent ++ name := by
      simp [cutExtension, hparts, hsplit]
    rw [withExtension, hcut, replaceExtension_append hparent hname.toIsLast, hstem,
      if_neg hname.ne_dots, if_neg hname.ne_dot]
  | some parts =>
    obtain ⟨stem, found⟩ := parts
    obtain ⟨hjoin, hne, -⟩ := eq_append_of_splitExtension? hsplit
    have hstem : OutputPath.stem name = stem := by simp [OutputPath.stem, hsplit]
    have hcut : cutExtension (parent ++ name) = parent ++ (stem ++ ['.']) := by
      simp [cutExtension, hparts, hsplit]
    -- what is left after the cut ends with a dot, and is a file name unless the stem is a dot
    have hlast : IsLast (stem ++ ['.']) := by
      refine ⟨?_, by simp, by simpa using hne⟩
      have hslash : '/' ∉ OutputPath.stem name := fun hmem =>
        hname.slash_not_mem (mem_of_mem_stem hmem)
      simpa [hstem] using hslash
    have hcutStem : OutputPath.stem (stem ++ ['.']) = stem := by
      simp [OutputPath.stem, splitExtension?_append hne (List.not_mem_nil (a := '.'))]
    have hdots : stem ++ ['.'] = ['.', '.'] ↔ stem = ['.'] := by
      rw [show ['.', '.'] = ['.'] ++ ['.'] from rfl, List.append_left_inj]
    rw [withExtension, hcut, replaceExtension_append hparent hlast, hcutStem, hstem]
    simp only [hdots]
    split <;> simp_all

end OutputPath

/-! ### The last part of a path -/

namespace Path

open OutputPath (IsParent)

variable {parent name : List Char}

/-- A slash ends the parts in front of it. -/
theorem splitSlashes_append (front rest : List Char) :
    splitSlashes (front ++ '/' :: rest) = splitSlashes front ++ splitSlashes rest := by
  induction front with
  | nil => simp [splitSlashes]
  | cons c front ih =>
    by_cases hslash : c = '/'
    · simp [splitSlashes, hslash, ih]
    · rw [List.cons_append, splitSlashes, if_neg hslash, splitSlashes, if_neg hslash, ih]
      -- the first part grows by the character
      cases hsplit : splitSlashes front with
      | nil => exact absurd hsplit (splitSlashes_ne_nil front)
      | cons part parts => rfl

/-- A text without a slash is one part. -/
theorem splitSlashes_of_not_mem (h : '/' ∉ name) : splitSlashes name = [name] := by
  induction name with
  | nil => rfl
  | cons c name ih =>
    rw [splitSlashes, if_neg (List.ne_of_not_mem_cons h).symm, ih (List.not_mem_of_not_mem_cons h)]

/-- The last part of a path is what stands behind its last slash. -/
theorem parts_append (hparent : IsParent parent) (h : '/' ∉ name) :
    parts (String.ofList (parent ++ name)) =
      (parts (String.ofList parent)).dropLast ++ [String.ofList name] := by
  simp only [parts, String.toList_ofList]
  rcases hparent with rfl | ⟨front, rfl⟩
  · simp [splitSlashes_of_not_mem h, splitSlashes]
  · rw [List.append_assoc, List.singleton_append, splitSlashes_append, splitSlashes_of_not_mem h,
      splitSlashes_append]
    simp [splitSlashes]

/-- A path is what stands in front of its last part, and this part. -/
theorem exists_append (path : List Char) :
    ∃ parent name, path = parent ++ name ∧ IsParent parent ∧ '/' ∉ name := by
  -- on the end of the path, where the part grows until a slash ends it
  induction path using List.reverseRecOn with
  | nil => exact ⟨[], [], rfl, .inl rfl, by simp⟩
  | append_singleton path c ih =>
    obtain ⟨parent, name, rfl, hparent, hname⟩ := ih
    by_cases hslash : c = '/'
    · exact ⟨parent ++ name ++ [c], [], by simp, .inr ⟨parent ++ name, by rw [hslash]⟩, by simp⟩
    · exact ⟨parent, name ++ [c], by simp, hparent, by simp [hname, Ne.symm hslash]⟩

/-- A file name does not decide where a path starts. -/
theorem isAbsolute_append {other : List Char} (hparent : IsParent parent) (hname : '/' ∉ name)
    (hother : '/' ∉ other) :
    isAbsolute (String.ofList (parent ++ name)) = isAbsolute (String.ofList (parent ++ other)) := by
  simp only [isAbsolute, String.toList_ofList]
  rcases hparent with rfl | ⟨front, rfl⟩
  · have hhead : ∀ text : List Char, '/' ∉ text → (text.head? == some '/') = false := by
      intro text htext
      cases text with
      | nil => rfl
      | cons c text => simpa using (List.ne_of_not_mem_cons htext).symm
    rw [List.nil_append, List.nil_append, hhead name hname, hhead other hother]
  · cases front <;> rfl

end Path

end CFrontEnd
