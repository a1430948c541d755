import CFrontEnd.Proofs.Files.Components

/-!
# Outputs beside Inputs

The output of a compilation goes beside its input: to the same directory, under a name with the same
stem and the extension `s`, and nothing follows the name. A path without a file name is its own
output path, a second exchange of the extension changes nothing, and neither does the first one if
the extension is there.

All of this holds exactly if the stem of the file name is not a dot. Cutting the extension of `..c`
leaves `..`, so the output path is that of the directory above. With a slash behind the name the
extension is exchanged, but a second exchange then leads to the directory above.

## Main definitions

* `Path.EndsInName`: nothing follows the last component of a path.
* `OutputPath.Beside`: an output path is beside an input path.
* `OutputPath.KeepsBeside`: all that is expected of the output path for an input.

## Main results

* `OutputPath.withExtension_fileName`: what an exchange of the extension makes of a file name.
* `outputPath_exact`: for which inputs the output path is as expected, and what others have.
-/

namespace CFrontEnd

namespace Path

open OutputPath

variable {parent name tail : List Char}

/-- Neither a slash nor a `.` component behind a slash is at the end of the path. -/
def EndsInName (path : List Char) : Prop :=
  ¬['/'] <:+ path ∧ ¬['/', '.'] <:+ path

/-- A last part is all of what is behind a slash. -/
theorem suffix_of_slash_suffix {rest : List Char} (h : '/' :: rest <:+ parent ++ name)
    (hslash : '/' ∉ name) : name <:+ rest := by
  rcases List.suffix_or_suffix_of_suffix h (List.suffix_append parent name) with hname | hname
  · exact absurd (hname.mem List.mem_cons_self) hslash
  · rcases List.suffix_cons_iff.mp hname with rfl | hrest
    · exact absurd List.mem_cons_self hslash
    · exact hrest

/-- The path ends in its name exactly if the tail is empty. -/
theorem endsInName_iff (parent : List Char) (hname : IsLast name) (htail : IsTail tail) :
    EndsInName (parent ++ name ++ tail) ↔ tail = [] := by
  constructor
  · rintro ⟨hslash, hdot⟩
    cases htail with
    | nil => rfl
    | slash => exact absurd ⟨_, List.append_assoc ..⟩ hslash
    | dot => exact absurd ⟨_, List.append_assoc ..⟩ hdot
  · -- what follows a slash is no shorter than the last component, which is neither empty nor a dot
    rintro rfl
    rw [List.append_nil]
    refine ⟨fun h => ?_, fun h => ?_⟩
    · exact hname.ne_nil (List.suffix_nil.mp (suffix_of_slash_suffix h hname.slash_not_mem))
    · rcases List.suffix_cons_iff.mp (suffix_of_slash_suffix h hname.slash_not_mem) with hdot | hnil
      · exact hname.ne_dot hdot
      · exact hname.ne_nil (List.suffix_nil.mp hnil)

end Path

namespace OutputPath

open CFrontEnd.Path

variable {parent name tail extension : List Char}

/-! ### Exchanging the extension -/

/-- What exchanging the extension makes of a path with a file name. The name is cut only if it is at
the end, so only then the stem may get lost. -/
theorem withExtension_fileName (hparent : IsParent parent) (hname : IsFileName name)
    (htail : IsTail tail) :
    withExtension extension (parent ++ name ++ tail) =
      if stem name = ['.'] ∧ tail = [] then parent ++ ['.', '.']
      else parent ++ stem name ++ '.' :: extension := by
  by_cases hend : tail = []
  · simp [hend, withExtension_eq hparent hname]
  · -- the name is not cut first, so its own stem is what is left of it
    have hparts := ofPath?_fileName hparent hname htail
    have hcut : cutExtension (parent ++ name ++ tail) = parent ++ name ++ tail := by
      obtain ⟨c, rest, rfl⟩ := List.exists_cons_of_ne_nil hend
      rw [cutExtension, hparts]
    rw [withExtension, hcut, replaceExtension, hparts, if_neg fun h => hend h.2]

/-- A path without parts stays as it is. -/
theorem withExtension_of_ofPath? {path : List Char} (h : Parts.ofPath? path = none) :
    withExtension extension path = path := by
  have hcut : cutExtension path = path := by rw [cutExtension, h]
  rw [withExtension, hcut, replaceExtension, h]

/-- A file name is still a file name once its extension is that of outputs. -/
theorem IsFileName.exchange (h : IsFileName name) : IsFileName (stem name ++ ['.', 's']) := by
  -- it ends with another character than the components that are no file names
  have hlast : ∀ text : List Char, text.getLast? ≠ some 's' → stem name ++ ['.', 's'] ≠ text :=
    fun text htext heq => htext (by simp [← heq])
  have hslash : '/' ∉ stem name := fun hmem => h.slash_not_mem (mem_of_mem_stem hmem)
  exact ⟨⟨by simpa using hslash, by simp, hlast _ (by simp)⟩, hlast _ (by simp)⟩

/-- A file name with the extension of outputs is split into the stem it had and this extension. -/
theorem splitExtension?_exchange (h : IsFileName name) :
    splitExtension? (stem name ++ ['.', 's']) = some (stem name, ['s']) :=
  splitExtension?_append (stem_ne_nil h.ne_nil) (by decide)

theorem stem_exchange (h : IsFileName name) : stem (stem name ++ ['.', 's']) = stem name := by
  rw [stem, splitExtension?_exchange h]
  rfl

/-! ### Beside an input -/

/-- The output path is beside the input path. -/
structure Beside (input output : List Char) : Prop where
  /-- The components in front of the last one are the same. -/
  dropLast_eq : (components output).dropLast = (components input).dropLast
  /-- The last components have the same stem. -/
  stem_eq : fileStem? output = fileStem? input
  /-- The output has the extension of outputs. -/
  extension_eq : fileExtension? output = some ['s']
  /-- Nothing follows the file name of the output. -/
  endsInName : EndsInName output

theorem beside_fileName (hparent : IsParent parent) (hname : IsFileName name)
    (htail : IsTail tail) :
    Beside (parent ++ name ++ tail) (parent ++ stem name ++ ['.', 's']) := by
  have hexchange := hname.exchange
  have hinput := fileName?_append hparent hname htail
  have houtput := fileName?_append hparent hexchange .nil
  have hcomponents := components_fileName hparent hexchange .nil
  have hends := (endsInName_iff parent hexchange.toIsLast .nil).mpr rfl
  rw [List.append_nil, ← List.append_assoc] at houtput hcomponents hends
  refine ⟨?_, ?_, ?_, hends⟩
  · rw [hcomponents, components_fileName hparent hname htail, List.dropLast_concat,
      List.dropLast_concat]
  · rw [fileStem?, fileStem?, houtput, hinput, Option.map_some, Option.map_some,
      stem_exchange hname]
  · rw [fileExtension?, houtput, Option.bind_some, splitExtension?_exchange hname, Option.map_some]

/-- All that is expected of the output path for an input. -/
structure KeepsBeside (input : String) : Prop where
  /-- The output is beside an input that has a file name. -/
  beside : ∀ name, fileName? input.toList = some name →
    Beside input.toList (outputPath input).toList
  /-- An input without a file name is its own output. -/
  unnamed : fileName? input.toList = none → outputPath input = input
  /-- The output is its own output. -/
  again : outputPath (outputPath input) = outputPath input
  /-- An input that ends in its file name is its own output exactly if the extension is there. -/
  same_iff : ∀ name, fileName? input.toList = some name → EndsInName input.toList →
    (outputPath input = input ↔ fileExtension? input.toList = some ['s'])

/-- The output path for an input with a file name. -/
theorem outputPath_fileName (hparent : IsParent parent) (hname : IsFileName name)
    (htail : IsTail tail) :
    outputPath (String.ofList (parent ++ name ++ tail)) =
      String.ofList (if stem name = ['.'] ∧ tail = [] then parent ++ ['.', '.']
        else parent ++ stem name ++ ['.', 's']) := by
  rw [outputPath, String.toList_ofList, withExtension_fileName hparent hname htail]

/-- The output path for an output path: the stem is still the same, and nothing follows the name. -/
theorem outputPath_exchange (hparent : IsParent parent) (hname : IsFileName name) :
    outputPath (String.ofList (parent ++ stem name ++ ['.', 's'])) =
      String.ofList (if stem name = ['.'] then parent ++ ['.', '.']
        else parent ++ stem name ++ ['.', 's']) := by
  have houtput := outputPath_fileName hparent hname.exchange .nil
  rw [List.append_nil, ← List.append_assoc, stem_exchange hname] at houtput
  simpa using houtput

/-- An input without a file name is its own output path, which is all that is expected of it. -/
theorem keepsBeside_of_fileName?_eq_none {input : String} (hnone : fileName? input.toList = none)
    (hparts : Parts.ofPath? input.toList = none) : KeepsBeside input := by
  have houtput : outputPath input = input := by
    rw [outputPath, withExtension_of_ofPath? hparts, String.ofList_toList]
  have hunnamed : ∀ name, fileName? input.toList ≠ some name := by simp [hnone]
  exact ⟨fun name hname => absurd hname (hunnamed name), fun _ => houtput, by rw [houtput, houtput],
    fun name hname => absurd hname (hunnamed name)⟩

/-- The output path is beside the input, unless the stem is a dot and the name is at the end. -/
theorem beside_outputPath (hparent : IsParent parent) (hname : IsFileName name)
    (htail : IsTail tail) (h : ¬(stem name = ['.'] ∧ tail = [])) :
    Beside (parent ++ name ++ tail)
      (outputPath (String.ofList (parent ++ name ++ tail))).toList := by
  rw [outputPath_fileName hparent hname htail, if_neg h, String.toList_ofList]
  exact beside_fileName hparent hname htail

/-- With a dot as the stem, the output path is that of the directory above if the name is at the
end; if a tail is behind the name, the output path for the output path is. -/
theorem components_outputPath (hparent : IsParent parent) (hname : IsFileName name)
    (htail : IsTail tail) (hstem : stem name = ['.']) :
    (tail = [] → components (outputPath (String.ofList (parent ++ name ++ tail))).toList =
        components parent ++ [.above]) ∧
      (tail ≠ [] →
        components (outputPath (outputPath (String.ofList (parent ++ name ++ tail)))).toList =
          components parent ++ [.above]) := by
  have houtput := outputPath_fileName hparent hname htail
  refine ⟨fun hend => ?_, fun hend => ?_⟩
  · rw [houtput, if_pos ⟨hstem, hend⟩, String.toList_ofList, components_dots hparent]
  · rw [houtput, if_neg fun h => hend h.2, outputPath_exchange hparent hname, if_pos hstem,
      String.toList_ofList, components_dots hparent]

/-- The output path is as expected for an input with a file name whose stem is not a dot. -/
theorem keepsBeside_of_stem_ne (hparent : IsParent parent) (hname : IsFileName name)
    (htail : IsTail tail) (hstem : stem name ≠ ['.']) :
    KeepsBeside (String.ofList (parent ++ name ++ tail)) := by
  have hinput := fileName?_append hparent hname htail
  have hkept : ¬(stem name = ['.'] ∧ tail = []) := fun h => hstem h.1
  have houtput := outputPath_fileName hparent hname htail
  rw [if_neg hkept] at houtput
  refine ⟨fun _ _ => ?beside, fun hnone => ?unnamed, ?again, fun _ _ hends => ?same⟩
  case beside =>
    rw [String.toList_ofList]
    exact beside_outputPath hparent hname htail hkept
  case unnamed =>
    rw [String.toList_ofList, hinput] at hnone
    exact absurd hnone (Option.some_ne_none name)
  case again => rw [houtput, outputPath_exchange hparent hname, if_neg hstem]
  case same =>
    rw [String.toList_ofList] at hends
    obtain rfl := (endsInName_iff parent hname.toIsLast htail).mp hends
    rw [houtput, String.toList_ofList, fileExtension?, hinput, Option.bind_some,
      ← append_extension_eq_iff hname.ne_nil (by decide), String.ofList_inj, List.append_nil,
      List.append_assoc, List.append_right_inj]

/-- With a dot as the stem, either the output path or the output path for it is that of the
directory above, which has no file name. -/
theorem not_keepsBeside_of_stem_eq (hparent : IsParent parent) (hname : IsFileName name)
    (htail : IsTail tail) (hstem : stem name = ['.']) :
    ¬KeepsBeside (String.ofList (parent ++ name ++ tail)) := by
  intro hkeeps
  have hinput := fileName?_append hparent hname htail
  have houtput := outputPath_fileName hparent hname htail
  by_cases hend : tail = []
  · -- the output path has no file name, and so no stem
    have hstem_eq := (hkeeps.beside name (by rwa [String.toList_ofList])).stem_eq
    rw [houtput, if_pos ⟨hstem, hend⟩, String.toList_ofList, String.toList_ofList, fileStem?,
      fileStem?, hinput, fileName?_dots hparent] at hstem_eq
    simp at hstem_eq
  · -- the output path ends in a name with a dot as the stem, and is not its own output path
    have hagain := hkeeps.again
    rw [houtput, if_neg fun h => hend h.2, outputPath_exchange hparent hname, if_pos hstem,
      String.ofList_inj, List.append_assoc, hstem, List.append_right_inj] at hagain
    simp at hagain

end OutputPath

open OutputPath CFrontEnd.Path

/-- The stem of a file name being what is in front of its last dot, the output path is as expected
exactly for the inputs whose stem is not a dot. If the stem is a dot and the name is at the end, the
output path is that of the directory above; with a tail behind the name, it is beside the input, but
the output path for it is that of the directory above. -/
theorem outputPath_exact (input : String) :
    (∀ name, fileName? input.toList = some name →
        IsCut name (stem name) (fileExtension? input.toList)) ∧
      (KeepsBeside input ↔ fileStem? input.toList ≠ some ['.']) ∧
      (fileStem? input.toList = some ['.'] →
        (EndsInName input.toList →
          components (outputPath input).toList = (components input.toList).dropLast ++ [.above]) ∧
        (¬EndsInName input.toList →
          Beside input.toList (outputPath input).toList ∧
            components (outputPath (outputPath input)).toList =
              (components input.toList).dropLast ++ [.above])) := by
  refine ⟨fun name hname => ?_, ?_⟩
  · rw [fileExtension?, hname, Option.bind_some]
    exact isCut_stem name
  rcases exists_fileName input.toList with
    ⟨parent, name, tail, hinput, hparent, hname, htail⟩ | ⟨hnone, hparts⟩
  · obtain rfl : input = String.ofList (parent ++ name ++ tail) := by
      rw [← hinput, String.ofList_toList]
    have hstem : fileStem? (parent ++ name ++ tail) = some (stem name) := by
      rw [fileStem?, fileName?_append hparent hname htail, Option.map_some]
    -- the conditions are now about the name and the tail
    simp only [String.toList_ofList, hstem, ne_eq, Option.some.injEq,
      endsInName_iff parent hname.toIsLast htail, components_fileName hparent hname htail,
      List.dropLast_concat]
    refine ⟨⟨fun hkeeps hdot => not_keepsBeside_of_stem_eq hparent hname htail hdot hkeeps,
      keepsBeside_of_stem_ne hparent hname htail⟩, fun hdot => ?_⟩
    obtain ⟨habove, hagain⟩ := components_outputPath hparent hname htail hdot
    exact ⟨habove, fun hend =>
      ⟨beside_outputPath hparent hname htail fun h => hend h.2, hagain hend⟩⟩
  · have hstem : fileStem? input.toList = none := by rw [fileStem?, hnone, Option.map_none]
    simp [hstem, keepsBeside_of_fileName?_eq_none hnone hparts]

/-- A hidden name with a slash behind it has all that is expected, and with a dot as the stem the
output is at least beside the input. -/
theorem outputPath_exact_slash :
    fileStem? "x/.b.c/".toList = some ['.', 'b'] ∧ KeepsBeside "x/.b.c/" ∧
      fileStem? "x/..c/".toList = some ['.'] ∧ ¬EndsInName "x/..c/".toList ∧
      Beside "x/..c/".toList (outputPath "x/..c/").toList := by
  have hhidden : fileStem? "x/.b.c/".toList = some ['.', 'b'] := by decide
  have hdot : fileStem? "x/..c/".toList = some ['.'] := by decide
  have hslash : ¬EndsInName "x/..c/".toList := fun hends => hends.1 ⟨"x/..c".toList, by decide⟩
  have hkeeps := (outputPath_exact "x/.b.c/").2.1.mpr (by rw [hhidden]; decide)
  exact ⟨hhidden, hkeeps, hdot, hslash, (((outputPath_exact "x/..c/").2.2 hdot).2 hslash).1⟩

/-- The output path for `x/..c` is that of the directory above `x`. Neither does `..s` keep the
extension, which is that of outputs already. -/
theorem outputPath_dotStem :
    ¬KeepsBeside "x/..c" ∧ outputPath "x/..c" = "x/.." ∧ outputPath "..c/" = "..s" ∧
      outputPath "..s" = ".." := by
  refine ⟨fun hkeeps => ?_, by decide, by decide, by decide⟩
  have hbeside := hkeeps.beside ['.', '.', 'c'] (by decide)
  exact absurd hbeside.extension_eq (by decide)

end CFrontEnd
