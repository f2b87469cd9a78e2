import Retrace.Conversion.Matching
import Retrace.Proofs.Path.Directories
import Retrace.Proofs.Text.Letters

/-!
# Which path belongs to a file

The last name under the convention with backslashes decides alone which path belongs to a file. A
directory in front of a name has no say in it as long as the convention leaves the name as it is.
Where nothing is left of it, as of a file reference that ends in a separator, the first path that has
the ending of source maps anywhere is taken.
-/

namespace Retrace

/-- The first path that contains a name with the ending of source maps. -/
def firstNaming (name : List Char) (mapPaths : List String) : Option String :=
  mapPaths.find? fun path => name ++ mapEnding.toList <:+: path.toList

/-- A path contains a name with the ending of source maps if it does so with a longer name that ends
in this one. -/
theorem namesMapOf_of_suffix {short long : List Char} {path : String} (ends : short <:+ long)
    (names : namesMapOf long path = true) : namesMapOf short path = true := by
  rw [namesMapOf, Text.occurs_iff] at names ⊢
  obtain ⟨front, rfl⟩ := ends
  rw [List.append_assoc] at names
  exact (List.suffix_append _ _).isInfix.trans names

/-- A file is looked for by the shorter one of its two last names. -/
theorem belongsTo_eq (file path : String) :
    belongsTo file path = namesMapOf (Path.windowsName file.toList) path := by
  rw [belongsTo]
  cases longer : namesMapOf (Path.posixName file.toList) path with
  | false => rw [Bool.false_or]
  | true =>
    have ends := Path.windowsName_suffix_posixName file.toList
    rw [Bool.true_or, namesMapOf_of_suffix ends longer]

/-- The first path that belongs to a file is the first one that contains its shorter last name. -/
theorem findMapPath_eq (file : String) (mapPaths : List String) :
    findMapPath file mapPaths = firstNaming (Path.windowsName file.toList) mapPaths := by
  have sought : belongsTo file = fun path : String =>
      decide (Path.windowsName file.toList ++ mapEnding.toList <:+: path.toList) := by
    funext path
    rw [belongsTo_eq, namesMapOf, Bool.eq_iff_iff, Text.occurs_iff, decide_eq_true_iff]
  rw [findMapPath, firstNaming, sought]

/-- The last name under the convention with backslashes ends the one under the other convention, and
it decides alone: the path of a file is the first one that contains it with the ending of source
maps, and there is none if no path does. -/
theorem findMapPath_by_windowsName (file : String) (mapPaths : List String) :
    Path.windowsName file.toList <:+ Path.posixName file.toList ∧
    (∀ path, findMapPath file mapPaths = some path ↔
      ∃ front back, mapPaths = front ++ path :: back ∧
        Path.windowsName file.toList ++ mapEnding.toList <:+: path.toList ∧
        ∀ earlier ∈ front,
          ¬ Path.windowsName file.toList ++ mapEnding.toList <:+: earlier.toList) ∧
    (findMapPath file mapPaths = none ↔
      ∀ path ∈ mapPaths, ¬ Path.windowsName file.toList ++ mapEnding.toList <:+: path.toList) := by
  refine ⟨Path.windowsName_suffix_posixName file.toList, fun path => ?_, ?_⟩
  · rw [findMapPath_eq, firstNaming, List.find?_eq_some_iff_append, decide_eq_true_iff]
    constructor
    · rintro ⟨names, front, back, cut, others⟩
      exact ⟨front, back, cut, names, by simpa using others⟩
    · rintro ⟨front, back, cut, names, others⟩
      exact ⟨names, front, back, cut, by simpa using others⟩
  · rw [findMapPath_eq, firstNaming, List.find?_eq_none]
    simp only [decide_eq_true_iff]

section Directory

variable {directory name : String}

/-- A path with a name and the ending of source maps contains no longer name. -/
theorem firstNaming_singleton {short long : List Char} (fewer : short.length < long.length) :
    firstNaming short [String.ofList (short ++ mapEnding.toList)] =
        some (String.ofList (short ++ mapEnding.toList)) ∧
      firstNaming long [String.ofList (short ++ mapEnding.toList)] = none := by
  rw [firstNaming, firstNaming]
  constructor
  · simp
  · rw [List.find?_eq_none]
    intro path isOne
    obtain rfl := List.mem_singleton.1 isOne
    rw [decide_eq_true_iff, String.toList_ofList]
    intro inside
    have length := inside.length_le
    rw [List.length_append, List.length_append] at length
    omega

/-- A file in a directory is looked for by what is left of its name. That is the whole name exactly
if the directory is no share as far as it goes, and no single separator with a colon behind it; then,
if there is a name at all, the directory has no say. A file reference that ends in a separator is not
left without a path: the first one with the ending of source maps belongs to it. -/
theorem findMapPath_append (leads : Path.LeadsTo directory.toList name.toList) :
    (∀ mapPaths, findMapPath (directory ++ name) mapPaths =
      firstNaming (Path.nameBehind directory.toList name.toList) mapPaths) ∧
    ((∀ mapPaths, findMapPath (directory ++ name) mapPaths =
        if name = "" then none else firstNaming name.toList mapPaths) ↔
      name ≠ "" ∧ Path.Keeps directory.toList name.toList) := by
  have sought (mapPaths : List String) : findMapPath (directory ++ name) mapPaths =
      firstNaming (Path.nameBehind directory.toList name.toList) mapPaths := by
    rw [findMapPath_eq, String.toList_append, leads.windowsName_append]
  refine ⟨sought, ?_, ?_⟩
  · intro regardless
    have named : name ≠ "" := by
      rintro rfl
      have left : Path.nameBehind directory.toList [] = [] :=
        List.eq_nil_of_length_eq_zero (Nat.le_zero.1 (Path.length_nameBehind_le _ _))
      have chosen := regardless [mapEnding]
      rw [if_pos rfl, sought, String.toList_empty, left, firstNaming] at chosen
      exact absurd chosen (by decide)
    refine ⟨named, ?_⟩
    by_contra lost
    obtain ⟨found, missed⟩ := firstNaming_singleton (Path.length_nameBehind_lt
      (fun empty => named (String.toList_eq_nil_iff.1 empty)) lost)
    have chosen := regardless
      [String.ofList (Path.nameBehind directory.toList name.toList ++ mapEnding.toList)]
    rw [sought, found, if_neg named, missed] at chosen
    cases chosen
  · rintro ⟨named, keeps⟩ mapPaths
    rw [if_neg named, sought, Path.nameBehind_eq_self keeps]

/-- A name behind a whole network share is looked for as it is. -/
theorem findMapPath_append_of_share :
    Path.LeadsTo "\\\\host\\share/".toList ":app.js".toList ∧
    (∀ mapPaths, findMapPath ("\\\\host\\share/" ++ ":app.js") mapPaths =
      firstNaming (Path.nameBehind "\\\\host\\share/".toList ":app.js".toList) mapPaths) ∧
    ((∀ mapPaths, findMapPath ("\\\\host\\share/" ++ ":app.js") mapPaths =
        if ":app.js" = "" then none else firstNaming ":app.js".toList mapPaths) ↔
      ":app.js" ≠ "" ∧ Path.Keeps "\\\\host\\share/".toList ":app.js".toList) := by
  have leads : Path.LeadsTo "\\\\host\\share/".toList ":app.js".toList :=
    ⟨⟨"\\\\host\\share".toList, '/', by decide, by decide⟩, Text.forall_mem_of_all (by decide)⟩
  exact ⟨leads, findMapPath_append leads⟩

/-- A reference without a name, and one whose name is taken for the share of a host, are given the
first source map that there is. -/
theorem findMapPath_of_lostName :
    findMapPath ("https://example.com/" ++ "") ["maps/app.js.map"] = some "maps/app.js.map" ∧
    findMapPath ("//example.com/" ++ "app.js") ["maps/lib.js.map", "maps/app.js.map"] =
      some "maps/lib.js.map" ∧
    firstNaming "app.js".toList ["maps/lib.js.map", "maps/app.js.map"] = some "maps/app.js.map" := by
  decide +kernel

end Directory

end Retrace
