import Mathlib.Data.List.Perm.Basic
import Retrace.Conversion.Discovery
import Retrace.Proofs.Conversion.Matching
import Retrace.Proofs.Storage.Answers
import Retrace.Proofs.Text.Letters

/-!
# The source map that a directory gives for a file

The first listed source map whose name contains the name of the file is chosen. The directory itself
has no say, so the choice is made among the names of the listing; it falls on the file's own source
map in every order of the listing exactly if no other listed source map contains the name.
-/

namespace Retrace

/-- The path of a name in a directory. -/
def pathIn (directory name : String) : String :=
  String.ofList (Path.join directory.toList name.toList)

/-- The name is that of a source map and contains the last name of a file with the ending of source
maps. -/
def mayServe (file name : String) : Bool :=
  isMapName name && namesMapOf (Path.windowsName file.toList) name

/-- The path of the source map that a directory gives for a file, if it gives one. -/
def mapOfFile {m : Type → Type} [Monad m] (files : FileSystem m) (directory file : String) :
    m (Except Fault (Option String)) := do
  match ← discoverMaps files directory with
  | .error fault => return .error fault
  | .ok paths => return .ok (findMapPath file paths)

/-- The directory is there and lists names in their order, whenever it is asked. -/
structure Lists {σ : Type} (files : FileSystem (StateM σ)) (directory : String)
    (names : List String) : Prop where
  holds : Always (files.holds directory) (· = .ok true)
  lists : Always (files.listDirectory directory) (· = .ok names)

section Directory

/-- A file name stands behind the directory and a slash, or by itself behind no directory. -/
theorem exists_join (directory : List Char) : ∃ before,
    (∀ name, '/' ∉ name → Path.join directory name = before ++ name) ∧
      (before = [] ∨ ∃ front, before = front ++ ['/'] ∧ front <:+: directory) := by
  have relative {name : List Char} (fileName : '/' ∉ name) : name.head? ≠ some '/' :=
    fun slash => fileName (List.mem_of_head? slash)
  by_cases closed : (directory.isEmpty || directory.getLast? = some '/') = true
  · refine ⟨directory, fun name fileName => ?_, ?_⟩
    · rw [Path.join, if_neg (relative fileName), if_pos closed]
    · rcases List.eq_nil_or_concat' directory with rfl | ⟨front, last, rfl⟩
      · exact .inl rfl
      · obtain rfl : last = '/' := by simpa using closed
        exact .inr ⟨front, rfl, (List.prefix_append _ _).isInfix⟩
  · refine ⟨directory ++ ['/'], fun name fileName => ?_, .inr ⟨directory, rfl, List.infix_rfl⟩⟩
    rw [Path.join, if_neg (relative fileName), if_neg closed, List.append_assoc]
    rfl

/-- A word without slashes that is not in the directory stands in a path exactly if it stands in the
name behind the directory. -/
theorem infix_join_iff {word directory name : List Char} (noSlash : '/' ∉ word)
    (elsewhere : ¬ word <:+: directory) (fileName : '/' ∉ name) :
    word <:+: Path.join directory name ↔ word <:+: name := by
  obtain ⟨before, joined, rfl | ⟨front, rfl, inside⟩⟩ := exists_join directory
  · rw [joined name fileName, List.nil_append]
  · rw [joined name fileName, List.append_assoc, List.singleton_append,
      Text.infix_separated_iff noSlash]
    exact or_iff_right fun inFront => elsewhere (inFront.trans inside)

/-- Different file names have different paths in a directory. -/
theorem pathIn_inj {directory name other : String} (fileName : '/' ∉ name.toList)
    (otherName : '/' ∉ other.toList) (same : pathIn directory name = pathIn directory other) :
    name = other := by
  obtain ⟨before, joined, -⟩ := exists_join directory.toList
  have paths := String.ofList_inj.1 same
  rw [joined _ fileName, joined _ otherName] at paths
  exact String.toList_inj.1 (List.append_cancel_left paths)

end Directory

section Choice

variable {directory file : String} {base : List Char} {names : List String}

/-- A path in a directory belongs to a file if the name in it does. -/
theorem namesMapOf_pathIn {short : List Char} {name : String} (noSlash : '/' ∉ short)
    (plain : ¬ mapEnding.toList <:+: directory.toList) (fileName : '/' ∉ name.toList) :
    namesMapOf short (pathIn directory name) = namesMapOf short name := by
  have noSlash : '/' ∉ short ++ mapEnding.toList := by
    rw [List.mem_append, not_or]
    exact ⟨noSlash, by decide⟩
  have elsewhere : ¬ short ++ mapEnding.toList <:+: directory.toList :=
    fun inside => plain ((List.suffix_append _ _).isInfix.trans inside)
  rw [Bool.eq_iff_iff, namesMapOf, namesMapOf, Text.occurs_iff, Text.occurs_iff, pathIn,
    String.toList_ofList]
  exact infix_join_iff noSlash elsewhere fileName

/-- The first listed source map that may serve a file is chosen. -/
theorem findMapPath_mapsAmong (plain : ¬ mapEnding.toList <:+: directory.toList)
    (fileNames : ∀ name ∈ names, '/' ∉ name.toList) :
    findMapPath file (mapsAmong directory names) =
      (names.find? (mayServe file)).map (pathIn directory) := by
  induction names with
  | nil => rfl
  | cons name names inductionHypothesis =>
    obtain ⟨fileName, others⟩ := List.forall_mem_cons.1 fileNames
    have behind := inductionHypothesis others
    have serves : belongsTo file (pathIn directory name) =
        namesMapOf (Path.windowsName file.toList) name := by
      rw [belongsTo_eq, namesMapOf_pathIn (Path.not_mem_windowsName _) plain fileName]
    by_cases isMap : isMapName name = true
    · have listed : mapsAmong directory (name :: names) =
          pathIn directory name :: mapsAmong directory names := by
        rw [mapsAmong, List.filter_cons_of_pos isMap]
        rfl
      rw [listed, findMapPath, List.find?_cons, List.find?_cons, serves, mayServe, isMap,
        Bool.true_and]
      cases namesMapOf (Path.windowsName file.toList) name with
      | false => exact behind
      | true => rfl
    · have listed : mapsAmong directory (name :: names) = mapsAmong directory names := by
        rw [mapsAmong, List.filter_cons_of_neg isMap, mapsAmong]
      rw [listed, List.find?_cons, mayServe, Bool.eq_false_iff.2 isMap, Bool.false_and]
      exact behind

/-- The source map that bears the whole name of a file may serve it. -/
theorem mayServe_own (endsIn : Path.EndsIn file.toList base) :
    mayServe file (String.ofList (base ++ mapEnding.toList)) = true := by
  rw [mayServe, Bool.and_eq_true, isMapName, List.isSuffixOf_iff_suffix, String.toList_ofList,
    namesMapOf, Text.occurs_iff, String.toList_ofList]
  have ends := Path.windowsName_suffix_posixName file.toList
  rw [Path.posixName_of_endsIn endsIn] at ends
  obtain ⟨front, cut⟩ := ends
  refine ⟨List.suffix_append _ _, ?_⟩
  rw [← cut, List.append_assoc]
  exact (List.suffix_append _ _).isInfix

/-- A directory that lists names gives the first one of them that may serve a file. -/
theorem mapOfFile_always {σ : Type} {files : FileSystem (StateM σ)} (file : String)
    (listing : Lists files directory names) :
    Always (mapOfFile files directory file)
      (· = .ok (findMapPath file (mapsAmong directory names))) := by
  have discovers : Always (discoverMaps files directory) (· = .ok (mapsAmong directory names)) := by
    refine .bind listing.holds ?_
    rintro _ rfl
    refine .bind listing.lists ?_
    rintro _ rfl
    exact .pure rfl
  refine .bind discovers ?_
  rintro _ rfl
  exact .pure rfl

/-- One name is the first of its kind in every order of some names exactly if it is the only one. -/
theorem find?_of_every_order {α : Type} [DecidableEq α] {good : α → Bool} {names : List α}
    {own : α} (isName : own ∈ names) (isGood : good own = true) :
    (∀ order : List α, order.Perm names → order.find? good = some own) ↔
      ∀ name ∈ names, good name = true → name = own := by
  constructor
  · intro always name isIn isOther
    have front := always (name :: names.erase name) (List.perm_cons_erase isIn).symm
    rw [List.find?_cons_of_pos isOther] at front
    exact Option.some.inj front
  · intro only order reordered
    cases found : order.find? good with
    | none =>
      rw [List.find?_eq_none] at found
      exact absurd isGood (found own (reordered.mem_iff.2 isName))
    | some name =>
      rw [only name (reordered.mem_iff.1 (List.mem_of_find?_eq_some found))
        (List.find?_some found)]

/-- For a file in a directory that lists its own source map, the first listed source map is chosen
whose name contains the file's last name. It is the file's own one in every order of the listing
exactly if no other listed source map contains that name. The last name is the one behind the last
slash, but for a colon at the very front of a file in the root. -/
theorem mapOfFile_of_listing {σ : Type} {files : FileSystem (StateM σ)}
    (listing : Lists files directory names) (plain : ¬ mapEnding.toList <:+: directory.toList)
    (fileNames : ∀ name ∈ names, '/' ∉ name.toList) (endsIn : Path.EndsIn file.toList base)
    (own : String.ofList (base ++ mapEnding.toList) ∈ names) :
    (∃ name, names.find? (mayServe file) = some name ∧
      Always (mapOfFile files directory file) (· = .ok (some (pathIn directory name)))) ∧
    ((∀ order : List String, order.Perm names →
        findMapPath file (mapsAmong directory order) =
          some (pathIn directory (String.ofList (base ++ mapEnding.toList)))) ↔
      ∀ name ∈ names, mayServe file name = true →
        name = String.ofList (base ++ mapEnding.toList)) ∧
    (Path.windowsName file.toList = base ∨
      file.toList = '/' :: base ∧ base = ':' :: Path.windowsName file.toList) := by
  have serves := mayServe_own endsIn
  generalize String.ofList (base ++ mapEnding.toList) = ownName at own serves
  refine ⟨?_, ?_, Path.windowsName_of_endsIn endsIn⟩
  · obtain ⟨name, first⟩ : ∃ name, names.find? (mayServe file) = some name := by
      rw [← Option.isSome_iff_exists, List.find?_isSome]
      exact ⟨ownName, own, serves⟩
    have chosen := mapOfFile_always file listing
    rw [findMapPath_mapsAmong plain fileNames, first] at chosen
    exact ⟨name, first, chosen⟩
  · rw [← find?_of_every_order own serves]
    refine forall₂_congr fun order reordered => ?_
    have inOrder : ∀ name ∈ order, '/' ∉ name.toList :=
      fun name isIn => fileNames name (reordered.mem_iff.1 isIn)
    rw [findMapPath_mapsAmong plain inOrder, Option.map_eq_some_iff]
    constructor
    · rintro ⟨name, found, same⟩
      have isIn := inOrder name (List.mem_of_find?_eq_some found)
      rw [found, pathIn_inj isIn (fileNames ownName own) same]
    · intro found
      exact ⟨ownName, found, rfl⟩

/-- Files of one directory with the given names that count the questions. -/
def countingFiles (names : List String) : FileSystem (StateM Nat) where
  holds _ := fun asked => (.ok true, asked + 1)
  isDirectory _ := fun asked => (.ok true, asked + 1)
  readText path := fun asked => (.error (.runtime path), asked + 1)
  listDirectory _ := fun asked => (.ok names, asked + 1)

theorem countingFiles_lists (directory : String) (names : List String) :
    Lists (countingFiles names) directory names where
  holds _ := rfl
  lists _ := rfl

/-- A file behind a slash, which is no network share. -/
theorem endsIn_app : Path.EndsIn "/app.js".toList "app.js".toList where
  ends := ⟨[], rfl⟩
  named := by decide
  undivided := Text.forall_mem_of_all (by decide)
  noShare := by
    intro first second rest begins
    have path : '/' :: 'a' :: "pp.js".toList = first :: second :: rest := begins
    cases path
    decide

/-- A listing with the source maps of several files, of which one bears another's name in its own. -/
theorem mapOfFile_of_mixedListing :
    (∃ name, ["lib.js.map", "notes.txt", "app.js.map", "my.app.js.map"].find? (mayServe "/app.js") =
        some name ∧
      Always (mapOfFile (countingFiles ["lib.js.map", "notes.txt", "app.js.map", "my.app.js.map"])
        "maps" "/app.js") (· = .ok (some (pathIn "maps" name)))) ∧
    ((∀ order : List String,
        order.Perm ["lib.js.map", "notes.txt", "app.js.map", "my.app.js.map"] →
        findMapPath "/app.js" (mapsAmong "maps" order) =
          some (pathIn "maps" (String.ofList ("app.js".toList ++ mapEnding.toList)))) ↔
      ∀ name ∈ ["lib.js.map", "notes.txt", "app.js.map", "my.app.js.map"],
        mayServe "/app.js" name = true →
          name = String.ofList ("app.js".toList ++ mapEnding.toList)) ∧
    (Path.windowsName "/app.js".toList = "app.js".toList ∨
      "/app.js".toList = '/' :: "app.js".toList ∧
        "app.js".toList = ':' :: Path.windowsName "/app.js".toList) :=
  mapOfFile_of_listing (countingFiles_lists "maps" _) (by decide) (by decide) endsIn_app (by decide)

/-- A directory that lists the source map of another file first, whose name ends in the wanted one,
gives that one. -/
theorem mapOfFile_of_longerName :
    ¬ mapEnding.toList <:+: "maps".toList ∧ ["xapp.js.map", "app.js.map"].Nodup ∧
    Path.EndsIn "/app.js".toList "app.js".toList ∧
    String.ofList ("app.js".toList ++ mapEnding.toList) ∈ ["xapp.js.map", "app.js.map"] ∧
    ((mapOfFile (countingFiles ["xapp.js.map", "app.js.map"]) "maps" "/app.js").run 0).1 =
      .ok (some "maps/xapp.js.map") ∧
    pathIn "maps" (String.ofList ("app.js".toList ++ mapEnding.toList)) = "maps/app.js.map" := by
  refine ⟨by decide, by decide, endsIn_app, by decide, by decide, by decide⟩

end Choice

end Retrace
