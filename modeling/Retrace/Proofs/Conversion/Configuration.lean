import Mathlib.Data.List.Range
import Mathlib.Data.List.TakeWhile
import Retrace.Conversion.Config

/-!
# Which lists of paths make a configuration

A list of given paths is looked at in three stages: whether there is anything at all, whether every
entry is a text, and whether every text names something. What goes wrong in one stage hides what
would go wrong in the next one. `Config.Decides` says what comes of a list without these stages, and
`ofGiven_decides` that they come to this.
-/

namespace Retrace

namespace Text

/-- A text without the blanks at its ends. -/
def stripped (text : List Char) : List Char :=
  ((text.dropWhile isBlank).reverse.dropWhile isBlank).reverse

/-- A text is stripped to nothing exactly if it is blank. -/
theorem stripped_eq_nil_iff {text : List Char} :
    stripped text = [] ↔ ∀ char ∈ text, isBlank char = true := by
  rw [stripped, List.reverse_eq_nil_iff, List.dropWhile_eq_nil_iff]
  constructor
  · intro rest
    have whole : text.dropWhile isBlank = [] := by
      by_contra nonempty
      have first := rest _ (List.mem_reverse.2 (List.head_mem nonempty))
      rw [List.head_dropWhile_not isBlank nonempty] at first
      cases first
    exact List.dropWhile_eq_nil_iff.1 whole
  · intro blank char isIn
    exact blank char ((List.dropWhile_suffix isBlank).mem (List.mem_reverse.1 isIn))

end Text

theorem isBlankText_iff {text : String} :
    isBlankText text = true ↔ Text.stripped text.toList = [] := by
  rw [isBlankText, List.all_eq_true, Text.stripped_eq_nil_iff]

namespace GivenPath

/-- The text of a given path, if it is a text or stands for one. -/
def text? (given : GivenPath) : Option String :=
  given.plainValue.text?

theorem text?_entry (given : GivenPath) : given.entry.text? = given.text? := by
  unfold text? entry
  cases given.plainValue <;> rfl

/-- The given path is a text that names something, or stands for one. -/
def IsUsable (given : GivenPath) : Prop :=
  ∃ text ∈ given.text?, Text.stripped text.toList ≠ []

/-- The places of the given paths that are no texts, in ascending order. -/
def otherPlaces (given : List GivenPath) : List Nat :=
  (List.range given.length).filter fun place => (given[place]?.bind text?).isNone

end GivenPath

open GivenPath (IsUsable)

/-- The report that a given path is no text. -/
def noTextDetail (place : Nat) : ViolationDetail :=
  ⟨[.field "map_paths", .item place], "string_type", "Input should be a valid string"⟩

/-- The report that some given path is blank. -/
def blankDetail : ViolationDetail :=
  ⟨[.field "map_paths"], "value_error", "Value error, map_paths cannot contain empty entries."⟩

/-- What comes of a list of given paths. -/
structure Config.Decides (reporter : Reporter) (given : List GivenPath)
    (outcome : Except Fault Config) : Prop where
  /-- A list is accepted exactly if it is not empty and all of it is usable. -/
  accepted : (∃ config, outcome = .ok config) ↔ given ≠ [] ∧ ∀ path ∈ given, path.IsUsable
  /-- The texts of an accepted list are kept as they are. -/
  kept : ∀ config, outcome = .ok config →
    given.map GivenPath.text? = config.mapPaths.map some
  /-- The kept paths are accepted once more and give the same configuration. -/
  again : ∀ config, outcome = .ok config →
    ofGiven reporter (config.mapPaths.map (.value ∘ .string)) = .ok config
  /-- That there are no paths is said of the empty list only. -/
  empty : (∃ fault, outcome = .error fault ∧ fault.message =
    "Could not create StackConverter: no source map file paths were provided!") ↔ given = []
  /-- Every other list that is refused is so for the entries that are no texts, each of them
  reported, or for a blank one if all are texts. -/
  refused : ∀ fault, outcome = .error fault → given ≠ [] →
    ∃ violations, fault = .invalidPaths violations (reporter violations) ∧
      violations.map Violation.detail =
        if GivenPath.otherPlaces given = [] then [blankDetail]
        else (GivenPath.otherPlaces given).map noTextDetail
  /-- All faults are faults of a configuration. -/
  named : ∀ fault, outcome = .error fault → fault.title = "ConfigurationError"

namespace Config

variable {reporter : Reporter} {given : List GivenPath} {texts : List String}

/-- The places that are reported are those of the entries that are no texts. -/
theorem otherPlaces_entries (given : List GivenPath) (first : Nat) :
    Entry.otherPlaces first (given.map GivenPath.entry) =
      (GivenPath.otherPlaces given).map (first + ·) := by
  induction given generalizing first with
  | nil => rfl
  | cons path given inductionHypothesis =>
    have later : GivenPath.otherPlaces (path :: given) =
        (if path.text?.isNone then [0] else []) ++ (GivenPath.otherPlaces given).map (· + 1) := by
      unfold GivenPath.otherPlaces
      rw [List.length_cons, List.range_succ_eq_map, List.filter_cons, List.filter_map]
      split <;> simp_all [Function.comp_def]
    have isText := path.text?_entry
    rw [later, List.map_append, List.map_map, List.map_cons]
    cases isEntry : path.entry with
    | text text =>
      rw [isEntry] at isText
      rw [Entry.otherPlaces, inductionHypothesis, ← isText]
      simp [Entry.text?, Function.comp_def, Nat.add_assoc, Nat.add_comm 1]
    | other =>
      rw [isEntry] at isText
      rw [Entry.otherPlaces, inductionHypothesis, ← isText]
      simp [Entry.text?, Function.comp_def, Nat.add_assoc, Nat.add_comm 1]

/-- Given paths that all have a text have these texts. -/
theorem exists_texts (haveTexts : ∀ path ∈ given, path.text?.isSome = true) :
    ∃ texts : List String, given.map GivenPath.text? = texts.map some := by
  refine ⟨given.filterMap GivenPath.text?, ?_⟩
  rw [List.map_filterMap_some_eq_filter_map_isSome, List.filter_eq_self.2]
  intro text isIn
  obtain ⟨path, isPath, rfl⟩ := List.mem_map.1 isIn
  exact haveTexts path isPath

/-- No entry is reported exactly if all given paths are texts. -/
theorem otherPlaces_eq_nil_iff :
    GivenPath.otherPlaces given = [] ↔ ∃ texts : List String,
      given.map GivenPath.text? = texts.map some := by
  constructor
  · intro noOthers
    refine exists_texts fun path isIn => ?_
    obtain ⟨place, isLess, isPath⟩ := List.getElem_of_mem isIn
    have listed := List.filter_eq_nil_iff.1 noOthers place (List.mem_range.2 isLess)
    rw [List.getElem?_eq_getElem isLess, isPath] at listed
    simpa [Option.isSome_iff_ne_none] using listed
  · rintro ⟨texts, areTexts⟩
    refine List.filter_eq_nil_iff.2 fun place isLess => ?_
    have isText : (given.map GivenPath.text?)[place]? = (texts.map some)[place]? := by
      rw [areTexts]
    have sameLength : given.length = texts.length := by
      simpa using congrArg List.length areTexts
    rw [List.mem_range] at isLess
    rw [List.getElem?_map, List.getElem?_map, List.getElem?_eq_getElem isLess,
      List.getElem?_eq_getElem (sameLength ▸ isLess)] at isText
    rw [List.getElem?_eq_getElem isLess]
    simp_all

/-- The entries of given paths that are texts are these texts. -/
theorem filterMap_entries (areTexts : given.map GivenPath.text? = texts.map some) :
    (given.map GivenPath.entry).filterMap Entry.text? = texts := by
  have asGiven : (given.map GivenPath.entry).map Entry.text? = texts.map some := by
    rw [← areTexts, List.map_map]
    exact List.map_congr_left fun path _ => path.text?_entry
  have asTexts := congrArg (List.filterMap id) asGiven
  simpa using asTexts

/-- Given paths that are texts are usable exactly if none of the texts is blank. -/
theorem isUsable_iff (areTexts : given.map GivenPath.text? = texts.map some) :
    (∀ path ∈ given, path.IsUsable) ↔ ∀ text ∈ texts, isBlankText text = false := by
  have named (text : String) : isBlankText text = false ↔ Text.stripped text.toList ≠ [] := by
    rw [Ne, ← isBlankText_iff, Bool.not_eq_true]
  have mem_iff (text : String) : text ∈ texts ↔ some text ∈ given.map GivenPath.text? := by
    rw [areTexts]
    simp
  constructor
  · intro usable text isIn
    obtain ⟨path, isPath, isText⟩ := List.mem_map.1 ((mem_iff text).1 isIn)
    obtain ⟨other, isOther, named'⟩ := usable path isPath
    rw [isText, Option.mem_some_iff] at isOther
    exact (named text).2 (isOther ▸ named')
  · intro noneBlank path isPath
    obtain ⟨text, isIn, isText⟩ := List.mem_map.1 (areTexts ▸ List.mem_map_of_mem isPath)
    exact ⟨text, isText.symm, (named text).1 (noneBlank text isIn)⟩

/-- A list that is not empty is made a configuration of its entries. -/
theorem ofGiven_of_ne_nil (nonempty : given ≠ []) :
    ofGiven reporter given =
      (ofEntries (given.map GivenPath.entry)).mapError (refusedPaths reporter) := by
  obtain ⟨path, given, rfl⟩ := List.exists_cons_of_ne_nil nonempty
  rfl

/-- Entries that are no texts are all reported. -/
theorem ofGiven_of_otherPlaces (others : GivenPath.otherPlaces given ≠ []) :
    ofGiven reporter given =
      .error (refusedPaths reporter ((GivenPath.otherPlaces given).map .notText)) := by
  have nonempty : given ≠ [] := by
    rintro rfl
    exact others rfl
  have places : Entry.otherPlaces 0 (given.map GivenPath.entry) =
      GivenPath.otherPlaces given := by
    simp [otherPlaces_entries]
  obtain ⟨place, places', isCons⟩ := List.exists_cons_of_ne_nil others
  rw [ofGiven_of_ne_nil nonempty, ofEntries, places, isCons]
  rfl

/-- Given paths that are all texts are as good as these texts. -/
theorem ofGiven_of_texts (nonempty : given ≠ [])
    (areTexts : given.map GivenPath.text? = texts.map some) :
    ofGiven reporter given = (ofTexts texts).mapError (refusedPaths reporter) := by
  have places : Entry.otherPlaces 0 (given.map GivenPath.entry) = [] := by
    rw [otherPlaces_entries, otherPlaces_eq_nil_iff.2 ⟨texts, areTexts⟩, List.map_nil]
  rw [ofGiven_of_ne_nil nonempty, ofEntries, places, filterMap_entries areTexts]

/-- Texts make a configuration, which holds them, exactly if there are some and none is blank. -/
theorem ofTexts_eq_ok_iff {config : Config} :
    ofTexts texts = .ok config ↔
      (texts ≠ [] ∧ ∀ text ∈ texts, isBlankText text = false) ∧ config.mapPaths = texts := by
  unfold ofTexts
  split
  · simp_all
  split
  case _ someBlank =>
    obtain ⟨text, isIn, blank⟩ := someBlank
    exact ⟨nofun, fun ⟨⟨_, noneBlank⟩, _⟩ => by simp [noneBlank text isIn] at blank⟩
  case _ nonempty noneBlank =>
    refine ⟨?_, ?_⟩
    · rintro ⟨⟩
      exact ⟨⟨nonempty, by simpa using noneBlank⟩, rfl⟩
    · rintro ⟨-, rfl⟩
      rfl

/-- Texts of which there are some, but some are blank, are refused for this. -/
theorem ofTexts_eq_error {violations : List Violation} (nonempty : texts ≠ [])
    (refused : ofTexts texts = .error violations) : violations = [.blankEntry] := by
  unfold ofTexts at refused
  rw [dif_neg nonempty] at refused
  split at refused
  · exact (Except.error.inj refused).symm
  · cases refused

/-- What a list of given paths comes to. -/
inductive Outcome (reporter : Reporter) (given : List GivenPath) : Except Fault Config → Prop where
  | nothing : given = [] → Outcome reporter given (.error .noPaths)
  | others : given ≠ [] → GivenPath.otherPlaces given ≠ [] →
      Outcome reporter given
        (.error (refusedPaths reporter ((GivenPath.otherPlaces given).map .notText)))
  | blank (texts : List String) : given ≠ [] → given.map GivenPath.text? = texts.map some →
      ¬(∀ text ∈ texts, isBlankText text = false) →
      Outcome reporter given (.error (refusedPaths reporter [.blankEntry]))
  | usable (config : Config) : given.map GivenPath.text? = config.mapPaths.map some →
      Outcome reporter given (.ok config)

theorem outcome_ofGiven (reporter : Reporter) (given : List GivenPath) :
    Outcome reporter given (ofGiven reporter given) := by
  by_cases nonempty : given = []
  · rw [nonempty]
    exact .nothing rfl
  by_cases noOthers : GivenPath.otherPlaces given = []
  · obtain ⟨texts, areTexts⟩ := otherPlaces_eq_nil_iff.1 noOthers
    have someTexts : texts ≠ [] := by
      rintro rfl
      exact nonempty (List.map_eq_nil_iff.1 areTexts)
    rw [ofGiven_of_texts nonempty areTexts]
    cases made : ofTexts texts with
    | ok config =>
      exact .usable config ((ofTexts_eq_ok_iff.1 made).2 ▸ areTexts)
    | error violations =>
      rw [ofTexts_eq_error someTexts made]
      refine .blank texts nonempty areTexts fun noneBlank => ?_
      have accepted := ofTexts_eq_ok_iff.2
        ⟨⟨someTexts, noneBlank⟩, (rfl : (Config.mk texts someTexts noneBlank).mapPaths = texts)⟩
      rw [made] at accepted
      cases accepted
  · rw [ofGiven_of_otherPlaces noOthers]
    exact .others nonempty noOthers

/-- A configuration is made of its own paths again. -/
theorem ofGiven_mapPaths (config : Config) :
    ofGiven reporter (config.mapPaths.map (.value ∘ .string)) = .ok config := by
  have areTexts : (config.mapPaths.map (GivenPath.value ∘ Json.string)).map GivenPath.text? =
      config.mapPaths.map some := by
    rw [List.map_map]
    rfl
  have made : ofTexts config.mapPaths = .ok config :=
    ofTexts_eq_ok_iff.2 ⟨⟨config.nonempty, config.noneBlank⟩, rfl⟩
  rw [ofGiven_of_texts (by simpa using config.nonempty) areTexts, made]
  rfl

/-- Whatever is reported of violations, it does not read as if there were no paths. -/
theorem message_refusedPaths_ne (reporter : Reporter) (violations : List Violation) :
    (refusedPaths reporter violations).message ≠
      "Could not create StackConverter: no source map file paths were provided!" := by
  intro same
  have otherwise : ¬ Fault.invalidPathsMessage.toList <+:
      "Could not create StackConverter: no source map file paths were provided!".toList := by
    decide
  refine otherwise ⟨(": " ++ reporter violations).toList, ?_⟩
  rw [← same, refusedPaths, Fault.message, String.append_assoc, ← String.toList_append]

/-- A list that is not empty is refused as it should be if it is not usable and what is reported
fits it. -/
theorem decides_of_violations {violations : List Violation} (nonempty : given ≠ [])
    (unusable : ¬∀ path ∈ given, path.IsUsable)
    (details : violations.map Violation.detail =
      if GivenPath.otherPlaces given = [] then [blankDetail]
      else (GivenPath.otherPlaces given).map noTextDetail) :
    Decides reporter given (.error (refusedPaths reporter violations)) where
  accepted := by simp [unusable]
  kept := nofun
  again := nofun
  empty := by
    refine ⟨?_, fun isEmpty => absurd isEmpty nonempty⟩
    rintro ⟨fault, ⟨⟩, message⟩
    exact absurd message (message_refusedPaths_ne reporter violations)
  refused := by
    rintro fault ⟨⟩ -
    exact ⟨violations, rfl, details⟩
  named := by
    rintro fault ⟨⟩
    rfl

/-- An outcome decides about the given paths. -/
theorem Outcome.decides {outcome : Except Fault Config}
    (comesTo : Outcome reporter given outcome) : Decides reporter given outcome := by
  cases comesTo with
  | nothing isEmpty =>
    exact {
      accepted := by simp [isEmpty]
      kept := nofun
      again := nofun
      empty := ⟨fun _ => isEmpty, fun _ => ⟨_, rfl, rfl⟩⟩
      refused := fun _ _ nonempty => absurd isEmpty nonempty
      named := by
        rintro fault ⟨⟩
        rfl }
  | others nonempty someOthers =>
    refine decides_of_violations nonempty (fun usable => ?_) ?_
    · refine someOthers (otherPlaces_eq_nil_iff.2 (exists_texts fun path isPath => ?_))
      obtain ⟨text, isText, -⟩ := usable path isPath
      exact Option.isSome_of_mem isText
    · rw [if_neg someOthers, List.map_map]
      rfl
  | blank texts nonempty areTexts someBlank =>
    refine decides_of_violations nonempty (mt (isUsable_iff areTexts).1 someBlank) ?_
    rw [if_pos (otherPlaces_eq_nil_iff.2 ⟨texts, areTexts⟩)]
    rfl
  | usable config areTexts =>
    have nonempty : given ≠ [] := by
      rintro rfl
      exact config.nonempty (List.map_eq_nil_iff.1 areTexts.symm)
    exact {
      accepted := ⟨fun _ => ⟨nonempty, (isUsable_iff areTexts).2 config.noneBlank⟩,
        fun _ => ⟨config, rfl⟩⟩
      kept := by
        rintro _ ⟨⟩
        exact areTexts
      again := by
        rintro _ ⟨⟩
        exact ofGiven_mapPaths config
      empty := ⟨nofun, fun isEmpty => absurd isEmpty nonempty⟩
      refused := nofun
      named := nofun }

/-- A list of given paths is accepted exactly if it is not empty and all of it is usable, and is
kept as it is then. What is refused is refused for all entries that are no texts, or else for a
blank one. -/
theorem ofGiven_decides (reporter : Reporter) (given : List GivenPath) :
    Decides reporter given (ofGiven reporter given) :=
  (outcome_ofGiven reporter given).decides

end Config

end Retrace
