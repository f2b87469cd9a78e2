import Retrace.Fault
import Retrace.Text.Blank
import Retrace.Text.Quoted

/-!
# Configurations

A configuration is a list of paths of source maps, in the order in which they are matched. There is
at least one path and none is blank. What is wrong with a list of entries is reported for every
entry that is no text; only if all are texts, the list as a whole is looked at.
-/

namespace Retrace

/-- Every character of the text is blank. -/
def isBlankText (text : String) : Bool :=
  text.toList.all Text.isBlank

/-- The paths of source maps, in the order in which they are matched. -/
structure Config where
  mapPaths : List String
  nonempty : mapPaths ≠ []
  noneBlank : ∀ path ∈ mapPaths, isBlankText path = false

/-- An entry of a list of map paths. -/
inductive Entry where
  | text (path : String)
  /-- A value that is no text. -/
  | other
  deriving DecidableEq, Repr

namespace Entry

/-- The text of an entry. -/
def text? : Entry → Option String
  | .text path => some path
  | .other => none

/-- The places of the entries that are no texts, counted from the given one. -/
def otherPlaces (place : Nat) : List Entry → List Nat
  | [] => []
  | .text _ :: entries => otherPlaces (place + 1) entries
  | .other :: entries => place :: otherPlaces (place + 1) entries

end Entry

/-- One of the map paths as it is given: any value, or an object that stands for a path. -/
inductive GivenPath where
  | value (value : Json)
  | pathObject (path : String)

namespace GivenPath

/-- The value that is looked at: an object that stands for a path gives its path. -/
def plainValue : GivenPath → Json
  | .value plain => plain
  | .pathObject path => .string path

/-- The entry that is given. -/
def entry (given : GivenPath) : Entry :=
  match given.plainValue with
  | .string path => .text path
  | _ => .other

end GivenPath

/-- What is given as the map paths of a configuration. -/
inductive GivenPaths where
  | missing
  | notList
  | list (entries : List Entry)
  deriving DecidableEq, Repr

/-- What is given to make a configuration: the map paths, and the names of fields that a
configuration does not have. -/
structure GivenFields where
  mapPaths : GivenPaths
  unknown : List String
  deriving DecidableEq, Repr

namespace Config

/-- Makes a configuration of texts. -/
def ofTexts (paths : List String) : Except (List Violation) Config :=
  if nonempty : paths = [] then .error [.noEntry]
  else if noneBlank : ∃ path ∈ paths, isBlankText path = true then .error [.blankEntry]
  else .ok ⟨paths, nonempty, fun path isPath => by
    rw [← Bool.not_eq_true]
    exact fun blank => noneBlank ⟨path, isPath, blank⟩⟩

/-- Makes a configuration of entries. -/
def ofEntries (entries : List Entry) : Except (List Violation) Config :=
  match Entry.otherPlaces 0 entries with
  | [] => ofTexts (entries.filterMap Entry.text?)
  | places => .error (places.map .notText)

/-- Makes a configuration of what is given as the map paths. -/
def ofGivenPaths : GivenPaths → Except (List Violation) Config
  | .missing => .error [.missing]
  | .notList => .error [.notList]
  | .list entries => ofEntries entries

/-- The fault of fields with violations. -/
def refusedFields (reporter : Reporter) (violations : List Violation) : Fault :=
  .invalidFields violations (reporter violations)

/-- Makes a configuration of fields. -/
def ofFields (reporter : Reporter) (fields : GivenFields) : Except Fault Config :=
  match ofGivenPaths fields.mapPaths, fields.unknown.map Violation.unknownField with
  | .ok config, [] => .ok config
  | .ok _, unknown => .error (refusedFields reporter unknown)
  | .error violations, unknown => .error (refusedFields reporter (violations ++ unknown))

/-- A configuration does not change. -/
def assignPaths (reporter : Reporter) (_ : Config) (_ : GivenPaths) : Except Fault Config :=
  .error (refusedFields reporter [.frozen])

end Config

/-- What is offered as a list of map paths. -/
inductive Offer where
  | nothing
  | entries (given : List Entry)
  /-- A text, which is the list of its characters. -/
  | text (chars : String)
  /-- An object, which is the list of its keys. -/
  | keyed (keys : List String)
  /-- A truth value or a number, which is no list. -/
  | scalar (isZero : Bool)
  deriving DecidableEq, Repr

namespace Offer

/-- The entries of an offer. What has no entries, or is zero or false, offers no paths. -/
def toEntries : Offer → Except Fault (List Entry)
  | .nothing => .error .noPaths
  | .entries [] => .error .noPaths
  | .entries given => .ok given
  | .text chars =>
    if chars.isEmpty then .error .noPaths
    else .ok (chars.toList.map fun char => .text char.toString)
  | .keyed [] => .error .noPaths
  | .keyed keys => .ok (keys.map .text)
  | .scalar isZero => .error (if isZero then .noPaths else .shape)

end Offer

namespace Config

/-- The fault of map paths with violations. -/
def refusedPaths (reporter : Reporter) (violations : List Violation) : Fault :=
  .invalidPaths violations (reporter violations)

/-- Makes a configuration of an offer. -/
def ofOffer (reporter : Reporter) (offer : Offer) : Except Fault Config := do
  let entries ← offer.toEntries
  (ofEntries entries).mapError (refusedPaths reporter)

/-- Makes a configuration of a list of map paths as they are given. -/
def ofGiven (reporter : Reporter) (given : List GivenPath) : Except Fault Config :=
  ofOffer reporter (.entries (given.map GivenPath.entry))

/-- Makes a configuration of paths. -/
def ofPaths (reporter : Reporter) (paths : List String) : Except Fault Config :=
  ofOffer reporter (.entries (paths.map .text))

/-- A configuration as a reader sees it. -/
def display (config : Config) : String :=
  "StackConverter(map_paths=[" ++
    ", ".intercalate (config.mapPaths.map fun path => String.ofList (Text.quoted path.toList)) ++
    "])"

end Config

end Retrace
