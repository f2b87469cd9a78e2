import Retrace.Json.Reader

/-!
# Faults

Everything that can go wrong is a cause. The title of a cause is the name under which the command
line reports its kind, and the message is its wording. Causes that an outside part may report with
words of its own carry those words.
-/

namespace Retrace

/-- What is wrong with a configuration. -/
inductive Violation where
  /-- The list of map paths is missing. -/
  | missing
  /-- The map paths are no list. -/
  | notList
  /-- The entry at this place is no text. -/
  | notText (index : Nat)
  /-- There are no map paths. -/
  | noEntry
  /-- Some map path is blank. -/
  | blankEntry
  /-- There is no field of this name. -/
  | unknownField (name : String)
  /-- The map paths are set after the configuration was made. -/
  | frozen
  deriving DecidableEq, Repr

/-- A step from a configuration to a value that is given for it. -/
inductive FieldStep where
  | field (name : String)
  | item (index : Nat)
  deriving DecidableEq, Repr

/-- How a violation is reported: the way to what is wrong, the kind of the violation and its
wording. -/
structure ViolationDetail where
  place : List FieldStep
  kind : String
  message : String
  deriving DecidableEq, Repr

/-- The name of the field that holds the map paths. -/
def mapPathsField : String := "map_paths"

/-- The report of a violation. -/
def Violation.detail : Violation → ViolationDetail
  | .missing => ⟨[.field mapPathsField], "missing", "Field required"⟩
  | .notList => ⟨[.field mapPathsField], "tuple_type", "Input should be a valid tuple"⟩
  | .notText index =>
    ⟨[.field mapPathsField, .item index], "string_type", "Input should be a valid string"⟩
  | .noEntry => ⟨[.field mapPathsField], "value_error",
      "Value error, map_paths must contain at least one path."⟩
  | .blankEntry => ⟨[.field mapPathsField], "value_error",
      "Value error, map_paths cannot contain empty entries."⟩
  | .unknownField name => ⟨[.field name], "extra_forbidden", "Extra inputs are not permitted"⟩
  | .frozen => ⟨[.field mapPathsField], "frozen_instance", "Instance is frozen"⟩

/-- How violations are reported at length. The words are those of whoever checks the fields. -/
abbrev Reporter := List Violation → String

/-- Why a source map cannot be loaded. -/
inductive LoadFault where
  | noName
  | absent (path : String)
  | empty (path : String)
  | unparsable
  | other (reason : String)
  deriving DecidableEq, Repr

/-- Why there is no stack to convert. -/
inductive InputFault where
  | mapAbsent (path : String)
  | stackAbsent (path : String)
  | stackUnreadable (path : String)
  | clipboard (reason : String)
  | empty
  deriving DecidableEq, Repr

/-- Which kind of access to a file failed. -/
inductive AccessKind where
  | failed
  | denied
  | isDirectory
  | notDirectory
  | notFound
  deriving DecidableEq, Repr

/-- What is wrong with a segment of a source map. -/
inductive SegmentFault where
  /-- The last number goes on behind the end. -/
  | unfinished
  /-- There is no source of this number. -/
  | noSource (segment : List Char) (source : Int) (count : Nat)
  /-- There is no name of this number. -/
  | noName (segment : List Char) (name : Int) (count : Nat)
  /-- A source has no position. -/
  | incomplete (segment : List Char) (numbers : List Int)
  deriving DecidableEq, Repr

/-- Everything that can go wrong. -/
inductive Fault where
  /-- No map paths are given. -/
  | noPaths
  /-- The given map paths make no configuration, as the report says. -/
  | invalidPaths (violations : List Violation) (report : String)
  /-- The fields make no configuration, as the report says. -/
  | invalidFields (violations : List Violation) (report : String)
  /-- A directory of source maps cannot be listed. -/
  | directory (path : String)
  /-- A source map cannot be loaded. -/
  | load (cause : LoadFault)
  /-- There is no stack to convert. -/
  | input (cause : InputFault)
  /-- A stack has no frames. -/
  | noFrames
  /-- A segment of a source map cannot be decoded. -/
  | segment (cause : SegmentFault)
  /-- A document is no JSON. -/
  | malformed (problem : Json.Problem) (place : Json.Place)
  /-- A number cannot be read or written. -/
  | numeral (cause : Number.NumeralFault)
  /-- A value is not what it should be. -/
  | value (reason : String)
  /-- Something outside failed. -/
  | runtime (reason : String)
  /-- A document lacks a key, given as it is shown. -/
  | missingKey (key : String)
  /-- Access to a file failed. -/
  | access (kind : AccessKind) (reason : String)
  /-- A file is not text. -/
  | undecodable (reason : String)
  /-- A value has the wrong shape for what is done with it. -/
  | shape
  /-- A value lacks what is asked of it. -/
  | attribute
  /-- A position lies outside. -/
  | index
  /-- A number is too large for what is done with it. -/
  | overflow
  /-- The program is started in a way that it cannot serve. -/
  | usage (reason : String)
  deriving DecidableEq, Repr

/-- The wording of a load fault. -/
def LoadFault.message : LoadFault → String
  | .noName => "file name was empty"
  | .absent path => "file " ++ path ++ " does not exist or is inaccessible"
  | .empty path => "file " ++ path ++ " was empty"
  | .unparsable => "could not parse source map"
  | .other reason => reason

/-- The name of the kind of a load fault. -/
def LoadFault.title : LoadFault → String
  | .noName | .absent _ => "SourceMapNotFoundError"
  | .empty _ => "EmptySourceMapError"
  | .unparsable => "SourceMapParseError"
  | .other _ => "SourceMapLoadError"

/-- The wording of an input fault. -/
def InputFault.message : InputFault → String
  | .mapAbsent path => "Source map path " ++ path ++ " does not exist"
  | .stackAbsent path => "Stack file path " ++ path ++ " does not exist"
  | .stackUnreadable path => "Could not read contents of " ++ path
  | .clipboard reason => "Could not read clipboard contents: " ++ reason
  | .empty => "Stack contents are empty"

/-- The name of a kind of access fault. -/
def AccessKind.title : AccessKind → String
  | .failed => "OSError"
  | .denied => "PermissionError"
  | .isDirectory => "IsADirectoryError"
  | .notDirectory => "NotADirectoryError"
  | .notFound => "FileNotFoundError"

/-- A list of integers between brackets. -/
def shownNumbers (numbers : List Int) : String :=
  "[" ++ ", ".intercalate (numbers.map fun number => String.ofList (Number.decimal number)) ++ "]"

/-- The wording of a reference to something that a source map does not have. -/
def outOfRangeMessage (segment : List Char) (kind : String) (number : Int) (count : Nat) :
    String :=
  "Segment " ++ String.ofList segment ++ " references " ++ kind ++ " " ++
    String.ofList (Number.decimal number) ++ "; there are " ++ count.repr ++ " " ++ kind ++ "s"

/-- The wording of a segment fault. -/
def SegmentFault.message : SegmentFault → String
  | .unfinished => "leftover cur/shift in vlq decode"
  | .noSource segment source count => outOfRangeMessage segment "source" source count
  | .noName segment name count => outOfRangeMessage segment "name" name count
  | .incomplete segment numbers =>
    "Invalid segment " ++ String.ofList segment ++ ", parsed as " ++ shownNumbers numbers

/-- The integers that the wording of a segment fault writes. -/
def SegmentFault.numbers : SegmentFault → List Int
  | .unfinished => []
  | .noSource _ source _ => [source]
  | .noName _ name _ => [name]
  | .incomplete _ numbers => numbers

namespace Fault

/-- The fault of a segment. Where its wording would need a number of too many digits, that is the
fault instead. -/
def ofSegment (cause : SegmentFault) : Fault :=
  match cause.numbers.mapM Number.writeInteger with
  | .ok _ => .segment cause
  | .error fault => .numeral fault

/-- The fault of a text that cannot be read as JSON. -/
def ofRead : Json.ReadFault → Fault
  | .malformed problem place => .malformed problem place
  | .numeral cause => .numeral cause

/-- What every failure to make a converter begins with. -/
def creationMessage (reason : String) : String :=
  "Could not create StackConverter: " ++ reason

/-- What is said of map paths that make no configuration, in front of the report. -/
def invalidPathsMessage : String :=
  creationMessage "invalid source map paths"

/-- The wording of a fault. Values that do not fit have none: the words for them are not this
library's, and no answer shows them. -/
def message : Fault → String
  | .noPaths => creationMessage "no source map file paths were provided!"
  | .invalidPaths _ report => invalidPathsMessage ++ ": " ++ report
  | .invalidFields _ report => report
  | .directory path => creationMessage (path ++ " does not exist or is inaccessible!")
  | .load cause => cause.message
  | .input cause => cause.message
  | .noFrames => "No stack frames found in stack input"
  | .segment cause => cause.message
  | .malformed problem place => Json.malformedMessage problem place
  | .numeral cause => cause.message
  | .value reason => reason
  | .runtime reason => reason
  | .missingKey key => key
  | .access _ reason => reason
  | .undecodable reason => reason
  | .shape | .attribute | .index | .overflow => ""
  | .usage reason => reason

/-- The name of the kind of a fault. -/
def title : Fault → String
  | .noPaths | .invalidPaths _ _ => "ConfigurationError"
  | .invalidFields _ _ => "ValidationError"
  | .directory _ => "DirectoryError"
  | .load cause => cause.title
  | .input _ => "StackInputError"
  | .noFrames => "StackParseError"
  | .segment _ => "SourceMapDecodeError"
  | .malformed _ _ => "JSONDecodeError"
  | .numeral _ | .value _ => "ValueError"
  | .runtime _ => "RuntimeError"
  | .missingKey _ => "KeyError"
  | .access kind _ => kind.title
  | .undecodable _ => "UnicodeDecodeError"
  | .shape => "TypeError"
  | .attribute => "AttributeError"
  | .index => "IndexError"
  | .overflow => "OverflowError"
  | .usage _ => "BadParameter"

/-- The library raises the fault itself while it converts frames. -/
def isOwn : Fault → Bool
  | .load (.other _) => false
  | .load _ | .numeral _ => true
  | _ => false

end Fault

/-- How faults are told. Those of the library have their wording. For any other fault, whoever raised
it has words of his own, and to say them may be a fault in turn. -/
structure Telling where
  words : Fault → Except Fault String
  own : ∀ fault, fault.isOwn = true → words fault = .ok fault.message

/-- Every fault is told by its wording. -/
def Telling.plain : Telling where
  words fault := .ok fault.message
  own _ _ := rfl

end Retrace
