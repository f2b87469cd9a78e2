import Retrace.Json.Display
import Retrace.Path.Normal
import Retrace.SourceMap.Mappings

/-!
# Source map documents

A source map is an object with its sources, names and mappings, and perhaps a root that is put in
front of every source. A document may begin with a guard, which keeps it from being run as a script;
everything through the end of the guard's line is ignored.
-/

namespace Retrace.SourceMap

/-- The items that a value consists of: those of an array, the characters of a text, or the keys of
an object. -/
def elements : Json → Except Fault (List Json)
  | .array items => .ok items
  | .string text => .ok (text.toList.map fun char => .string char.toString)
  | .object fields => .ok (fields.map fun field => .string field.1)
  | _ => .error .shape

/-- The value of a field that has to be there. -/
def required (key : String) (fields : List (String × Json)) : Except Fault Json :=
  match Json.find? key fields with
  | some value => .ok value
  | none => .error (.missingKey (String.ofList (Text.quoted key.toList)))

/-- A source below the root. -/
def belowRoot (root source : Json) : Except Fault Json :=
  match root, source with
  | .string root, .string source =>
    .ok (.string (String.ofList (Path.join root.toList source.toList)))
  | _, _ => .error .shape

/-- The sources below the root, if there is one. -/
def rootedSources (root sources : Json) : Except Fault Json :=
  match root with
  | .null => .ok sources
  | root => do
    let sources ← elements sources
    return .array (← sources.mapM (belowRoot root))

/-- Decodes the fields of a source map. -/
def decodeFields (fields : List (String × Json)) : Except Fault Index := do
  let sources ← required "sources" fields
  let root := (Json.find? "sourceRoot" fields).getD .null
  let names ← elements (← required "names" fields)
  match ← required "mappings" fields with
  | .string mappings =>
    let sources ← rootedSources root sources
    decodeMappings sources (names.map Json.display) mappings.toList
  | _ => .error .attribute

/-- Decodes a source map that is given as a value. -/
def decodeValue : Json → Except Fault Index
  | .object fields => decodeFields fields
  | _ => .error .shape

/-- What a guard begins with; a quote may follow. -/
def guardMark : List Char := ")]\x7d".toList

/-- The text behind the guard, if there is a guard. A guard has to end its line. -/
def withoutGuard (text : List Char) : Except Fault (List Char) :=
  if guardMark.isPrefixOf text then
    match text.dropWhile (· ≠ '\n') with
    | [] => .error .index
    | _ :: rest => .ok rest
  else .ok text

/-- Decodes the text of a source map. -/
def decodeText (text : List Char) : Except Fault Index := do
  let text ← withoutGuard text
  match Json.read text with
  | .ok value => decodeValue value
  | .error fault => .error (.ofRead fault)

end Retrace.SourceMap
