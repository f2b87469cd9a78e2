import Retrace.Json.Basic
import Retrace.Number.Numeral
import Retrace.Text.Quoted

/-!
# Showing JSON values to a reader

A string shows as itself. Inside lists and objects strings are quoted, so that items can be told
apart. The words for null and the truth values are `None`, `True` and `False`.
-/

namespace Retrace.Json

/-- Joins texts with a comma and a space between them. -/
def commaSeparated (texts : List (List Char)) : List Char :=
  List.intercalate [',', ' '] texts

mutual

/-- A value as it shows inside another one. -/
def displayInner : Json → List Char
  | .null => "None".toList
  | .bool true => "True".toList
  | .bool false => "False".toList
  | .integer value => Number.decimal value
  | .float value => value.write "nan" "inf"
  | .string text => Text.quoted text.toList
  | .array items => '[' :: (commaSeparated (displayItems items) ++ [']'])
  | .object fields => '\x7b' :: (commaSeparated (displayFields fields) ++ ['\x7d'])

/-- The items of a list. -/
def displayItems : List Json → List (List Char)
  | [] => []
  | item :: items => displayInner item :: displayItems items

/-- The fields of an object, a colon and a space behind every key. -/
def displayFields : List (String × Json) → List (List Char)
  | [] => []
  | (key, value) :: fields =>
    (Text.quoted key.toList ++ ':' :: ' ' :: displayInner value) :: displayFields fields

end

/-- A value as it shows by itself. -/
def display : Json → String
  | .string text => text
  | value => String.ofList (displayInner value)

end Retrace.Json
