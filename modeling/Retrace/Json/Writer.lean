import Retrace.Json.Basic
import Retrace.Number.Numeral
import Retrace.Text.Quoted

/-!
# Writing JSON

Items and fields are separated by a comma and a space, keys and values by a colon and a space.
Every character beyond ASCII is escaped, those beyond U+FFFF as a pair of surrogates, so that a
written text is ASCII and has no line end.
-/

namespace Retrace.Json

/-- An escape of four hexadecimal digits. -/
def unitEscape (unit : Nat) : List Char :=
  '\\' :: 'u' :: Text.hexDigits 4 unit

/-- A character between quotes. -/
def escapedChar (char : Char) : List Char :=
  if char = '\x22' || char = '\\' then ['\\', char]
  else if char = '\n' then ['\\', 'n']
  else if char = '\r' then ['\\', 'r']
  else if char = '\t' then ['\\', 't']
  else if char = '\x08' then ['\\', 'b']
  else if char = '\x0c' then ['\\', 'f']
  else if 0x20 ≤ char.toNat && char.toNat < 0x7F then [char]
  else if char.toNat < 0x10000 then unitEscape char.toNat
  else
    unitEscape (0xD800 + (char.toNat - 0x10000) / 0x400) ++
      unitEscape (0xDC00 + (char.toNat - 0x10000) % 0x400)

/-- A string between quotes. -/
def writeString (text : String) : List Char :=
  '\x22' :: text.toList.flatMap escapedChar ++ ['\x22']

mutual

/-- The text of a value. -/
def write : Json → List Char
  | .null => "null".toList
  | .bool true => "true".toList
  | .bool false => "false".toList
  | .integer value => Number.decimal value
  | .float value => value.write "NaN" "Infinity"
  | .string text => writeString text
  | .array [] => ['[', ']']
  | .array (item :: items) => '[' :: (write item ++ writeItems items)
  | .object [] => ['\x7b', '\x7d']
  | .object ((key, value) :: fields) =>
    '\x7b' :: (writeString key ++ ':' :: ' ' :: (write value ++ writeFields fields))

/-- The items behind the first one, and the closing bracket. -/
def writeItems : List Json → List Char
  | [] => [']']
  | item :: items => ',' :: ' ' :: (write item ++ writeItems items)

/-- The fields behind the first one, and the closing brace. -/
def writeFields : List (String × Json) → List Char
  | [] => ['\x7d']
  | (key, value) :: fields =>
    ',' :: ' ' :: (writeString key ++ ':' :: ' ' :: (write value ++ writeFields fields))

end

end Retrace.Json
