import Retrace.Json.Basic
import Retrace.Number.Numeral

/-!
# Reading JSON

The reader consumes a list of characters and says where it stopped by the characters that are left.
It accepts the three words `NaN`, `Infinity` and `-Infinity` as numbers, keeps the last value of a
repeated key, and refuses control characters inside strings. An escaped pair of surrogates gives
one character. Half a pair is no character; the private-use characters from U+FD800 to U+FDFFF stand
for the halves, so that they stay apart and a text shows whether it has one.
-/

namespace Retrace.Json

/-- What the reader misses or refuses at a place in a text. -/
inductive Problem where
  | byteOrderMark
  | value
  | extraData
  | key
  | colon
  | comma
  | unterminatedString
  | controlCharacter
  | escape
  | unicodeEscape
  deriving DecidableEq, Repr

/-- The wording of a problem. -/
def Problem.message : Problem → String
  | .byteOrderMark => "Unexpected UTF-8 BOM (decode using utf-8-sig)"
  | .value => "Expecting value"
  | .extraData => "Extra data"
  | .key => "Expecting property name enclosed in double quotes"
  | .colon => "Expecting ':' delimiter"
  | .comma => "Expecting ',' delimiter"
  | .unterminatedString => "Unterminated string starting at"
  | .controlCharacter => "Invalid control character at"
  | .escape => "Invalid \\escape"
  | .unicodeEscape => "Invalid \\uXXXX escape"

/-- A place in a text: line and column count from one, the offset from zero. -/
structure Place where
  line : Nat
  column : Nat
  offset : Nat
  deriving DecidableEq, Repr

/-- The place behind the first characters of a text. -/
def Place.after (consumed : List Char) : Place where
  line := consumed.count '\n' + 1
  column := (consumed.reverse.takeWhile (· ≠ '\n')).length + 1
  offset := consumed.length

/-- Why a text is no JSON value. -/
inductive ReadFault where
  /-- The text breaks the syntax at a place. -/
  | malformed (problem : Problem) (place : Place)
  /-- The text has a number that is not read. -/
  | numeral (cause : Number.NumeralFault)
  deriving DecidableEq, Repr

/-- The wording of a syntax problem at its place. -/
def malformedMessage (problem : Problem) (place : Place) : String :=
  problem.message ++ ": line " ++ place.line.repr ++ " column " ++ place.column.repr ++
    " (char " ++ place.offset.repr ++ ")"

namespace Reader

/-- Why reading stopped; a syntax problem stands in front of the characters that are left. -/
inductive Stop where
  | problem (problem : Problem) (left : List Char)
  | numeral (cause : Number.NumeralFault)
  deriving DecidableEq, Repr

/-- A reader gives what it read and the characters that are left. -/
abbrev Outcome (α : Type) := Except Stop (α × List Char)

/-- The character may stand between the tokens of a document. -/
def isSpace (char : Char) : Bool :=
  char = ' ' || char = '\t' || char = '\n' || char = '\r'

/-- Drops the space in front of the next token. -/
def skipSpace (text : List Char) : List Char :=
  text.dropWhile isSpace

/-- The value of a hexadecimal digit. -/
def hexValue? (char : Char) : Option Nat :=
  if '0' ≤ char && char ≤ '9' then some (char.toNat - 0x30)
  else if 'a' ≤ char && char ≤ 'f' then some (char.toNat - 0x57)
  else if 'A' ≤ char && char ≤ 'F' then some (char.toNat - 0x37)
  else none

/-- The value of four hexadecimal digits. -/
def hexUnit? (first second third fourth : Char) : Option Nat := do
  let first ← hexValue? first
  let second ← hexValue? second
  let third ← hexValue? third
  let fourth ← hexValue? fourth
  return ((first * 16 + second) * 16 + third) * 16 + fourth

/-- The unit is the first half of a surrogate pair. -/
def isHighSurrogate (unit : Nat) : Bool :=
  0xD800 ≤ unit && unit ≤ 0xDBFF

/-- The unit is the second half of a surrogate pair. -/
def isLowSurrogate (unit : Nat) : Bool :=
  0xDC00 ≤ unit && unit ≤ 0xDFFF

/-- How far behind half of a pair the character lies that stands for it. -/
def halfOffset : Nat := 0xF0000

/-- The character of a single unit, or the one that stands for it. -/
def unitChar (unit : Nat) : Char :=
  if isHighSurrogate unit || isLowSurrogate unit then Char.ofNat (unit + halfOffset)
  else Char.ofNat unit

/-- The character stands for half of a pair. -/
def isHalf (char : Char) : Bool :=
  0xD800 + halfOffset ≤ char.toNat && char.toNat ≤ 0xDFFF + halfOffset

/-- The character of a surrogate pair. -/
def pairChar (high low : Nat) : Char :=
  Char.ofNat (0x10000 + (high - 0xD800) * 0x400 + (low - 0xDC00))

/-- The character that stands for itself or a control character behind a backslash. -/
def escaped? : Char → Option Char
  | '\x22' => some '\x22'
  | '\\' => some '\\'
  | '/' => some '/'
  | 'b' => some '\x08'
  | 'f' => some '\x0c'
  | 'n' => some '\n'
  | 'r' => some '\r'
  | 't' => some '\t'
  | _ => none

/-- Puts a character in front of what a reader of characters gives. -/
def consChar (char : Char) : Outcome (List Char) → Outcome (List Char)
  | .ok (chars, left) => .ok (char :: chars, left)
  | .error stop => .error stop

/-- Reads a string from behind its opening quote to behind its closing one. `opening` is the text
from the opening quote on, in front of which an unterminated string is reported. An escape of four
hexadecimal digits needs a character behind it, and a second half of a pair is looked for only if
one stands behind that as well. -/
def readChars (opening : List Char) : List Char → Outcome (List Char)
  | [] => .error (.problem .unterminatedString opening)
  | '\x22' :: left => .ok ([], left)
  | ['\\'] => .error (.problem .unterminatedString opening)
  | '\\' :: 'u' :: first :: second :: third :: fourth :: rest =>
    let start := 'u' :: first :: second :: third :: fourth :: rest
    if rest.isEmpty then .error (.problem .unicodeEscape start)
    else match hexUnit? first second third fourth with
      | none => .error (.problem .unicodeEscape start)
      | some unit =>
        match rest with
        | '\\' :: 'u' :: first :: second :: third :: fourth :: more =>
          if isHighSurrogate unit && !more.isEmpty then
            match hexUnit? first second third fourth with
            | none =>
              .error (.problem .unicodeEscape ('u' :: first :: second :: third :: fourth :: more))
            | some low =>
              if isLowSurrogate low then consChar (pairChar unit low) (readChars opening more)
              else consChar (unitChar unit)
                (readChars opening ('\\' :: 'u' :: first :: second :: third :: fourth :: more))
          else consChar (unitChar unit)
            (readChars opening ('\\' :: 'u' :: first :: second :: third :: fourth :: more))
        | rest => consChar (unitChar unit) (readChars opening rest)
  | '\\' :: 'u' :: rest => .error (.problem .unicodeEscape ('u' :: rest))
  | '\\' :: char :: rest =>
    match escaped? char with
    | none => .error (.problem .escape ('\\' :: char :: rest))
    | some char => consChar char (readChars opening rest)
  | char :: rest =>
    if char.toNat < 0x20 then .error (.problem .controlCharacter (char :: rest))
    else consChar char (readChars opening rest)
termination_by text => text.length

/-- Splits the digits off the front of a text. -/
def spanDigits (text : List Char) : List Char × List Char :=
  text.span Char.isDigit

/-- Reads the digits behind a point; without any, the point is left. -/
def readFraction : List Char → List Char × List Char
  | '.' :: rest =>
    let (digits, left) := spanDigits rest
    if digits.isEmpty then ([], '.' :: rest) else (digits, left)
  | text => ([], text)

/-- Reads an exponent; without a digit, the letter is left. -/
def readExponent (text : List Char) : Option Int × List Char :=
  match text with
  | [] => (none, [])
  | letter :: rest =>
    if letter = 'e' || letter = 'E' then
      let (negative, body) := Number.splitSign rest
      let (digits, left) := spanDigits body
      if digits.isEmpty then (none, text)
      else (some (Number.signed negative (Number.digitsValue digits)), left)
    else (none, text)

/-- Splits a minus off the front of a text. -/
def splitMinus : List Char → Bool × List Char
  | '-' :: rest => (true, rest)
  | text => (false, text)

/-- Reads the digits in front of the point: a zero alone, or digits that start otherwise. -/
def readWhole : List Char → List Char × List Char
  | '0' :: rest => (['0'], rest)
  | text => spanDigits text

/-- Reads a number. It is an integer if it has neither a fraction nor an exponent. -/
def readNumber (text : List Char) : Outcome Json :=
  let (negative, body) := splitMinus text
  let (whole, rest) := readWhole body
  if whole.isEmpty then .error (.problem .value text)
  else
    let (fraction, rest) := readFraction rest
    match fraction, readExponent rest with
    | [], (none, left) =>
      match Number.readDigits whole with
      | .ok magnitude => .ok (.integer (Number.signed negative magnitude), left)
      | .error cause => .error (.numeral cause)
    | fraction, (exponent, left) =>
      let significand := Number.digitsValue (whole ++ fraction)
      let power := exponent.getD 0 - fraction.length
      .ok (.float (Number.Binary64.ofDecimal negative significand power), left)

/-- The words that stand for a value. -/
def words : List (List Char × Json) :=
  [("null".toList, .null), ("true".toList, .bool true), ("false".toList, .bool false),
   ("NaN".toList, .float .nan), ("Infinity".toList, .float (.infinity false)),
   ("-Infinity".toList, .float (.infinity true))]

/-- Reads a word or a number. -/
def readScalar (text : List Char) : Outcome Json :=
  match words.find? fun word => word.1.isPrefixOf text with
  | some (word, value) => .ok (value, text.drop word.length)
  | none => readNumber text

mutual

/-- Reads the value that a text starts with. `fuel` bounds the number of brackets, items and fields
that are entered; every one of them consumes a character, so the length of the text is enough. -/
def readValue (fuel : Nat) (text : List Char) : Outcome Json :=
  match fuel, text with
  | 0, _ => .error (.problem .value text)
  | _, [] => .error (.problem .value [])
  | fuel + 1, char :: rest =>
    if char = '\x22' then
      match readChars text rest with
      | .ok (chars, left) => .ok (.string (String.ofList chars), left)
      | .error stop => .error stop
    else if char = '[' then
      match skipSpace rest with
      | ']' :: left => .ok (.array [], left)
      | next =>
        match readItems fuel next with
        | .ok (items, left) => .ok (.array items, left)
        | .error stop => .error stop
    else if char = '\x7b' then
      match skipSpace rest with
      | '\x7d' :: left => .ok (.object [], left)
      | next =>
        match readFields fuel [] next with
        | .ok (fields, left) => .ok (.object fields, left)
        | .error stop => .error stop
    else readScalar text

/-- Reads at least one item, to behind the bracket that closes an array. -/
def readItems (fuel : Nat) (text : List Char) : Outcome (List Json) :=
  match fuel with
  | 0 => .error (.problem .value text)
  | fuel + 1 =>
    match readValue fuel text with
    | .error stop => .error stop
    | .ok (item, rest) =>
      match skipSpace rest with
      | ']' :: left => .ok ([item], left)
      | ',' :: rest =>
        match readItems fuel (skipSpace rest) with
        | .ok (items, left) => .ok (item :: items, left)
        | .error stop => .error stop
      | rest => .error (.problem .comma rest)

/-- Reads at least one field, to behind the brace that closes an object, and adds it to the fields
that were read before. -/
def readFields (fuel : Nat) (known : List (String × Json)) (text : List Char) :
    Outcome (List (String × Json)) :=
  match fuel, text with
  | 0, _ => .error (.problem .key text)
  | fuel + 1, '\x22' :: rest =>
    match readChars text rest with
    | .error stop => .error stop
    | .ok (key, rest) =>
      match skipSpace rest with
      | ':' :: rest =>
        match readValue fuel (skipSpace rest) with
        | .error stop => .error stop
        | .ok (value, rest) =>
          let fields := put (String.ofList key) value known
          match skipSpace rest with
          | '\x7d' :: left => .ok (fields, left)
          | ',' :: rest => readFields fuel fields (skipSpace rest)
          | rest => .error (.problem .comma rest)
      | rest => .error (.problem .colon rest)
  | _, _ => .error (.problem .key text)

end

end Reader

/-- The fault of a reader that stopped inside a text. -/
def faultOf (text : List Char) : Reader.Stop → ReadFault
  | .problem problem left => .malformed problem (.after (text.take (text.length - left.length)))
  | .numeral cause => .numeral cause

/-- Reads a text that is one value between spaces. -/
def read (text : List Char) : Except ReadFault Json :=
  if text.head? = some '\ufeff' then .error (.malformed .byteOrderMark (.after []))
  else match Reader.readValue (2 * text.length + 2) (Reader.skipSpace text) with
    | .error stop => .error (faultOf text stop)
    | .ok (value, rest) =>
      match Reader.skipSpace rest with
      | [] => .ok value
      | left => .error (faultOf text (.problem .extraData left))

end Retrace.Json
