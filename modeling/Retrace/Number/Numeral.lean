import Retrace.Text.Blank
import Retrace.Text.Digit
import Retrace.Text.Lines
import Retrace.Text.Quoted

/-!
# Integers as text

Integers have no size limit of their own, but none of more than 4300 decimal digits is read from a
text or written to one. Reading knows the digits of every script; writing uses the ASCII digits.
-/

namespace Retrace.Number

/-- The most decimal digits that an integer may have when it is read or written. -/
def digitLimit : Nat := 4300

/-- Why a text gives no integer, or an integer no text. -/
inductive NumeralFault where
  /-- A text has this many digits, which is more than the limit. -/
  | tooManyDigits (count : Nat)
  /-- An integer to be written has more digits than the limit. -/
  | tooLarge
  /-- A text has some other form than that of an integer. -/
  | malformed (text : List Char)
  /-- A value that is no number has no integer part. -/
  | notANumber
  deriving DecidableEq, Repr

/-- The most characters of an offending text that a message shows. -/
def shownTextLimit : Nat := 200

/-- The wording of a numeral fault. -/
def NumeralFault.message : NumeralFault → String
  | .tooManyDigits count =>
    "Exceeds the limit (4300 digits) for integer string conversion: value has " ++ count.repr ++
      " digits; use sys.set_int_max_str_digits() to increase the limit"
  | .tooLarge =>
    "Exceeds the limit (4300 digits) for integer string conversion; " ++
      "use sys.set_int_max_str_digits() to increase the limit"
  | .malformed text =>
    "invalid literal for int() with base 10: " ++
      String.ofList ((Text.quoted text).take shownTextLimit)
  | .notANumber => "cannot convert float NaN to integer"

/-- The number that a run of digits denotes; a character that is no digit counts as zero. -/
def digitsValue (digits : List Char) : Nat :=
  digits.foldl (fun value digit => 10 * value + (Text.digitValue? digit).getD 0) 0

/-- Reads a run of digits, which the caller has found to be one. -/
def readDigits (digits : List Char) : Except NumeralFault Nat :=
  if digits.length ≤ digitLimit then .ok (digitsValue digits)
  else .error (.tooManyDigits digits.length)

/-- Splits a sign off the front of a text; the first part tells whether it is a minus. -/
def splitSign : List Char → Bool × List Char
  | '-' :: rest => (true, rest)
  | '+' :: rest => (false, rest)
  | rest => (false, rest)

/-- The integer of a sign and a magnitude. -/
def signed (negative : Bool) (magnitude : Nat) : Int :=
  if negative then -(magnitude : Int) else magnitude

/-- The character may stand around an integer: a blank that is no information separator. -/
def isPadding (char : Char) : Bool :=
  Text.isBlank char && !(0x1C ≤ char.toNat && char.toNat ≤ 0x1F)

/-- The character belongs to a run of digits in which underscores may separate groups. -/
def isGroupedDigit (char : Char) : Bool :=
  Text.isDigit char || char = '_'

/-- Reads an integer: padding, a sign, digits in groups with single underscores between them, and
padding. Too many digits are reported even if something else follows them. -/
def readInteger (text : List Char) : Except NumeralFault Int :=
  let (negative, body) := splitSign (text.dropWhile isPadding)
  let run := body.takeWhile isGroupedDigit
  if (Text.pieces '_' run).any List.isEmpty then .error (.malformed text)
  else do
    let magnitude ← readDigits (run.filter (· ≠ '_'))
    if (body.dropWhile isGroupedDigit).all isPadding then return signed negative magnitude
    else .error (.malformed text)

/-- The decimal digits of a natural number. -/
def digits (number : Nat) : List Char :=
  Nat.toDigits 10 number

/-- An integer in decimal digits, with a minus in front if it is negative. -/
def decimal (number : Int) : List Char :=
  if number < 0 then '-' :: digits number.natAbs else digits number.natAbs

/-- Writes an integer, unless it has more digits than the limit. -/
def writeInteger (number : Int) : Except NumeralFault (List Char) :=
  if number.natAbs < Nat.pow 10 digitLimit then .ok (decimal number) else .error .tooLarge

end Retrace.Number
