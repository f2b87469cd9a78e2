import Retrace.Text.Ranges

/-!
# Decimal digits

A decimal digit is a character of the Unicode category `Nd`, version 14. The category consists of
runs of ten, each in the order of the values 0 to 9, so the table lists only where a run begins.
-/

namespace Retrace.Text

/-- The digits zero, one for each run of ten digits. -/
def digitZeros : List Nat :=
  [0x30, 0x660, 0x6F0, 0x7C0, 0x966, 0x9E6, 0xA66, 0xAE6, 0xB66, 0xBE6, 0xC66, 0xCE6, 0xD66,
   0xDE6, 0xE50, 0xED0, 0xF20, 0x1040, 0x1090, 0x17E0, 0x1810, 0x1946, 0x19D0, 0x1A80, 0x1A90,
   0x1B50, 0x1BB0, 0x1C40, 0x1C50, 0xA620, 0xA8D0, 0xA900, 0xA9D0, 0xA9F0, 0xAA50, 0xABF0,
   0xFF10, 0x104A0, 0x10D30, 0x11066, 0x110F0, 0x11136, 0x111D0, 0x112F0, 0x11450, 0x114D0,
   0x11650, 0x116C0, 0x11730, 0x118E0, 0x11950, 0x11C50, 0x11D50, 0x11DA0, 0x16A60, 0x16AC0,
   0x16B50, 0x1D7CE, 0x1D7D8, 0x1D7E2, 0x1D7EC, 0x1D7F6, 0x1E140, 0x1E2F0, 0x1E950, 0x1FBF0]

/-- The value of a decimal digit, and nothing for any other character. -/
def digitValue? (char : Char) : Option Nat :=
  (digitZeros.find? fun start => start ≤ char.toNat && char.toNat ≤ start + 9).map (char.toNat - ·)

/-- The character is a decimal digit. -/
def isDigit (char : Char) : Bool :=
  (digitValue? char).isSome

example : digitZeros.length = 66 := by decide

example : digitValue? '7' = some 7 ∧ digitValue? '٣' = some 3 ∧ digitValue? 'x' = none := by
  decide

theorem digitValue?_le {char : Char} {value : Nat} (found : digitValue? char = some value) :
    value ≤ 9 := by
  obtain ⟨start, isStart, rfl⟩ := Option.map_eq_some_iff.1 found
  have inRun := List.find?_some isStart
  simp only [Bool.and_eq_true, decide_eq_true_eq] at inRun
  omega

end Retrace.Text
