import Mathlib.Tactic.SplitIfs
import Retrace.Json.Reader
import Retrace.Json.Writer

/-!
# Written strings read back

A character between quotes is read from exactly what is written for it, wherever the string goes on
behind it. A single escape never stands for half a pair of surrogates, because no character has such
a code, so it is not taken together with an escape that follows.
-/

namespace Retrace.Json.Reader

/-- The value of a written hexadecimal digit. -/
theorem hexValue?_hexDigit {value : Nat} (small : value < 16) :
    hexValue? (Text.hexDigit value) = some value := by
  have checked : ∀ value : Fin 16, hexValue? (Text.hexDigit value.val) = some value.val := by
    decide
  exact checked ⟨value, small⟩

/-- The four digits of an escape give its unit. -/
theorem hexUnit?_hexDigits {unit : Nat} (small : unit < 0x10000) :
    ∃ first second third fourth,
      unitEscape unit = ['\\', 'u', first, second, third, fourth] ∧
        hexUnit? first second third fourth = some unit := by
  refine ⟨Text.hexDigit (unit / 16 / 16 / 16 % 16), Text.hexDigit (unit / 16 / 16 % 16),
    Text.hexDigit (unit / 16 % 16), Text.hexDigit (unit % 16), rfl, ?_⟩
  unfold hexUnit?
  rw [hexValue?_hexDigit (Nat.mod_lt _ (by decide)), hexValue?_hexDigit (Nat.mod_lt _ (by decide)),
    hexValue?_hexDigit (Nat.mod_lt _ (by decide)), hexValue?_hexDigit (Nat.mod_lt _ (by decide))]
  simp only [Option.bind_eq_bind, Option.bind_some, Option.pure_def, Option.some.injEq]
  omega

/-- An escape that is no first half of a pair gives its character. -/
theorem readChars_unitEscape (opening : List Char) {unit : Nat} (small : unit < 0x10000)
    (single : isHighSurrogate unit = false) {rest : List Char} (more : rest ≠ []) :
    readChars opening (unitEscape unit ++ rest) =
      consChar (unitChar unit) (readChars opening rest) := by
  obtain ⟨first, second, third, fourth, escape, value⟩ := hexUnit?_hexDigits small
  have nonempty : ¬ rest.isEmpty = true := fun empty => more (List.isEmpty_iff.1 empty)
  rw [escape]
  simp only [List.cons_append, List.nil_append]
  rw [readChars.eq_4, if_neg nonempty, value]
  dsimp only
  split
  · rw [single]
    rfl
  · rfl

/-- Two escapes that are the halves of a pair give the character of the pair. -/
theorem readChars_pairEscape (opening : List Char) {high low : Nat}
    (isHigh : isHighSurrogate high = true) (isLow : isLowSurrogate low = true)
    {rest : List Char} (more : rest ≠ []) :
    readChars opening (unitEscape high ++ (unitEscape low ++ rest)) =
      consChar (pairChar high low) (readChars opening rest) := by
  have smallHigh : high < 0x10000 := by
    simp only [isHighSurrogate, Bool.and_eq_true, decide_eq_true_eq] at isHigh
    omega
  have smallLow : low < 0x10000 := by
    simp only [isLowSurrogate, Bool.and_eq_true, decide_eq_true_eq] at isLow
    omega
  obtain ⟨first, second, third, fourth, escape, value⟩ := hexUnit?_hexDigits smallHigh
  obtain ⟨lowFirst, lowSecond, lowThird, lowFourth, lowEscape, lowValue⟩ :=
    hexUnit?_hexDigits smallLow
  have nonempty : rest.isEmpty = false := List.isEmpty_eq_false_iff.2 more
  rw [escape, lowEscape]
  simp only [List.cons_append, List.nil_append]
  rw [readChars.eq_4, value]
  simp only [List.isEmpty_cons, Bool.false_eq_true, if_false, isHigh, nonempty, Bool.not_false,
    Bool.and_self, if_true, lowValue, isLow]

/-- A character that needs no escape is read as it stands. -/
theorem readChars_plain (opening : List Char) {char : Char} (noQuote : char ≠ '\x22')
    (noBackslash : char ≠ '\\') (printable : 0x20 ≤ char.toNat) (rest : List Char) :
    readChars opening (char :: rest) = consChar char (readChars opening rest) := by
  rw [readChars.eq_7 opening char rest (fun same => noQuote same)
    (fun same _ => noBackslash same) (fun _ _ _ _ _ same _ => noBackslash same)
    (fun _ same _ => noBackslash same) (fun _ _ same _ => noBackslash same),
    if_neg (Nat.not_lt.2 printable)]

/-- A character behind a backslash gives what it stands for. -/
theorem readChars_escaped (opening : List Char) {letter char : Char}
    (found : escaped? letter = some char) (rest : List Char) :
    readChars opening ('\\' :: letter :: rest) = consChar char (readChars opening rest) := by
  have noUnit : letter ≠ 'u' := by
    rintro rfl
    exact Option.some_ne_none char found.symm
  rw [readChars.eq_6 opening letter rest (fun _ _ _ _ _ same _ => noUnit same)
    (fun same => noUnit same), found]

/-- No character has the code of half a pair of surrogates. -/
theorem char_isNoSurrogate (char : Char) :
    isHighSurrogate char.toNat = false ∧ isLowSurrogate char.toNat = false := by
  have valid : char.toNat < 0xD800 ∨ 0xDFFF < char.toNat ∧ char.toNat < 0x110000 := char.valid
  simp only [isHighSurrogate, isLowSurrogate, Bool.and_eq_false_iff, decide_eq_false_iff_not]
  omega

theorem toNat_ofNat {code : Nat} (valid : code.isValidChar) : (Char.ofNat code).toNat = code := by
  rw [Char.ofNat, dif_pos valid]
  rfl

/-- Exactly the halves of pairs have characters that stand for them. -/
theorem isHalf_unitChar {unit : Nat} (small : unit < 0x10000) :
    isHalf (unitChar unit) = (isHighSurrogate unit || isLowSurrogate unit) := by
  unfold unitChar isHalf halfOffset
  cases isHalfUnit : isHighSurrogate unit || isLowSurrogate unit with
  | true =>
    simp only [isHighSurrogate, isLowSurrogate, Bool.or_eq_true, Bool.and_eq_true,
      decide_eq_true_eq] at isHalfUnit
    have valid : (unit + 0xF0000).isValidChar := .inr (by omega)
    simp only [if_true, toNat_ofNat valid, Bool.and_eq_true, decide_eq_true_eq]
    omega
  | false =>
    simp only [isHighSurrogate, isLowSurrogate, Bool.or_eq_false_iff, Bool.and_eq_false_iff,
      decide_eq_false_iff_not] at isHalfUnit
    have valid : unit.isValidChar := by
      unfold Nat.isValidChar
      omega
    simp only [Bool.false_eq_true, if_false, toNat_ofNat valid, Bool.and_eq_false_iff,
      decide_eq_false_iff_not]
    omega

/-- A written character reads back, if the string goes on. -/
theorem readChars_escapedChar (opening : List Char) (char : Char) {rest : List Char}
    (more : rest ≠ []) :
    readChars opening (escapedChar char ++ rest) = consChar char (readChars opening rest) := by
  have valid : char.toNat < 0xD800 ∨ 0xDFFF < char.toNat ∧ char.toNat < 0x110000 := char.valid
  obtain ⟨notHigh, notLow⟩ := char_isNoSurrogate char
  unfold escapedChar
  split
  next quoted =>
    simp only [Bool.or_eq_true, decide_eq_true_eq] at quoted
    rcases quoted with rfl | rfl
    · exact readChars_escaped opening rfl rest
    · exact readChars_escaped opening rfl rest
  next unquoted =>
    simp only [Bool.or_eq_true, decide_eq_true_eq, not_or] at unquoted
    split_ifs with lineFeed carriageReturn tab backspace formFeed plain unit
    · exact lineFeed ▸ readChars_escaped opening rfl rest
    · exact carriageReturn ▸ readChars_escaped opening rfl rest
    · exact tab ▸ readChars_escaped opening rfl rest
    · exact backspace ▸ readChars_escaped opening rfl rest
    · exact formFeed ▸ readChars_escaped opening rfl rest
    · simp only [Bool.and_eq_true, decide_eq_true_eq] at plain
      exact readChars_plain opening unquoted.1 unquoted.2 plain.1 rest
    · rw [readChars_unitEscape opening unit notHigh more]
      unfold unitChar
      rw [notHigh, notLow]
      simp only [Bool.or_self, Bool.false_eq_true, if_false, Char.ofNat_toNat]
    · have isHigh : isHighSurrogate (0xD800 + (char.toNat - 0x10000) / 0x400) = true := by
        simp only [isHighSurrogate, Bool.and_eq_true, decide_eq_true_eq]
        omega
      have isLow : isLowSurrogate (0xDC00 + (char.toNat - 0x10000) % 0x400) = true := by
        simp only [isLowSurrogate, Bool.and_eq_true, decide_eq_true_eq]
        omega
      rw [List.append_assoc, readChars_pairEscape opening isHigh isLow more]
      unfold pairChar
      have code : 0x10000 + (0xD800 + (char.toNat - 0x10000) / 0x400 - 0xD800) * 0x400 +
          (0xDC00 + (char.toNat - 0x10000) % 0x400 - 0xDC00) = char.toNat := by
        omega
      rw [code, Char.ofNat_toNat]

/-- A written string reads back from behind its opening quote. -/
theorem readChars_written (opening text rest : List Char) :
    readChars opening (text.flatMap escapedChar ++ '\x22' :: rest) = .ok (text, rest) := by
  induction text with
  | nil => exact readChars.eq_2 opening rest
  | cons char text inductionHypothesis =>
    have more : text.flatMap escapedChar ++ '\x22' :: rest ≠ [] := by
      intro empty
      exact List.cons_ne_nil _ _ (List.append_eq_nil_iff.1 empty).2
    rw [List.flatMap_cons, List.append_assoc, readChars_escapedChar opening char more,
      inductionHypothesis]
    rfl

end Retrace.Json.Reader
