import Retrace.Proofs.Json.Strings
import Retrace.Proofs.Json.WellFormed

/-!
# Written values read back

The text of a well-formed value is read as that value. The text of a value never begins with a space
or with a closing bracket, so the reader sees where an item or a field begins; and it is at least as
long as the value has brackets, items and fields, so the reader does not run out of fuel.
-/

namespace Retrace.Json

open Number

/-- A value may begin with the character. -/
def beginsValue (char : Char) : Bool :=
  char.isDigit || ['\x22', '[', '\x7b', '-', 'n', 't', 'f', 'N', 'I'].contains char

/-- The text begins as a value does. -/
def BeginsValue (text : List Char) : Prop :=
  ∃ char more, text = char :: more ∧ beginsValue char = true

theorem beginsValue_ne {char : Char} (begins : beginsValue char = true) (other : Char)
    (doesNot : beginsValue other = false) : char ≠ other := by
  rintro rfl
  rw [begins] at doesNot
  cases doesNot

/-- A number begins as a value does. -/
theorem BeginsNumber.beginsValue {text : List Char} (begins : BeginsNumber text) :
    BeginsValue text := by
  obtain ⟨negative, digit, more, isDigit, rfl⟩ := begins
  cases negative with
  | true => exact ⟨'-', digit :: more, rfl, rfl⟩
  | false => exact ⟨digit, more, rfl, by simp [Json.beginsValue, isDigit]⟩

theorem BeginsValue.length_pos {text : List Char} (begins : BeginsValue text) :
    0 < text.length := by
  obtain ⟨char, more, rfl, -⟩ := begins
  exact Nat.succ_pos _

theorem BeginsValue.append {text : List Char} (begins : BeginsValue text) (rest : List Char) :
    BeginsValue (text ++ rest) := by
  obtain ⟨char, more, rfl, isFirst⟩ := begins
  exact ⟨char, more ++ rest, rfl, isFirst⟩

/-- The text of a well-formed number begins as a value does. -/
theorem float_beginsValue {number : Binary64} (canonical : number.Canonical) :
    BeginsValue (number.write "NaN" "Infinity") := by
  cases number with
  | nan => exact ⟨'N', ['a', 'N'], rfl, rfl⟩
  | infinity negative =>
    cases negative with
    | true => exact ⟨'-', "Infinity".toList, rfl, rfl⟩
    | false => exact ⟨'I', "nfinity".toList, rfl, rfl⟩
  | finite negative significand exponent =>
    obtain ⟨literal, proper, -, text, -⟩ := write_literal negative canonical "NaN" "Infinity"
    rw [text]
    exact (Literal.beginsNumber proper).beginsValue

/-- The text of a well-formed value begins as a value does. -/
theorem write_beginsValue {value : Json} (wellFormed : value.WellFormed) :
    BeginsValue value.write := by
  match value with
  | .null => exact ⟨'n', "ull".toList, rfl, rfl⟩
  | .bool true => exact ⟨'t', "rue".toList, rfl, rfl⟩
  | .bool false => exact ⟨'f', "alse".toList, rfl, rfl⟩
  | .integer number =>
    obtain ⟨literal, proper, -, -, -, text, -⟩ := decimal_literal wellFormed
    rw [write, text]
    exact (Literal.beginsNumber proper).beginsValue
  | .float number =>
    rw [write]
    exact float_beginsValue wellFormed
  | .string text => exact ⟨_, _, by rw [write, writeString, List.cons_append], rfl⟩
  | .array [] => exact ⟨_, _, by rw [write], rfl⟩
  | .array (item :: items) => exact ⟨_, _, by rw [write], rfl⟩
  | .object [] => exact ⟨_, _, by rw [write], rfl⟩
  | .object ((key, value) :: fields) => exact ⟨_, _, by rw [write], rfl⟩

theorem length_writeItems_pos (items : List Json) : 0 < (writeItems items).length := by
  cases items <;> rw [writeItems] <;> exact Nat.succ_pos _

/-- No number goes on behind an item. -/
theorem writeItems_ends (items : List Json) (rest : List Char) :
    EndsNumber (writeItems items ++ rest) := by
  intro char first
  cases items with
  | nil =>
    rw [writeItems] at first
    cases first
    rfl
  | cons item items =>
    rw [writeItems] at first
    cases first
    rfl

/-- No number goes on behind the value of a field. -/
theorem writeFields_ends (fields : List (String × Json)) (rest : List Char) :
    EndsNumber (writeFields fields ++ rest) := by
  intro char first
  cases fields with
  | nil =>
    rw [writeFields] at first
    cases first
    rfl
  | cons field fields =>
    rw [writeFields] at first
    cases first
    rfl

namespace Reader

/-- No space is skipped in front of a value. -/
theorem skipSpace_of_beginsValue {text : List Char} (begins : BeginsValue text) :
    skipSpace text = text := by
  obtain ⟨char, more, rfl, isFirst⟩ := begins
  have noSpace : isSpace char = false := by
    simp [isSpace, beginsValue_ne isFirst ' ' rfl,
      beginsValue_ne isFirst '\t' rfl, beginsValue_ne isFirst '\n' rfl,
      beginsValue_ne isFirst '\r' rfl]
  exact List.dropWhile_cons_of_neg (by simp [noSpace])

/-- A text that begins with a digit or a minus and a digit is no word. -/
theorem readScalar_of_beginsNumber {text : List Char} (begins : BeginsNumber text) :
    readScalar text = readNumber text := by
  obtain ⟨negative, digit, more, isDigit, rfl⟩ := begins
  have differs (char : Char) (noDigit : char.isDigit = false) : (char == digit) = false := by
    rw [beq_eq_false_iff_ne]
    rintro rfl
    rw [isDigit] at noDigit
    cases noDigit
  have noWord : words.find? (fun word => word.1.isPrefixOf
      ((if negative then ['-'] else []) ++ digit :: more)) = none := by
    rw [List.find?_eq_none]
    intro word isWord
    simp only [words, List.mem_cons, List.not_mem_nil, or_false] at isWord
    cases negative with
    | true =>
      rcases isWord with rfl | rfl | rfl | rfl | rfl | rfl <;>
        simp [List.isPrefixOf, differs 'I' rfl]
    | false =>
      rcases isWord with rfl | rfl | rfl | rfl | rfl | rfl <;>
        simp [List.isPrefixOf, differs 'n' rfl, differs 't' rfl, differs 'f' rfl, differs 'N' rfl,
          differs 'I' rfl, differs '-' rfl]
  unfold readScalar
  rw [noWord]

/-- What is no string, array or object is read as a word or a number. -/
theorem readValue_scalar (fuel : Nat) {char : Char} (rest : List Char) (noString : char ≠ '\x22')
    (noArray : char ≠ '[') (noObject : char ≠ '\x7b') :
    readValue (fuel + 1) (char :: rest) = readScalar (char :: rest) := by
  rw [readValue, if_neg noString, if_neg noArray, if_neg noObject]

/-- A number is read where a value is expected. -/
theorem readValue_number (fuel : Nat) {text : List Char} (begins : BeginsNumber text) :
    readValue (fuel + 1) text = readNumber text := by
  rw [← readScalar_of_beginsNumber begins]
  obtain ⟨negative, digit, more, isDigit, rfl⟩ := begins
  have differs (char : Char) (noDigit : char.isDigit = false) : digit ≠ char := by
    rintro rfl
    rw [isDigit] at noDigit
    cases noDigit
  cases negative with
  | true => exact readValue_scalar fuel _ (by decide) (by decide) (by decide)
  | false => exact readValue_scalar fuel _ (differs _ rfl) (differs _ rfl) (differs _ rfl)

/-- A floating-point number is read where a value is expected. -/
theorem readValue_float (fuel : Nat) {number : Binary64} (canonical : number.Canonical)
    {rest : List Char} (ends : EndsNumber rest) :
    readValue (fuel + 1) (number.write "NaN" "Infinity" ++ rest) = .ok (.float number, rest) := by
  cases number with
  | nan => rfl
  | infinity negative => cases negative <;> rfl
  | finite negative significand exponent =>
    have begins : BeginsNumber ((Binary64.finite negative significand exponent).write "NaN"
        "Infinity" ++ rest) := by
      obtain ⟨literal, proper, -, text, -⟩ := write_literal negative canonical "NaN" "Infinity"
      rw [text]
      exact (Literal.beginsNumber proper).append rest
    rw [readValue_number fuel begins]
    exact readNumber_write negative canonical "NaN" "Infinity" ends

/-- An integer is read where a value is expected. -/
theorem readValue_integer (fuel : Nat) {number : Int} (writable : Writable number)
    {rest : List Char} (ends : EndsNumber rest) :
    readValue (fuel + 1) (decimal number ++ rest) = .ok (.integer number, rest) := by
  have begins : BeginsNumber (decimal number ++ rest) := by
    obtain ⟨literal, proper, -, -, -, text, -⟩ := decimal_literal writable
    rw [text]
    exact (Literal.beginsNumber proper).append rest
  rw [readValue_number fuel begins]
  exact readNumber_decimal writable ends

/-- A string is read where a value is expected. -/
theorem readValue_string (fuel : Nat) (text : String) (rest : List Char) :
    readValue (fuel + 1) (writeString text ++ rest) = .ok (.string text, rest) := by
  have chars := readChars_written (writeString text ++ rest) text.toList rest
  simp only [writeString, List.cons_append, List.append_assoc, List.nil_append] at chars ⊢
  simp only [readValue, if_true, chars, String.ofList_toList]

/-- An array is read if its items are. -/
theorem readValue_array {fuel : Nat} {text rest : List Char} {items : List Json}
    (begins : BeginsValue text) (readable : readItems fuel text = .ok (items, rest)) :
    readValue (fuel + 1) ('[' :: text) = .ok (.array items, rest) := by
  have noSpace := skipSpace_of_beginsValue begins
  obtain ⟨char, more, rfl, isFirst⟩ := begins
  rw [readValue, if_neg (by decide), if_pos rfl, noSpace]
  split
  next closing =>
    cases closing
    exact absurd isFirst (by decide)
  next => rw [readable]

/-- An object is read if its fields are. -/
theorem readValue_object {fuel : Nat} {text rest : List Char} {fields : List (String × Json)}
    (begins : BeginsValue text) (readable : readFields fuel [] text = .ok (fields, rest)) :
    readValue (fuel + 1) ('\x7b' :: text) = .ok (.object fields, rest) := by
  have noSpace := skipSpace_of_beginsValue begins
  obtain ⟨char, more, rfl, isFirst⟩ := begins
  rw [readValue, if_neg (by decide), if_neg (by decide), if_pos rfl, noSpace]
  split
  next closing =>
    cases closing
    exact absurd isFirst (by decide)
  next => rw [readable]

/-- The key of a field is read, and then its value; the field is the last one if the object is closed
behind it. -/
theorem readFields_field {fuel : Nat} (known : List (String × Json)) (key : String) {value : Json}
    {text rest : List Char} (begins : BeginsValue text)
    (readable : readValue fuel text = .ok (value, rest)) :
    (∀ left, skipSpace rest = '\x7d' :: left →
      readFields (fuel + 1) known (writeString key ++ ':' :: ' ' :: text) =
        .ok (put key value known, left)) ∧
      ∀ more, skipSpace rest = ',' :: more →
        readFields (fuel + 1) known (writeString key ++ ':' :: ' ' :: text) =
          readFields fuel (put key value known) (skipSpace more) := by
  have chars := readChars_written (writeString key ++ ':' :: ' ' :: text) key.toList
    (':' :: ' ' :: text)
  have space : skipSpace (' ' :: text) = text := skipSpace_of_beginsValue begins
  have colon : skipSpace (':' :: ' ' :: text) = ':' :: ' ' :: text := rfl
  simp only [writeString, List.cons_append, List.append_assoc, List.nil_append] at chars ⊢
  constructor
  · intro left closes
    rw [readFields, chars]
    simp only [colon, space, readable, String.ofList_toList, closes]
  · intro more continues
    rw [readFields, chars]
    simp only [colon, space, readable, String.ofList_toList, continues]

mutual

/-- A written value reads back, whatever follows it that is no part of a number. -/
theorem readValue_write (value : Json) (wellFormed : value.WellFormed) (fuel : Nat)
    (enough : value.write.length ≤ fuel) (rest : List Char) (ends : EndsNumber rest) :
    readValue fuel (value.write ++ rest) = .ok (value, rest) := by
  match fuel with
  | 0 =>
    obtain ⟨char, more, text, -⟩ := write_beginsValue wellFormed
    rw [text] at enough
    exact absurd enough (Nat.not_succ_le_zero _)
  | fuel + 1 =>
    match value with
    | .null => rfl
    | .bool true => rfl
    | .bool false => rfl
    | .integer number =>
      rw [write]
      exact readValue_integer fuel wellFormed ends
    | .float number =>
      rw [write]
      exact readValue_float fuel wellFormed ends
    | .string text =>
      rw [write]
      exact readValue_string fuel text rest
    | .array [] =>
      rw [write]
      rfl
    | .array (item :: items) =>
      rw [write] at enough ⊢
      simp only [List.length_cons, List.length_append] at enough
      have begins := write_beginsValue wellFormed.1
      obtain ⟨behind, rfl⟩ : ∃ behind, fuel = behind + 1 :=
        ⟨fuel - 1, by have := length_writeItems_pos items; omega⟩
      have first := readValue_write item wellFormed.1 behind
        (by have := length_writeItems_pos items; omega) (writeItems items ++ rest)
        (writeItems_ends items rest)
      have all := readItems_write items wellFormed.2 behind
        (by have := begins.length_pos; omega) rest first
      rw [List.cons_append, List.append_assoc]
      exact readValue_array (begins.append _) all
    | .object [] =>
      rw [write]
      rfl
    | .object ((key, value) :: fields) =>
      rw [write] at enough ⊢
      simp only [List.length_cons, List.length_append] at enough
      have begins := write_beginsValue wellFormed.2.1
      obtain ⟨behind, rfl⟩ : ∃ behind, fuel = behind + 1 := ⟨fuel - 1, by omega⟩
      have first := readValue_write value wellFormed.2.1 behind (by omega)
        (writeFields fields ++ rest) (writeFields_ends fields rest)
      have noKeys : (keys ([] ++ (key, value) :: fields)).Nodup := wellFormed.1
      have all := readFields_write fields wellFormed.2.2 behind (by omega) rest
        (begins.append _) noKeys first
      rw [List.cons_append, List.append_assoc, List.cons_append, List.cons_append,
        List.append_assoc]
      exact readValue_object ⟨'\x22', _, rfl, rfl⟩ all

/-- Written items read back behind an item that is read. -/
theorem readItems_write (items : List Json) (wellFormed : ItemsWellFormed items) (fuel : Nat)
    (enough : (writeItems items).length ≤ fuel) (rest : List Char) {item : Json}
    {text : List Char}
    (readable : readValue fuel text = .ok (item, writeItems items ++ rest)) :
    readItems (fuel + 1) text = .ok (item :: items, rest) := by
  match items with
  | [] =>
    rw [writeItems] at readable
    rw [readItems, readable]
    rfl
  | next :: items =>
    rw [writeItems] at enough readable
    simp only [List.length_cons, List.length_append] at enough
    have begins := write_beginsValue wellFormed.1
    obtain ⟨behind, rfl⟩ : ∃ behind, fuel = behind + 1 := ⟨fuel - 1, by omega⟩
    have second := readValue_write next wellFormed.1 behind (by omega) (writeItems items ++ rest)
      (writeItems_ends items rest)
    have all := readItems_write items wellFormed.2 behind (by omega) rest second
    have space : skipSpace (' ' :: (next.write ++ (writeItems items ++ rest))) =
        next.write ++ (writeItems items ++ rest) :=
      skipSpace_of_beginsValue (begins.append _)
    rw [List.cons_append, List.cons_append, List.append_assoc] at readable
    have comma : skipSpace (',' :: ' ' :: (next.write ++ (writeItems items ++ rest))) =
        ',' :: ' ' :: (next.write ++ (writeItems items ++ rest)) := rfl
    rw [readItems, readable]
    simp only [comma, space, all]

/-- Written fields read back behind a field whose value is read. -/
theorem readFields_write (fields : List (String × Json)) (wellFormed : FieldsWellFormed fields)
    (fuel : Nat) (enough : (writeFields fields).length ≤ fuel) (rest : List Char)
    {known : List (String × Json)} {key : String} {value : Json} {text : List Char}
    (begins : BeginsValue text) (apart : (keys (known ++ (key, value) :: fields)).Nodup)
    (readable : readValue fuel text = .ok (value, writeFields fields ++ rest)) :
    readFields (fuel + 1) known (writeString key ++ ':' :: ' ' :: text) =
      .ok (known ++ (key, value) :: fields, rest) := by
  have fresh : key ∉ keys known := by
    intro isKey
    unfold keys at apart isKey
    rw [List.map_append, List.nodup_append] at apart
    exact apart.2.2 key isKey key List.mem_cons_self rfl
  obtain ⟨closes, continues⟩ := readFields_field known key begins readable
  rw [put_of_not_mem fresh] at closes continues
  match fields with
  | [] =>
    rw [writeFields] at closes
    exact closes rest rfl
  | (second, inner) :: fields =>
    rw [writeFields] at enough
    simp only [List.length_cons, List.length_append] at enough
    have begins := write_beginsValue wellFormed.1
    obtain ⟨behind, rfl⟩ : ∃ behind, fuel = behind + 1 := ⟨fuel - 1, by omega⟩
    have next := readValue_write inner wellFormed.1 behind (by omega) (writeFields fields ++ rest)
      (writeFields_ends fields rest)
    have regrouped : known ++ (key, value) :: (second, inner) :: fields =
        (known ++ [(key, value)]) ++ (second, inner) :: fields := by
      rw [List.append_assoc, List.singleton_append]
    rw [regrouped] at apart ⊢
    have all := readFields_write fields wellFormed.2 behind (by omega) rest
      (begins.append _) apart next
    have comma : skipSpace (writeFields ((second, inner) :: fields) ++ rest) =
        ',' :: ' ' :: (writeString second ++ ':' :: ' ' ::
          (inner.write ++ (writeFields fields ++ rest))) := by
      rw [writeFields]
      simp only [List.cons_append, List.append_assoc]
      rfl
    have space : skipSpace (' ' :: (writeString second ++ ':' :: ' ' ::
          (inner.write ++ (writeFields fields ++ rest)))) =
        writeString second ++ ':' :: ' ' :: (inner.write ++ (writeFields fields ++ rest)) :=
      skipSpace_of_beginsValue ⟨'\x22', _, rfl, rfl⟩
    rw [continues _ comma, space, all]

end

end Reader

/-- The text of a well-formed value reads back. -/
theorem read_write {value : Json} (wellFormed : value.WellFormed) :
    read value.write = .ok value := by
  have begins := write_beginsValue wellFormed
  have readable := Reader.readValue_write value wellFormed (2 * value.write.length + 2) (by omega)
    [] (fun char first => by cases first)
  rw [List.append_nil] at readable
  have noMark : value.write.head? ≠ some '\ufeff' := by
    obtain ⟨char, more, text, isFirst⟩ := begins
    rw [text, List.head?_cons, Ne, Option.some.injEq]
    exact beginsValue_ne isFirst '\ufeff' (by decide)
  unfold read
  rw [if_neg noMark, Reader.skipSpace_of_beginsValue begins, readable]
  rfl

/-- What was read can be written, and reads back the same. -/
theorem read_write_of_read {text : List Char} {value : Json} (isRead : read text = .ok value) :
    read value.write = .ok value :=
  read_write (read_wellFormed isRead)

end Retrace.Json
