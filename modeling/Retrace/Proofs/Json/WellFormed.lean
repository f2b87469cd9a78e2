import Retrace.Proofs.Json.Numbers

/-!
# Values that have a text

A value has a text if its integers have few enough digits, its floating-point numbers have
significands that fit, and no object has a key twice. The other values cannot come from a text:
whatever is read is well-formed.
-/

namespace Retrace.Json

open Number

/-- The keys of the fields of an object. -/
def keys (fields : List (String × Json)) : List String :=
  fields.map Prod.fst

mutual

/-- The value has a text that reads back. -/
def WellFormed : Json → Prop
  | .integer number => Writable number
  | .float number => number.Canonical
  | .array items => ItemsWellFormed items
  | .object fields => (keys fields).Nodup ∧ FieldsWellFormed fields
  | _ => True

/-- All items are well-formed. -/
def ItemsWellFormed : List Json → Prop
  | [] => True
  | item :: items => WellFormed item ∧ ItemsWellFormed items

/-- The values of all fields are well-formed. -/
def FieldsWellFormed : List (String × Json) → Prop
  | [] => True
  | (_, value) :: fields => WellFormed value ∧ FieldsWellFormed fields

end

/-- A key that is set is a key, and the other keys stay. -/
theorem mem_keys_put {key other : String} {value : Json} {fields : List (String × Json)}
    (isKey : other ∈ keys (put key value fields)) : other = key ∨ other ∈ keys fields := by
  induction fields with
  | nil => exact .inl (List.mem_singleton.1 isKey)
  | cons field fields inductionHypothesis =>
    unfold put at isKey
    split at isKey
    next => exact (List.mem_cons.1 isKey).imp_right (List.mem_cons_of_mem _)
    next =>
      rcases List.mem_cons.1 isKey with first | behind
      · exact .inr (first ▸ List.mem_cons_self)
      · exact (inductionHypothesis behind).imp_right (List.mem_cons_of_mem _)

/-- Setting a key keeps the keys apart. -/
theorem nodup_keys_put {key : String} {value : Json} {fields : List (String × Json)}
    (apart : (keys fields).Nodup) : (keys (put key value fields)).Nodup := by
  induction fields with
  | nil => exact List.nodup_cons.2 ⟨List.not_mem_nil, List.nodup_nil⟩
  | cons field fields inductionHypothesis =>
    obtain ⟨fresh, rest⟩ := List.nodup_cons.1 apart
    unfold put
    split
    next same => exact List.nodup_cons.2 ⟨same ▸ fresh, rest⟩
    next different =>
      refine List.nodup_cons.2 ⟨fun isKey => ?_, inductionHypothesis rest⟩
      rcases mem_keys_put isKey with same | again
      · exact different same
      · exact fresh again

/-- A key that is not there is set behind the others. -/
theorem put_of_not_mem {key : String} {fields : List (String × Json)} (fresh : key ∉ keys fields)
    (value : Json) : put key value fields = fields ++ [(key, value)] := by
  induction fields with
  | nil => rfl
  | cons field fields inductionHypothesis =>
    obtain ⟨different, absent⟩ := not_or.1 (mt List.mem_cons.2 fresh)
    unfold put
    rw [if_neg (Ne.symm different), inductionHypothesis absent, List.cons_append]

/-- Setting a key to a well-formed value keeps the values well-formed. -/
theorem fieldsWellFormed_put {key : String} {value : Json} (wellFormed : value.WellFormed)
    {fields : List (String × Json)} (known : FieldsWellFormed fields) :
    FieldsWellFormed (put key value fields) := by
  induction fields with
  | nil => exact ⟨wellFormed, trivial⟩
  | cons field fields inductionHypothesis =>
    unfold put
    split
    next => exact ⟨wellFormed, known.2⟩
    next => exact ⟨known.1, inductionHypothesis known.2⟩

/-- The value of a key is well-formed if the object is. -/
theorem wellFormed_of_find? {key : String} {value : Json} {fields : List (String × Json)}
    (wellFormed : FieldsWellFormed fields) (found : find? key fields = some value) :
    value.WellFormed := by
  induction fields with
  | nil => cases found
  | cons field fields inductionHypothesis =>
    unfold find? at found
    rw [List.find?_cons] at found
    split at found
    next =>
      cases found
      exact wellFormed.1
    next => exact inductionHypothesis wellFormed.2 found

namespace Reader

/-- Whatever a number is read as is well-formed. -/
theorem readNumber_wellFormed {text left : List Char} {value : Json}
    (isRead : readNumber text = .ok (value, left)) : value.WellFormed := by
  unfold readNumber at isRead
  dsimp only at isRead
  split at isRead
  next => cases isRead
  next =>
    split at isRead
    next =>
      split at isRead
      next magnitude digits =>
        cases isRead
        unfold readDigits at digits
        split at digits
        next few =>
          cases digits
          refine writable_of_digits ?_ few
          have magnitude (negative : Bool) (number : Nat) :
              (signed negative number).natAbs = number := by
            unfold signed
            split <;> simp
          rw [magnitude]
          exact digitsValue_lt _
        next => cases digits
      next => cases isRead
    next =>
      cases isRead
      exact Binary64.ofDecimal_canonical _ _ _

/-- Whatever a word or a number is read as is well-formed. -/
theorem readScalar_wellFormed {text left : List Char} {value : Json}
    (isRead : readScalar text = .ok (value, left)) : value.WellFormed := by
  unfold readScalar at isRead
  split at isRead
  next word found =>
    cases isRead
    have isWord := List.mem_of_find?_eq_some found
    simp only [words, List.mem_cons, Prod.mk.injEq, List.not_mem_nil, or_false] at isWord
    rcases isWord with ⟨-, rfl⟩ | ⟨-, rfl⟩ | ⟨-, rfl⟩ | ⟨-, rfl⟩ | ⟨-, rfl⟩ | ⟨-, rfl⟩ <;> trivial
  next => exact readNumber_wellFormed isRead

mutual

/-- Whatever is read is well-formed. -/
theorem readValue_wellFormed (fuel : Nat) {text left : List Char} {value : Json}
    (isRead : readValue fuel text = .ok (value, left)) : value.WellFormed := by
  unfold readValue at isRead
  split at isRead
  next => cases isRead
  next => cases isRead
  next fuel char rest =>
    split at isRead
    next =>
      split at isRead
      next =>
        cases isRead
        trivial
      next => cases isRead
    next =>
      split at isRead
      next =>
        split at isRead
        next =>
          cases isRead
          trivial
        next =>
          split at isRead
          next items =>
            cases isRead
            exact readItems_wellFormed fuel items
          next => cases isRead
      next =>
        split at isRead
        next =>
          split at isRead
          next =>
            cases isRead
            exact ⟨List.nodup_nil, trivial⟩
          next =>
            split at isRead
            next fields =>
              cases isRead
              have noKeys : (keys []).Nodup := List.nodup_nil
              exact readFields_wellFormed fuel noKeys trivial fields
            next => cases isRead
        next => exact readScalar_wellFormed isRead

/-- All items that are read are well-formed. -/
theorem readItems_wellFormed (fuel : Nat) {text left : List Char} {items : List Json}
    (isRead : readItems fuel text = .ok (items, left)) : ItemsWellFormed items := by
  unfold readItems at isRead
  split at isRead
  next => cases isRead
  next fuel =>
    split at isRead
    next => cases isRead
    next item rest first =>
      have wellFormed := readValue_wellFormed fuel first
      split at isRead
      next =>
        cases isRead
        exact ⟨wellFormed, trivial⟩
      next =>
        split at isRead
        next behind =>
          cases isRead
          exact ⟨wellFormed, readItems_wellFormed fuel behind⟩
        next => cases isRead
      next => cases isRead

/-- Fields that are read keep the keys apart and the values well-formed. -/
theorem readFields_wellFormed (fuel : Nat) {known fields : List (String × Json)}
    {text left : List Char} (apart : (keys known).Nodup) (wellFormed : FieldsWellFormed known)
    (isRead : readFields fuel known text = .ok (fields, left)) :
    (keys fields).Nodup ∧ FieldsWellFormed fields := by
  unfold readFields at isRead
  split at isRead
  next => cases isRead
  next fuel rest =>
    split at isRead
    next => cases isRead
    next key rest isKey =>
      split at isRead
      next =>
        split at isRead
        next => cases isRead
        next value rest isValue =>
          have nodup : (keys (put (String.ofList key) value known)).Nodup := nodup_keys_put apart
          have values : FieldsWellFormed (put (String.ofList key) value known) :=
            fieldsWellFormed_put (readValue_wellFormed fuel isValue) wellFormed
          dsimp only at isRead
          split at isRead
          next =>
            cases isRead
            exact ⟨nodup, values⟩
          next => exact readFields_wellFormed fuel nodup values isRead
          next => cases isRead
      next => cases isRead
  next => cases isRead

end

end Reader

/-- Whatever a text is read as is well-formed. -/
theorem read_wellFormed {text : List Char} {value : Json} (isRead : read text = .ok value) :
    value.WellFormed := by
  unfold read at isRead
  split at isRead
  next => cases isRead
  next =>
    split at isRead
    next => cases isRead
    next reads =>
      split at isRead
      next =>
        cases isRead
        exact Reader.readValue_wellFormed _ reads
      next => cases isRead

end Retrace.Json
