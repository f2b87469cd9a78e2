import Retrace.SourceMap.Vlq

/-!
# Segments read back

Writing the integers of a segment and reading them gives the same integers, whatever their size.
-/

namespace Retrace.SourceMap.Vlq

/-- A digit stands for the five lower bits of its value, and the sixth tells whether more follow. -/
theorem group?_digit {value : Nat} (small : value < 64) :
    group? (digit value) = some ⟨value % 32, 32 ≤ value⟩ := by
  have checked : ∀ value : Fin 64,
      group? (digit value) = some ⟨value % 32, 32 ≤ value.val⟩ := by decide +kernel
  exact checked ⟨value, small⟩

/-- Reading a written unsigned number adds it to what is pending and goes on behind it. -/
theorem decodeFrom_encodeUnsigned (number pending shift : Nat) (rest : List Char) :
    decodeFrom pending shift (encodeUnsigned number ++ rest) =
      (decode rest).map (ofUnsigned (pending + number * Nat.pow 2 shift) :: ·) := by
  induction number using Nat.strongRecOn generalizing pending shift with
  | ind number inductionHypothesis =>
    rw [encodeUnsigned]
    by_cases last : number < 32
    · have bits : number % 32 = number := Nat.mod_eq_of_lt last
      have noMore : ¬ 32 ≤ number := Nat.not_le_of_lt last
      simp [last, decodeFrom, group?_digit (Nat.lt_trans last (by decide)), bits, noMore, decode]
    · have small : number % 32 + 32 < 64 := by omega
      have bits : (number % 32 + 32) % 32 = number % 32 := by omega
      have more : 32 ≤ number % 32 + 32 := by omega
      have shorter : number / 32 < number := by omega
      have sum : pending + number % 32 * Nat.pow 2 shift + number / 32 * Nat.pow 2 (shift + 5) =
          pending + number * Nat.pow 2 shift := by
        have power : Nat.pow 2 (shift + 5) = 32 * Nat.pow 2 shift := by
          rw [Nat.pow_eq, Nat.pow_eq, Nat.pow_add]
          exact Nat.mul_comm _ _
        have parts : number * Nat.pow 2 shift =
            number % 32 * Nat.pow 2 shift + number / 32 * (32 * Nat.pow 2 shift) := by
          rw [← Nat.mul_assoc, ← Nat.add_mul, Nat.mul_comm (number / 32), Nat.mod_add_div]
        rw [power, parts, Nat.add_assoc]
      simp only [last, if_false, List.cons_append, decodeFrom, group?_digit small, bits,
        decide_eq_true more, if_true]
      rw [inductionHypothesis _ shorter, sum]

theorem ofUnsigned_toUnsigned (value : Int) : ofUnsigned (toUnsigned value) = value := by
  unfold ofUnsigned toUnsigned
  split <;> split <;> omega

/-- A written segment reads back. -/
theorem decode_encode (values : List Int) : decode (encode values) = .ok values := by
  induction values with
  | nil => rfl
  | cons value values inductionHypothesis =>
    have first : encode (value :: values) = encodeUnsigned (toUnsigned value) ++ encode values := by
      simp [encode]
    rw [first, decode, decodeFrom_encodeUnsigned, inductionHypothesis]
    simp [Except.map, ofUnsigned_toUnsigned]

end Retrace.SourceMap.Vlq
