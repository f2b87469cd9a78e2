import Retrace.Number.Binary64

/-!
# JSON values

Integers are exact and apart from floating-point numbers. The fields of an object keep the order in
which their keys first appear; a key that appears again replaces the value and keeps the place.
-/

namespace Retrace

/-- A JSON value. -/
inductive Json where
  | null
  | bool (value : Bool)
  | integer (value : Int)
  | float (value : Number.Binary64)
  | string (value : String)
  | array (items : List Json)
  | object (fields : List (String × Json))
  deriving Repr, BEq, Inhabited

namespace Json

/-- Sets the value of a key: in its place if the key is there, else at the end. -/
def put (key : String) (value : Json) : List (String × Json) → List (String × Json)
  | [] => [(key, value)]
  | field :: fields =>
    if field.1 = key then (key, value) :: fields else field :: put key value fields

/-- The value of a key. -/
def find? (key : String) (fields : List (String × Json)) : Option Json :=
  (fields.find? fun field => field.1 = key).map Prod.snd

theorem find?_put_self (key : String) (value : Json) (fields : List (String × Json)) :
    find? key (put key value fields) = some value := by
  induction fields with
  | nil => simp [put, find?]
  | cons field fields inductionHypothesis =>
    by_cases same : field.1 = key
    · simp [put, find?, same]
    · simpa [put, find?, same] using inductionHypothesis

theorem find?_put_of_ne {key other : String} (different : other ≠ key) (value : Json)
    (fields : List (String × Json)) :
    find? other (put key value fields) = find? other fields := by
  induction fields with
  | nil => simp [put, find?, Ne.symm different]
  | cons field fields inductionHypothesis =>
    by_cases same : field.1 = key
    · simp [put, find?, same, Ne.symm different]
    · by_cases wanted : field.1 = other
      · subst wanted
        simp [put, find?, same]
      · simpa [put, find?, same, wanted] using inductionHypothesis

/-- The text of a string value. -/
def text? : Json → Option String
  | .string text => some text
  | _ => none

/-- The value of a field, if the value is an object that has it. -/
def field? (key : String) : Json → Option Json
  | .object fields => find? key fields
  | _ => none

end Json

end Retrace
