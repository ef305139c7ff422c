import KeyForms.Error
import KeyForms.KeyMap.Basic

/-!
# Fields of a key map

A field is read as what it should be. One that is missing, or that holds the
other kind of value, is an error that names it; nothing is converted.
-/

namespace KeyForms.KeyMap

/-- **The integer of a field.** -/
def integer (key : KeyMap) (label : Int64) : Except KeyError Int64 :=
  match key.get? label with
  | some (.integer n) => .ok n
  | some (.octets _) => .error (.malformed (.notInteger label))
  | none => .error (.malformed (.missing label))

/-- **The byte string of a field.** -/
def octets (key : KeyMap) (label : Int64) : Except KeyError Octets :=
  match key.get? label with
  | some (.octets s) => .ok s
  | some (.integer _) => .error (.malformed (.notOctets label))
  | none => .error (.malformed (.missing label))

/-- The number of the key type, whether or not it is a known one. -/
def keyTypeId (key : KeyMap) : Except KeyError Int64 := key.integer Label.keyType

/-- **The algorithm with which the key is used**, which a key need not
state. One that is stated has to be a known one. -/
def algorithm? (key : KeyMap) : Except KeyError (Option Algorithm) :=
  match key.get? Label.algorithm with
  | none => .ok none
  | some _ =>
    match key.integer Label.algorithm with
    | .error error => .error error
    | .ok code =>
      match Algorithm.ofCode code with
      | .ok algorithm => .ok (some algorithm)
      | .error unknown => .error (.unknownAlgorithm unknown)

/-- An integer is read from a field exactly when the field holds it. -/
theorem integer_eq_ok_iff {key : KeyMap} {label n : Int64} :
    key.integer label = .ok n ↔ key.get? label = some (.integer n) := by
  unfold integer
  split <;> simp_all

/-- A byte string is read from a field exactly when the field holds it. -/
theorem octets_eq_ok_iff {key : KeyMap} {label : Int64} {s : Octets} :
    key.octets label = .ok s ↔ key.get? label = some (.octets s) := by
  unfold octets
  split <;> simp_all

end KeyForms.KeyMap
