import KeyForms.Octets

/-!
# Magnitudes

A magnitude is a non-negative integer written as big-endian octets with no
leading zero, so that zero is the empty string. It is the form in which the
two numbers of an RSA key are handed over: a sign octet or other padding in
front of a modulus is not part of the number.

The absence of a leading zero is a field of the type, so two magnitudes are
equal when their octets are, and `Magnitude.ofOctets` is the only way in.
-/

namespace KeyForms

/-- **A non-negative integer in its shortest big-endian form.** -/
structure Magnitude where
  /-- The octets, the most significant first. -/
  octets : Octets
  /-- The shortest form does not begin with a zero octet. -/
  head_ne_zero : octets.head? ≠ some 0
deriving DecidableEq

namespace Magnitude

theorem head?_dropWhile_zero_ne (s : Octets) :
    (s.dropWhile (· == 0)).head? ≠ some 0 := by
  induction s with
  | nil => simp
  | cons b s ih =>
    rw [List.dropWhile_cons]
    split
    · exact ih
    · rename_i hb
      simpa using hb

/-- The magnitude an octet string writes: its leading zeros are dropped. -/
def ofOctets (s : Octets) : Magnitude where
  octets := s.dropWhile (· == 0)
  head_ne_zero := head?_dropWhile_zero_ne s

/-- The number itself. -/
def value (m : Magnitude) : Nat := m.octets.value

/-- Whether the number is zero. -/
def isZero (m : Magnitude) : Bool := m.octets.isEmpty

/-- **The number of significant bits**: eight for every octet after the
first, and for the first as many as its value needs. -/
def bitLength (m : Magnitude) : Nat :=
  match m.octets with
  | [] => 0
  | high :: rest => high.toNat.log2 + 1 + 8 * rest.length

/-- Zeros in front do not change the magnitude. -/
@[simp] theorem ofOctets_zero_cons (s : Octets) : ofOctets (0 :: s) = ofOctets s := rfl

/-- Dropping the leading zeros keeps the number. -/
@[simp] theorem value_ofOctets (s : Octets) : (ofOctets s).value = s.value := by
  induction s with
  | nil => rfl
  | cons b s ih =>
    by_cases hb : b = 0
    · subst hb
      exact ih
    · simp [ofOctets, value, hb]

/-- A magnitude is the one its own octets write. -/
@[simp] theorem ofOctets_octets (m : Magnitude) : ofOctets m.octets = m := by
  obtain ⟨octets, h⟩ := m
  cases octets with
  | nil => rfl
  | cons b s =>
    have hb : ¬ b = 0 := by simpa using h
    simp [ofOctets, hb]

end Magnitude

end KeyForms
