import KeyForms.Magnitude

/-!
# RSA keys

An RSA key is a modulus and a public exponent. Whether the modulus is the
product of two primes is not asked. What is asked is that the numbers are of
the sizes that are worked with and can belong together: the modulus is odd
and larger than the exponent, and the exponent is odd and at least two.

The questions are asked in a fixed order, and the first that is answered
badly is the flaw of the pair (`Rsa.flaw?`).
-/

namespace KeyForms.Rsa

/-- **What is wrong with a modulus and an exponent.** -/
inductive Flaw where
  /-- The modulus has too many bits. -/
  | modulusTooLarge
  /-- The exponent is too large. -/
  | exponentTooLarge
  /-- The modulus is even, or not larger than the exponent. -/
  | invalidModulus
  /-- The exponent is even. -/
  | invalidExponent
  /-- The exponent is too small. -/
  | exponentTooSmall
deriving DecidableEq

/-- The words for a flaw. -/
def Flaw.message : Flaw → String
  | .modulusTooLarge => "modulus too large"
  | .exponentTooLarge => "public exponent too large"
  | .invalidModulus => "invalid modulus"
  | .invalidExponent => "invalid exponent"
  | .exponentTooSmall => "public exponent too small"

/-- The number of bits a modulus can have. -/
def maxModulusBits : Nat := 4096

/-- The number of bits of an exponent that is looked at any further. -/
def exponentBits : Nat := 64

/-- The smallest exponent. -/
def minExponent : Nat := 2

/-- The largest exponent, `2^33 - 1`. -/
def maxExponent : Nat := 0x1ffffffff

/-- **The first flaw** of a modulus and an exponent, if they have one. -/
def flaw? (modulus exponent : Magnitude) : Option Flaw :=
  let n := modulus.value
  let e := exponent.value
  if maxModulusBits < modulus.bitLength then some .modulusTooLarge
  else if exponentBits < exponent.bitLength then some .exponentTooLarge
  else if n ≤ e ∨ n % 2 = 0 then some .invalidModulus
  else if e % 2 = 0 then some .invalidExponent
  else if e < minExponent then some .exponentTooSmall
  else if maxExponent < e then some .exponentTooLarge
  else none

/-- **An RSA key.** -/
structure Key where
  /-- The modulus. -/
  modulus : Magnitude
  /-- The public exponent. -/
  exponent : Magnitude
  /-- The two have no flaw. -/
  flawless : flaw? modulus exponent = none
deriving DecidableEq

/-- The key of a modulus and an exponent, or what is wrong with them. -/
def Key.ofNumbers (modulus exponent : Magnitude) : Except Flaw Key :=
  match h : flaw? modulus exponent with
  | none => .ok ⟨modulus, exponent, h⟩
  | some flaw => .error flaw

/-- A modulus and an exponent are a key exactly when they have no flaw, and
the key then has them. -/
theorem Key.ofNumbers_eq_ok_iff {modulus exponent : Magnitude} {key : Key} :
    Key.ofNumbers modulus exponent = .ok key
      ↔ key.modulus = modulus ∧ key.exponent = exponent := by
  obtain ⟨n, e, hflawless⟩ := key
  unfold Key.ofNumbers
  constructor
  · intro h
    split at h
    · cases h
      exact ⟨rfl, rfl⟩
    · contradiction
  · rintro ⟨rfl, rfl⟩
    split
    · rfl
    · simp_all

end KeyForms.Rsa
