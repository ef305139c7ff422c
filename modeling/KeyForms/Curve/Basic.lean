import KeyForms.Algorithm
import KeyForms.Oid

/-!
# Curves

The curves on which a key can lie: three prime-field curves for keys with
two coordinates, and one curve for octet key pairs. The registry gives each
its number in a key map, its object identifier, the size of its field, and
the algorithm its keys are used with.

A field element takes as many octets as its bits need (`Curve.fieldOctets`),
so a pair of coordinates has one of three lengths, and the length tells the
curve (`Curve.ofCoordinatesLength?`).
-/

namespace KeyForms

/-- **The curves of keys with two coordinates.** -/
inductive Curve where
  /-- The 256-bit curve `secp256r1`. -/
  | p256
  /-- The 384-bit curve `secp384r1`. -/
  | p384
  /-- The 521-bit curve `secp521r1`. -/
  | p521
deriving DecidableEq

namespace Curve

/-- Every curve, in the order of their numbers. -/
def all : List Curve := [p256, p384, p521]

/-- The name that messages use. -/
def name : Curve → String
  | p256 => "P-256"
  | p384 => "P-384"
  | p521 => "P-521"

/-- The number of a curve in a key map. -/
def id : Curve → Int64
  | p256 => 1
  | p384 => 2
  | p521 => 3

/-- The curve with a given number. -/
def ofId? (n : Int64) : Option Curve :=
  if n = 1 then some p256
  else if n = 2 then some p384
  else if n = 3 then some p521
  else none

/-- The object identifier that names the curve. -/
def oid : Curve → Oid
  | p256 => Oid.secp256r1
  | p384 => Oid.secp384r1
  | p521 => Oid.secp521r1

/-- The number of bits of a field element. -/
def fieldBits : Curve → Nat
  | p256 => 256
  | p384 => 384
  | p521 => 521

/-- The number of octets of a field element: its bits, rounded up. -/
def fieldOctets (c : Curve) : Nat := (c.fieldBits + 7) / 8

/-- **The curve of a pair of coordinates**, told by their length together. -/
def ofCoordinatesLength? (n : Nat) : Option Curve :=
  if n = 64 then some p256
  else if n = 96 then some p384
  else if n = 132 then some p521
  else none

/-- The algorithm with which keys on the curve are used. -/
def algorithm : Curve → Algorithm
  | p256 => .es256
  | p384 => .es384
  | p521 => .es512

/-- A number names the curve that has it, and no other does. -/
theorem ofId?_eq_some_iff {n : Int64} {c : Curve} : ofId? n = some c ↔ n = c.id := by
  unfold ofId?
  split
  · subst_vars
    cases c <;> decide
  · split
    · subst_vars
      cases c <;> decide
    · split
      · subst_vars
        cases c <;> decide
      · cases c <;> simp_all [id]

/-- **A pair of coordinates lies on the curve whose field elements are half
as long.** -/
theorem ofCoordinatesLength?_eq_some_iff {n : Nat} {c : Curve} :
    ofCoordinatesLength? n = some c ↔ n = 2 * c.fieldOctets := by
  have h256 : p256.fieldOctets = 32 := rfl
  have h384 : p384.fieldOctets = 48 := rfl
  have h521 : p521.fieldOctets = 66 := rfl
  unfold ofCoordinatesLength?
  split
  · subst_vars
    cases c <;> simp [h256, h384, h521]
  · split
    · subst_vars
      cases c <;> simp [h256, h384, h521]
    · split
      · subst_vars
        cases c <;> simp [h256, h384, h521]
      · cases c <;> simp_all

end Curve

/-- The curves of octet key pairs. -/
inductive OkpCurve where
  /-- The twisted Edwards curve of Ed25519 keys. -/
  | ed25519
deriving DecidableEq

namespace OkpCurve

/-- The name that messages use. -/
def name : OkpCurve → String
  | ed25519 => "Ed25519"

/-- The number of a curve in a key map. -/
def id : OkpCurve → Int64
  | ed25519 => 6

/-- The curve with a given number. -/
def ofId? (n : Int64) : Option OkpCurve :=
  if n = 6 then some ed25519 else none

end OkpCurve

end KeyForms
