import KeyForms.Curve.Basic
import KeyForms.Octets
import KeyForms.Residue
import KeyForms.Wraparound

/-!
# Points

Each of the three curves is given by an equation `y² = x³ - 3x + b` over the
integers modulo a prime. A point is a pair of numbers below the prime that
satisfies it, and `Curve.Point` carries the proof, so no code after this
module asks again.

A point is written in one of four ways, told apart by a first octet: both
coordinates after `0x04`, or the first coordinate alone after `0x02` (the
second is even), `0x03` (it is odd) or `0x05` (it is the smaller of the two
roots). `Curve.Point.ofOctets?` reads all four and nothing else; in
particular the point at infinity has no form here.

Even and odd are said of the root as it is computed (`rootOf`). On the two
smaller curves that is the coordinate itself. On the largest it can be the
coordinate with the prime added, and then the two words change places: after
`0x02` stands a point whose coordinate is odd. It happens to short roots only,
those of some sixty bits or fewer.
-/

namespace KeyForms

namespace Curve

/-- The prime of the field. -/
def prime : Curve → Nat
  | p256 => 0xffffffff00000001000000000000000000000000ffffffffffffffffffffffff
  | p384 =>
    0xfffffffffffffffffffffffffffffffffffffffffffffffffffffffffffffffeffffffff0000000000000000ffffffff
  | p521 =>
    0x01ffffffffffffffffffffffffffffffffffffffffffffffffffffffffffffffffffffffffffffffffffffffffffffffffffffffffffffffffffffffffffffffffff

/-- The constant of the equation. -/
def b : Curve → Nat
  | p256 => 0x5ac635d8aa3a93e7b3ebbd55769886bc651d06b0cc53b0f63bce3c3e27d2604b
  | p384 =>
    0xb3312fa7e23ee7e4988e056be3f82d19181d9c6efe8141120314088f5013875ac656398d8a2ed19d2a85c8edd3ec2aef
  | p521 =>
    0x0051953eb9618e1c9a1f929a21a0b68540eea2da725b99b315f3b8b489918ef109e156193951ec7e937b1652c0bd3bb1bf073573df883d2c34f1ef451fd46b503f00

/-- The right-hand side `x³ - 3x + b`, modulo the prime. -/
def rhs (c : Curve) (x : Nat) : Nat :=
  (((x * x * x : Nat) : Int) - 3 * x + c.b) % c.prime |>.toNat

/-- **The points of a curve**: both coordinates are below the prime, and
`y² = x³ - 3x + b` modulo the prime. -/
def IsPoint (c : Curve) (x y : Nat) : Prop :=
  x < c.prime ∧ y < c.prime ∧ y * y % c.prime = c.rhs x

instance (c : Curve) (x y : Nat) : Decidable (c.IsPoint x y) :=
  inferInstanceAs (Decidable (_ ∧ _ ∧ _))

/-- **A point of a curve**, by its coordinates. -/
structure Point (c : Curve) where
  /-- The first coordinate. -/
  x : Nat
  /-- The second coordinate. -/
  y : Nat
  /-- The coordinates satisfy the curve's equation. -/
  isPoint : c.IsPoint x y
deriving DecidableEq

namespace Point

variable {c : Curve}

/-- The point with given coordinates, if they are those of a point. -/
def ofCoordinates? (c : Curve) (x y : Nat) : Option c.Point :=
  if h : c.IsPoint x y then some ⟨x, y, h⟩ else none

/-- Which of the two roots a shortened form stands for. -/
inductive Root where
  /-- The root that is an even number. -/
  | even
  /-- The root that is an odd number. -/
  | odd
  /-- The root that is the smaller number. -/
  | smaller
deriving DecidableEq

/-- The right-hand side in wrap-around digits, term by term. -/
def wrappedRhs (c : Curve) (x : Nat) : Wraparound.Digits :=
  let x := Wraparound.ofNat x
  let cube := Wraparound.product (Wraparound.product x x) x
  let linear := Wraparound.product (Wraparound.ofNat (c.prime - 3)) x
  Wraparound.sum (Wraparound.sum cube linear) (Wraparound.ofNat c.b)

/-- **A number whose residue is a root** of the right-hand side, if it has
one. On the largest curve it is computed in wrap-around digits and may exceed
the prime. -/
def rootOf (c : Curve) (x : Nat) : Nat :=
  match c with
  | p256 | p384 => Residue.sqrt c.prime (c.rhs x)
  | p521 => Wraparound.value (Wraparound.sqrt (wrappedRhs c x))

/-- The second coordinate that is meant, given a number `r` whose residue is
one of the two roots. Whether that root is even or odd is told by `r` itself
and not by the residue, which differs where `r` exceeds the prime. -/
def Root.choose (c : Curve) (r : Nat) : Root → Nat
  | .even => if r % 2 = 0 then r % c.prime else c.prime - r % c.prime
  | .odd => if r % 2 = 1 then r % c.prime else c.prime - r % c.prime
  | .smaller => min (r % c.prime) (c.prime - r % c.prime)

/-- The point with a given first coordinate and the root that is meant. A
number that is no first coordinate of a point fails the equation. -/
def lift? (c : Curve) (x : Nat) (root : Root) : Option c.Point :=
  ofCoordinates? c x (root.choose c (rootOf c x))

/-- The marker of a point written with both coordinates. -/
def uncompressedTag : UInt8 := 0x04

/-- **The point that octets write**, in any of the four forms. -/
def ofOctets? (c : Curve) : Octets → Option c.Point
  | [] => none
  | tag :: body =>
    if tag = uncompressedTag then
      if body.length = 2 * c.fieldOctets then
        ofCoordinates? c (Octets.value (body.take c.fieldOctets))
          (Octets.value (body.drop c.fieldOctets))
      else none
    else if body.length = c.fieldOctets then
      if tag = 0x02 then lift? c (Octets.value body) .even
      else if tag = 0x03 then lift? c (Octets.value body) .odd
      else if tag = 0x05 then lift? c (Octets.value body) .smaller
      else none
    else none

/-- Coordinates are those of a point exactly when they satisfy the curve's
conditions, and the point then has them. -/
theorem ofCoordinates?_eq_some_iff {x y : Nat} {p : c.Point} :
    ofCoordinates? c x y = some p ↔ p.x = x ∧ p.y = y := by
  obtain ⟨px, py, hp⟩ := p
  unfold ofCoordinates?
  constructor
  · intro h
    split at h
    · cases h
      exact ⟨rfl, rfl⟩
    · contradiction
  · rintro ⟨rfl, rfl⟩
    exact dif_pos hp

end Point

end Curve

end KeyForms
