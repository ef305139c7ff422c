/-!
# Residues

Arithmetic modulo a number, as far as recovering a coordinate needs it:
powers by squaring, and with them Euler's test for squares modulo an odd
prime and the square root modulo a prime that leaves 3 on division by 4.

`Residue.pow` halves the exponent at each step, so its depth is the number
of bits of the exponent.
-/

namespace KeyForms.Residue

/-- The power `b ^ e` modulo `m`, for an exponent of at most `bits` bits. -/
def powBits (m : Nat) : Nat → Nat → Nat → Nat
  | 0, _, _ => 1 % m
  | bits + 1, b, e =>
    if e % 2 = 0 then powBits m bits (b * b % m) (e / 2)
    else b * powBits m bits (b * b % m) (e / 2) % m

/-- **The power `b ^ e` modulo `m`.** -/
def pow (m b e : Nat) : Nat := powBits m (e.log2 + 1) (b % m) e

/-- **Whether `a` is a square modulo the odd prime `p`**, by Euler's test. -/
def isSquare (p a : Nat) : Bool :=
  a % p = 0 || pow p a ((p - 1) / 2) = 1

/-- The square root of `a` modulo a prime `p` with `p % 4 = 3`, if `a` is a
square; otherwise a number whose square is not `a`. -/
def sqrt (p a : Nat) : Nat := pow p a ((p + 1) / 4)

end KeyForms.Residue
