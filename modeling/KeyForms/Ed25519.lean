import KeyForms.Octets
import KeyForms.Residue

/-!
# Ed25519 keys

An Ed25519 key is 32 octets that stand for a point of the curve
`-x² + y² = 1 + d x² y²`, modulo `2^255 - 19`. The low 255 bits are `y`, the
least significant octet first; a `y` that is not below the prime is read
modulo it. The top bit is the sign of `x`.

The octets are a key when some `x` belongs to `y`, that is, when
`(y² - 1) / (d y² + 1)` is a square. The sign bit plays no part in that, so it
may be set even where `x` is zero. The denominator is never zero, so the
quotient is a square exactly when the product of the two is.
-/

namespace KeyForms.Ed25519

/-- The prime of the field, `2^255 - 19`. -/
def prime : Nat := 0x7fffffffffffffffffffffffffffffffffffffffffffffffffffffffffffffed

/-- The constant `d` of the curve. -/
def d : Nat := 0x52036cee2b6ffe738cc740797779e89800700a4d4141d8ab75eb4dca135978a3

/-- The length of a key in octets. -/
def keyLength : Nat := 32

/-- The number written in the low 255 bits, the first octet being the least
significant. -/
def coordinate (octets : Octets) : Nat :=
  Octets.value octets.reverse % 0x8000000000000000000000000000000000000000000000000000000000000000

/-- Whether some point of the curve has the second coordinate `y`. -/
def hasPoint (y : Nat) : Bool :=
  let yy := y * y % prime
  Residue.isSquare prime ((yy + prime - 1) * (d * yy + 1))

/-- Whether octets are a key. -/
def isKey (octets : Octets) : Bool :=
  octets.length = keyLength && hasPoint (coordinate octets)

/-- **An Ed25519 key**, kept as the octets it was given in. -/
structure Key where
  /-- The 32 octets. -/
  octets : Octets
  /-- They stand for a point of the curve. -/
  isKey_octets : isKey octets = true
deriving DecidableEq

/-- A key has 32 octets. -/
theorem Key.length_octets (key : Key) : key.octets.length = 32 := by
  have h := key.isKey_octets
  rw [isKey, Bool.and_eq_true, decide_eq_true_iff] at h
  exact h.1

/-- **A key is told by its octets.** -/
theorem Key.octets_inj {key key' : Key} : key.octets = key'.octets ↔ key = key' := by
  constructor
  · intro h
    obtain ⟨octets, hkey⟩ := key
    subst h
    rfl
  · rintro rfl
    rfl

/-- The key that octets are, if they are one. -/
def Key.ofOctets? (octets : Octets) : Option Key :=
  if h : isKey octets = true then some ⟨octets, h⟩ else none

/-- Octets are a key exactly when some key has them. -/
theorem Key.ofOctets?_eq_some_iff {octets : Octets} {key : Key} :
    Key.ofOctets? octets = some key ↔ key.octets = octets := by
  obtain ⟨s, hs⟩ := key
  unfold Key.ofOctets?
  constructor
  · intro h
    split at h
    · cases h
      rfl
    · contradiction
  · rintro rfl
    exact dif_pos hs

end KeyForms.Ed25519
