import KeyForms.Curve.Point
import KeyForms.Error
import KeyForms.KeyMap.Basic

/-!
# Raw points

A raw point is two coordinates at the width of a field, one after the other,
with or without the marker of an uncompressed point in front. The curve is
not written down: it is told by the length.

A pair of coordinates has an even length. So an octet string that begins
with the marker's octet carries the marker exactly when its length is odd,
and otherwise the octet belongs to the first coordinate.
-/

namespace KeyForms

namespace RawPoint

/-- **The coordinates of a raw point**: what follows the marker, if there is
one. -/
def coordinates (s : Octets) : Octets :=
  if s.head? = some Curve.Point.uncompressedTag ∧ s.length % 2 = 1 then s.tail else s

/-- Two coordinates after the marker, as they are. -/
def ofCoordinates (x y : Octets) : Octets := Curve.Point.uncompressedTag :: (x ++ y)

/-- **The raw point with the given coordinates**, over a field of a given
number of bits. The coordinates are integers of any length; each is brought
to the width of the field. -/
def ofIntegers (x y : Octets) (fieldBits : Nat) : Octets :=
  let width := (fieldBits + 7) / 8
  ofCoordinates (Octets.fixedWidth width x) (Octets.fixedWidth width y)

/-- A raw point at a width of `w` octets has `1 + 2 w` octets. -/
@[simp] theorem length_ofIntegers (x y : Octets) (fieldBits : Nat) :
    (ofIntegers x y fieldBits).length = 1 + 2 * ((fieldBits + 7) / 8) := by
  simp only [ofIntegers, ofCoordinates, List.length_cons, List.length_append,
    Octets.length_fixedWidth]
  omega

end RawPoint

/-- The key map of a point with the given coordinates: key type, algorithm,
curve, and the coordinates as they are. -/
def KeyMap.ofCoordinates (c : Curve) (x y : Octets) : KeyMap :=
  KeyMap.empty
    |>.insert Label.keyType (.integer KeyType.ec2.id)
    |>.insert Label.algorithm (.integer c.algorithm.code)
    |>.insert Label.curve (.integer c.id)
    |>.insert Label.x (.octets x)
    |>.insert Label.y (.octets y)

/-- **The key map of a raw point.** Its curve is the one whose coordinates
have this length; whether the point lies on it is not asked. -/
def KeyMap.ofRawPoint (s : Octets) : Except KeyError KeyMap :=
  let coordinates := RawPoint.coordinates s
  match Curve.ofCoordinatesLength? coordinates.length with
  | none => .error (.rawShape s.length s.head?)
  | some c =>
    .ok (.ofCoordinates c (coordinates.take c.fieldOctets) (coordinates.drop c.fieldOctets))

end KeyForms
