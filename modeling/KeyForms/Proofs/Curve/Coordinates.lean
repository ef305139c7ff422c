import KeyForms.Proofs.Octets
import KeyForms.PublicKey

/-!
# Points as pairs of coordinates

A point and the octets of its two coordinates, each at the width of the field,
are the same thing (`Curve.Point.coordinates`). Those octets are what stands
after the marker in a raw point, and reading them back gives the point
(`Curve.Point.ofOctets?_eq_some_iff`). The octet strings that are coordinates
of a point can be told without the point: they have the right length, and
their halves satisfy the conditions of the curve
(`Curve.exists_coordinates_eq_iff`).

So nothing is lost between a point and its octets in either direction. In
particular a coordinate that begins with zeros keeps them.
-/

namespace KeyForms

namespace Curve

variable {c : Curve}

/-- The width of the field has room for every coordinate. -/
theorem prime_lt (c : Curve) : c.prime < 256 ^ c.fieldOctets := by
  cases c <;> decide

/-- **The octets that are coordinates of a point**: two field elements at the
width of the field, which satisfy the conditions of the curve. -/
def IsCoordinates (c : Curve) (q : Octets) : Prop :=
  q.length = 2 * c.fieldOctets
    ∧ c.IsPoint (Octets.value (q.take c.fieldOctets)) (Octets.value (q.drop c.fieldOctets))

instance (c : Curve) (q : Octets) : Decidable (c.IsCoordinates q) :=
  inferInstanceAs (Decidable (_ ∧ _))

namespace Point

variable {p : c.Point} {q : Octets}

/-- **The coordinates of a point as octets**, the first one first. -/
def coordinates (p : c.Point) : Octets :=
  Octets.ofNat c.fieldOctets p.x ++ Octets.ofNat c.fieldOctets p.y

@[simp] theorem length_coordinates (p : c.Point) :
    p.coordinates.length = 2 * c.fieldOctets := by
  rw [coordinates, List.length_append, Octets.length_ofNat, Octets.length_ofNat, Nat.two_mul]

theorem take_coordinates (p : c.Point) :
    p.coordinates.take c.fieldOctets = Octets.ofNat c.fieldOctets p.x :=
  List.take_left' (Octets.length_ofNat _ _)

theorem drop_coordinates (p : c.Point) :
    p.coordinates.drop c.fieldOctets = Octets.ofNat c.fieldOctets p.y :=
  List.drop_left' (Octets.length_ofNat _ _)

/-- **The first half is the first coordinate**, as a number. -/
@[simp] theorem value_take_coordinates (p : c.Point) :
    Octets.value (p.coordinates.take c.fieldOctets) = p.x := by
  rw [take_coordinates]
  exact Octets.value_ofNat_of_lt (p.isPoint.1.trans c.prime_lt)

/-- **The second half is the second coordinate**, as a number. -/
@[simp] theorem value_drop_coordinates (p : c.Point) :
    Octets.value (p.coordinates.drop c.fieldOctets) = p.y := by
  rw [drop_coordinates]
  exact Octets.value_ofNat_of_lt (p.isPoint.2.1.trans c.prime_lt)

/-- **Octets are the coordinates of a point** when they are long enough and
their halves show the numbers. -/
theorem coordinates_eq_iff :
    p.coordinates = q ↔ q.length = 2 * c.fieldOctets
      ∧ p.x = Octets.value (q.take c.fieldOctets)
      ∧ p.y = Octets.value (q.drop c.fieldOctets) := by
  constructor
  · rintro rfl
    exact ⟨p.length_coordinates, p.value_take_coordinates.symm, p.value_drop_coordinates.symm⟩
  · rintro ⟨hlength, hx, hy⟩
    have htake : (q.take c.fieldOctets).length = c.fieldOctets := by
      rw [List.length_take]
      omega
    have hdrop : (q.drop c.fieldOctets).length = c.fieldOctets := by
      rw [List.length_drop]
      omega
    rw [coordinates, hx, hy, Octets.ofNat_value_of_length htake,
      Octets.ofNat_value_of_length hdrop, List.take_append_drop]

end Point

/-- **The octets that are coordinates of a point** are the coordinates of some
point. -/
theorem exists_coordinates_eq_iff {q : Octets} :
    (∃ p : c.Point, p.coordinates = q) ↔ c.IsCoordinates q := by
  constructor
  · rintro ⟨p, rfl⟩
    refine ⟨p.length_coordinates, ?_⟩
    rw [p.value_take_coordinates, p.value_drop_coordinates]
    exact p.isPoint
  · rintro ⟨hlength, hpoint⟩
    exact ⟨⟨_, _, hpoint⟩, Point.coordinates_eq_iff.2 ⟨hlength, rfl, rfl⟩⟩

namespace Point

/-- **After the marker stand the coordinates of the point that is read.** -/
theorem ofOctets?_eq_some_iff {p : c.Point} {q : Octets} :
    ofOctets? c (uncompressedTag :: q) = some p ↔ p.coordinates = q := by
  rw [ofOctets?, if_pos rfl, coordinates_eq_iff]
  constructor
  · intro h
    split at h
    · exact ⟨‹_›, ofCoordinates?_eq_some_iff.1 h⟩
    · cases h
  · rintro ⟨hlength, hpoint⟩
    rw [if_pos hlength]
    exact ofCoordinates?_eq_some_iff.2 hpoint

/-- What stands after the marker and is no coordinates is no point. -/
theorem ofOctets?_eq_none_iff {q : Octets} :
    ofOctets? c (uncompressedTag :: q) = none ↔ ¬c.IsCoordinates q := by
  rw [← exists_coordinates_eq_iff, Option.eq_none_iff_forall_ne_some, not_exists]
  exact forall_congr' fun p => not_congr ofOctets?_eq_some_iff

/-- The base point of the 256-bit curve. -/
def base : p256.Point where
  x := 0x6b17d1f2e12c4247f8bce6e563a440f277037d812deb33a0f4a13945d898c296
  y := 0x4fe342e2fe1a7f9b8ee7eb4a7c0f9e162bce33576b315ececbb6406837bf51f5
  isPoint := by decide +kernel

/-- The base point of the 521-bit curve. Both of its coordinates begin with zeros. -/
def base521 : p521.Point where
  x :=
    0x00c6858e06b70404e9cd9e3ecb662395b4429c648139053fb521f828af606b4d3dbaa14b5e77efe75928fe1dc127a2ffa8de3348b3c1856a429bf97e7e31c2e5bd66
  y :=
    0x011839296a789a3bc0045c8a5fb42c7d1bd998f54449579b446817afbd17273e662c97ee72995ef42640c550b9013fad0761353c7086a272c24088be94769fd16650
  isPoint := by decide +kernel

end Point

end Curve

/-- **The raw point of a point** is the marker and its coordinates. -/
theorem PublicKey.rawPoint_ec (c : Curve) (p : c.Point) :
    (PublicKey.ec c p).rawPoint = .ok (Curve.Point.uncompressedTag :: p.coordinates) := by
  have hwidth : (c.fieldBits + 7) / 8 = c.fieldOctets := rfl
  rw [rawPoint, RawPoint.ofIntegers, RawPoint.ofCoordinates, hwidth,
    Octets.fixedWidth_of_length (Octets.length_ofNat _ _),
    Octets.fixedWidth_of_length (Octets.length_ofNat _ _), Curve.Point.coordinates]

end KeyForms
