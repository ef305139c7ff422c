import Mathlib.Algebra.Order.Floor.Div
import Mathlib.Data.Nat.PSub
import KeyForms.Proofs.RawPoint.Shapes

/-!
# Raw points from integers

The two coordinates of a raw point are integers, written in octet strings of any
length, and each is brought to the width of a field. Dropping octets in front and
putting zeros in front are one operation on numbers: what is left is the number
modulo `256 ^ w` (`Octets.value_fixedWidth`). So zeros in front of a coordinate do
not matter, and a coordinate that fits the width is not changed.

The operation is written with differences that stop at zero, and with a position
that could lie behind the end. It says the same when each of these steps is checked
(`Octets.fixedWidth?_eq`): no position is out of range, and no difference is cut.

A raw point that is made in this way always has the marker, and so it is the raw
form of a pair of coordinates exactly when the width is that of some curve.
-/

namespace KeyForms

/-! ## Every step can be done -/

/-- **An octet string at a fixed width, step by step.** The octets that are kept
begin at some position, which must not lie behind the end, and there must not be
more of them than there is room for. -/
def Octets.fixedWidth? (width : Nat) (s : Octets) : Option Octets := do
  let (_, kept) ← splitAt? (s.length - width) s
  let missing ← width.psub kept.length
  return List.replicate missing 0 ++ kept

/-- **No step fails**, and the result is the same. -/
theorem Octets.fixedWidth?_eq (width : Nat) (s : Octets) :
    fixedWidth? width s = some (fixedWidth width s) := by
  have hposition : splitAt? (s.length - width) s
      = some (s.take (s.length - width), s.drop (s.length - width)) := by
    refine splitAt?_eq_some_iff.2 ⟨?_, (List.take_append_drop _ s).symm⟩
    rw [List.length_take]
    omega
  have hroom : width.psub (s.drop (s.length - width)).length = some (width - s.length) := by
    rw [List.length_drop, Nat.psub_eq_sub (by omega)]
    congr 1
    omega
  rw [fixedWidth?, hposition]
  show (width.psub (s.drop (s.length - width)).length >>= fun missing => _) = _
  rw [hroom]
  rfl

namespace RawPoint

/-- The raw point with the given coordinates, step by step. -/
def ofIntegers? (x y : Octets) (fieldBits : Nat) : Option Octets := do
  let width := (fieldBits + 7) / 8
  let left ← Octets.fixedWidth? width x
  let right ← Octets.fixedWidth? width y
  return ofCoordinates left right

theorem ofIntegers?_eq (x y : Octets) (fieldBits : Nat) :
    ofIntegers? x y fieldBits = some (ofIntegers x y fieldBits) := by
  rw [ofIntegers?, Octets.fixedWidth?_eq, Octets.fixedWidth?_eq]
  rfl

variable {x y left right : Octets} {fieldBits w : Nat}

/-- **A raw point of two integers** has them at the width of the field. -/
theorem ofIntegers_eq (x y : Octets) (hw : w = (fieldBits + 7) / 8) :
    ofIntegers x y fieldBits = ofCoordinates (Octets.fixedWidth w x) (Octets.fixedWidth w y) := by
  subst hw
  rfl

/-- **Raw points are the same when their integers have the same last digits.** -/
theorem ofIntegers_congr {x' y' : Octets} (hw : w = (fieldBits + 7) / 8)
    (hx : x.value % 256 ^ w = x'.value % 256 ^ w) (hy : y.value % 256 ^ w = y'.value % 256 ^ w) :
    ofIntegers x y fieldBits = ofIntegers x' y' fieldBits := by
  rw [ofIntegers_eq x y hw, ofIntegers_eq x' y' hw, Octets.fixedWidth_eq_iff.2 hx,
    Octets.fixedWidth_eq_iff.2 hy]

/-! ## The key map of such a raw point -/

/-- The coordinates of a raw point with a marker have an even length. -/
theorem hasShape_ofCoordinates (hleft : left.length = w) (hright : right.length = w) :
    HasShape (ofCoordinates left right) ↔ w = 32 ∨ w = 48 ∨ w = 66 := by
  have hlength : (ofCoordinates left right).length = 1 + 2 * w := by
    rw [ofCoordinates, List.length_cons, List.length_append]
    omega
  have hmarker : (ofCoordinates left right).head? = some 0x04 := rfl
  rw [HasShape, hlength, and_iff_right hmarker]
  omega

/-- **The key map of two field elements after the marker** has both of them. -/
theorem isOfPoint_of_ofCoordinates {key : KeyMap} (hleft : left.length = w)
    (hright : right.length = w) (h : KeyMap.ofRawPoint (ofCoordinates left right) = .ok key) :
    ∃ c : Curve, c.fieldOctets = w ∧ key.IsOfPoint c left right := by
  obtain ⟨c, x, y, hform, hx, rfl⟩ := KeyMap.ofRawPoint_eq_ok_iff.1 h
  obtain ⟨hcoordinates, hlength⟩ := isForm_iff.1 hform
  have heven : (left ++ right).length = 2 * w := by
    rw [List.length_append]
    omega
  have hsame : left ++ right = x ++ y := by
    rw [← hcoordinates, ofCoordinates, coordinates_cons_of_even (by omega)]
  have hwidth : c.fieldOctets = w := by
    rw [← hsame] at hlength
    omega
  obtain ⟨rfl, rfl⟩ := List.append_inj hsame (by omega)
  exact ⟨c, hwidth, KeyMap.isOfPoint_ofCoordinates c left right⟩

/-- **Making a raw point of two integers.** Every step can be done, and zeros in
front of an integer do not matter. The raw point is the marker and two octet strings
of the width of the field, which is its bits divided by eight and rounded up. They
write the two integers modulo `256 ^ w`, so the integers themselves when there is
room for them.

A key map is made of the raw point exactly when the width is that of a curve, and it
is then on this curve and has the two octet strings as they are. Otherwise the raw
point is refused, with its length and its marker. -/
theorem ofIntegers_exact (x y : Octets) (fieldBits w : Nat) (hw : w = fieldBits ⌈/⌉ 8) :
    ofIntegers? x y fieldBits = some (ofIntegers x y fieldBits)
      ∧ (∀ i j, ofIntegers (List.replicate i 0 ++ x) (List.replicate j 0 ++ y) fieldBits
        = ofIntegers x y fieldBits)
      ∧ (ofIntegers x y fieldBits).length = 1 + 2 * w
      ∧ (∃ left right : Octets, ofIntegers x y fieldBits = 0x04 :: (left ++ right)
        ∧ left.length = w ∧ right.length = w
        ∧ left.value = x.value % 256 ^ w ∧ right.value = y.value % 256 ^ w
        ∧ (x.value < 256 ^ w → left.value = x.value)
        ∧ (y.value < 256 ^ w → right.value = y.value)
        ∧ ∀ key, KeyMap.ofRawPoint (ofIntegers x y fieldBits) = .ok key →
          ∃ c : Curve, c.fieldOctets = w ∧ key.IsOfPoint c left right)
      ∧ ((∃ key, KeyMap.ofRawPoint (ofIntegers x y fieldBits) = .ok key)
        ↔ w = 32 ∨ w = 48 ∨ w = 66)
      ∧ (¬(w = 32 ∨ w = 48 ∨ w = 66) →
        KeyMap.ofRawPoint (ofIntegers x y fieldBits)
          = .error (.rawShape (1 + 2 * w) (some 0x04))) := by
  have hwidth : w = (fieldBits + 7) / 8 := hw.trans (Nat.ceilDiv_eq_add_pred_div fieldBits 8)
  have hraw : ofIntegers x y fieldBits
      = ofCoordinates (Octets.fixedWidth w x) (Octets.fixedWidth w y) :=
    ofIntegers_eq x y hwidth
  have hlength : (ofIntegers x y fieldBits).length = 1 + 2 * w := by
    rw [length_ofIntegers, hwidth]
  have hleft := Octets.length_fixedWidth w x
  have hright := Octets.length_fixedWidth w y
  have hshape : HasShape (ofIntegers x y fieldBits) ↔ w = 32 ∨ w = 48 ∨ w = 66 := by
    rw [hraw, hasShape_ofCoordinates hleft hright]
  refine ⟨ofIntegers?_eq x y fieldBits, fun i j => ?zeros, hlength, ?halves,
    KeyMap.exists_ofRawPoint_iff.trans hshape, fun hother => ?refused⟩
  case zeros =>
    refine ofIntegers_congr rfl ?_ ?_
    · rw [Octets.value_zeros_append]
    · rw [Octets.value_zeros_append]
  case halves =>
    refine ⟨Octets.fixedWidth w x, Octets.fixedWidth w y, hraw, hleft, hright,
      Octets.value_fixedWidth w x, Octets.value_fixedWidth w y, fun hx => ?_, fun hy => ?_,
      fun key hkey => ?_⟩
    · rw [Octets.value_fixedWidth, Nat.mod_eq_of_lt hx]
    · rw [Octets.value_fixedWidth, Nat.mod_eq_of_lt hy]
    · rw [hraw] at hkey
      exact isOfPoint_of_ofCoordinates hleft hright hkey
  case refused =>
    have hmarker : (ofIntegers x y fieldBits).head? = some 0x04 := by
      rw [hraw]
      rfl
    rw [KeyMap.ofRawPoint_of_not_hasShape (mt hshape.1 hother), hlength, hmarker]

/-- Integers of one octet too many and of none, for a field of nine bits: the raw
point is made and has no curve. And integers for the largest curve, whose field has
521 bits, one of them with zeros in front. -/
theorem ofIntegers_exact_widths :
    (ofIntegers [1, 2, 3] [] 9 = [0x04, 2, 3, 0, 0]
        ∧ KeyMap.ofRawPoint (ofIntegers [1, 2, 3] [] 9) = .error (.rawShape 5 (some 0x04)))
      ∧ ∃ left right : Octets, ofIntegers [0, 0, 7] [9] 521 = 0x04 :: (left ++ right)
        ∧ left.value = 7 ∧ right.value = 9
        ∧ ∃ key, KeyMap.ofRawPoint (ofIntegers [0, 0, 7] [9] 521) = .ok key
          ∧ key.IsOfPoint .p521 left right := by
  obtain ⟨-, -, -, -, -, hrefused⟩ := ofIntegers_exact [1, 2, 3] [] 9 2 (by decide)
  obtain ⟨-, -, -, ⟨left, right, hraw, -, -, -, -, hleft, hright, hkeys⟩, hiff, -⟩ :=
    ofIntegers_exact [0, 0, 7] [9] 521 66 (by decide)
  refine ⟨⟨by decide, hrefused (by decide)⟩, left, right, hraw, hleft (by decide),
    hright (by decide), ?_⟩
  obtain ⟨key, hkey⟩ := hiff.2 (by decide)
  obtain ⟨c, hc, hpoint⟩ := hkeys key hkey
  obtain rfl : c = .p521 := Curve.fieldOctets_inj.1 hc
  exact ⟨key, hkey, hpoint⟩

end RawPoint

end KeyForms
