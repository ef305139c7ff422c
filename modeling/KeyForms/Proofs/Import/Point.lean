import KeyForms.Proofs.Curve.Coordinates
import KeyForms.Proofs.Import.Native
import KeyForms.Proofs.Material
import KeyForms.Proofs.SubjectInfo.Sizes

/-!
# Importing points

What becomes of a key map that states a point. Its two byte strings are put
one after the other behind a marker, and from there on they are one octet
string. An import therefore judges that string alone: it is taken when it is
as long as two coordinates and its halves are those of a point
(`Native.result_importKey_of_statesPoint`), and the point that is imported has
these halves and no others.

So importing is exact for the string (`Native.importKey_statedPoint`), and
exact for raw points, which are such strings (`Native.importKey_rawPoint`).
For the two byte strings by themselves it is not. They need not be cut where
the halves are cut, and then the point is one that the key map does not state
(`Native.importKey_cut`).
-/

namespace KeyForms

namespace Native

open Curve.Point (uncompressedTag)

variable {kinds : KeyKinds} {s : Octets} {key : KeyMap} {c : Curve} {x y : Octets}

/-! ## The result for a stated point -/

/-- The answer to a raw point: the key with the point that it is, or the
refusal of what is none. -/
def answerPoint (c : Curve) (r : Octets) : Except (ImportError Refusal) PublicKey :=
  match Curve.Point.ofOctets? c r with
  | some point => .ok (.ec c point)
  | none => .error (.refused .ec2 (.info .notPoint))

/-- **The answer is a key exactly for coordinates of a point**, and the key
has that point. -/
theorem answerPoint_eq_ok_iff {q : Octets} {k : PublicKey} :
    answerPoint c (uncompressedTag :: q) = .ok k
      ↔ ∃ point : c.Point, point.coordinates = q ∧ k = .ec c point := by
  rw [answerPoint]
  cases h : Curve.Point.ofOctets? c (uncompressedTag :: q) with
  | none =>
    constructor
    · intro hk
      cases hk
    · rintro ⟨point, hpoint, -⟩
      rw [Curve.Point.ofOctets?_eq_some_iff.2 hpoint] at h
      cases h
  | some point =>
    have hpoint := Curve.Point.ofOctets?_eq_some_iff.1 h
    constructor
    · intro hk
      cases hk
      exact ⟨point, hpoint, rfl⟩
    · rintro ⟨point', hpoint', rfl⟩
      rw [Curve.Point.ofOctets?_eq_some_iff.2 hpoint'] at h
      cases h
      rfl

theorem exists_answerPoint_eq_ok_iff {q : Octets} :
    (∃ k, answerPoint c (uncompressedTag :: q) = .ok k) ↔ c.IsCoordinates q := by
  rw [← Curve.exists_coordinates_eq_iff]
  constructor
  · rintro ⟨k, hk⟩
    obtain ⟨point, hpoint, -⟩ := answerPoint_eq_ok_iff.1 hk
    exact ⟨point, hpoint⟩
  · rintro ⟨point, hpoint⟩
    exact ⟨.ec c point, answerPoint_eq_ok_iff.2 ⟨point, hpoint, rfl⟩⟩

theorem answerPoint_of_not_isCoordinates {q : Octets} (h : ¬c.IsCoordinates q) :
    answerPoint c (uncompressedTag :: q) = .error (.refused .ec2 (.info .notPoint)) := by
  rw [answerPoint, Curve.Point.ofOctets?_eq_none_iff.2 h]

/-- **The result for a key map that states a point**: its coordinates are too
long to be written, or else the result is the answer to the two of them as one
raw point. -/
theorem result_importKey_of_statesPoint (hkind : kinds (.ec c) = true)
    (hkey : KeyMap.decode s = .ok key) (h : key.StatesPoint c x y) :
    (importKey kinds s).result = match c.subjectInfo x y with
      | .error long => .error (.unusable (.tooLong long))
      | .ok _ => answerPoint c (RawPoint.ofCoordinates x y) := by
  rw [result_importKey, Material.ofOctets_of_decode hkey, Material.ofKeyMap_of_statesPoint h]
  cases hinfo : c.subjectInfo x y with
  | error long => rfl
  | ok info =>
    show Except.mapError _ ((provider kinds).submit (.ec c info)) = _
    rw [submit_ec hkind hinfo, answerPoint]
    cases Curve.Point.ofOctets? c (RawPoint.ofCoordinates x y) with
    | none => rfl
    | some point => rfl

/-- **A key with a point comes from a key map that states one.** -/
theorem exists_statesPoint_of_result {point : c.Point}
    (h : (importKey kinds s).result = .ok (.ec c point)) :
    kinds (.ec c) = true ∧ ∃ key x y, KeyMap.decode s = .ok key ∧ key.StatesPoint c x y := by
  obtain ⟨material, hmaterial, hanswer⟩ := exists_of_result_eq_ok h
  obtain ⟨hkind, info, rfl⟩ := exists_of_submit_eq_ok_ec hanswer
  obtain ⟨key, hkey, hmaterial⟩ := exists_of_bind_eq_ok hmaterial
  obtain ⟨x, y, hstates⟩ := Material.exists_statesPoint_of_ofKeyMap hmaterial
  exact ⟨hkind, key, x, y, hkey, hstates⟩

/-- **A key is imported from a stated point** exactly when the answer to its
coordinates is that key. -/
theorem result_eq_ok_iff_answerPoint {k : PublicKey} (hkind : kinds (.ec c) = true)
    (hkey : KeyMap.decode s = .ok key) (h : key.StatesPoint c x y) :
    (importKey kinds s).result = .ok k ↔ answerPoint c (RawPoint.ofCoordinates x y) = .ok k := by
  rw [result_importKey_of_statesPoint hkind hkey h]
  cases hinfo : c.subjectInfo x y with
  | ok info => exact Iff.rfl
  | error long =>
    constructor
    · intro hk
      cases hk
    · intro hk
      -- what is too long to be written is no point either
      obtain ⟨info, hinfo'⟩ := Curve.exists_subjectInfo_of_length
        (exists_answerPoint_eq_ok_iff.1 ⟨k, hk⟩).1
      rw [hinfo'] at hinfo
      cases hinfo

/-! ## Stated points -/

/-- **The key map of two coordinates is read back from its octets**, and their
answer is the result, if they have the right length together. It does not
matter which of the two is how long. -/
theorem result_importKey_ofCoordinates (hkind : kinds (.ec c) = true)
    (h : (x ++ y).length = 2 * c.fieldOctets) :
    (importKey kinds (KeyMap.ofCoordinates c x y).encode).result
      = answerPoint c (RawPoint.ofCoordinates x y) := by
  have hkey := KeyMap.decode_encode (KeyMap.fits_ofCoordinates_of_length h)
  obtain ⟨info, hinfo⟩ := Curve.exists_subjectInfo_of_length h
  rw [result_importKey_of_statesPoint hkind hkey (KeyMap.statesPoint_ofCoordinates _ _ _), hinfo]

/-- **A point is imported wherever its coordinates are cut.** -/
theorem result_importKey_of_cut {point : c.Point} (hkind : kinds (.ec c) = true)
    (h : point.coordinates = x ++ y) :
    (importKey kinds (KeyMap.ofCoordinates c x y).encode).result = .ok (.ec c point) := by
  rw [result_importKey_ofCoordinates hkind]
  · exact answerPoint_eq_ok_iff.2 ⟨point, h, rfl⟩
  · rw [← h, point.length_coordinates]

/-- The key map of the base point, its coordinates cut after `n` octets. -/
def cutBase (n : Nat) : KeyMap :=
  .ofCoordinates .p256 (Curve.Point.base.coordinates.take n) (Curve.Point.base.coordinates.drop n)

theorem fits_cutBase (n : Nat) : (cutBase n).Fits := by
  refine KeyMap.fits_ofCoordinates_of_length ?_
  rw [List.take_append_drop, Curve.Point.base.length_coordinates]

/-- **The key map of a raw point** is the same with and without the marker in
front, and importing it gives the answer to the raw point. -/
theorem exists_ofRawPoint {q : Octets} (hkind : kinds (.ec c) = true)
    (hlength : q.length = 2 * c.fieldOctets) :
    ∃ key, KeyMap.ofRawPoint q = .ok key ∧ KeyMap.ofRawPoint (uncompressedTag :: q) = .ok key
      ∧ (importKey kinds key.encode).result = answerPoint c (uncompressedTag :: q) := by
  have hcurve : Curve.ofCoordinatesLength? q.length = some c :=
    Curve.ofCoordinatesLength?_eq_some_iff.2 hlength
  have heven : q.length % 2 = 0 := by
    rw [hlength, Nat.mul_mod_right]
  refine ⟨_, KeyMap.ofRawPoint_of_coordinates (RawPoint.coordinates_of_even heven) hcurve,
    KeyMap.ofRawPoint_of_coordinates (RawPoint.coordinates_cons_of_even heven) hcurve, ?_⟩
  rw [result_importKey_ofCoordinates hkind, RawPoint.ofCoordinates, List.take_append_drop]
  rw [List.take_append_drop, hlength]

/-- **The lengths of raw points** tell the curve. -/
theorem exists_curve_of_length {n : Nat} (h : n = 64 ∨ n = 96 ∨ n = 132) :
    ∃ c : Curve, (n, c) ∈ [(64, .p256), (96, .p384), (132, .p521)] ∧ n = 2 * c.fieldOctets := by
  obtain rfl | rfl | rfl := h
  · exact ⟨.p256, by decide⟩
  · exact ⟨.p384, by decide⟩
  · exact ⟨.p521, by decide⟩

/-- **Importing a raw point.** A raw point of 64, 96 or 132 octets is one of the
256-bit, the 384-bit or the 521-bit curve. Its key map, which is the same with the
marker in front, is imported exactly when the halves of the raw point are those of a
point of the curve. The key is then on that curve and has the raw point, with the
marker. Otherwise what is wrong is always that it is no point. -/
theorem importKey_rawPoint {q : Octets} (h : q.length = 64 ∨ q.length = 96 ∨ q.length = 132) :
    ∃ c : Curve, (q.length, c) ∈ [(64, .p256), (96, .p384), (132, .p521)]
      ∧ ∃ key, KeyMap.ofRawPoint q = .ok key ∧ KeyMap.ofRawPoint (0x04 :: q) = .ok key
        ∧ ((∃ k, (importKey .all key.encode).result = .ok k)
          ↔ c.IsPoint (Octets.value (q.take c.fieldOctets)) (Octets.value (q.drop c.fieldOctets)))
        ∧ (∀ k, (importKey .all key.encode).result = .ok k →
          k.curve? = some c ∧ k.rawPoint = .ok (0x04 :: q))
        ∧ (¬c.IsPoint (Octets.value (q.take c.fieldOctets)) (Octets.value (q.drop c.fieldOctets)) →
          (importKey .all key.encode).result = .error (.refused .ec2 (.info .notPoint))) := by
  obtain ⟨c, hmem, hlength⟩ := exists_curve_of_length h
  have hcoordinates : c.IsCoordinates q
      ↔ c.IsPoint (Octets.value (q.take c.fieldOctets)) (Octets.value (q.drop c.fieldOctets)) :=
    and_iff_right hlength
  obtain ⟨key, hkey, hmarked, hresult⟩ := exists_ofRawPoint (KeyKinds.all_apply (.ec c)) hlength
  refine ⟨c, hmem, key, hkey, hmarked, ?_, ?_, ?_⟩
  · rw [hresult, exists_answerPoint_eq_ok_iff, hcoordinates]
  · intro k hk
    rw [hresult] at hk
    obtain ⟨point, rfl, rfl⟩ := answerPoint_eq_ok_iff.1 hk
    exact ⟨rfl, PublicKey.rawPoint_ec c point⟩
  · intro hnot
    rw [hresult]
    exact answerPoint_of_not_isCoordinates (mt hcoordinates.1 hnot)

/-- The base points of the smallest and of the largest curve, and octets that are no
point. -/
theorem importKey_rawPoint_base :
    (∃ key, KeyMap.ofRawPoint Curve.Point.base.coordinates = .ok key
        ∧ ∃ k, (importKey .all key.encode).result = .ok k ∧ k.curve? = some .p256)
      ∧ (∃ key, KeyMap.ofRawPoint Curve.Point.base521.coordinates = .ok key
        ∧ KeyMap.ofRawPoint (0x04 :: Curve.Point.base521.coordinates) = .ok key
        ∧ ∃ k, (importKey .all key.encode).result = .ok k ∧ k.curve? = some .p521
          ∧ k.rawPoint = .ok (0x04 :: Curve.Point.base521.coordinates))
      ∧ ∃ key, KeyMap.ofRawPoint (List.replicate 64 0) = .ok key
        ∧ (importKey .all key.encode).result = .error (.refused .ec2 (.info .notPoint)) := by
  refine ⟨?_, ?_, ?_⟩
  · have hlength : Curve.Point.base.coordinates.length = 64 := Curve.Point.length_coordinates _
    obtain ⟨c, hmem, key, hkey, -, hiff, himported, -⟩ := importKey_rawPoint (Or.inl hlength)
    rw [hlength] at hmem
    obtain rfl : c = .p256 := by simpa using hmem
    obtain ⟨k, hk⟩ := hiff.2 (by decide +kernel)
    exact ⟨key, hkey, k, hk, (himported k hk).1⟩
  · have hlength : Curve.Point.base521.coordinates.length = 132 := Curve.Point.length_coordinates _
    obtain ⟨c, hmem, key, hkey, hmarked, hiff, himported, -⟩ :=
      importKey_rawPoint (Or.inr (Or.inr hlength))
    rw [hlength] at hmem
    obtain rfl : c = .p521 := by simpa using hmem
    obtain ⟨k, hk⟩ := hiff.2 (by decide +kernel)
    exact ⟨key, hkey, hmarked, k, hk, himported k hk⟩
  · have hlength : (List.replicate 64 (0 : UInt8)).length = 64 := rfl
    obtain ⟨c, hmem, key, hkey, -, -, -, hnot⟩ := importKey_rawPoint (Or.inl hlength)
    rw [hlength] at hmem
    obtain rfl : c = .p256 := by simpa using hmem
    exact ⟨key, hkey, hnot (by decide +kernel)⟩

/-- **Importing a stated point.** The two coordinates, one after the other,
decide: the import succeeds exactly when they are coordinates of a point of
the stated curve, taken as one octet string. The key is then on that curve,
its raw point is the marker with both coordinates as they were stated, and
importing the key map of that raw point gives the key again. In all other
cases the key is refused as no point, but for coordinates that are too long to
be written. -/
theorem importKey_statedPoint (hkey : KeyMap.decode s = .ok key) (h : key.StatesPoint c x y) :
    ((∃ k, (importKey .all s).result = .ok k) ↔ c.IsCoordinates (x ++ y))
      ∧ (∀ k, (importKey .all s).result = .ok k →
        k.curve? = some c ∧ k.rawPoint = .ok (uncompressedTag :: (x ++ y))
          ∧ ∃ key', KeyMap.ofRawPoint (uncompressedTag :: (x ++ y)) = .ok key'
            ∧ (importKey .all key'.encode).result = .ok k)
      ∧ (∀ info, c.subjectInfo x y = .ok info → ¬c.IsCoordinates (x ++ y) →
        (importKey .all s).result = .error (.refused .ec2 (.info .notPoint)))
      ∧ (∀ long, c.subjectInfo x y = .error long →
        (importKey .all s).result = .error (.unusable (.tooLong long))) := by
  have hresult := result_importKey_of_statesPoint (KeyKinds.all_apply (.ec c)) hkey h
  refine ⟨?_, ?_, ?_, ?_⟩
  · rw [← exists_answerPoint_eq_ok_iff]
    exact exists_congr fun k => result_eq_ok_iff_answerPoint (KeyKinds.all_apply (.ec c)) hkey h
  · intro k hk
    rw [result_eq_ok_iff_answerPoint (KeyKinds.all_apply (.ec c)) hkey h] at hk
    obtain ⟨point, hpoint, rfl⟩ := answerPoint_eq_ok_iff.1 hk
    have hlength : (x ++ y).length = 2 * c.fieldOctets := by
      rw [← hpoint, point.length_coordinates]
    refine ⟨rfl, ?_, ?_⟩
    · rw [PublicKey.rawPoint_ec, hpoint]
    · obtain ⟨key', -, hmarked, hresult'⟩ :=
        exists_ofRawPoint (KeyKinds.all_apply (.ec c)) hlength
      exact ⟨key', hmarked, hresult'.trans hk⟩
  · intro info hinfo hnot
    rw [hresult, hinfo]
    exact answerPoint_of_not_isCoordinates hnot
  · intro long hlong
    rw [hresult, hlong]

/-- The base point, stated with a first coordinate that is one octet short. -/
theorem importKey_statedPoint_base :
    ∃ key x y, KeyMap.decode (cutBase 31).encode = .ok key
      ∧ key.StatesPoint .p256 x y ∧ x.length = 31 ∧ Curve.p256.IsCoordinates (x ++ y)
      ∧ ∃ k, (importKey .all (cutBase 31).encode).result = .ok k := by
  have hkey := KeyMap.decode_encode (fits_cutBase 31)
  have hstates := KeyMap.statesPoint_ofCoordinates .p256
    (Curve.Point.base.coordinates.take 31) (Curve.Point.base.coordinates.drop 31)
  have hcoordinates : Curve.p256.IsCoordinates (Curve.Point.base.coordinates.take 31
      ++ Curve.Point.base.coordinates.drop 31) := by
    decide +kernel
  exact ⟨_, _, _, hkey, hstates, rfl, hcoordinates,
    (importKey_statedPoint hkey hstates).1.2 hcoordinates⟩

/-! ## Where the coordinates are cut -/

/-- **The point that is imported and the point that is stated.** The octets of
both coordinates together are kept, and the raw point of the key shows them
cut in the middle. Each coordinate of the key is the number that its own field
states exactly when the field of the first coordinate has the width of the
curve, or when it and the first half are both zero. -/
theorem importKey_cut {point : c.Point} (h : (importKey .all s).result = .ok (.ec c point)) :
    ∃ key x y left right, KeyMap.decode s = .ok key
      ∧ key.get? Label.x = some (.octets x) ∧ key.get? Label.y = some (.octets y)
      ∧ (PublicKey.ec c point).rawPoint = .ok (uncompressedTag :: (left ++ right))
      ∧ left.length = c.fieldOctets ∧ right.length = c.fieldOctets ∧ left ++ right = x ++ y
      ∧ (Octets.value x = Octets.value left ∧ Octets.value y = Octets.value right
        ↔ x.length = c.fieldOctets ∨ Octets.value x = 0 ∧ Octets.value left = 0) := by
  obtain ⟨-, key, x, y, hkey, hstates⟩ := exists_statesPoint_of_result h
  rw [result_eq_ok_iff_answerPoint (KeyKinds.all_apply (.ec c)) hkey hstates] at h
  obtain ⟨point', hpoint, heq⟩ := answerPoint_eq_ok_iff.1 h
  cases heq
  have hlength : (x ++ y).length = 2 * c.fieldOctets := by
    rw [← hpoint, point.length_coordinates]
  refine ⟨key, x, y, (x ++ y).take c.fieldOctets, (x ++ y).drop c.fieldOctets, hkey,
    hstates.x, hstates.y, ?_, ?_, ?_, List.take_append_drop _ _, ?_⟩
  · rw [PublicKey.rawPoint_ec, hpoint, List.take_append_drop]
  · rw [List.length_take]
    omega
  · rw [List.length_drop]
    omega
  · refine Octets.values_eq_of_cut_iff ?_
    omega

theorem importKey_cut_base :
    (importKey .all (cutBase 31).encode).result = .ok (.ec .p256 Curve.Point.base)
      ∧ ∃ x y left right : Octets, left ++ right = x ++ y
        ∧ (PublicKey.ec .p256 Curve.Point.base).rawPoint
          = .ok (uncompressedTag :: (left ++ right))
        ∧ (Octets.value x = Octets.value left ∧ Octets.value y = Octets.value right
          ↔ x.length = 32 ∨ Octets.value x = 0 ∧ Octets.value left = 0) := by
  have hresult := result_importKey_of_cut (KeyKinds.all_apply (.ec .p256))
    (List.take_append_drop 31 Curve.Point.base.coordinates).symm
  obtain ⟨-, x, y, left, right, -, -, -, hraw, -, -, happend, hiff⟩ := importKey_cut hresult
  exact ⟨hresult, x, y, left, right, happend, hraw, hiff⟩

/-- A key that is imported and does not have the coordinates that it states:
the base point, cut one octet before the middle. -/
theorem not_stated_of_cutBase :
    (importKey .all (cutBase 31).encode).result = .ok (.ec .p256 Curve.Point.base)
      ∧ ∃ key x y, KeyMap.decode (cutBase 31).encode = .ok key
        ∧ key.get? Label.x = some (.octets x) ∧ key.get? Label.y = some (.octets y)
        ∧ Octets.value x ≠ Curve.Point.base.x ∧ Octets.value y ≠ Curve.Point.base.y := by
  refine ⟨result_importKey_of_cut (KeyKinds.all_apply (.ec .p256))
    (List.take_append_drop 31 _).symm, cutBase 31, Curve.Point.base.coordinates.take 31,
    Curve.Point.base.coordinates.drop 31, KeyMap.decode_encode (fits_cutBase 31),
    rfl, rfl, ?_, ?_⟩
  · decide +kernel
  · decide +kernel

end Native

end KeyForms
