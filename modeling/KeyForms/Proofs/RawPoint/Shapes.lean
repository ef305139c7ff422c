import KeyForms.Proofs.Curve.Coordinates
import KeyForms.Proofs.Material
import KeyForms.Proofs.SubjectInfo.Sizes

/-!
# The shapes of raw points

A raw point is a pair of field elements, alone or after the marker, and that makes
six lengths, three of which need the marker (`RawPoint.HasShape`). The lengths are
not looked at when the marker is taken off. It is taken off octets of an odd length
that begin with it, whatever the length is, and only then the curve is sought. The
result is the same: a pair of field elements has an even length, so no octet string
is a raw point in two ways, and each way is found (`RawPoint.isForm_iff`).

A key map is made for just these octet strings
(`KeyMap.ofRawPoint_eq_ok_iff`). It has the two halves of the coordinates, the
numbers that go with their length (`Curve.mem_numbers`), and nothing that depends on
the marker. So raw points with the same coordinates have key maps with the same
octets, and no others have.
-/

namespace KeyForms

namespace Curve

/-- The width of the field tells the curve. -/
theorem fieldOctets_inj {c c' : Curve} : c.fieldOctets = c'.fieldOctets ↔ c = c' := by
  cases c <;> cases c' <;> decide

/-- **The numbers of the curves**: the octets of a field element, and the registered
numbers of the curve and of its algorithm. -/
theorem mem_numbers (c : Curve) : (c, c.fieldOctets, c.id, c.algorithm.code)
    ∈ [(p256, 32, 1, -7), (p384, 48, 2, -35), (p521, 66, 3, -36)] := by
  cases c <;> decide

end Curve

namespace RawPoint

variable {c : Curve} {q r : Octets}

/-- **Octets have the shape of a raw point**: one of three lengths, or the marker in
front and one octet more. -/
def HasShape (r : Octets) : Prop :=
  r.length = 64 ∨ r.length = 96 ∨ r.length = 132
    ∨ r.head? = some 0x04 ∧ (r.length = 65 ∨ r.length = 97 ∨ r.length = 133)

instance (r : Octets) : Decidable (HasShape r) :=
  inferInstanceAs (Decidable (_ ∨ _ ∨ _ ∨ _))

/-- **Octets are a raw form of coordinates**: of a pair of field elements of a
curve. -/
inductive IsForm (c : Curve) (q : Octets) : Octets → Prop where
  /-- The coordinates by themselves. -/
  | plain (h : q.length = 2 * c.fieldOctets) : IsForm c q q
  /-- The coordinates after the marker. -/
  | marked (h : q.length = 2 * c.fieldOctets) : IsForm c q (0x04 :: q)

/-- The marker is taken off, or nothing is. -/
theorem eq_or_eq_cons_coordinates (r : Octets) :
    coordinates r = r ∨ r = Curve.Point.uncompressedTag :: coordinates r := by
  unfold coordinates
  split
  · rename_i hmarker
    obtain ⟨rest, rfl⟩ := List.head?_eq_some_iff.1 hmarker.1
    exact Or.inr rfl
  · exact Or.inl rfl

/-- **A raw form is a form of its coordinates**, as far as their length is that of
two field elements. -/
theorem isForm_iff : IsForm c q r ↔ coordinates r = q ∧ q.length = 2 * c.fieldOctets := by
  constructor
  · intro h
    cases h with
    | plain h => exact ⟨coordinates_of_even (by omega), h⟩
    | marked h => exact ⟨coordinates_cons_of_even (by omega), h⟩
  · rintro ⟨rfl, h⟩
    rcases eq_or_eq_cons_coordinates r with hplain | hmarked
    · rw [hplain] at h ⊢
      exact .plain h
    · have hform : IsForm c (coordinates r) (Curve.Point.uncompressedTag :: coordinates r) :=
        .marked h
      rwa [← hmarked] at hform

/-- **No octets are a raw form in two ways.** -/
theorem IsForm.unique {c' : Curve} {q' : Octets} (h : IsForm c q r) (h' : IsForm c' q' r) :
    c = c' ∧ q = q' := by
  obtain ⟨rfl, hlength⟩ := isForm_iff.1 h
  obtain ⟨rfl, hlength'⟩ := isForm_iff.1 h'
  exact ⟨Curve.fieldOctets_inj.1 (by omega), rfl⟩

/-- **The shapes are those of raw forms**, of all curves. -/
theorem hasShape_iff : HasShape r ↔ ∃ c q, IsForm c q r := by
  constructor
  · rintro (h | h | h | ⟨hmarker, h⟩)
    · exact ⟨.p256, r, .plain h⟩
    · exact ⟨.p384, r, .plain h⟩
    · exact ⟨.p521, r, .plain h⟩
    · obtain ⟨q, rfl⟩ := List.head?_eq_some_iff.1 hmarker
      rcases h with h | h | h
      · exact ⟨.p256, q, .marked (Nat.succ.inj h)⟩
      · exact ⟨.p384, q, .marked (Nat.succ.inj h)⟩
      · exact ⟨.p521, q, .marked (Nat.succ.inj h)⟩
  · rintro ⟨c, q, h⟩
    cases h with
    | plain h =>
      cases c with
      | p256 => exact Or.inl h
      | p384 => exact Or.inr (Or.inl h)
      | p521 => exact Or.inr (Or.inr (Or.inl h))
    | marked h =>
      refine Or.inr (Or.inr (Or.inr ⟨rfl, ?_⟩))
      rw [List.length_cons, h]
      cases c <;> decide

end RawPoint

namespace KeyMap

variable {c : Curve} {r x y : Octets} {key : KeyMap}

/-- **A key map with the five fields of a point**, and no others. They are told by
their labels: the key type 1, the algorithm 3, the curve −1 and the coordinates −2 and
−3. Keys with two coordinates have the type 2. -/
structure HasPointFields (key : KeyMap) (curve algorithm : Int64) (x y : Octets) : Prop where
  /-- The key is one with two coordinates. -/
  keyType : key.get? 1 = some (.integer 2)
  /-- The algorithm has this number. -/
  algorithm : key.get? 3 = some (.integer algorithm)
  /-- The curve has this number. -/
  curve : key.get? (-1) = some (.integer curve)
  /-- The first coordinate is a byte string. -/
  x : key.get? (-2) = some (.octets x)
  /-- The second coordinate is a byte string. -/
  y : key.get? (-3) = some (.octets y)
  /-- These are all labels. -/
  labels : ∀ label, (∃ value, key.get? label = some value) ↔ label ∈ [1, 3, -1, -2, -3]

/-- **A key map with the coordinates of a point**: its five fields have the number of
the curve, the one of the algorithm that keys on the curve are used with, and both
coordinates. -/
def IsOfPoint (key : KeyMap) (c : Curve) (x y : Octets) : Prop :=
  key.HasPointFields c.id c.algorithm.code x y

theorem isOfPoint_ofCoordinates (c : Curve) (x y : Octets) :
    (ofCoordinates c x y).IsOfPoint c x y where
  keyType := rfl
  algorithm := rfl
  curve := rfl
  x := rfl
  y := rfl
  labels label := by
    rw [← Option.ne_none_iff_exists', ne_eq, get?, KeyEntry.find?_eq_none_iff, not_not,
      entries_ofCoordinates]
    rfl

/-- **A key map is made of a raw form**, with the two halves of the coordinates. -/
theorem ofRawPoint_of_isForm {q : Octets} (h : RawPoint.IsForm c q r) :
    ofRawPoint r = .ok (ofCoordinates c (q.take c.fieldOctets) (q.drop c.fieldOctets)) := by
  obtain ⟨hcoordinates, hlength⟩ := RawPoint.isForm_iff.1 h
  exact ofRawPoint_of_coordinates hcoordinates
    (Curve.ofCoordinatesLength?_eq_some_iff.2 hlength)

/-- **Octets of another shape are refused**, with their length and what they begin
with. -/
theorem ofRawPoint_of_not_hasShape (h : ¬RawPoint.HasShape r) :
    ofRawPoint r = .error (.rawShape r.length r.head?) := by
  unfold ofRawPoint
  dsimp only
  split
  · rfl
  · rename_i c hc
    have hform : RawPoint.IsForm c (RawPoint.coordinates r) r :=
      RawPoint.isForm_iff.2 ⟨rfl, Curve.ofCoordinatesLength?_eq_some_iff.1 hc⟩
    exact absurd (RawPoint.hasShape_iff.2 ⟨c, _, hform⟩) h

/-- **The octet strings that a key map is made of** are the raw forms, and it has
their halves. -/
theorem ofRawPoint_eq_ok_iff :
    ofRawPoint r = .ok key ↔ ∃ c x y, RawPoint.IsForm c (x ++ y) r
      ∧ x.length = c.fieldOctets ∧ key = ofCoordinates c x y := by
  constructor
  · intro h
    have hshape : RawPoint.HasShape r := by
      by_contra hother
      rw [ofRawPoint_of_not_hasShape hother] at h
      cases h
    obtain ⟨c, q, hform⟩ := RawPoint.hasShape_iff.1 hshape
    obtain ⟨-, hlength⟩ := RawPoint.isForm_iff.1 hform
    rw [ofRawPoint_of_isForm hform, Except.ok.injEq] at h
    refine ⟨c, q.take c.fieldOctets, q.drop c.fieldOctets, ?_, ?_, h.symm⟩
    · rwa [List.take_append_drop]
    · rw [List.length_take]
      omega
  · rintro ⟨c, x, y, hform, hx, rfl⟩
    rw [ofRawPoint_of_isForm hform, List.take_left' hx, List.drop_left' hx]

theorem exists_ofRawPoint_iff : (∃ key, ofRawPoint r = .ok key) ↔ RawPoint.HasShape r := by
  constructor
  · rintro ⟨key, hkey⟩
    obtain ⟨c, x, y, hform, -, -⟩ := ofRawPoint_eq_ok_iff.1 hkey
    exact RawPoint.hasShape_iff.2 ⟨c, _, hform⟩
  · intro hshape
    obtain ⟨c, q, hform⟩ := RawPoint.hasShape_iff.1 hshape
    exact ⟨_, ofRawPoint_of_isForm hform⟩

/-- The key map of a raw point can be written. -/
theorem fits_ofRawPoint (h : ofRawPoint r = .ok key) : key.Fits := by
  obtain ⟨c, x, y, hform, -, rfl⟩ := ofRawPoint_eq_ok_iff.1 h
  exact fits_ofCoordinates_of_length (RawPoint.isForm_iff.1 hform).2

/-- **The material of the key map of a raw point**, read back from its octets: there
is always one, and it is the subject info of both halves. -/
theorem exists_material_of_ofRawPoint (h : ofRawPoint r = .ok (ofCoordinates c x y))
    (hform : RawPoint.IsForm c (x ++ y) r) :
    ∃ info, c.subjectInfo x y = .ok info
      ∧ Material.ofOctets (ofCoordinates c x y).encode = .ok (.ec c info) := by
  obtain ⟨info, hinfo⟩ := Curve.exists_subjectInfo_of_length (RawPoint.isForm_iff.1 hform).2
  refine ⟨info, hinfo, ?_⟩
  rw [Material.ofOctets_of_decode (decode_encode (fits_ofRawPoint h)),
    Material.ofKeyMap_of_statesPoint (statesPoint_ofCoordinates c x y), hinfo]
  rfl

/-- **Raw points have key maps of the same octets exactly when they have the same
coordinates.** -/
theorem encode_eq_iff_of_isForm {r' q q' : Octets} {c' : Curve} {key' : KeyMap}
    (hkey : ofRawPoint r = .ok key) (hkey' : ofRawPoint r' = .ok key')
    (h : RawPoint.IsForm c q r) (h' : RawPoint.IsForm c' q' r') :
    key.encode = key'.encode ↔ q = q' := by
  have hfits := fits_ofRawPoint hkey
  have hfits' := fits_ofRawPoint hkey'
  rw [ofRawPoint_of_isForm h] at hkey
  rw [ofRawPoint_of_isForm h'] at hkey'
  cases hkey
  cases hkey'
  constructor
  · intro hencode
    -- the octets tell the key map, and the key map tells both halves
    have hdecode := congrArg decode hencode
    rw [decode_encode hfits, decode_encode hfits', Except.ok.injEq] at hdecode
    have hx := congrArg (get? · Label.x) hdecode
    have hy := congrArg (get? · Label.y) hdecode
    simp only [(statesPoint_ofCoordinates _ _ _).x, (statesPoint_ofCoordinates _ _ _).y,
      Option.some.injEq, Parameter.octets.injEq] at hx hy
    rw [← List.take_append_drop c.fieldOctets q, hx, hy, List.take_append_drop]
  · rintro rfl
    -- the coordinates are a raw form by themselves, and so they tell the curve
    obtain ⟨rfl, -⟩ := RawPoint.IsForm.unique (.plain (RawPoint.isForm_iff.1 h).2)
      (.plain (RawPoint.isForm_iff.1 h').2)
    rfl

/-- **What is made of octets that may be a raw point.** A key map is made of octets
of the right shapes, and other octets are refused with their length and their first
octet, if they have one. The key map has five fields. It is for keys with two
coordinates, which are the halves of what the raw point has, to the octet; if the raw
point has an even length that is all of it, whatever it begins with. Halves of 32
octets go with the curve 1 and the algorithm −7, halves of 48 octets with the curve 2
and the algorithm −35, and halves of 66 octets with the curve 3 and the algorithm −36.
The curve is the only one whose field elements are as long as a half.

The octets of the key map have material, which is the subject info of its
coordinates. Raw points have key maps of the same octets exactly when they have the
same coordinates. -/
theorem ofRawPoint_of_shape (r : Octets) :
    ((∃ key, ofRawPoint r = .ok key) ↔ RawPoint.HasShape r)
      ∧ (¬RawPoint.HasShape r → ofRawPoint r = .error (.rawShape r.length r.head?))
      ∧ ∀ key, ofRawPoint r = .ok key → ∃ c x y curve algorithm, RawPoint.IsForm c (x ++ y) r
        ∧ (r.length % 2 = 0 → x ++ y = r)
        ∧ (c, x.length, curve, algorithm)
          ∈ [(.p256, 32, 1, -7), (.p384, 48, 2, -35), (.p521, 66, 3, -36)]
        ∧ y.length = x.length ∧ (∀ c' : Curve, 2 * c'.fieldOctets = (x ++ y).length ↔ c' = c)
        ∧ key.HasPointFields curve algorithm x y
        ∧ (∃ info, c.subjectInfo x y = .ok info
          ∧ Material.ofOctets key.encode = .ok (.ec c info))
        ∧ ∀ r' key' c' q', ofRawPoint r' = .ok key' → RawPoint.IsForm c' q' r' →
          (key'.encode = key.encode ↔ q' = x ++ y) := by
  refine ⟨exists_ofRawPoint_iff, ofRawPoint_of_not_hasShape, fun key hkey => ?_⟩
  obtain ⟨c, x, y, hform, hx, rfl⟩ := ofRawPoint_eq_ok_iff.1 hkey
  obtain ⟨hcoordinates, hlength⟩ := RawPoint.isForm_iff.1 hform
  refine ⟨c, x, y, c.id, c.algorithm.code, hform, fun heven => ?_, ?_, ?_, fun c' => ?_,
    isOfPoint_ofCoordinates c x y, exists_material_of_ofRawPoint hkey hform,
    fun r' key' c' q' hkey' hform' => ?_⟩
  · rw [← hcoordinates, RawPoint.coordinates_of_even heven]
  · rw [hx]
    exact c.mem_numbers
  · rw [List.length_append] at hlength
    omega
  · rw [hlength, ← Curve.fieldOctets_inj]
    omega
  · exact encode_eq_iff_of_isForm hkey' hkey hform' hform

/-- Coordinates that begin with the octet of the marker: without the marker it is
kept as theirs, and with the marker in front the key map is the same. Raw points of the
two larger curves, one of them with the marker. One octet in front that is no marker
is too much, and no octets are too few. -/
theorem ofRawPoint_of_shape_marker :
    (∃ key key', ofRawPoint (List.replicate 64 0x04) = .ok key
        ∧ ofRawPoint (List.replicate 65 0x04) = .ok key' ∧ key'.encode = key.encode
        ∧ key.HasPointFields 1 (-7) (List.replicate 32 0x04) (List.replicate 32 0x04))
      ∧ (∃ key, ofRawPoint (List.replicate 48 0 ++ List.replicate 48 1) = .ok key
        ∧ key.HasPointFields 2 (-35) (List.replicate 48 0) (List.replicate 48 1))
      ∧ (∃ key, ofRawPoint (0x04 :: (List.replicate 66 0 ++ List.replicate 66 1)) = .ok key
        ∧ key.HasPointFields 3 (-36) (List.replicate 66 0) (List.replicate 66 1))
      ∧ ofRawPoint (0x05 :: List.replicate 64 0x04) = .error (.rawShape 65 (some 0x05))
      ∧ ofRawPoint [] = .error (.rawShape 0 none) := by
  have hexists {c : Curve} {x y r : Octets} (hform : RawPoint.IsForm c (x ++ y) r)
      (hx : x.length = c.fieldOctets) :
      ∃ key, ofRawPoint r = .ok key ∧ key.HasPointFields c.id c.algorithm.code x y
        ∧ ∀ r' key', ofRawPoint r' = .ok key' → RawPoint.IsForm c (x ++ y) r' →
          key'.encode = key.encode := by
    obtain ⟨hshape, -, hkeys⟩ := ofRawPoint_of_shape r
    obtain ⟨key, hkey⟩ := hshape.2 (RawPoint.hasShape_iff.2 ⟨c, _, hform⟩)
    obtain ⟨c', x', y', curve, algorithm, hform', -, hrow, -, -, hfields, -, hencode⟩ :=
      hkeys key hkey
    obtain ⟨rfl, happend⟩ := hform'.unique hform
    obtain ⟨hx', rfl, rfl⟩ : x'.length = c'.fieldOctets ∧ curve = c'.id
        ∧ algorithm = c'.algorithm.code := by
      simp only [List.mem_cons, List.not_mem_nil, or_false, Prod.mk.injEq] at hrow
      obtain ⟨rfl, h⟩ | ⟨rfl, h⟩ | ⟨rfl, h⟩ := hrow <;> exact h
    obtain ⟨rfl, rfl⟩ := List.append_inj happend (hx'.trans hx.symm)
    exact ⟨key, hkey, hfields, fun r' key' hkey' hform'' =>
      (hencode _ _ _ _ hkey' hform'').2 rfl⟩
  refine ⟨?sameCoordinates, ?middle, ?largest, ?noMarker, ?empty⟩
  case sameCoordinates =>
    obtain ⟨key, hkey, hfields, hencode⟩ := hexists (c := .p256) (x := List.replicate 32 0x04)
      (y := List.replicate 32 0x04) (.plain (by decide)) (by decide)
    have hmarked : RawPoint.HasShape (List.replicate 65 0x04) := by decide
    obtain ⟨key', hkey'⟩ := (ofRawPoint_of_shape _).1.2 hmarked
    exact ⟨key, key', hkey, hkey', hencode _ _ hkey' (.marked (by decide)), hfields⟩
  case middle =>
    obtain ⟨key, hkey, hfields, -⟩ := hexists (c := .p384) (x := List.replicate 48 0)
      (y := List.replicate 48 1) (.plain (by decide)) (by decide)
    exact ⟨key, hkey, hfields⟩
  case largest =>
    obtain ⟨key, hkey, hfields, -⟩ := hexists (c := .p521) (x := List.replicate 66 0)
      (y := List.replicate 66 1) (.marked (by decide)) (by decide)
    exact ⟨key, hkey, hfields⟩
  case noMarker => exact (ofRawPoint_of_shape (0x05 :: List.replicate 64 0x04)).2.1 (by decide)
  case empty => exact (ofRawPoint_of_shape []).2.1 (by decide)

end KeyMap

end KeyForms
