import KeyForms.Material
import KeyForms.Proofs.KeyMap.RoundTrip
import KeyForms.Proofs.SubjectInfo.RoundTrip

/-!
# Key maps that state a point

Four fields of a key map state a point: the key type, the curve, and a byte
string for each coordinate (`KeyMap.StatesPoint`). The first two tell that the
key is one with a point, as they tell the kind of every key
(`KeyKind.ofKeyMap_eq_ok_iff`), and the material is then the subject info of
the coordinates (`Material.ofKeyMap_of_statesPoint`).

The key map of a raw point is the other way to come by one. It states the two
halves of the raw point, and it can be written (`KeyMap.fits_ofCoordinates`),
so what is read from its octets is the same key map.
-/

namespace KeyForms

namespace KeyMap

/-- **A key map that states a point**: it is for a key on the curve, and its
coordinates are byte strings. Whether these are coordinates of a point is
another matter. -/
structure StatesPoint (key : KeyMap) (c : Curve) (x y : Octets) : Prop where
  /-- The key is one with two coordinates. -/
  keyType : key.get? Label.keyType = some (.integer KeyType.ec2.id)
  /-- The key is on the curve. -/
  curve : key.get? Label.curve = some (.integer c.id)
  /-- The first coordinate is a byte string. -/
  x : key.get? Label.x = some (.octets x)
  /-- The second coordinate is a byte string. -/
  y : key.get? Label.y = some (.octets y)

end KeyMap

/-! ## The material of a stated point -/

/-- The number of the curve that a key of a kind states. An RSA key states
none. -/
def KeyKind.curveId? : KeyKind → Option Int64
  | ec c => some c.id
  | ed25519 => some OkpCurve.ed25519.id
  | rsa => none

theorem OkpCurve.ofId?_eq_some_iff {n : Int64} {c : OkpCurve} :
    ofId? n = some c ↔ n = c.id := by
  cases c
  unfold ofId?
  split <;> simp_all [id]

theorem KeyKind.ofCurveId_eq_ok_iff {keyType : KeyType} {n : Int64} {kind : KeyKind}
    (h : keyType ≠ .rsa) :
    ofCurveId keyType n = .ok kind ↔ kind.keyType = keyType ∧ kind.curveId? = some n := by
  constructor
  · intro hkind
    cases keyType with
    | rsa => exact absurd rfl h
    | okp =>
      cases hn : OkpCurve.ofId? n with
      | none =>
        simp only [ofCurveId, hn] at hkind
        cases hkind
      | some curve =>
        simp only [ofCurveId, hn] at hkind
        cases hkind
        exact ⟨rfl, congrArg some (OkpCurve.ofId?_eq_some_iff.1 hn).symm⟩
    | ec2 =>
      cases hn : Curve.ofId? n with
      | none =>
        simp only [ofCurveId, hn] at hkind
        cases hkind
      | some curve =>
        simp only [ofCurveId, hn] at hkind
        cases hkind
        exact ⟨rfl, congrArg some (Curve.ofId?_eq_some_iff.1 hn).symm⟩
  · rintro ⟨rfl, hn⟩
    cases kind with
    | rsa => cases hn
    | ed25519 =>
      cases hn
      rfl
    | ec c =>
      cases hn
      cases c <;> rfl

/-- For a key type with curves, the curve tells the kind. -/
theorem KeyKind.ofKeyMap_of_keyType {key : KeyMap} {keyType : KeyType} (hne : keyType ≠ .rsa)
    (h : key.get? Label.keyType = some (.integer keyType.id)) :
    ofKeyMap key = (key.integer Label.curve >>= ofCurveId keyType) := by
  rw [ofKeyMap, KeyMap.keyTypeId, KeyMap.integer_eq_ok_iff.2 h]
  cases keyType with
  | rsa => exact absurd rfl hne
  | okp => rfl
  | ec2 => rfl

/-- **The kind of a key** is told by two fields: the key type, and the number
of the curve if there is one to state. -/
theorem KeyKind.ofKeyMap_eq_ok_iff {key : KeyMap} {kind : KeyKind} :
    ofKeyMap key = .ok kind ↔ key.get? Label.keyType = some (.integer kind.keyType.id)
      ∧ ∀ id ∈ kind.curveId?, key.get? Label.curve = some (.integer id) := by
  constructor
  · intro h
    obtain ⟨id, hid, hrest⟩ := exists_of_bind_eq_ok h
    have hid := KeyMap.integer_eq_ok_iff.1 hid
    cases htype : KeyType.ofId? id with
    | none =>
      rw [htype] at hrest
      cases hrest
    | some keyType =>
      obtain rfl := KeyType.ofId?_eq_some_iff.1 htype
      by_cases hrsa : keyType = .rsa
      · subst hrsa
        cases hrest
        exact ⟨hid, fun id hid => absurd hid (Option.not_mem_none id)⟩
      · rw [ofKeyMap_of_keyType hrsa hid] at h
        obtain ⟨n, hn, hkind⟩ := exists_of_bind_eq_ok h
        obtain ⟨rfl, hcurve⟩ := (ofCurveId_eq_ok_iff hrsa).1 hkind
        refine ⟨hid, fun id hid => ?_⟩
        rw [hcurve] at hid
        cases hid
        exact KeyMap.integer_eq_ok_iff.1 hn
  · rintro ⟨htype, hcurve⟩
    by_cases hrsa : kind.keyType = .rsa
    · cases kind with
      | rsa =>
        rw [ofKeyMap, KeyMap.keyTypeId, KeyMap.integer_eq_ok_iff.2 htype]
        rfl
      | ec c => cases hrsa
      | ed25519 => cases hrsa
    · obtain ⟨n, hn⟩ : ∃ n, kind.curveId? = some n := by
        cases kind with
        | rsa => exact absurd rfl hrsa
        | ec c => exact ⟨_, rfl⟩
        | ed25519 => exact ⟨_, rfl⟩
      rw [ofKeyMap_of_keyType hrsa htype, KeyMap.integer_eq_ok_iff.2 (hcurve n hn)]
      exact (ofCurveId_eq_ok_iff hrsa).2 ⟨rfl, hn⟩

/-- **A key is on a curve** exactly when its key map has the type of such keys
and the number of the curve. -/
theorem KeyKind.ofKeyMap_eq_ec_iff {key : KeyMap} {c : Curve} :
    ofKeyMap key = .ok (.ec c) ↔ key.get? Label.keyType = some (.integer KeyType.ec2.id)
      ∧ key.get? Label.curve = some (.integer c.id) := by
  rw [ofKeyMap_eq_ok_iff]
  simp [curveId?, KeyKind.keyType]

/-- **The material of a stated point** is its subject info, and there is none
only if that is too long. -/
theorem Material.ofKeyMap_of_statesPoint {key : KeyMap} {c : Curve} {x y : Octets}
    (h : key.StatesPoint c x y) :
    ofKeyMap key = ((c.subjectInfo x y).mapError .tooLong >>= fun info => .ok (.ec c info)) := by
  rw [ofKeyMap, KeyKind.ofKeyMap_eq_ec_iff.2 ⟨h.keyType, h.curve⟩]
  show (key.octets Label.x >>= fun x => key.octets Label.y >>= fun y => _) = _
  rw [KeyMap.octets_eq_ok_iff.2 h.x, KeyMap.octets_eq_ok_iff.2 h.y]
  rfl

/-! ## The key map of a raw point -/

namespace RawPoint

/-- Octets of an even length carry no marker, whatever they begin with. -/
theorem coordinates_of_even {q : Octets} (h : q.length % 2 = 0) : coordinates q = q := by
  rw [coordinates, if_neg]
  rintro ⟨-, hodd⟩
  rw [h] at hodd
  cases hodd

/-- The marker in front of octets of an even length is taken off. -/
theorem coordinates_cons_of_even {q : Octets} (h : q.length % 2 = 0) :
    coordinates (Curve.Point.uncompressedTag :: q) = q := by
  refine if_pos ⟨rfl, ?_⟩
  rw [List.length_cons]
  omega

end RawPoint

namespace KeyMap

variable {c : Curve}

/-- **The key map of octets as long as two coordinates** has their halves. -/
theorem ofRawPoint_of_coordinates {r q : Octets} (hr : RawPoint.coordinates r = q)
    (hq : Curve.ofCoordinatesLength? q.length = some c) :
    ofRawPoint r = .ok (ofCoordinates c (q.take c.fieldOctets) (q.drop c.fieldOctets)) := by
  rw [ofRawPoint, hr, hq]

/-- The entries of the key map of a point, in their order. -/
theorem entries_ofCoordinates (c : Curve) (x y : Octets) :
    (ofCoordinates c x y).entries = [(Label.keyType, .integer KeyType.ec2.id),
      (Label.algorithm, .integer c.algorithm.code), (Label.curve, .integer c.id),
      (Label.x, .octets x), (Label.y, .octets y)] := rfl

theorem statesPoint_ofCoordinates (c : Curve) (x y : Octets) :
    (ofCoordinates c x y).StatesPoint c x y :=
  ⟨rfl, rfl, rfl, rfl⟩

/-- **The key map of a point can be written** when its coordinates can. -/
theorem fits_ofCoordinates {x y : Octets} (hx : (Parameter.octets x).Fits)
    (hy : (Parameter.octets y).Fits) : (ofCoordinates c x y).Fits := by
  refine ⟨show 5 < Cbor.argumentBound by decide, fun entry hentry => ?_⟩
  rw [entries_ofCoordinates] at hentry
  simp only [List.mem_cons, List.not_mem_nil, or_false] at hentry
  obtain rfl | rfl | rfl | rfl | rfl := hentry
  · exact trivial
  · exact trivial
  · exact trivial
  · exact hx
  · exact hy

/-- The key map of a pair of field elements can be written, wherever it is cut. -/
theorem fits_ofCoordinates_of_length {x y : Octets} (h : (x ++ y).length = 2 * c.fieldOctets) :
    (ofCoordinates c x y).Fits := by
  have hbound : 2 * c.fieldOctets < Cbor.argumentBound := by
    cases c <;> decide
  rw [List.length_append] at h
  refine fits_ofCoordinates (?_ : x.length < _) (?_ : y.length < _)
  · omega
  · omega

end KeyMap

end KeyForms
