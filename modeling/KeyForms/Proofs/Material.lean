import KeyForms.Proofs.KeyMap.StatedPoint
import KeyForms.Proofs.Magnitude

/-!
# What material is made of

A key map states a key in the fields that tell its kind and in two byte
strings, or one for an Ed25519 key. Its material is made of these and of
nothing else (`Material.ofKeyMap_eq_ok_iff`).

Whoever receives the material can tell what the fields said
(`Material.carries_of_ofKeyMap`). A subject info is read strictly, and it says
the same algorithm, the same curve, and all octets of the key; a magnitude is
the number that its field writes, without the zeros in front. What cannot be
told from material is where a point was cut into two coordinates, and how many
zeros were dropped.
-/

namespace KeyForms

namespace KeyMap

/-- **A key map that states an Ed25519 key.** -/
structure StatesEd25519 (key : KeyMap) (x : Octets) : Prop where
  /-- The key is one with a single coordinate. -/
  keyType : key.get? Label.keyType = some (.integer KeyType.okp.id)
  /-- The key is on the curve. -/
  curve : key.get? Label.curve = some (.integer OkpCurve.ed25519.id)
  /-- The key itself is a byte string. -/
  x : key.get? Label.x = some (.octets x)

/-- **A key map that states an RSA key.** -/
structure StatesRsa (key : KeyMap) (modulus exponent : Octets) : Prop where
  /-- The key is an RSA key. -/
  keyType : key.get? Label.keyType = some (.integer KeyType.rsa.id)
  /-- The modulus is a byte string. -/
  modulus : key.get? Label.modulus = some (.octets modulus)
  /-- The exponent is a byte string. -/
  exponent : key.get? Label.exponent = some (.octets exponent)

end KeyMap

theorem KeyKind.ofKeyMap_of_statesRsa {key : KeyMap} {modulus exponent : Octets}
    (h : key.StatesRsa modulus exponent) : ofKeyMap key = .ok .rsa := by
  refine ofKeyMap_eq_ok_iff.2 ⟨h.keyType, ?_⟩
  rintro _ ⟨⟩

theorem KeyKind.ofKeyMap_of_statesEd25519 {key : KeyMap} {x : Octets}
    (h : key.StatesEd25519 x) : ofKeyMap key = .ok .ed25519 := by
  refine ofKeyMap_eq_ok_iff.2 ⟨h.keyType, ?_⟩
  rintro _ ⟨⟩
  exact h.curve

namespace Material

variable {key : KeyMap} {material : Material}

/-- **The material of a stated Ed25519 key** is its subject info, and there is none
only if that is too long. -/
theorem ofKeyMap_of_statesEd25519 {x : Octets} (h : key.StatesEd25519 x) :
    ofKeyMap key
      = ((Ed25519.subjectInfo x).mapError .tooLong >>= fun info => .ok (.ed25519 info)) := by
  rw [ofKeyMap, KeyKind.ofKeyMap_of_statesEd25519 h]
  show (key.octets Label.x >>= fun x => _) = _
  rw [KeyMap.octets_eq_ok_iff.2 h.x]
  rfl

/-- **Material that is made of a key map**: of the key that it states. -/
inductive IsMadeOf (key : KeyMap) : Material → Prop where
  /-- A point, in its subject info. -/
  | ec {c : Curve} {x y info : Octets} (h : key.StatesPoint c x y)
    (hinfo : c.subjectInfo x y = .ok info) : IsMadeOf key (.ec c info)
  /-- An Ed25519 key, in its subject info. -/
  | ed25519 {x info : Octets} (h : key.StatesEd25519 x)
    (hinfo : Ed25519.subjectInfo x = .ok info) : IsMadeOf key (.ed25519 info)
  /-- An RSA key, by its two numbers. -/
  | rsa {modulus exponent : Octets} (h : key.StatesRsa modulus exponent) :
    IsMadeOf key (.rsa (.ofOctets modulus) (.ofOctets exponent))

/-- **The material of a key map** is what is made of it. -/
theorem ofKeyMap_eq_ok_iff : ofKeyMap key = .ok material ↔ material.IsMadeOf key := by
  constructor
  · intro h
    obtain ⟨kind, hkind, h⟩ := exists_of_bind_eq_ok h
    obtain ⟨htype, hcurve⟩ := KeyKind.ofKeyMap_eq_ok_iff.1 hkind
    cases kind with
    | ec c =>
      obtain ⟨x, hx, h⟩ := exists_of_bind_eq_ok h
      obtain ⟨y, hy, h⟩ := exists_of_bind_eq_ok h
      obtain ⟨info, hinfo, h⟩ := exists_of_bind_eq_ok h
      cases h
      exact .ec ⟨htype, hcurve _ rfl, KeyMap.octets_eq_ok_iff.1 hx, KeyMap.octets_eq_ok_iff.1 hy⟩
        (mapError_eq_ok_iff.1 hinfo)
    | ed25519 =>
      obtain ⟨x, hx, h⟩ := exists_of_bind_eq_ok h
      obtain ⟨info, hinfo, h⟩ := exists_of_bind_eq_ok h
      cases h
      exact .ed25519 ⟨htype, hcurve _ rfl, KeyMap.octets_eq_ok_iff.1 hx⟩
        (mapError_eq_ok_iff.1 hinfo)
    | rsa =>
      obtain ⟨modulus, hmodulus, h⟩ := exists_of_bind_eq_ok h
      obtain ⟨exponent, hexponent, h⟩ := exists_of_bind_eq_ok h
      cases h
      exact .rsa ⟨htype, KeyMap.octets_eq_ok_iff.1 hmodulus, KeyMap.octets_eq_ok_iff.1 hexponent⟩
  · intro h
    cases h with
    | ec h hinfo =>
      rw [ofKeyMap_of_statesPoint h, hinfo]
      rfl
    | ed25519 h hinfo =>
      rw [ofKeyMap_of_statesEd25519 h, hinfo]
      rfl
    | rsa h =>
      rw [ofKeyMap, KeyKind.ofKeyMap_of_statesRsa h]
      show (key.octets Label.modulus >>= fun modulus => key.octets Label.exponent >>= _) = _
      rw [KeyMap.octets_eq_ok_iff.2 h.modulus, KeyMap.octets_eq_ok_iff.2 h.exponent]
      rfl

/-- **Only a stated point has material of a curve.** -/
theorem exists_statesPoint_of_ofKeyMap {c : Curve} {info : Octets}
    (h : ofKeyMap key = .ok (.ec c info)) : ∃ x y, key.StatesPoint c x y := by
  cases ofKeyMap_eq_ok_iff.1 h with
  | ec h _ => exact ⟨_, _, h⟩

/-- The material of octets is that of the key map that they encode. -/
theorem ofOctets_of_decode {s : Octets} (h : KeyMap.decode s = .ok key) :
    ofOctets s = ofKeyMap key := by
  rw [ofOctets, h]
  rfl

/-- **The material of octets** is made of the key map that they encode. -/
theorem exists_of_ofOctets_eq_ok {s : Octets} (h : ofOctets s = .ok material) :
    ∃ key, KeyMap.decode s = .ok key ∧ material.IsMadeOf key := by
  obtain ⟨key, hkey, h⟩ := exists_of_bind_eq_ok h
  exact ⟨key, hkey, ofKeyMap_eq_ok_iff.1 h⟩

end Material

/-! ## What can be told from material -/

/-- **A magnitude is the number that octets write**: it has no zero in front,
and its value and the number of its significant bits are those of the
number. -/
structure Magnitude.IsNumberOf (m : Magnitude) (s : Octets) : Prop where
  /-- There is no zero in front. -/
  head_ne_zero : m.octets.head? ≠ some 0
  /-- The value is that of the octets. -/
  value : m.value = s.value
  /-- The bits are those of the value. -/
  bitLength : m.bitLength = Nat.size s.value

theorem Magnitude.isNumberOf_ofOctets (s : Octets) : (ofOctets s).IsNumberOf s where
  head_ne_zero := (ofOctets s).head_ne_zero
  value := value_ofOctets s
  bitLength := by rw [bitLength_eq_size, value_ofOctets]

namespace Material

variable {key : KeyMap} {material : Material}

/-- **Material that carries the key of a key map**: a subject info says the
algorithm, the curve and the octets of the key that is stated, in whole
octets, and magnitudes are its two numbers. -/
def Carries (key : KeyMap) : Material → Prop
  | .ec c info => ∃ x y, key.StatesPoint c x y ∧ SubjectInfo.ofOctets? info
      = some ⟨Oid.ecPublicKey, some ⟨Der.Tag.objectIdentifier, c.oid.content⟩, 0,
          Curve.Point.uncompressedTag :: (x ++ y)⟩
  | .ed25519 info => ∃ x, key.StatesEd25519 x
      ∧ SubjectInfo.ofOctets? info = some ⟨Oid.ed25519, none, 0, x⟩
  | .rsa modulus exponent => ∃ n e, key.StatesRsa n e
      ∧ modulus.IsNumberOf n ∧ exponent.IsNumberOf e

/-- **Material carries the key that it is made of.** -/
theorem carries_of_isMadeOf (h : material.IsMadeOf key) : material.Carries key := by
  cases h with
  | ec h hinfo => exact ⟨_, _, h, SubjectInfo.ofOctets?_of_curve hinfo⟩
  | ed25519 h hinfo => exact ⟨_, h, SubjectInfo.ofOctets?_of_ed25519 hinfo⟩
  | rsa h => exact ⟨_, _, h, Magnitude.isNumberOf_ofOctets _, Magnitude.isNumberOf_ofOctets _⟩

/-- The key map states the type of its material. -/
theorem get?_keyType_of_isMadeOf (h : material.IsMadeOf key) :
    key.get? Label.keyType = some (.integer material.keyType.id) := by
  cases h with
  | ec h _ => exact h.keyType
  | ed25519 h _ => exact h.keyType
  | rsa h => exact h.keyType

end Material

end KeyForms
