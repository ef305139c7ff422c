import KeyForms.Proofs.Import.Point

/-!
# Imported keys and their material

Two byte strings may encode different key maps and still be imported to the
same key: an RSA modulus may have zeros in front, the coordinates of a point
may be cut elsewhere, and other fields are not read at all. This module says
that all such freedom is gone from material. Keys that are imported are equal
exactly when their material is (`Native.importKey_eq_iff_material`).

The one direction is that a provider answers from the material alone. For the
other, a key tells the material that it is the answer to
(`PublicKey.material`, `Native.material_of_submit_eq_ok`). The coordinates of
a point are below the prime and are written at the width of the field, so the
octets are those that stood in the subject info; an Ed25519 key is its octets;
and a number has one magnitude.

Equality of keys is also equality of the numbers that a key consists of
(`PublicKey.eq_iff_isSame`), whatever proofs go with them.
-/

namespace KeyForms

namespace PublicKey

/-- **The material that a key answers**, made of the key itself. -/
def material : PublicKey → Except Der.TooLong Material
  | ec c point => (c.subjectInfo (Octets.ofNat c.fieldOctets point.x)
      (Octets.ofNat c.fieldOctets point.y)).map (Material.ec c)
  | ed25519 key => (Ed25519.subjectInfo key.octets).map Material.ed25519
  | rsa key => .ok (.rsa key.modulus key.exponent)

/-- **Keys that are the same by what they consist of.** -/
inductive IsSame : PublicKey → PublicKey → Prop where
  /-- Points of one curve, with the same coordinates. -/
  | ec {c : Curve} {p q : c.Point} (hx : p.x = q.x) (hy : p.y = q.y) : IsSame (.ec c p) (.ec c q)
  /-- Ed25519 keys of the same octets. -/
  | ed25519 {key key' : Ed25519.Key} (h : key.octets = key'.octets) :
    IsSame (.ed25519 key) (.ed25519 key')
  /-- RSA keys of the same two numbers. -/
  | rsa {key key' : Rsa.Key} (hmodulus : key.modulus.value = key'.modulus.value)
    (hexponent : key.exponent.value = key'.exponent.value) : IsSame (.rsa key) (.rsa key')

/-- **Keys are equal exactly when they are the same** by what they consist
of. -/
theorem eq_iff_isSame {k l : PublicKey} : k = l ↔ k.IsSame l := by
  constructor
  · rintro rfl
    cases k with
    | ec c p => exact .ec rfl rfl
    | ed25519 key => exact .ed25519 rfl
    | rsa key => exact .rsa rfl rfl
  · intro h
    cases h with
    | @ec c p q hx hy =>
      obtain ⟨x, y, hp⟩ := p
      obtain ⟨x', y', hq⟩ := q
      cases hx
      cases hy
      rfl
    | ed25519 h => rw [Ed25519.Key.octets_inj.1 h]
    | @rsa key key' hmodulus hexponent =>
      obtain ⟨n, e, hkey⟩ := key
      obtain ⟨n', e', hkey'⟩ := key'
      -- two magnitudes of one value are the same octets
      obtain rfl : n = n' := Magnitude.value_inj.1 hmodulus
      obtain rfl : e = e' := Magnitude.value_inj.1 hexponent
      rfl

end PublicKey

namespace Native

variable {kinds : KeyKinds}

/-- **A key tells the material that it answers.** -/
theorem material_of_submit_eq_ok {key : KeyMap} {material : Material} {k : PublicKey}
    (h : material.IsMadeOf key) (hk : (provider kinds).submit material = .ok k) :
    k.material = .ok material := by
  have hkind := (kind_of_submit_eq_ok hk).1
  cases h with
  | @ec c x y info h hinfo =>
    rw [submit_ec hkind hinfo] at hk
    cases hpoint : Curve.Point.ofOctets? c (RawPoint.ofCoordinates x y) with
    | none =>
      rw [hpoint] at hk
      cases hk
    | some point =>
      rw [hpoint] at hk
      cases hk
      show (c.subjectInfo _ _).map _ = _
      rw [Curve.subjectInfo_congr (Curve.Point.ofOctets?_eq_some_iff.1 hpoint), hinfo]
      rfl
  | @ed25519 x info h hinfo =>
    rw [submit_ed25519 hkind hinfo] at hk
    cases hkey : Ed25519.Key.ofOctets? x with
    | none =>
      rw [hkey] at hk
      cases hk
    | some key =>
      rw [hkey] at hk
      cases hk
      obtain rfl := Ed25519.Key.ofOctets?_eq_some_iff.1 hkey
      show (Ed25519.subjectInfo _).map _ = _
      rw [hinfo]
      rfl
  | @rsa n e h =>
    obtain ⟨-, hk⟩ := guarded_eq_ok_iff.1 hk
    cases hkey : Rsa.Key.ofNumbers (.ofOctets n) (.ofOctets e) with
    | error flaw =>
      rw [hkey] at hk
      cases hk
    | ok key =>
      rw [hkey] at hk
      cases hk
      obtain ⟨hmodulus, hexponent⟩ := Rsa.Key.ofNumbers_eq_ok_iff.1 hkey
      rw [PublicKey.material, hmodulus, hexponent]

/-- **The key that octets are imported to tells their material.** -/
theorem exists_material_of_result {s : Octets} {k : PublicKey}
    (h : (importKey kinds s).result = .ok k) :
    ∃ material, Material.ofOctets s = .ok material ∧ k.material = .ok material := by
  obtain ⟨material, hmaterial, hk⟩ := exists_of_result_eq_ok h
  obtain ⟨key, -, hmade⟩ := Material.exists_of_ofOctets_eq_ok hmaterial
  exact ⟨material, hmaterial, material_of_submit_eq_ok hmade hk⟩

/-- **Material decides what is imported.** Octets with the same material are
imported to the same key, or are not imported for the same reason. Octets that
are both imported have the same key exactly when they have the same material,
and that is to say when the curve and the coordinates, the octets, or the two
numbers of their keys are the same. -/
theorem importKey_eq_iff_material (kinds : KeyKinds) (a b : Octets) :
    (Material.ofOctets a = Material.ofOctets b →
      (importKey kinds a).result = (importKey kinds b).result)
      ∧ ∀ k l, (importKey kinds a).result = .ok k → (importKey kinds b).result = .ok l →
        (k = l ↔ Material.ofOctets a = Material.ofOctets b) ∧ (k = l ↔ k.IsSame l) := by
  have hresult (h : Material.ofOctets a = Material.ofOctets b) :
      (importKey kinds a).result = (importKey kinds b).result := by
    rw [result_importKey, result_importKey, h]
  refine ⟨hresult, fun k l hk hl => ⟨⟨?_, ?_⟩, PublicKey.eq_iff_isSame⟩⟩
  · rintro rfl
    obtain ⟨m, hm, hkm⟩ := exists_material_of_result hk
    obtain ⟨m', hm', hkm'⟩ := exists_material_of_result hl
    rw [hm, hm', Except.ok.inj (hkm.symm.trans hkm')]
  · intro h
    have heq := hresult h
    rw [hk, hl] at heq
    exact Except.ok.inj heq

/-- The base point, stated with a first coordinate that is one octet short and
with one of the right width. -/
theorem importKey_eq_iff_material_base :
    (importKey .all (cutBase 31).encode).result = .ok (.ec .p256 Curve.Point.base)
      ∧ (importKey .all (cutBase 32).encode).result = .ok (.ec .p256 Curve.Point.base)
      ∧ Material.ofOctets (cutBase 31).encode = Material.ofOctets (cutBase 32).encode
      ∧ (cutBase 31).encode ≠ (cutBase 32).encode := by
  have hresult (n : Nat) : (importKey .all (cutBase n).encode).result
      = .ok (.ec .p256 Curve.Point.base) :=
    result_importKey_of_cut (KeyKinds.all_apply (.ec .p256)) (List.take_append_drop n _).symm
  obtain ⟨hfirst, hall⟩ := importKey_eq_iff_material .all (cutBase 31).encode (cutBase 32).encode
  have hmaterial := (hall _ _ (hresult 31) (hresult 32)).1.1 rfl
  exact ⟨(hfirst hmaterial).trans (hresult 32), hresult 32, hmaterial, by decide +kernel⟩

end Native

end KeyForms
