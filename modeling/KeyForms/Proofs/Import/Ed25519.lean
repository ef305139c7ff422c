import KeyForms.Proofs.Import.Native
import KeyForms.Proofs.Material
import KeyForms.Proofs.SubjectInfo.Sizes

/-!
# Importing Ed25519 keys

What becomes of a key map that states an Ed25519 key. Nothing on the way looks at how
many octets the key has, up to the provider, which is given a subject info and finds
the octets in it. They are the octets that the key map states, whichever forms the
lengths in the subject info have, so the provider judges these and nothing else
(`Native.result_importKey_of_statesEd25519`). A key of the wrong length is refused
like one that stands for no point, as long as there is a subject info of it at all.

A key that is imported is kept as its octets, so it is told by them, and an octet
string has one outcome however its key map is written (`Native.importKey_ed25519`).
-/

namespace KeyForms

/-- The key map of an Ed25519 key, by its octets. -/
def KeyMap.ofEd25519 (x : Octets) : KeyMap :=
  empty |>.insert Label.keyType (.integer KeyType.okp.id)
    |>.insert Label.curve (.integer OkpCurve.ed25519.id) |>.insert Label.x (.octets x)

namespace KeyMap

variable {key : KeyMap} {x : Octets}

theorem statesEd25519_ofEd25519 (x : Octets) : (ofEd25519 x).StatesEd25519 x :=
  ⟨rfl, rfl, rfl⟩

theorem fits_ofEd25519 (h : x.length < Cbor.argumentBound) : (ofEd25519 x).Fits := by
  refine ⟨show 3 < Cbor.argumentBound by decide, fun entry hentry => ?_⟩
  have hentries : (ofEd25519 x).entries = [(Label.keyType, .integer KeyType.okp.id),
      (Label.curve, .integer OkpCurve.ed25519.id), (Label.x, .octets x)] := rfl
  rw [hentries] at hentry
  simp only [List.mem_cons, List.not_mem_nil, or_false] at hentry
  obtain rfl | rfl | rfl := hentry
  · exact trivial
  · exact trivial
  · exact h

end KeyMap

/-- **An octet key pair with material states an Ed25519 key**, since there is no other
curve for it. -/
theorem Material.exists_statesEd25519_of_isMadeOf {key : KeyMap} {material : Material}
    (h : material.IsMadeOf key)
    (htype : key.get? Label.keyType = some (.integer KeyType.okp.id)) :
    ∃ x, key.StatesEd25519 x := by
  cases h with
  | ec h _ =>
    rw [h.keyType] at htype
    exact absurd htype (by decide)
  | ed25519 h _ => exact ⟨_, h⟩
  | rsa h =>
    rw [h.keyType] at htype
    exact absurd htype (by decide)

namespace Native

variable {kinds : KeyKinds} {s : Octets} {key : KeyMap} {x : Octets}

/-- The answer to the octets of an Ed25519 key: the key that they are, or the refusal of
what is none. -/
def answerEd25519 (x : Octets) : Except (ImportError Refusal) PublicKey :=
  match Ed25519.Key.ofOctets? x with
  | some key => .ok (.ed25519 key)
  | none => .error (.refused .okp (.info .notKey))

/-- **The answer is the key of the octets** if they are one, and else the refusal. -/
theorem answerEd25519_eq (x : Octets) :
    Ed25519.isKey x = true
        ∧ (∃ own : Ed25519.Key, own.octets = x ∧ answerEd25519 x = .ok (.ed25519 own))
      ∨ Ed25519.isKey x = false
        ∧ answerEd25519 x = .error (.refused .okp (.info .notKey)) := by
  unfold answerEd25519
  cases h : Ed25519.Key.ofOctets? x with
  | some own =>
    obtain rfl := Ed25519.Key.ofOctets?_eq_some_iff.1 h
    exact Or.inl ⟨own.isKey_octets, own, rfl, rfl⟩
  | none =>
    refine Or.inr ⟨Bool.eq_false_iff.2 fun hkey => ?_, rfl⟩
    have hsome : Ed25519.Key.ofOctets? x = some ⟨x, hkey⟩ :=
      Ed25519.Key.ofOctets?_eq_some_iff.2 rfl
    rw [hsome] at h
    cases h

theorem answerEd25519_of_length_ne (h : x.length ≠ 32) :
    answerEd25519 x = .error (.refused .okp (.info .notKey)) := by
  obtain ⟨-, own, rfl, -⟩ | ⟨-, hanswer⟩ := answerEd25519_eq x
  · exact absurd own.length_octets h
  · exact hanswer

/-- **The result for a key map that states an Ed25519 key**: it is too long to be written,
or else the result is the answer to its octets. -/
theorem result_importKey_of_statesEd25519 (hkind : kinds .ed25519 = true)
    (hkey : KeyMap.decode s = .ok key) (h : key.StatesEd25519 x) :
    (importKey kinds s).result = match Ed25519.subjectInfo x with
      | .error long => .error (.unusable (.tooLong long))
      | .ok _ => answerEd25519 x := by
  rw [result_importKey, Material.ofOctets_of_decode hkey, Material.ofKeyMap_of_statesEd25519 h]
  cases hinfo : Ed25519.subjectInfo x with
  | error long => rfl
  | ok info =>
    show Except.mapError _ ((provider kinds).submit (.ed25519 info)) = _
    rw [submit_ed25519 hkind hinfo, answerEd25519]
    cases Ed25519.Key.ofOctets? x with
    | none => rfl
    | some key => rfl

/-- The result for a key map that states an Ed25519 key of a length that is written. -/
theorem result_importKey_eq_answerEd25519 (hkind : kinds .ed25519 = true)
    (hkey : KeyMap.decode s = .ok key) (h : key.StatesEd25519 x) (hle : x.length ≤ 65523) :
    (importKey kinds s).result = answerEd25519 x := by
  obtain ⟨info, hinfo⟩ := (Ed25519.outcome_subjectInfo x).1.2 hle
  rw [result_importKey_of_statesEd25519 hkind hkey h, hinfo]

theorem exists_tooLong_of_statesEd25519 (hkind : kinds .ed25519 = true)
    (hkey : KeyMap.decode s = .ok key) (h : key.StatesEd25519 x) (hlt : 65523 < x.length) :
    ∃ long, (importKey kinds s).result = .error (.unusable (.tooLong long)) := by
  rw [result_importKey_of_statesEd25519 hkind hkey h]
  cases hinfo : Ed25519.subjectInfo x with
  | error long => exact ⟨long, rfl⟩
  | ok info =>
    have hle := (Ed25519.outcome_subjectInfo x).1.1 ⟨info, hinfo⟩
    omega

/-- **An Ed25519 key that is imported has the octets that are stated.** -/
theorem exists_octets_eq_of_result (hkind : kinds .ed25519 = true)
    (hkey : KeyMap.decode s = .ok key) (h : key.StatesEd25519 x) {k : PublicKey}
    (hk : (importKey kinds s).result = .ok k) :
    ∃ own : Ed25519.Key, k = .ed25519 own ∧ own.octets = x := by
  rcases Nat.lt_or_ge 65523 x.length with hlt | hle
  · obtain ⟨long, hlong⟩ := exists_tooLong_of_statesEd25519 hkind hkey h hlt
    rw [hlong] at hk
    cases hk
  · rw [result_importKey_eq_answerEd25519 hkind hkey h hle] at hk
    obtain ⟨-, own, hown, hanswer⟩ | ⟨-, hanswer⟩ := answerEd25519_eq x
    · rw [hanswer] at hk
      cases hk
      exact ⟨own, rfl, hown⟩
    · rw [hanswer] at hk
      cases hk

/-- **Importing an Ed25519 key.** A key map with the type of octet key pairs that is
imported states an Ed25519 key. One that states such a key is imported only if the key
has 32 octets. The imported key has these octets, unchanged, and is on none of the
curves for points, so it has no raw point. For 32 octets the result depends on whether
they are a key: it is this key, or a refusal. Octets of any other number are refused,
too, but for those that are too long for a subject info. Only the octets that are
stated have a part in this: two key maps with the same octets have the same result, and
if both are imported, then to the same key only if they have the same octets. -/
theorem importKey_ed25519 :
    (∀ (s : Octets) (key : KeyMap) (k : PublicKey), KeyMap.decode s = .ok key →
      key.get? Label.keyType = some (.integer KeyType.okp.id) →
      (importKey .all s).result = .ok k → ∃ x, key.StatesEd25519 x)
      ∧ (∀ (s : Octets) (key : KeyMap) (x : Octets), KeyMap.decode s = .ok key →
        key.StatesEd25519 x →
          (∀ k, (importKey .all s).result = .ok k →
            x.length = 32 ∧ (∃ own : Ed25519.Key, k = .ed25519 own ∧ own.octets = x)
              ∧ k.curve? = none ∧ k.rawPoint = .error (.unsupportedKeyType 1))
          ∧ (x.length = 32 →
            Ed25519.isKey x = true ∧ (∃ own : Ed25519.Key, own.octets = x
                ∧ (importKey .all s).result = .ok (.ed25519 own))
              ∨ Ed25519.isKey x = false
                ∧ (importKey .all s).result = .error (.refused .okp (.info .notKey)))
          ∧ (x.length ≠ 32 → x.length ≤ 65523 →
            (importKey .all s).result = .error (.refused .okp (.info .notKey)))
          ∧ (65523 < x.length →
            ∃ long, (importKey .all s).result = .error (.unusable (.tooLong long))))
      ∧ ∀ (s s' : Octets) (key key' : KeyMap) (x x' : Octets), KeyMap.decode s = .ok key →
        KeyMap.decode s' = .ok key' → key.StatesEd25519 x → key'.StatesEd25519 x' →
          (x = x' → (importKey .all s).result = (importKey .all s').result)
            ∧ ∀ k k', (importKey .all s).result = .ok k → (importKey .all s').result = .ok k' →
              (k = k' ↔ x = x') := by
  have hkind := KeyKinds.all_apply .ed25519
  refine ⟨?states, ?imported, ?compared⟩
  case states =>
    intro s key k hkey htype hk
    obtain ⟨material, hmaterial, -⟩ := exists_of_result_eq_ok hk
    rw [Material.ofOctets_of_decode hkey] at hmaterial
    exact Material.exists_statesEd25519_of_isMadeOf (Material.ofKeyMap_eq_ok_iff.1 hmaterial) htype
  case imported =>
    intro s key x hkey h
    refine ⟨?_, ?_, ?_, exists_tooLong_of_statesEd25519 hkind hkey h⟩
    · intro k hk
      obtain ⟨own, rfl, rfl⟩ := exists_octets_eq_of_result hkind hkey h hk
      exact ⟨own.length_octets, ⟨own, rfl, rfl⟩, rfl, rfl⟩
    · intro hlength
      have hle : x.length ≤ 65523 := by omega
      rw [result_importKey_eq_answerEd25519 hkind hkey h hle]
      exact answerEd25519_eq x
    · intro hlength hle
      rw [result_importKey_eq_answerEd25519 hkind hkey h hle]
      exact answerEd25519_of_length_ne hlength
  case compared =>
    intro s s' key key' x x' hkey hkey' h h'
    constructor
    · rintro rfl
      rw [result_importKey_of_statesEd25519 hkind hkey h,
        result_importKey_of_statesEd25519 hkind hkey' h']
    · intro k k' hk hk'
      obtain ⟨own, rfl, rfl⟩ := exists_octets_eq_of_result hkind hkey h hk
      obtain ⟨own', rfl, rfl⟩ := exists_octets_eq_of_result hkind hkey' h' hk'
      rw [PublicKey.ed25519.injEq, Ed25519.Key.octets_inj]

/-- The octets of the base point of the curve. -/
def baseEd25519 : Octets := 0x58 :: List.replicate 31 0x66

/-- The base point, and its negative, which differs in one bit and is another key. Octets
that stand for no point, a key that is one octet short, and octets at the limit of what is
written and above it. -/
theorem importKey_ed25519_base :
    (∃ own own' : Ed25519.Key, own.octets = baseEd25519
        ∧ (importKey .all (KeyMap.ofEd25519 baseEd25519).encode).result = .ok (.ed25519 own)
        ∧ (importKey .all (KeyMap.ofEd25519 (baseEd25519.take 31 ++ [0xe6])).encode).result
          = .ok (.ed25519 own')
        ∧ (PublicKey.ed25519 own).rawPoint = .error (.unsupportedKeyType 1)
        ∧ PublicKey.ed25519 own ≠ .ed25519 own')
      ∧ (importKey .all (KeyMap.ofEd25519 (2 :: List.replicate 31 0)).encode).result
        = .error (.refused .okp (.info .notKey))
      ∧ (importKey .all (KeyMap.ofEd25519 (baseEd25519.take 31)).encode).result
        = .error (.refused .okp (.info .notKey))
      ∧ (importKey .all (KeyMap.ofEd25519 (List.replicate 65523 0)).encode).result
        = .error (.refused .okp (.info .notKey))
      ∧ ∃ long, (importKey .all (KeyMap.ofEd25519 (List.replicate 65524 0)).encode).result
        = .error (.unusable (.tooLong long)) := by
  obtain ⟨-, himported, hcompared⟩ := importKey_ed25519
  have hdecode {x : Octets} (h : x.length ≤ 65524) :
      KeyMap.decode (KeyMap.ofEd25519 x).encode = .ok (.ofEd25519 x) := by
    have hbound : 65524 < Cbor.argumentBound := by decide
    exact KeyMap.decode_encode (KeyMap.fits_ofEd25519 (h.trans_lt hbound))
  have hresult {x : Octets} (h : x.length ≤ 65524) :=
    himported _ _ x (hdecode h) (KeyMap.statesEd25519_ofEd25519 x)
  have hlength (n : Nat) : (List.replicate n (0 : UInt8)).length = n := List.length_replicate
  have hkey {x : Octets} (h : Ed25519.isKey x = true) (hle : x.length ≤ 65524) :
      ∃ own : Ed25519.Key, own.octets = x
        ∧ (importKey .all (KeyMap.ofEd25519 x).encode).result = .ok (.ed25519 own) := by
    obtain ⟨-, hown⟩ | ⟨hnot, -⟩ := (hresult hle).2.1 (Ed25519.Key.length_octets ⟨x, h⟩)
    · exact hown
    · rw [h] at hnot
      cases hnot
  obtain ⟨own, hown, hbase⟩ := hkey (x := baseEd25519) (by decide +kernel) (by decide)
  obtain ⟨own', -, hnegative⟩ := hkey (x := baseEd25519.take 31 ++ [0xe6]) (by decide +kernel)
    (by decide)
  refine ⟨⟨own, own', hown, hbase, hnegative, ?raw, ?ne⟩, ?notPoint, ?short, ?limit, ?above⟩
  case raw => exact ((hresult (by decide)).1 _ hbase).2.2.2
  case ne =>
    have hiff := (hcompared _ _ _ _ _ _ (hdecode (by decide)) (hdecode (by decide))
      (KeyMap.statesEd25519_ofEd25519 _) (KeyMap.statesEd25519_ofEd25519 _)).2 _ _ hbase hnegative
    exact fun heq => absurd (hiff.1 heq) (by decide)
  case notPoint =>
    obtain ⟨h, -⟩ | ⟨-, hrefused⟩ := (hresult (x := 2 :: List.replicate 31 0) (by decide)).2.1 rfl
    · exact absurd h (by decide +kernel)
    · exact hrefused
  case short => exact (hresult (by decide)).2.2.1 (by decide) (by decide)
  case limit =>
    have h := hresult (x := List.replicate 65523 0)
    rw [hlength] at h
    exact (h (by decide)).2.2.1 (by decide) (by decide)
  case above =>
    have h := hresult (x := List.replicate 65524 0)
    rw [hlength] at h
    exact (h (by decide)).2.2.2 (by decide)

end Native

end KeyForms
