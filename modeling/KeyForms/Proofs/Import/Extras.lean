import KeyForms.Proofs.Import.Native
import KeyForms.Proofs.KeyMap.Extras
import KeyForms.Proofs.KeyMap.StatedPoint

/-!
# Importing with extra pairs

An import looks at four labels: the key type, the curve, and the two
coordinates. An RSA key has its numbers under two of these labels, and a key
that has no second coordinate is not asked for one. Key maps that agree on the
labels that decide (`KeyMap.IsDecidedBy`) have the same material, or none for
the same reason (`Material.ofKeyMap_eq_of_agreesOn`), and since a provider is
given material and nothing else, importing them has the same result
(`Provider.map_result_importKeyMap`).

So whatever else a map has is of no influence, wherever it stands
(`Provider.import_of_extras`). That includes a stated algorithm, which is not
looked at, and the second coordinate of a key that has but one.

The provider may keep a state. The statements are about computations in its
monad, so the state is the same afterwards, too.
-/

namespace KeyForms

/-! ## Fields are read by their labels -/

namespace KeyMap

variable {a b : KeyMap} {labels : List Int64}

theorem AgreesOn.integer_eq {label : Int64} (h : a.AgreesOn labels b) (hlabel : label ∈ labels) :
    a.integer label = b.integer label := by
  rw [integer, integer, h label hlabel]

theorem AgreesOn.octets_eq {label : Int64} (h : a.AgreesOn labels b) (hlabel : label ∈ labels) :
    a.octets label = b.octets label := by
  rw [octets, octets, h label hlabel]

/-- **The labels that decide** what becomes of a key map: those of the kind and
those of the key. The second coordinate is not among them if the type of the key
is one without. -/
inductive IsDecidedBy (key : KeyMap) : List Int64 → Prop where
  /-- All labels that any key is read from. -/
  | all : IsDecidedBy key [Label.keyType, Label.curve, Label.x, Label.y]
  /-- The labels that keys of the other two types are read from. -/
  | withoutY {keyType : KeyType} (hne : keyType ≠ .ec2)
    (h : key.get? Label.keyType = some (.integer keyType.id)) :
    IsDecidedBy key [Label.keyType, Label.curve, Label.x]

end KeyMap

namespace KeyKind

variable {a b : KeyMap}

/-- The labels under which a key of a kind stands, next to those that tell the
kind. -/
def labels : KeyKind → List Int64
  | ec _ => [Label.x, Label.y]
  | ed25519 => [Label.x]
  | rsa => [Label.modulus, Label.exponent]

/-- **The kind of a key is told by two labels.** -/
theorem ofKeyMap_eq_of_agreesOn (h : a.AgreesOn [Label.keyType, Label.curve] b) :
    ofKeyMap a = ofKeyMap b := by
  have htype : a.integer Label.keyType = b.integer Label.keyType := h.integer_eq (by decide)
  have hcurve : a.integer Label.curve = b.integer Label.curve := h.integer_eq (by decide)
  unfold ofKeyMap KeyMap.keyTypeId
  rw [htype, hcurve]

end KeyKind

/-- Key types have different numbers. -/
theorem KeyType.id_inj {t t' : KeyType} : t.id = t'.id ↔ t = t' := by
  cases t <;> cases t' <;> decide

namespace KeyMap.IsDecidedBy

variable {key : KeyMap} {labels : List Int64}

/-- The labels that tell the kind decide. -/
theorem kind_subset (h : key.IsDecidedBy labels) : [Label.keyType, Label.curve] ⊆ labels := by
  cases h with
  | all => decide
  | withoutY => decide

/-- **The labels of a key decide**, once its kind is known. -/
theorem labels_subset {kind : KeyKind} (h : key.IsDecidedBy labels)
    (hkind : KeyKind.ofKeyMap key = .ok kind) : kind.labels ⊆ labels := by
  have htype := (KeyKind.ofKeyMap_eq_ok_iff.1 hkind).1
  cases kind with
  | ec c =>
    show [Label.x, Label.y] ⊆ labels
    cases h with
    | all => decide
    | @withoutY keyType hne h =>
      -- the key map states two coordinates
      rw [h, Option.some.injEq, Parameter.integer.injEq] at htype
      exact absurd (KeyType.id_inj.1 htype) hne
  | ed25519 => cases h <;> decide
  | rsa => cases h <;> decide

end KeyMap.IsDecidedBy

/-! ## Material -/

namespace Material

variable {a b : KeyMap}

/-- The fields of a key of a known kind are read by the labels of the kind. -/
theorem ofFields_eq_of_agreesOn {kind : KeyKind} (h : a.AgreesOn kind.labels b) :
    ofFields a kind = ofFields b kind := by
  cases kind with
  | ec c =>
    have hx : a.octets Label.x = b.octets Label.x := h.octets_eq (.head _)
    have hy : a.octets Label.y = b.octets Label.y := h.octets_eq (.tail _ (.head _))
    unfold ofFields
    rw [hx, hy]
  | ed25519 =>
    have hx : a.octets Label.x = b.octets Label.x := h.octets_eq (.head _)
    unfold ofFields
    rw [hx]
  | rsa =>
    have hmodulus : a.octets Label.modulus = b.octets Label.modulus := h.octets_eq (.head _)
    have hexponent : a.octets Label.exponent = b.octets Label.exponent :=
      h.octets_eq (.tail _ (.head _))
    unfold ofFields
    rw [hmodulus, hexponent]

/-- **The labels that decide tell the material**, or why there is none. -/
theorem ofKeyMap_eq_of_agreesOn {labels : List Int64} (hlabels : a.IsDecidedBy labels)
    (h : a.AgreesOn labels b) : ofKeyMap b = ofKeyMap a := by
  have hkind : KeyKind.ofKeyMap b = KeyKind.ofKeyMap a :=
    (KeyKind.ofKeyMap_eq_of_agreesOn fun label hlabel =>
      h label (hlabels.kind_subset hlabel)).symm
  unfold ofKeyMap
  rw [hkind]
  cases hkind' : KeyKind.ofKeyMap a with
  | error cause => rfl
  | ok kind =>
    exact (ofFields_eq_of_agreesOn fun label hlabel =>
      h label (hlabels.labels_subset hkind' hlabel)).symm

/-- **Material is made as it was without extra pairs.** -/
theorem ofKeyMap_of_extras {labels : List Int64} {pairs extras all : List (Cbor.Item × Cbor.Item)}
    (hlabels : ∀ key, KeyMap.ofPairs pairs = .ok key → key.IsDecidedBy labels)
    (hextras : KeyMap.AreExtra labels pairs extras) (hall : Interleaved pairs extras all) :
    (KeyMap.ofPairs all >>= ofKeyMap) = (KeyMap.ofPairs pairs >>= ofKeyMap) := by
  rcases KeyMap.ofPairs_of_extras hextras hall with
    ⟨error, hpairs, hall'⟩ | ⟨key, key', hpairs, hall', h⟩
  · rw [hpairs, hall']
  · rw [hpairs, hall']
    exact ofKeyMap_eq_of_agreesOn (hlabels key hpairs) h

/-- The second coordinate of a key of a type without one is not looked at. -/
theorem ofKeyMap_eq_of_ne_ec2 {keyType : KeyType} (hne : keyType ≠ .ec2)
    (htype : a.get? Label.keyType = some (.integer keyType.id))
    (h : ∀ label, label ≠ Label.y → b.get? label = a.get? label) : ofKeyMap b = ofKeyMap a := by
  refine ofKeyMap_eq_of_agreesOn (.withoutY hne htype) fun label hlabel => (h label ?_).symm
  rintro rfl
  exact absurd hlabel (by decide)

end Material

/-! ## Imports -/

namespace Provider

variable {m : Type → Type} [Monad m] [LawfulMonad m] {ε κ : Type}

/-- **The result for material**, if there is some: the answer to it. -/
def resultFor (provider : Provider m ε κ) :
    Except KeyError Material → m (Except (ImportError ε) κ)
  | .error cause => pure (.error (.unusable cause))
  | .ok material => Except.mapError (.refused material.keyType) <$> provider.submit material

/-- Events have no part in a result. -/
theorem map_result_ofAnswer (provider : Provider m ε κ) (events : List (Event ε))
    (material : Material) :
    Outcome.result <$> (Outcome.ofAnswer events material.keyType <$> provider.submit material)
      = provider.resultFor (.ok material) := by
  rw [← comp_map]
  show (fun answer => (Outcome.ofAnswer events material.keyType answer).result) <$> _ = _
  rw [funext (Outcome.result_ofAnswer events material.keyType)]
  rfl

/-- **The result of importing a key map** is that for its material. -/
theorem map_result_importKeyMap (provider : Provider m ε κ) (events : List (Event ε))
    (key : KeyMap) :
    Outcome.result <$> provider.importKeyMap events key
      = provider.resultFor (Material.ofKeyMap key) := by
  rw [importKeyMap_eq]
  cases Material.ofKeyMap key with
  | error cause => exact map_pure _ _
  | ok material => exact provider.map_result_ofAnswer _ material

/-- **The result of an import** is that for the material of the octets. -/
theorem map_result_importKey (provider : Provider m ε κ) (s : Octets) :
    Outcome.result <$> provider.importKey s = provider.resultFor (Material.ofOctets s) := by
  rw [importKey_eq]
  cases Material.ofOctets s with
  | error cause => exact map_pure _ _
  | ok material => exact provider.map_result_ofAnswer _ material

open KeyMap in
/-- **An import is blind to everything but its fields.** Whatever extra pairs are
put among the pairs of a map, and wherever, there is the same error from reading
it or there is a key map as before; the key map has the same material, or none
for the same reason; and importing it has the same result, and so has importing
octets with these pairs. Extra pairs are skipped ones of any kind, and kept ones
with new labels that do not decide. The second coordinate is such a label for
the two types of key without one, so key maps of these types that differ in
nothing else are imported alike. -/
theorem import_of_extras (provider : Provider m ε κ) :
    (∀ (labels : List Int64) (pairs extras all : List (Cbor.Item × Cbor.Item)),
      (∀ key, ofPairs pairs = .ok key → key.IsDecidedBy labels) → AreExtra labels pairs extras →
      Interleaved pairs extras all →
        (∀ error, ofPairs all = .error error ↔ ofPairs pairs = .error error)
          ∧ (∀ key key', ofPairs pairs = .ok key → ofPairs all = .ok key' →
            Material.ofKeyMap key' = Material.ofKeyMap key
              ∧ Outcome.result <$> provider.importKeyMap [] key'
                = Outcome.result <$> provider.importKeyMap [] key)
          ∧ ∀ s t, pairsOf s = .ok pairs → pairsOf t = .ok all →
            Material.ofOctets t = Material.ofOctets s
              ∧ Outcome.result <$> provider.importKey t = Outcome.result <$> provider.importKey s)
      ∧ ∀ (keyType : KeyType) (key key' : KeyMap), keyType ≠ .ec2 →
        key.get? Label.keyType = some (.integer keyType.id) →
        (∀ label, label ≠ Label.y → key'.get? label = key.get? label) →
          Material.ofKeyMap key' = Material.ofKeyMap key
            ∧ Outcome.result <$> provider.importKeyMap [] key'
              = Outcome.result <$> provider.importKeyMap [] key := by
  constructor
  · intro labels pairs extras all hlabels hextras hall
    have hmaterial := Material.ofKeyMap_of_extras hlabels hextras hall
    refine ⟨fun error => ofPairs_eq_error_iff_of_extras hextras hall, ?keyMaps, ?octets⟩
    case keyMaps =>
      intro key key' hkey hkey'
      rw [hkey, hkey'] at hmaterial
      have heq : Material.ofKeyMap key' = Material.ofKeyMap key := hmaterial
      rw [map_result_importKeyMap, map_result_importKeyMap, heq]
      exact ⟨rfl, rfl⟩
    case octets =>
      intro s t hs ht
      rw [← decode_eq_ofPairs hs, ← decode_eq_ofPairs ht] at hmaterial
      have heq : Material.ofOctets t = Material.ofOctets s := hmaterial
      rw [map_result_importKey, map_result_importKey, heq]
      exact ⟨rfl, rfl⟩
  · intro keyType key key' hne htype h
    rw [map_result_importKeyMap, map_result_importKeyMap,
      Material.ofKeyMap_eq_of_ne_ec2 hne htype h]
    exact ⟨rfl, rfl⟩

/-- An RSA key among pairs that do not matter: a second key type that is no
number, a text for a label, an algorithm that is not known, and a second
coordinate. A point without a second coordinate, which a text does not give it.
And an Ed25519 key map whose second coordinate is replaced. -/
theorem import_of_extras_mixed :
    (∃ key, (Native.importKey .all [0xa3, 0x01, 0x03, 0x20, 0x41, 0x0f, 0x21, 0x41, 0x03]).result
        = .ok (.rsa key)
      ∧ (Native.importKey .all [0xa7, 0x01, 0x80, 0x01, 0x03, 0x60, 0x00, 0x20, 0x41, 0x0f,
        0x03, 0x18, 0x63, 0x21, 0x41, 0x03, 0x22, 0x07]).result = .ok (.rsa key))
      ∧ (Native.importKey .all [0xa3, 0x01, 0x02, 0x20, 0x01, 0x21, 0x40]).result
        = .error (.unusable (.malformed (.missing Label.y)))
      ∧ (Native.importKey .all [0xa4, 0x01, 0x02, 0x20, 0x01, 0x22, 0x60, 0x21, 0x40]).result
        = .error (.unusable (.malformed (.missing Label.y)))
      ∧ ∃ key, KeyMap.decode [0xa2, 0x01, 0x01, 0x22, 0x40] = .ok key
        ∧ (Native.importKeyMap .all (key.insert Label.y (.integer 7))).result
          = (Native.importKeyMap .all key).result := by
  obtain ⟨hextras, hwithoutY⟩ := (Native.provider .all).import_of_extras
  refine ⟨?_, ?_⟩
  · have hdecided : ∀ key, KeyMap.ofPairs [(.integer 1, .integer 3),
        (.integer (-1), .string .octets [0x0f]), (.integer (-2), .string .octets [0x03])]
          = .ok key → key.IsDecidedBy [Label.keyType, Label.curve, Label.x] := by
      rintro _ ⟨⟩
      have hne : KeyType.rsa ≠ .ec2 := by decide
      exact .withoutY hne rfl
    obtain ⟨-, -, hoctets⟩ := hextras _ _
      [(.integer 1, .array []), (.string .text [], .integer 0), (.integer 3, .integer 99),
        (.integer (-3), .integer 7)] _ hdecided (by decide)
      (.right _ (.left _ (.right _ (.left _ (.right _ (.left _ (.right _ .nil)))))))
    obtain ⟨-, hresult⟩ := hoctets [0xa3, 0x01, 0x03, 0x20, 0x41, 0x0f, 0x21, 0x41, 0x03]
      [0xa7, 0x01, 0x80, 0x01, 0x03, 0x60, 0x00, 0x20, 0x41, 0x0f, 0x03, 0x18, 0x63, 0x21, 0x41,
        0x03, 0x22, 0x07] rfl rfl
    have hkey : (Native.importKey .all
        [0xa3, 0x01, 0x03, 0x20, 0x41, 0x0f, 0x21, 0x41, 0x03]).result
        = .ok (.rsa ⟨.ofOctets [0x0f], .ofOctets [0x03], by decide⟩) := by decide +kernel
    exact ⟨_, hkey, hresult.trans hkey⟩
  · obtain ⟨-, -, hoctets⟩ := hextras _
      [(.integer 1, .integer 2), (.integer (-1), .integer 1), (.integer (-2), .string .octets [])]
      [(.integer (-3), .string .text [])] _ (fun _ _ => .all) (by decide)
      (.left _ (.left _ (.right _ (.left _ .nil))))
    obtain ⟨-, hresult⟩ := hoctets [0xa3, 0x01, 0x02, 0x20, 0x01, 0x21, 0x40]
      [0xa4, 0x01, 0x02, 0x20, 0x01, 0x22, 0x60, 0x21, 0x40] rfl rfl
    have herror : (Native.importKey .all [0xa3, 0x01, 0x02, 0x20, 0x01, 0x21, 0x40]).result
        = .error (.unusable (.malformed (.missing Label.y))) := by decide +kernel
    refine ⟨herror, hresult.trans herror, _, rfl, ?_⟩
    have hne : KeyType.okp ≠ .ec2 := by decide
    refine (hwithoutY _ _ _ hne rfl fun label hlabel => ?_).2
    rw [KeyMap.get?_insert, if_neg hlabel]

end Provider

end KeyForms
