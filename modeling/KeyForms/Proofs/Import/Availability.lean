import KeyForms.Proofs.Import.Point

/-!
# Providers that are set up for some kinds of key

A native provider that is set up for some kinds of key only is the full one
with some of its answers withheld. On the kinds that it is set up for it gives
the answers of the full provider, and all other material it refuses as
unavailable, whatever that material is (`Native.submit_eq_guarded`). What is
done before the provider is asked does not depend on the set-up at all.
So two imports of one octet string have the same outcome, with the same
events, or differ in that refusal alone (`Native.importKey_of_kind`,
`Native.result_importKey_of_not_kind`).

The provider for keys on the 384-bit curve and no others is the case that is
spelled out (`Native.importKey_only_p384`).
-/

namespace KeyForms

namespace Native

variable {kinds : KeyKinds} {s : Octets} {material : Material}

/-- **The answer of a provider** is that of the full one, if it is set up for
the kind of the material. -/
theorem submit_eq_guarded (kinds : KeyKinds) (material : Material) :
    (provider kinds).submit material
      = guarded kinds material.kind ((provider .all).submit material) := by
  cases material <;> rfl

/-- **Octets without material** have one outcome, whatever the provider is set
up for. -/
theorem importKey_of_no_material {cause : KeyError} (h : Material.ofOctets s = .error cause) :
    importKey kinds s = .unusable (Event.reports s) cause := by
  rw [importKey_eq, h]

/-- **A kind that the provider is set up for** is imported as by the full
provider. -/
theorem importKey_of_kind (h : Material.ofOctets s = .ok material)
    (hkind : kinds material.kind = true) : importKey kinds s = importKey .all s := by
  rw [importKey_eq, importKey_eq, h]
  show Outcome.ofAnswer _ _ ((provider kinds).submit material) = _
  rw [submit_eq_guarded, guarded, if_pos hkind]

/-- **A kind that the provider is not set up for** is refused as that kind. -/
theorem result_importKey_of_not_kind (h : Material.ofOctets s = .ok material)
    (hkind : kinds material.kind = false) :
    (importKey kinds s).result
      = .error (.refused material.keyType (.unavailable material.kind)) := by
  rw [result_importKey, h]
  show Except.mapError _ ((provider kinds).submit material) = _
  rw [submit_eq_guarded, guarded, hkind]
  rfl

/-- **A key that is imported** is of a kind that the provider is set up for, and
the full provider imports it as well. -/
theorem result_importKey_all_of_ok {k : PublicKey} (h : (importKey kinds s).result = .ok k) :
    kinds k.kind = true ∧ (importKey .all s).result = .ok k := by
  obtain ⟨material, hmaterial, hanswer⟩ := exists_of_result_eq_ok h
  obtain ⟨hkind, heq⟩ := kind_of_submit_eq_ok hanswer
  rw [heq, ← importKey_of_kind hmaterial hkind]
  exact ⟨hkind, h⟩

/-- The answer to a subject info, if the provider is set up for its curve, is a
key with a point of the curve or says what is wrong with the subject info. -/
theorem submit_ec_of_kind {c : Curve} (hkind : kinds (.ec c) = true) (info : Octets) :
    (∃ point : c.Point, (provider kinds).submit (.ec c info) = .ok (.ec c point))
      ∨ ∃ reason, (provider kinds).submit (.ec c info) = .error (.info reason) := by
  show (∃ point : c.Point, guarded kinds (.ec c) _ = .ok (.ec c point))
    ∨ ∃ reason, guarded kinds (.ec c) _ = .error (.info reason)
  rw [guarded, if_pos hkind]
  cases Curve.Point.ofSubjectInfo c info with
  | ok point => exact Or.inl ⟨point, rfl⟩
  | error reason => exact Or.inr ⟨reason, rfl⟩

/-! ## One kind of key -/

/-- The names of all kinds of key but one. -/
theorem name_mem_of_ne_p384 {kind : KeyKind} (h : kind ≠ .ec .p384) :
    kind.name ∈ ["P-256", "P-521", "Ed25519", "RSA"] := by
  cases kind with
  | ec c =>
    cases c with
    | p256 => decide
    | p384 => exact absurd rfl h
    | p521 => decide
  | ed25519 => decide
  | rsa => decide

/-- **The provider for keys on the 384-bit curve and the full one.** Octets
without material have the same outcome with both, and so have octets with
material of that curve: a key with a point of it, or a refusal of a key with
two coordinates. All other material is refused by the first provider as
unavailable, with the type of the key and the name of its kind, whatever the
second one makes of it. So every key of the first provider is the one that the
full provider imports, on the curve and with the raw point that this has. -/
theorem importKey_only_p384 (s : Octets) :
    (∀ cause, Material.ofOctets s = .error cause →
      (importKey (.only (.ec .p384)) s).result = .error (.unusable cause)
        ∧ importKey .all s = importKey (.only (.ec .p384)) s)
      ∧ (∀ info, Material.ofOctets s = .ok (.ec .p384 info) →
        importKey .all s = importKey (.only (.ec .p384)) s
          ∧ ((∃ point : Curve.p384.Point,
              (importKey (.only (.ec .p384)) s).result = .ok (.ec .p384 point))
            ∨ ∃ reason, (importKey (.only (.ec .p384)) s).result
              = .error (.refused .ec2 (.info reason))))
      ∧ (∀ material, Material.ofOctets s = .ok material → material.kind ≠ .ec .p384 →
        (importKey (.only (.ec .p384)) s).result
            = .error (.refused material.keyType (.unavailable material.kind))
          ∧ ∃ name ∈ ["P-256", "P-521", "Ed25519", "RSA"],
            (Refusal.unavailable material.kind).message = name ++ " support is not enabled")
      ∧ ∀ k, (importKey (.only (.ec .p384)) s).result = .ok k →
        (importKey .all s).result = .ok k ∧ k.curve? = some .p384
          ∧ ∃ point : Curve.p384.Point, k = .ec .p384 point
            ∧ k.rawPoint = .ok (Curve.Point.uncompressedTag :: point.coordinates) := by
  have honly : KeyKinds.only (.ec .p384) (.ec .p384) = true := decide_eq_true rfl
  refine ⟨?_, ?_, ?_, ?_⟩
  · intro cause h
    rw [importKey_of_no_material h, importKey_of_no_material h]
    exact ⟨rfl, rfl⟩
  · intro info h
    refine ⟨(importKey_of_kind h honly).symm, ?_⟩
    simp only [result_importKey, h]
    obtain ⟨point, hpoint⟩ | ⟨reason, hreason⟩ := submit_ec_of_kind honly info
    · rw [hpoint]
      exact Or.inl ⟨point, rfl⟩
    · rw [hreason]
      exact Or.inr ⟨reason, rfl⟩
  · intro material h hkind
    refine ⟨result_importKey_of_not_kind h (decide_eq_false hkind), material.kind.name,
      name_mem_of_ne_p384 hkind, rfl⟩
  · intro k hk
    obtain ⟨hkind, hall⟩ := result_importKey_all_of_ok hk
    refine ⟨hall, ?_⟩
    cases k with
    | ec c point =>
      cases of_decide_eq_true hkind
      exact ⟨rfl, point, rfl, PublicKey.rawPoint_ec .p384 point⟩
    | ed25519 key => cases of_decide_eq_true hkind
    | rsa key => cases of_decide_eq_true hkind

/-- The base point of the 384-bit curve. -/
def base384 : Curve.p384.Point where
  x :=
    0xaa87ca22be8b05378eb1c71ef320ad746e1d3b628ba79b9859f741e082542a385502f25dbf55296c3a545e3872760ab7
  y :=
    0x3617de4a96262c6f5d9e98bf9292dc29f8f41dbd289a147ce9da3113b5f0b8c00a60b1ce1d7e819d7a431d7c90ea0e5f
  isPoint := by decide +kernel

/-- The key map of the base point of the 384-bit curve. -/
def keyMap384 : KeyMap :=
  .ofCoordinates .p384 (base384.coordinates.take 48) (base384.coordinates.drop 48)

/-- Octets that encode nothing, the base point of the 384-bit curve, and that of
the 256-bit curve. -/
theorem importKey_only_p384_base :
    importKey .all [] = importKey (.only (.ec .p384)) []
      ∧ (importKey (.only (.ec .p384)) keyMap384.encode).result = .ok (.ec .p384 base384)
      ∧ (importKey .all keyMap384.encode).result = .ok (.ec .p384 base384)
      ∧ importKey .all keyMap384.encode = importKey (.only (.ec .p384)) keyMap384.encode
      ∧ (importKey .all (cutBase 32).encode).result = .ok (.ec .p256 Curve.Point.base)
      ∧ (importKey (.only (.ec .p384)) (cutBase 32).encode).result
        = .error (.refused .ec2 (.unavailable (.ec .p256))) := by
  have honly : KeyKinds.only (.ec .p384) (.ec .p384) = true := decide_eq_true rfl
  have h384 : (importKey (.only (.ec .p384)) keyMap384.encode).result = .ok (.ec .p384 base384) :=
    result_importKey_of_cut honly (List.take_append_drop 48 _).symm
  have h256 : (importKey .all (cutBase 32).encode).result = .ok (.ec .p256 Curve.Point.base) :=
    result_importKey_of_cut (KeyKinds.all_apply (.ec .p256)) (List.take_append_drop 32 _).symm
  obtain ⟨m384, hm384, hanswer384⟩ := exists_of_result_eq_ok h384
  obtain ⟨-, info, rfl⟩ := exists_of_submit_eq_ok_ec hanswer384
  obtain ⟨m256, hm256, hanswer256⟩ := exists_of_result_eq_ok h256
  obtain ⟨-, info', rfl⟩ := exists_of_submit_eq_ok_ec hanswer256
  obtain ⟨hnone, -, -, -⟩ := importKey_only_p384 []
  obtain ⟨-, hsame, -, hkey⟩ := importKey_only_p384 keyMap384.encode
  obtain ⟨-, -, hother, -⟩ := importKey_only_p384 (cutBase 32).encode
  have hkind : (Material.ec .p256 info').kind ≠ .ec .p384 := by
    rintro ⟨⟩
  exact ⟨(hnone _ rfl).2, h384, (hkey _ h384).1, (hsame info hm384).1, h256,
    (hother _ hm256 hkind).1⟩

end Native

end KeyForms
