import KeyForms.Import
import KeyForms.Proofs.SubjectInfo.RoundTrip

/-!
# Importing with the native provider

The result of an import is told by two steps: the material that the octets
have, and the answer to it (`Native.result_importKey`). What the import
reports on the way has no part in it. This module says what the answer is. A
point is imported exactly when it is read back from the raw form that was
written into its subject info (`Native.submit_ec`), and an Ed25519 key when its
octets are one (`Native.submit_ed25519`). Every key is of the kind of its
material (`Native.kind_of_submit_eq_ok`), so a key with a point comes from
nowhere else.
-/

namespace KeyForms

@[simp] theorem KeyKinds.all_apply (kind : KeyKind) : all kind = true := rfl

namespace Native

variable {kinds : KeyKinds} {s : Octets}

/-- **The outcome of an import**: there is no material, or it is made of the
answer. -/
theorem importKey_eq (kinds : KeyKinds) (s : Octets) :
    importKey kinds s = match Material.ofOctets s with
      | .error cause => .unusable (Event.reports s) cause
      | .ok material =>
        .ofAnswer (Event.reports s) material.keyType ((provider kinds).submit material) :=
  (provider kinds).importKey_eq s

/-- **The result of an import**: there is no material, or the answer to it is
the result. -/
theorem result_importKey (kinds : KeyKinds) (s : Octets) :
    (importKey kinds s).result = match Material.ofOctets s with
      | .error cause => .error (.unusable cause)
      | .ok material =>
        Except.mapError (.refused material.keyType) ((provider kinds).submit material) := by
  rw [importKey_eq]
  cases Material.ofOctets s with
  | error cause => rfl
  | ok material => exact Outcome.result_ofAnswer _ material.keyType _

/-- **A key that is imported** is the answer to the material of the octets. -/
theorem exists_of_result_eq_ok {key : PublicKey} (h : (importKey kinds s).result = .ok key) :
    ∃ material, Material.ofOctets s = .ok material
      ∧ (provider kinds).submit material = .ok key := by
  rw [result_importKey] at h
  cases hmaterial : Material.ofOctets s with
  | error cause =>
    rw [hmaterial] at h
    cases h
  | ok material =>
    rw [hmaterial] at h
    exact ⟨material, rfl, mapError_eq_ok_iff.1 h⟩

/-- An answer is given when the provider is set up for it. -/
theorem guarded_eq_ok_iff {kind : KeyKind} {answer : Except Refusal PublicKey} {k : PublicKey} :
    guarded kinds kind answer = .ok k ↔ kinds kind = true ∧ answer = .ok k := by
  rw [guarded]
  split
  · exact (and_iff_right ‹_›).symm
  · constructor
    · intro h
      cases h
    · rintro ⟨hkind, -⟩
      contradiction

/-- **A key is of the kind of the material that it answers**, and the provider
is set up for that kind. -/
theorem kind_of_submit_eq_ok {material : Material} {k : PublicKey}
    (h : (provider kinds).submit material = .ok k) :
    kinds material.kind = true ∧ k.kind = material.kind := by
  cases material with
  | ec c info =>
    obtain ⟨hkind, h⟩ := guarded_eq_ok_iff.1 h
    refine ⟨hkind, ?_⟩
    split at h <;> cases h
    rfl
  | ed25519 info =>
    obtain ⟨hkind, h⟩ := guarded_eq_ok_iff.1 h
    refine ⟨hkind, ?_⟩
    split at h <;> cases h
    rfl
  | rsa modulus exponent =>
    obtain ⟨hkind, h⟩ := guarded_eq_ok_iff.1 h
    refine ⟨hkind, ?_⟩
    split at h <;> cases h
    rfl

/-! ## Points -/

/-- **The answer to the material of a point**: the point that its raw form
is, if it is one. -/
theorem submit_ec {c : Curve} {x y info : Octets} (hkind : kinds (.ec c) = true)
    (h : c.subjectInfo x y = .ok info) :
    (provider kinds).submit (.ec c info)
      = match Curve.Point.ofOctets? c (RawPoint.ofCoordinates x y) with
        | some point => .ok (.ec c point)
        | none => .error (.info .notPoint) := by
  show guarded kinds (.ec c) _ = _
  rw [guarded, if_pos hkind, Curve.Point.ofSubjectInfo_of_curve h]
  cases Curve.Point.ofOctets? c (RawPoint.ofCoordinates x y) with
  | none => rfl
  | some point => rfl

/-- **A key with a point answers material of its curve**, and the provider is
set up for that. -/
theorem exists_of_submit_eq_ok_ec {material : Material} {c : Curve} {point : c.Point}
    (h : (provider kinds).submit material = .ok (.ec c point)) :
    kinds (.ec c) = true ∧ ∃ info, material = .ec c info := by
  obtain ⟨hkind, heq⟩ := kind_of_submit_eq_ok h
  rw [← heq] at hkind
  refine ⟨hkind, ?_⟩
  cases material with
  | ec curve info =>
    cases heq
    exact ⟨info, rfl⟩
  | ed25519 info => cases heq
  | rsa modulus exponent => cases heq

/-! ## Ed25519 keys -/

/-- **The answer to the material of an Ed25519 key**: its octets, if they are
a key. -/
theorem submit_ed25519 {x info : Octets} (hkind : kinds .ed25519 = true)
    (h : Ed25519.subjectInfo x = .ok info) :
    (provider kinds).submit (.ed25519 info)
      = match Ed25519.Key.ofOctets? x with
        | some key => .ok (.ed25519 key)
        | none => .error (.info .notKey) := by
  show guarded kinds .ed25519 _ = _
  rw [guarded, if_pos hkind, Ed25519.Key.ofSubjectInfo_of_ed25519 h]
  cases Ed25519.Key.ofOctets? x with
  | none => rfl
  | some key => rfl

end Native

end KeyForms
